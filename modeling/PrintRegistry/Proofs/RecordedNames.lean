import PrintRegistry.Proofs.Locality
import PrintRegistry.Proofs.Text

/-!
The names that records of attributes leave behind. After any run of records the paths of names
down the attributes are those that the records name, and no others. A record of an attribute with
a qualified name leaves nothing behind, and the extension marker is taken off the name of a
member, but any other qualifier of a member or of a submember stays a part of its name.
-/

namespace PrintRegistry

section Nests

variable {ms : List Entity} {name : String} {path : List String}

theorem nests_empty_iff : Nests Entity.members [] path ↔ path = [] := by
  cases path with
  | nil => exact ⟨fun _ => rfl, fun _ => nests_nil _ _⟩
  | cons name path =>
    constructor
    · rintro ⟨m, member, -⟩
      cases member
    · intro same
      cases same

theorem nests_or_nil_iff :
    Nests Entity.members ms path ∨ path = [] ↔ Nests Entity.members ms path := by
  refine or_iff_left_of_imp ?_
  rintro rfl
  exact nests_nil _ _

theorem nests_cons_iff (distinct : (Named.names ms).Nodup) :
    Nests Entity.members ms (name :: path) ↔
      ∃ m, Named.find? ms name = some m ∧ Nests Entity.members m.members path := by
  constructor
  · rintro ⟨m, member, named, inner⟩
    exact ⟨m, named ▸ Named.find?_of_mem distinct member, inner⟩
  · rintro ⟨m, found, inner⟩
    obtain ⟨member, named⟩ := Named.mem_of_find? found
    exact ⟨m, member, named, inner⟩

/-- The names of what is inside an entity are those on the paths down from it. -/
theorem exists_inside_iff : (∃ m : Entity, m.Inside ms ∧ m.name = name) ↔
    ∃ path, Nests Entity.members ms path ∧ name ∈ path := by
  constructor
  · rintro ⟨m, inside, rfl⟩
    induction inside with
    | here member => exact ⟨[m.name], ⟨m, member, rfl, nests_nil _ _⟩, List.mem_singleton.mpr rfl⟩
    | deeper member _ ih =>
      obtain ⟨path, nested, listed⟩ := ih
      exact ⟨_ :: path, ⟨_, member, rfl, nested⟩, List.mem_cons_of_mem _ listed⟩
  · rintro ⟨path, nested, listed⟩
    induction path generalizing ms with
    | nil => cases listed
    | cons first path ih =>
      obtain ⟨m, member, named, inner⟩ := nested
      rcases List.mem_cons.mp listed with same | later
      · exact ⟨m, .here member, named.trans same.symm⟩
      · obtain ⟨x, inside, called⟩ := ih inner later
        exact ⟨x, .deeper member inside, called⟩

/-- Below the entry found under a name, or below a fresh one. -/
theorem nests_found_iff {fresh : Entity} (bare : fresh.members = []) :
    Nests Entity.members ((Named.find? ms name).getD fresh).members path ↔
      (∃ old, Named.find? ms name = some old ∧ Nests Entity.members old.members path) ∨
        path = [] := by
  cases found : Named.find? ms name with
  | none => simp [bare, nests_empty_iff]
  | some old => simp [nests_or_nil_iff]

/-- Putting a member in again, with some names added below it, adds these names and its own. -/
theorem nests_put_iff (distinct : (Named.names ms).Nodup) {m : Entity} (named : m.name = name)
    {below : List String} (enters : ∀ path, Nests Entity.members m.members path ↔
      (∃ old, Named.find? ms name = some old ∧ Nests Entity.members old.members path) ∨
        path <+: below) :
    Nests Entity.members (Named.put ms m) path ↔
      Nests Entity.members ms path ∨ path <+: name :: below := by
  subst named
  cases path with
  | nil => exact iff_of_true (nests_nil _ _) (Or.inl (nests_nil _ _))
  | cons first rest =>
    rw [nests_cons_iff (Named.nodup_names_put distinct m), nests_cons_iff distinct,
      List.cons_prefix_cons, Named.find?_put]
    by_cases here : m.name = first
    · subst here
      simp only [nameOf, if_true, Option.some.injEq, exists_eq_left', true_and]
      exact enters rest
    · have other : ¬ first = m.name := Ne.symm here
      simp only [nameOf, here, other, if_false, false_and, or_false]

end Nests

namespace AttributeRecord

/-- Entering a record into a member adds the submember that the record names, and nothing else. -/
theorem nests_enterMember_iff (r : AttributeRecord) (spec : Option String) {m : Entity}
    (distinct : (Named.names m.members).Nodup) {path : List String} :
    Nests Entity.members (r.enterMember spec m).1.members path ↔
      Nests Entity.members m.members path ∨ path <+: r.submemberPath := by
  rcases (r.enterMember_cases spec m).2 with ⟨none, same⟩ | ⟨name, names, put⟩
  · rw [same, none, List.prefix_nil]
    exact nests_or_nil_iff.symm
  · rw [put, names]
    refine nests_put_iff distinct ((name_citingAny _ spec).trans (name_found name r.grammar)) ?_
    intro path
    rw [members_citingAny, List.prefix_nil]
    exact nests_found_iff rfl

/-- Entering a record into an attribute adds the names that the record gives, and no others. -/
theorem nests_enter_iff (r : AttributeRecord) (spec : Option String) {e : Entity}
    (distinct : e.Distinct) {path : List String} :
    Nests Entity.members (r.enter spec e).1.members path ↔
      Nests Entity.members e.members path ∨ path <+: r.path := by
  rcases (r.enter_cases spec e).2 with ⟨none, same⟩ | ⟨name, names, put⟩
  · rw [same, none, List.prefix_nil]
    exact nests_or_nil_iff.symm
  · rw [put, names]
    refine nests_put_iff distinct.names
      ((r.enterMember_cases spec _).1.trans (name_found name r.grammar)) ?_
    intro path
    have inner : (Named.names ((Named.find? e.members name).getD
        (freshMember name r.grammar)).members).Nodup := by
      cases found : Named.find? e.members name with
      | none => exact List.nodup_nil
      | some m => exact (distinct.members (Named.mem_of_find? found).1).names
    rw [r.nests_enterMember_iff spec inner, nests_found_iff rfl, or_assoc]
    refine or_congr_right (or_iff_right_of_imp ?_)
    rintro rfl
    exact List.nil_prefix

end AttributeRecord

namespace Registry

/-- A family has an attribute of a name, and a path of names leads down from it. -/
def Lists (r : Registry) (family name : String) (path : List String) : Prop :=
  ∃ e, r.attribute? family name = some e ∧ Nests Entity.members e.members path

/-- No attribute has a qualified name, and nothing inside one has. -/
def NamesPlain (r : Registry) : Prop :=
  ∀ e ∈ r.allAttributes, ∀ x : Entity, x = e ∨ x.Inside e.members → isQualified x.name = false

theorem namesPlain_iff {r : Registry} : r.NamesPlain ↔
    ∀ family name path, r.Lists family name path → ∀ n ∈ name :: path, isQualified n = false := by
  constructor
  · rintro plain family name path ⟨e, known, nested⟩ n listed
    have member : e ∈ r.allAttributes :=
      List.mem_map.mpr ⟨_, mem_attributes_of_attribute? known, rfl⟩
    rcases List.mem_cons.mp listed with rfl | below
    · exact name_of_attribute? known ▸ plain e member e (Or.inl rfl)
    · obtain ⟨m, inside, rfl⟩ := exists_inside_iff.mpr ⟨path, nested, below⟩
      exact plain e member m (Or.inr inside)
  · intro plain e member x within
    obtain ⟨⟨family, _⟩, listed, rfl⟩ := List.mem_map.mp member
    have known := mem_attributes_iff.mp listed
    rcases within with rfl | inside
    · exact plain family _ [] ⟨_, known, nests_nil _ _⟩ _ List.mem_cons_self
    · obtain ⟨path, nested, below⟩ := exists_inside_iff.mp ⟨x, inside, rfl⟩
      exact plain family _ path ⟨_, known, nested⟩ _ (List.mem_cons_of_mem _ below)

/-- The names below an attribute are those that its records give. -/
theorem lists_foldl_ingestAttribute (records : List AttributeRecord) (family name : String)
    (path : List String) : (records.foldl ingestAttribute {}).Lists family name path ↔
      ∃ a ∈ records, a.isOf family name = true ∧ path <+: a.path := by
  have listed : ∀ a, a ∈ records.filter (·.isOf family name) ↔
      a ∈ records ∧ a.isOf family name = true := fun a => List.mem_filter
  simp only [Lists, attribute?_foldl_ingestAttribute records (r := {}) rfl, ← and_assoc, ← listed]
  by_cases none : records.filter (·.isOf family name) = []
  · simp [none, entryOf]
  · obtain ⟨e, made, -, nested⟩ := entryOf_induction AttributeRecord.toValue
      (motive := fun as e => e.Distinct ∧ ∀ path, Nests Entity.members e.members path ↔
        path = [] ∨ ∃ a ∈ as, path <+: a.path) none
      (fun a _ => ⟨Entity.Distinct.ofNoMembers rfl, fun path =>
        nests_empty_iff.trans (by simp)⟩)
      fun before e a _ holds => by
        obtain ⟨distinct, nested⟩ := holds
        rw [a.enter_toValue]
        refine ⟨a.distinct_enter _ distinct, fun path => ?_⟩
        rw [a.nests_enter_iff _ distinct, nested, or_assoc]
        simp only [List.mem_append, List.mem_singleton, or_and_right, exists_or, exists_eq_left]
    obtain ⟨a, own⟩ := List.exists_mem_of_ne_nil _ none
    rw [made]
    simp only [Option.some.injEq, exists_eq_left', nested]
    refine or_iff_right_of_imp ?_
    rintro rfl
    exact ⟨a, own, List.nil_prefix⟩

/-- What records of attributes leave behind. The names are those that records of attributes with
unqualified names give, so that none is qualified unless such a record gives a qualified name
to a member or to a submember. Other records change nothing, and a member has its name without
the extension marker. -/
theorem names_of_records (records : List AttributeRecord) :
    (∀ family name path, (records.foldl ingestAttribute {}).Lists family name path ↔
      ∃ a ∈ records, (isQualified a.name = false ∧ a.family = family ∧ a.name = name) ∧
        path <+: a.path) ∧
    ((records.foldl ingestAttribute {}).NamesPlain ↔
      ∀ a ∈ records, isQualified a.name = false → ∀ n ∈ a.path, isQualified n = false) ∧
    (∀ a r, isQualified a.name = true → ingestAttribute r a = r) ∧
    ∀ bare, AttributeRecord.memberName (bare ++ AttributeRecord.extensionMarker) =
      Text.trimmed bare := by
  have lists : ∀ family name path, (records.foldl ingestAttribute {}).Lists family name path ↔
      ∃ a ∈ records, (isQualified a.name = false ∧ a.family = family ∧ a.name = name) ∧
        path <+: a.path := by
    intro family name path
    simp only [lists_foldl_ingestAttribute, AttributeRecord.isOf_iff]
  refine ⟨lists, ?_, fun a r qualified => ingestAttribute_qualified r qualified, fun bare => ?_⟩
  · rw [namesPlain_iff]
    constructor
    · intro plain a member unqualified n listed
      exact plain a.family a.name a.path
        ((lists _ _ _).mpr ⟨a, member, ⟨unqualified, rfl, rfl⟩, List.prefix_rfl⟩) n
        (List.mem_cons_of_mem _ listed)
    · intro plain family name path listed n member
      obtain ⟨a, known, ⟨unqualified, -, rfl⟩, sub⟩ := (lists family name path).mp listed
      rcases List.mem_cons.mp member with rfl | below
      · exact unqualified
      · exact plain a known unqualified n (sub.subset below)
  · rw [AttributeRecord.memberName, Text.withoutEnding?_append, Option.getD_some]

/-- An attribute and a member of it that is not in use any more. -/
def deprecatedKey : List AttributeRecord :=
  [{ family := "Job Template", name := "media-col", grammar := some "collection" },
   { family := "Job Template", name := "media-col", member := some "media-key(deprecated)",
     grammar := some "keyword" }]

/-- The name of a member is recorded with its qualifier. -/
theorem not_namesPlain : ¬ ∀ records : List AttributeRecord,
    (records.foldl ingestAttribute {}).NamesPlain := by
  intro claimed
  have given : ∃ a ∈ deprecatedKey, a.isOf "Job Template" "media-col" = true ∧
      ["media-key(deprecated)"] <+: a.path := by
    refine ⟨_, List.mem_cons_of_mem _ List.mem_cons_self, by decide, ?_⟩
    decide
  have listed := (lists_foldl_ingestAttribute deprecatedKey _ _ _).mpr given
  have plain := namesPlain_iff.mp (claimed deprecatedKey) _ _ _ listed "media-key(deprecated)"
    (List.mem_cons_of_mem _ List.mem_cons_self)
  exact absurd plain (by decide)

end Registry

end PrintRegistry
