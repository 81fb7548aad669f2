import PrintRegistry.Proofs.Agreement

/-!
What declaring the same pays heed to. An entity is restated when its members and values are put
in another order, at any depth, and when anything but its name, its grammar, its reference and
whether it could be read is changed about it or about its members. Entities declare the same
exactly if one restates the other, so restating both makes no difference to whether they do.
-/

namespace PrintRegistry

namespace Values

/-- The same values in another order. -/
inductive Reordered : Values → Values → Prop where
  | unlisted : Reordered unlisted unlisted
  | codes {xs ys : List EnumCode} (order : xs.Perm ys) : Reordered (codes xs) (codes ys)
  | words {xs ys : List String} (order : xs.Perm ys) : Reordered (words xs) (words ys)

variable {v w : Values}

theorem Reordered.distinct (h : v.Reordered w) (distinct : v.Distinct) : w.Distinct := by
  cases h with
  | unlisted => trivial
  | codes order => exact (order.map nameOf).nodup_iff.mp distinct
  | words order => exact (order.map nameOf).nodup_iff.mp distinct

/-- Values agree if they are the same in some order. -/
theorem agree_iff_reordered (hv : v.Distinct) (hw : w.Distinct) :
    v.agree w = true ↔ v.Reordered w := by
  cases v <;> cases w
  case unlisted.unlisted => exact iff_of_true rfl .unlisted
  case codes.codes xs ys =>
    have order : Reordered (codes xs) (codes ys) ↔ xs.Perm ys :=
      ⟨fun h => by cases h; assumption, .codes⟩
    rw [agree_codes, order, ← Named.matches_eq_iff_perm hv hw]
    constructor
    · intro h
      refine h.imp fun x _ y _ named same => ?_
      cases x
      cases y
      simp only [EnumCode.mk.injEq]
      exact ⟨named.symm, same⟩
    · intro h
      exact h.imp fun x _ y _ _ same => congrArg EnumCode.code same
  case words.words xs ys =>
    have order : Reordered (words xs) (words ys) ↔ xs.Perm ys :=
      ⟨fun h => by cases h; assumption, .words⟩
    rw [agree_words, order, ← Named.matches_eq_iff_perm hv hw]
    constructor
    · intro h
      exact h.imp fun x _ y _ named _ => named.symm
    · intro h
      exact h.imp fun _ _ _ _ _ _ => trivial
  all_goals exact iff_of_false (by simp [agree]) (fun h => by cases h)

end Values

namespace Entity

/-- The same declaration in other words: members and values may be in another order, and documents
cited, notes and marks may be any, at every depth. -/
inductive Restated : Entity → Entity → Prop where
  | intro {e e' : Entity} {ms : List Entity} (name : e.name = e'.name)
      (grammar : (e.grammar == e'.grammar) = true) (values : e.values.Reordered e'.values)
      (reference : e.reference = e'.reference) (unreadable : e.unreadable = e'.unreadable)
      (order : e.members.Perm ms) (members : List.Forall₂ Restated ms e'.members) :
      Restated e e'

variable {a b : Entity}

theorem restated_iff : a.Restated b ↔
    a.name = b.name ∧ (a.grammar == b.grammar) = true ∧ a.values.Reordered b.values ∧
      a.reference = b.reference ∧ a.unreadable = b.unreadable ∧
      ∃ ms, a.members.Perm ms ∧ List.Forall₂ Restated ms b.members := by
  constructor
  · intro h
    cases h with
    | intro name grammar values reference unreadable order members =>
      exact ⟨name, grammar, values, reference, unreadable, _, order, members⟩
  · rintro ⟨name, grammar, values, reference, unreadable, ms, order, members⟩
    exact .intro name grammar values reference unreadable order members

theorem name_of_restated (a b : Entity) (h : a.Restated b) : a.name = b.name :=
  (restated_iff.mp h).1

theorem Restated.keyed (h : a.Restated b) (keyed : a.Keyed) : b.Keyed := by
  induction a using memberInduction generalizing b with
  | step a ih =>
    obtain ⟨-, -, values, -, -, ms, order, members⟩ := restated_iff.mp h
    refine .intro (values.distinct keyed.values) ?_ fun y listed => ?_
    · rw [← Named.names_eq_of_forall₂ name_of_restated members]
      exact (order.map nameOf).nodup_iff.mp keyed.names
    · obtain ⟨x, present, restated⟩ := exists_of_forall₂ members.flip listed
      have member := order.mem_iff.mpr present
      exact ih x member restated (keyed.members member)

/-- Declaring the same is restating. -/
theorem sameDeclaration_iff_restated (ha : a.Keyed) (hb : b.Keyed) :
    a.sameDeclaration b = true ↔ a.Restated b := by
  induction a using memberInduction generalizing b with
  | step a ih =>
    have inner : ∀ x ∈ a.members, ∀ y ∈ b.members, (x.sameDeclaration y = true ↔ x.Restated y) :=
      fun x member y present => ih x member (ha.members member) (hb.members present)
    rw [sameDeclaration_iff, restated_iff, Values.agree_iff_reordered ha.values hb.values,
      sameMembers_iff, ← Named.matches_iff_perm name_of_restated ha.names hb.names]
    have members : Named.Matches (fun x y => x.sameDeclaration y = true) a.members b.members ↔
        Named.Matches Restated a.members b.members :=
      ⟨fun h => h.imp fun x member y present _ => (inner x member y present).mp,
        fun h => h.imp fun x member y present _ => (inner x member y present).mpr⟩
    rw [members]

end Entity

/-- An entity with members and values known by name, at every depth. -/
abbrev KeyedEntity : Type :=
  { e : Entity // e.Keyed }

/-- Related elements of an equivalence can stand for each other. -/
theorem iff_of_equivalence {α : Type} {R : α → α → Prop} (equivalence : Equivalence R)
    {a a' b b' : α} (h : R a a') (h' : R b b') : R a' b' ↔ R a b :=
  ⟨fun same => equivalence.trans h (equivalence.trans same (equivalence.symm h')),
    fun same => equivalence.trans (equivalence.symm h) (equivalence.trans same h')⟩

namespace Entity

theorem equivalence_sameDeclaration :
    Equivalence fun a b : KeyedEntity => a.1.sameDeclaration b.1 = true where
  refl a := sameDeclaration_self a.2
  symm {a b} h := sameDeclaration_symm a.2 b.2 h
  trans h h' := sameDeclaration_trans h h'

theorem equivalence_sameMembers :
    Equivalence fun a b : KeyedEntity => a.1.sameMembers b.1 = true where
  refl a := sameMembers_self a.2
  symm {a b} h := sameMembers_symm a.2 b.2 h
  trans h h' := sameMembers_trans h h'

/-- Declaring the same and having the same members are equivalences, and the first one is to
restate. Neither changes when both sides are restated. -/
theorem sameness_unchanged_by_restating :
    (Equivalence fun a b : KeyedEntity => a.1.sameDeclaration b.1 = true) ∧
    (Equivalence fun a b : KeyedEntity => a.1.sameMembers b.1 = true) ∧
    (∀ a b : KeyedEntity, a.1.sameDeclaration b.1 = true ↔ a.1.Restated b.1) ∧
    ∀ (a b : KeyedEntity) (a' b' : Entity), a.1.Restated a' → b.1.Restated b' →
      a'.sameDeclaration b' = a.1.sameDeclaration b.1 ∧
        a'.sameMembers b' = a.1.sameMembers b.1 := by
  refine ⟨equivalence_sameDeclaration, equivalence_sameMembers,
    fun a b => sameDeclaration_iff_restated a.2 b.2, ?_⟩
  intro a b a' b' ha hb
  let newA : KeyedEntity := ⟨a', ha.keyed a.2⟩
  let newB : KeyedEntity := ⟨b', hb.keyed b.2⟩
  have sameA := (sameDeclaration_iff_restated a.2 newA.2).mpr ha
  have sameB := (sameDeclaration_iff_restated b.2 newB.2).mpr hb
  have declarations : newA.1.sameDeclaration newB.1 = true ↔ a.1.sameDeclaration b.1 = true :=
    iff_of_equivalence equivalence_sameDeclaration sameA sameB
  have members : newA.1.sameMembers newB.1 = true ↔ a.1.sameMembers b.1 = true :=
    iff_of_equivalence equivalence_sameMembers (sameMembers_of_sameDeclaration sameA)
      (sameMembers_of_sameDeclaration sameB)
  exact ⟨Bool.eq_iff_iff.mpr declarations, Bool.eq_iff_iff.mpr members⟩

/-- Sheets of some size and type. -/
def sheets : Entity where
  name := "media-col"
  grammar := ⟨"collection", "collection", false⟩
  members :=
    [{ name := "media-size", grammar := ⟨"collection", "collection", false⟩
       members := [{ name := "x-dimension", grammar := ⟨"integer", "integer", false⟩ },
         { name := "y-dimension", grammar := ⟨"integer", "integer", false⟩ }] },
     { name := "media-type", grammar := ⟨"type2 keyword", "keyword", false⟩
       values := .words ["plain", "glossy"] }]

/-- The same sheets, with members and values in another order and other marks. -/
def shuffledSheets : Entity where
  name := "media-col"
  grammar := ⟨"type2 collection", "collection", false⟩
  specs := ["RFC8011"]
  note := some "Any sheets"
  emitted := true
  members :=
    [{ name := "media-type", grammar := ⟨"keyword", "keyword", false⟩
       values := .words ["glossy", "plain"], keywordType := some "type2" },
     { name := "media-size", grammar := ⟨"collection", "collection", false⟩
       isMember := true
       members := [{ name := "y-dimension", grammar := ⟨"integer", "integer", false⟩ },
         { name := "x-dimension", grammar := ⟨"integer", "integer", false⟩
           hexadecimal := true, mayBeEmpty := true }] }]

theorem keyed_sheets : sheets.Keyed := by
  have plain : ∀ e : Entity, e.values = .unlisted → e.members = [] → e.Keyed := by
    intro e values none
    exact .intro (values ▸ trivial) (none ▸ List.nodup_nil) (by simp [none])
  refine .intro trivial (by decide)
    (List.forall_mem_cons.mpr ⟨?_, List.forall_mem_singleton.mpr ?_⟩)
  · refine .intro trivial (by decide)
      (List.forall_mem_cons.mpr ⟨?_, List.forall_mem_singleton.mpr ?_⟩)
    · exact plain _ rfl rfl
    · exact plain _ rfl rfl
  · have words : (Named.names ["plain", "glossy"]).Nodup := by decide
    exact .intro words List.nodup_nil fun m none => nomatch none

theorem restated_shuffledSheets : sheets.Restated shuffledSheets := by
  refine .intro rfl (by decide) .unlisted rfl rfl (List.Perm.swap ..) (.cons ?_ (.cons ?_ .nil))
  · exact .intro rfl (by decide) (.words (List.Perm.swap ..)) rfl rfl (.refl _) .nil
  · refine .intro rfl (by decide) .unlisted rfl rfl (List.Perm.swap ..)
      (.cons ?_ (.cons ?_ .nil))
    · exact .intro rfl (by decide) .unlisted rfl rfl (.refl _) .nil
    · exact .intro rfl (by decide) .unlisted rfl rfl (.refl _) .nil

theorem sameness_unchanged_by_restating_of_sheets :
    sheets.Restated shuffledSheets ∧ sheets.Restated sheets ∧
      shuffledSheets.sameDeclaration sheets = sheets.sameDeclaration sheets ∧
      shuffledSheets.sameMembers sheets = sheets.sameMembers sheets := by
  have itself := (sameDeclaration_iff_restated keyed_sheets keyed_sheets).mp
    (sameDeclaration_self keyed_sheets)
  exact ⟨restated_shuffledSheets, itself, sameness_unchanged_by_restating.2.2.2
    ⟨sheets, keyed_sheets⟩ ⟨sheets, keyed_sheets⟩ shuffledSheets sheets restated_shuffledSheets
    itself⟩

end Entity

end PrintRegistry
