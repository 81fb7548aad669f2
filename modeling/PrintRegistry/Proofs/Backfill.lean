import PrintRegistry.Proofs.Canonical
import PrintRegistry.Proofs.Merging

/-!
What the backfill leaves behind. Of the attributes with the grammar of a collection, those
that are left have members, or a collection to share them with, or are known to do without.
The others are taken out and reported, unless they are known to be obsolete. Nothing else is
changed: what is left keeps its place, and what is not given an alias stays as it is.
-/

namespace PrintRegistry

namespace Backfill

/-- What becomes of an attribute. -/
def outcome (b : Backfill) (e : Entity) : Option Entity :=
  match b with
  | .registered | .kept => some e
  | .sharing target => some { e with reference := some (.byAlias target none) }
  | .dropped _ => none

/-- What is reported of it. -/
def finding? (b : Backfill) (e : Entity) : Option Finding :=
  match b with
  | .dropped false => some (.membersMissing e)
  | _ => none

theorem name_outcome {b : Backfill} {e e' : Entity} (h : b.outcome e = some e') :
    e'.name = e.name := by
  cases b with
  | registered | kept | sharing =>
    cases h
    rfl
  | dropped => cases h

end Backfill

/-- The attributes of families, each of them changed or taken out. -/
def revise (change : String → Entity → Option Entity) (families : List (String × List Entity)) :
    List (String × List Entity) :=
  families.map fun f => (f.1, f.2.filterMap (change f.1))

theorem revise_revise (f g : String → Entity → Option Entity)
    (families : List (String × List Entity)) :
    revise g (revise f families) = revise (fun title e => (f title e).bind (g title)) families := by
  simp [revise, List.filterMap_filterMap]

theorem revise_congr {f g : String → Entity → Option Entity}
    {families : List (String × List Entity)}
    (same : ∀ l ∈ families, ∀ e ∈ l.2, f l.1 e = g l.1 e) :
    revise f families = revise g families :=
  List.map_congr_left fun l listed =>
    congrArg (Prod.mk l.1) (List.filterMap_congr fun e member => same l listed e member)

namespace Registry

variable {r : Registry}

/-- The attributes of each family, in order. -/
def listing (r : Registry) : List (String × List Entity) :=
  r.families.toList.map fun f => (f.title, f.attributes.toList)

/-- A change of the attribute of one name in a family is seen in its place alone. -/
theorem listing_adjustFamily (r : Registry) (family name : String)
    {change : Table Entity → Table Entity} {act : Entity → Option Entity}
    (same : ∀ t, (change t).toList =
      t.toList.filterMap fun e => if e.name = name then act e else some e) :
    (r.adjustFamily family change).listing =
      revise (fun title e => if (title, e.name) = (family, name) then act e else some e)
        r.listing := by
  have families := Table.toList_adjust r.families family
    (fun f => { f with attributes := change f.attributes }) fun _ => rfl
  rw [listing, adjustFamily, families, listing, revise, List.map_map, List.map_map]
  refine List.map_congr_left fun f _ => ?_
  by_cases here : f.title = family <;> simp [nameOf, here, same]

theorem listing_backfillAttribute {family name : String} {e : Entity}
    (found : r.attribute? family name = some e) (b : Backfill) :
    (r.backfillAttribute family name b).listing =
      revise (fun title e => if (title, e.name) = (family, name) then b.outcome e else some e)
        r.listing := by
  cases b with
  | registered | kept => simp [backfillAttribute, Backfill.outcome, revise]
  | sharing target =>
    let share (e : Entity) : Entity := { e with reference := some (.byAlias target none) }
    have shared : r.backfillAttribute family name (.sharing target) =
        r.adjustFamily family (·.adjust name share) := rfl
    rw [shared]
    refine r.listing_adjustFamily family name fun t => ?_
    refine (Table.toList_adjust t name share fun _ => rfl).trans ?_
    rw [← List.filterMap_eq_map]
    refine List.filterMap_congr fun x _ => ?_
    by_cases here : x.name = name <;> simp [nameOf, here, Backfill.outcome, share]
  | dropped obsolete =>
    have erased : (r.backfillAttribute family name (.dropped obsolete)).listing =
        (r.adjustFamily family (·.erase name)).listing := by
      rw [backfillAttribute, found]
      cases obsolete <;> rfl
    rw [erased]
    refine r.listing_adjustFamily family name fun t => ?_
    refine (congrFun List.filterMap_eq_filter.symm t.toList).trans ?_
    refine List.filterMap_congr fun x _ => ?_
    by_cases here : x.name = name <;> simp [nameOf, here, Backfill.outcome, Option.guard]

theorem findings_backfillAttribute {family name : String} {e : Entity}
    (found : r.attribute? family name = some e) (b : Backfill) :
    (r.backfillAttribute family name b).findings = r.findings ++ (b.finding? e).toList := by
  cases b with
  | registered | kept | sharing => exact (List.append_nil _).symm
  | dropped obsolete =>
    rw [backfillAttribute, found]
    cases obsolete with
    | true => exact (List.append_nil _).symm
    | false => rfl

/-- The family and the name that an attribute is known by. -/
def key (a : String × Entity) : String × String :=
  (a.1, a.2.name)

section Run

variable (b : String → Backfill) {as : List (String × Entity)}

/-- Carries out, one after another, what becomes of attributes by their names. -/
def carryOut (r : Registry) (as : List (String × Entity)) : Registry :=
  as.foldl (fun r a => r.backfillAttribute a.1 a.2.name (b a.2.name)) r

theorem carryOut_concat (r : Registry) (as : List (String × Entity)) (last : String × Entity) :
    r.carryOut b (as ++ [last]) =
      (r.carryOut b as).backfillAttribute last.1 last.2.name (b last.2.name) := by
  rw [carryOut, List.foldl_append]
  rfl

theorem attribute?_carryOut {family name : String} (other : (family, name) ∉ as.map key) :
    (r.carryOut b as).attribute? family name = r.attribute? family name := by
  refine List.foldlRecOn (motive := fun r' : Registry =>
    r'.attribute? family name = r.attribute? family name) _ _ rfl ?_
  intro r' before a listed
  refine (attribute?_backfillAttribute_other r' ?_ _).trans before
  rintro ⟨rfl, rfl⟩
  exact other (List.mem_map_of_mem listed)

variable (distinct : (as.map key).Nodup)
  (known : ∀ a ∈ as, r.attribute? a.1 a.2.name = some a.2)

include distinct known

/-- Each attribute is met as it was in the beginning, since none before it has its family
and name. -/
theorem carryOut_eq : (r.carryOut b as).listing =
      revise (fun title e => if (title, e.name) ∈ as.map key then (b e.name).outcome e else some e)
        r.listing ∧
    (r.carryOut b as).findings = r.findings ++ as.filterMap fun a => (b a.2.name).finding? a.2 := by
  induction as using List.reverseRecOn with
  | nil => simp [carryOut, revise]
  | append_singleton as last ih =>
    rw [List.map_append, List.nodup_append] at distinct
    obtain ⟨before, -, apart⟩ := distinct
    have fresh : key last ∉ as.map key := fun old => apart _ old _ (by simp) rfl
    obtain ⟨listed, findings⟩ := ih before fun a member => known a (List.mem_append_left _ member)
    have found : (r.carryOut b as).attribute? last.1 last.2.name = some last.2 :=
      (attribute?_carryOut b fresh).trans (known last (by simp))
    rw [carryOut_concat, listing_backfillAttribute found, findings_backfillAttribute found, listed,
      findings, revise_revise, List.append_assoc, List.filterMap_append]
    refine ⟨revise_congr fun l _ e _ => ?_, ?_⟩
    · rw [List.map_append]
      by_cases old : (l.1, e.name) ∈ as.map key
      · have other : (l.1, e.name) ≠ key last := fun same => fresh (same ▸ old)
        rw [if_pos old, if_pos (List.mem_append_left _ old)]
        cases outcome : (b e.name).outcome e with
        | none => rfl
        | some e' =>
          rw [← Backfill.name_outcome outcome] at other
          exact if_neg other
      · rw [if_neg old, Option.bind_some]
        by_cases here : (l.1, e.name) = key last
        · have name : e.name = last.2.name := congrArg Prod.snd here
          have listed : (l.1, e.name) ∈ as.map key ++ [last].map key := by simp [here]
          rw [if_pos listed]
          exact (if_pos here).trans (by rw [name])
        · have absent : (l.1, e.name) ∉ as.map key ++ [last].map key := by simp [old, here]
          rw [if_neg absent]
          exact if_neg here
    · cases reported : (b last.2.name).finding? last.2 <;> simp [reported]

end Run

end Registry

namespace Entity

/-- An attribute after the backfill, unless it has been taken out. -/
def backfilled? (e : Entity) (collections : Table Entity) : Option Entity :=
  if e.isMemberless then (Backfill.ofName collections e.name).outcome e else some e

/-- An attribute has the grammar of a collection, and nothing tells where its members are:
it has none, nor an alias, no collection of its name is registered, no convention leads to
one, and it is not known to do without. -/
structure IsUnexplained (e : Entity) (collections : Table Entity) : Prop where
  collection : e.grammar.isCollection = true
  memberless : e.members = []
  unshared : e.alias? = none
  unregistered : collections.has e.name = false
  unconventional : ∀ convention ∈ Backfill.conventions collections, convention e.name = none
  unknown : e.name ∉ Backfill.untyped

/-- An attribute is as it was, or had no members and no alias, and now has the alias that the
first convention for its name gives. -/
def Backfills (collections : Table Entity) (e e' : Entity) : Prop :=
  e' = e ∨ e.isMemberless = true ∧ ∃ target,
    (Backfill.conventions collections).findSome? (· e.name) = some target ∧
      e' = { e with reference := some (.byAlias target none) }

variable {e e' : Entity} {collections : Table Entity}

theorem isMemberless_iff : e.isMemberless = true ↔
    e.grammar.isCollection = true ∧ e.members = [] ∧ e.alias? = none := by
  simp [isMemberless, isCollection, and_assoc]

/-- What becomes of an attribute: it is left as it is, or given an alias, or taken out because
nothing tells where its members are. -/
theorem backfilled?_cases (e : Entity) (collections : Table Entity) :
    (e.backfilled? collections = some e ∧ (e.isMemberless = true →
        collections.has e.name = true ∨ e.name ∈ Backfill.untyped)) ∨
      (∃ target, e.isMemberless = true ∧
        (Backfill.conventions collections).findSome? (· e.name) = some target ∧
        e.backfilled? collections = some { e with reference := some (.byAlias target none) }) ∨
      e.backfilled? collections = none ∧ e.IsUnexplained collections := by
  by_cases lacks : e.isMemberless = true
  · obtain ⟨collection, none, unshared⟩ := isMemberless_iff.mp lacks
    rw [backfilled?, if_pos lacks, Backfill.ofName]
    cases registered : collections.has e.name with
    | true => exact Or.inl ⟨rfl, fun _ => Or.inl rfl⟩
    | false =>
      cases meant : (Backfill.conventions collections).findSome? (· e.name) with
      | some target => exact Or.inr (Or.inl ⟨target, lacks, rfl, rfl⟩)
      | none =>
        by_cases untyped : e.name ∈ Backfill.untyped
        · exact Or.inl ⟨by simp [untyped, Backfill.outcome], fun _ => Or.inr untyped⟩
        · refine Or.inr (Or.inr ⟨by simp [untyped, Backfill.outcome], ?_⟩)
          exact ⟨collection, none, unshared, registered, List.findSome?_eq_none_iff.mp meant, untyped⟩
  · exact Or.inl ⟨by rw [backfilled?, if_neg lacks], fun yes => absurd yes lacks⟩

theorem backfilled?_eq_none_iff :
    e.backfilled? collections = none ↔ e.IsUnexplained collections := by
  rcases e.backfilled?_cases collections with
    ⟨stays, reason⟩ | ⟨target, lacks, meant, shares⟩ | ⟨gone, unexplained⟩
  · refine iff_of_false (by simp [stays]) fun h => ?_
    have lacks := isMemberless_iff.mpr ⟨h.collection, h.memberless, h.unshared⟩
    rcases reason lacks with registered | untyped
    · rw [h.unregistered] at registered
      cases registered
    · exact h.unknown untyped
  · refine iff_of_false (by simp [shares]) fun h => ?_
    rw [List.findSome?_eq_none_iff.mpr h.unconventional] at meant
    cases meant
  · exact iff_of_true gone unexplained

instance : Decidable (e.IsUnexplained collections) :=
  decidable_of_iff (e.backfilled? collections = none) backfilled?_eq_none_iff

theorem backfills_of_backfilled? (h : e.backfilled? collections = some e') :
    Backfills collections e e' := by
  rcases e.backfilled?_cases collections with
    ⟨stays, -⟩ | ⟨target, lacks, meant, shares⟩ | ⟨gone, -⟩
  · exact Or.inl (Option.some.inj (h.symm.trans stays))
  · exact Or.inr ⟨lacks, target, meant, Option.some.inj (h.symm.trans shares)⟩
  · rw [gone] at h
    cases h

theorem name_backfilled? (h : e.backfilled? collections = some e') : e'.name = e.name := by
  rcases backfills_of_backfilled? h with rfl | ⟨-, target, -, rfl⟩ <;> rfl

theorem grammar_backfilled? (h : e.backfilled? collections = some e') :
    e'.grammar = e.grammar := by
  rcases backfills_of_backfilled? h with rfl | ⟨-, target, -, rfl⟩ <;> rfl

/-- An attribute that is left and has the grammar of a collection tells where its members
are. -/
theorem explained_of_backfilled? (h : e.backfilled? collections = some e')
    (collection : e'.grammar.isCollection = true) :
    e'.members ≠ [] ∨ e'.alias?.isSome = true ∨ collections.has e'.name = true ∨
      e'.name ∈ Backfill.untyped := by
  rcases e.backfilled?_cases collections with
    ⟨stays, reason⟩ | ⟨target, -, -, shares⟩ | ⟨gone, -⟩
  · obtain rfl : e = e' := Option.some.inj (stays.symm.trans h)
    by_cases lacks : e.isMemberless = true
    · exact Or.inr (Or.inr (reason lacks))
    · by_contra unexplained
      simp only [not_or, not_not, Bool.not_eq_true, Option.isSome_eq_false_iff,
        Option.isNone_iff_eq_none] at unexplained
      exact lacks (isMemberless_iff.mpr ⟨collection, unexplained.1, unexplained.2.1⟩)
  · obtain rfl := Option.some.inj (shares.symm.trans h)
    exact Or.inr (Or.inl rfl)
  · rw [gone] at h
    cases h

end Entity

namespace Registry

variable {r : Registry}

theorem backfill_eq_carryOut (r : Registry) : r.backfill =
    r.carryOut (Backfill.ofName r.collections) (r.attributes.filter fun a => a.2.isMemberless) :=
  rfl

/-- The backfill changes families and findings alone. -/
theorem backfill_frame (r : Registry) :
    r.backfill = { r with families := r.backfill.families, findings := r.backfill.findings } := by
  refine List.foldlRecOn (motive := fun r' : Registry =>
    r' = { r with families := r'.families, findings := r'.findings }) _ _ rfl ?_
  rintro r' before ⟨family, e⟩ -
  have frame : ∀ b, r'.backfillAttribute family e.name b =
      { r' with
        families := (r'.backfillAttribute family e.name b).families
        findings := (r'.backfillAttribute family e.name b).findings } := by
    intro b
    cases b with
    | registered | kept | sharing => rfl
    | dropped obsolete =>
      rw [backfillAttribute]
      split
      · rfl
      · cases obsolete <;> rfl
  dsimp only
  rw [frame, before]

theorem mem_attributes_iff_listing {family : String} {e : Entity} :
    (family, e) ∈ r.attributes ↔ ∃ l ∈ r.listing, l.1 = family ∧ e ∈ l.2 := by
  simp [listing, attributes, and_comm (b := _ ∈ _)]

/-- What is reported of an attribute that lacks members. -/
theorem finding?_ofName {e : Entity} {collections : Table Entity} (lacks : e.isMemberless = true) :
    (Backfill.ofName collections e.name).finding? e =
      if e.IsUnexplained collections ∧ e.name ∉ Backfill.obsolete then some (.membersMissing e)
      else none := by
  have unexplained : e.IsUnexplained collections ↔
      (Backfill.ofName collections e.name).outcome e = none := by
    rw [← Entity.backfilled?_eq_none_iff, Entity.backfilled?, if_pos lacks]
  simp only [unexplained]
  cases outcome : Backfill.ofName collections e.name with
  | registered | kept | sharing => simp [Backfill.finding?, Backfill.outcome]
  | dropped mark =>
    obtain rfl := Backfill.mark_of_ofName outcome
    by_cases obsolete : e.name ∈ Backfill.obsolete <;>
      simp [Backfill.finding?, Backfill.outcome, obsolete]

/-- The backfill changes or takes out each attribute in its place, and reports those taken
out in their order. -/
theorem backfill_carries (r : Registry) :
    r.backfill.listing = revise (fun _ e => e.backfilled? r.collections) r.listing ∧
      r.backfill.findings = r.findings ++ (r.allAttributes.filter fun e =>
        e.IsUnexplained r.collections ∧ e.name ∉ Backfill.obsolete).map .membersMissing := by
  let lacking := r.attributes.filter fun a => a.2.isMemberless
  have distinct : (lacking.map key).Nodup :=
    r.distinct_attributes.sublist (List.filter_sublist.map key)
  have known : ∀ a ∈ lacking, r.attribute? a.1 a.2.name = some a.2 := fun a listed =>
    mem_attributes_iff.mp (List.mem_filter.mp listed).1
  obtain ⟨listed, findings⟩ := carryOut_eq (Backfill.ofName r.collections) distinct known
  rw [backfill_eq_carryOut, listed, findings]
  constructor
  · refine revise_congr fun l inside e member => ?_
    have present : (l.1, e) ∈ r.attributes := 
      mem_attributes_iff_listing.mpr ⟨l, inside, rfl, member⟩
    have among : (l.1, e.name) ∈ lacking.map key ↔ e.isMemberless = true := by
      constructor
      · intro keyed
        obtain ⟨a, found, same⟩ := List.mem_map.mp keyed
        have itself : some a.2 = some e := by
          rw [← known a found, ← mem_attributes_iff.mp present]
          exact congrArg (fun k => r.attribute? k.1 k.2) same
        exact Option.some.inj itself ▸ (List.mem_filter.mp found).2
      · intro lacks
        exact List.mem_map.mpr ⟨(l.1, e), List.mem_filter.mpr ⟨present, lacks⟩, rfl⟩
    rw [Entity.backfilled?]
    by_cases lacks : e.isMemberless = true
    · rw [if_pos lacks, if_pos (among.mpr lacks)]
    · rw [if_neg lacks, if_neg fun keyed => lacks (among.mp keyed)]
  · rw [allAttributes, List.filter_map, List.map_map, ← List.filterMap_eq_map,
      List.filterMap_filter, List.filterMap_filter]
    refine congrArg (r.findings ++ ·) (List.filterMap_congr fun a _ => ?_)
    by_cases lacks : a.2.isMemberless = true
    · rw [if_pos lacks, finding?_ofName lacks]
      simp
    · have explained : ¬ a.2.IsUnexplained r.collections := fun h =>
        lacks (Entity.isMemberless_iff.mpr ⟨h.collection, h.memberless, h.unshared⟩)
      simp [lacks, explained]

/-- An attribute that is left is what has become of one of its family. -/
theorem mem_attributes_backfill {family : String} {e' : Entity} :
    (family, e') ∈ r.backfill.attributes ↔
      ∃ e, (family, e) ∈ r.attributes ∧ e.backfilled? r.collections = some e' := by
  simp only [mem_attributes_iff_listing, r.backfill_carries.1, revise, List.mem_map]
  constructor
  · rintro ⟨_, ⟨l, listed, rfl⟩, rfl, member⟩
    obtain ⟨e, inside, left⟩ := List.mem_filterMap.mp member
    exact ⟨e, ⟨l, listed, rfl, inside⟩, left⟩
  · rintro ⟨e, ⟨l, listed, rfl, inside⟩, left⟩
    exact ⟨_, ⟨l, listed, rfl⟩, rfl, List.mem_filterMap.mpr ⟨e, inside, left⟩⟩

theorem forall₂_backfilled? (es : List Entity) (collections : Table Entity) :
    List.Forall₂ (Entity.Backfills collections)
      (es.filter fun e => ¬ e.IsUnexplained collections)
      (es.filterMap (Entity.backfilled? · collections)) := by
  have left : ∀ e ∈ es, decide (¬ e.IsUnexplained collections) =
      (e.backfilled? collections).isSome := by
    intro e _
    rw [Bool.eq_iff_iff, decide_eq_true_iff, ← Entity.backfilled?_eq_none_iff,
      Option.isSome_iff_ne_none]
  rw [List.filter_congr left]
  exact forall₂_filterMap fun e _ e' left => Entity.backfills_of_backfilled? left

/-- The backfill leaves no collection attribute without an explanation, and removes nothing
else. Each attribute left with the grammar of a collection has members, or an alias, or a
collection of its name is registered, or it is known to do without members. Taken out are
exactly the attributes that nothing explains; in every family the others keep their places,
and are as they were or have been given the alias that the naming conventions tell. Each one
taken out is reported once, unless it is known to be obsolete. No other table is changed. -/
theorem backfill_explains (r : Registry) :
    (∀ e ∈ r.backfill.allAttributes, e.grammar.isCollection = true →
      e.members ≠ [] ∨ e.alias?.isSome = true ∨ r.backfill.collections.has e.name = true ∨
        e.name ∈ Backfill.untyped) ∧
    List.Forall₂ (fun f f' => f'.title = f.title ∧
        List.Forall₂ (Entity.Backfills r.collections)
          (f.attributes.toList.filter fun e => ¬ e.IsUnexplained r.collections)
          f'.attributes.toList)
      r.families.toList r.backfill.families.toList ∧
    r.backfill = { r with
      families := r.backfill.families
      findings := r.findings ++ (r.allAttributes.filter fun e =>
        e.IsUnexplained r.collections ∧ e.name ∉ Backfill.obsolete).map .membersMissing } := by
  obtain ⟨listed, findings⟩ := r.backfill_carries
  refine ⟨fun e member collection => ?_, ?_, ?_⟩
  · obtain ⟨⟨family, e⟩, left, rfl⟩ := List.mem_map.mp member
    obtain ⟨_, -, backfilled⟩ := mem_attributes_backfill.mp left
    rw [collections_backfill]
    exact Entity.explained_of_backfilled? backfilled collection
  · have families : List.Forall₂ (fun f f' : Family =>
        (f.title, f.attributes.toList.filterMap (Entity.backfilled? · r.collections)) =
          (f'.title, f'.attributes.toList)) r.families.toList r.backfill.families.toList := by
      rw [← List.forall₂_map_right_iff, ← List.forall₂_map_left_iff, List.forall₂_eq_eq_eq]
      rw [listing, revise, listing, List.map_map] at listed
      exact listed.symm
    refine families.imp fun f f' same => ?_
    obtain ⟨title, attributes⟩ := Prod.mk.inj same
    exact ⟨title.symm, attributes ▸ forall₂_backfilled? _ _⟩
  · rw [r.backfill_frame, findings]

end Registry

end PrintRegistry
