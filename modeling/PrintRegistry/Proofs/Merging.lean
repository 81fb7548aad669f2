import Mathlib.Data.List.Nodup
import PrintRegistry.Proofs.Aliases

/-!
What merging leaves behind. A merge takes all members of its source, so an attribute
has none right after its own merge. But merges are listed before the first of them is
made, in the order of the attributes, and where aliases form a chain a later merge may
bring members to an attribute whose own merge is over. So an alias is left without
members exactly if every merge into it comes before its own.
-/

namespace PrintRegistry

/-- Of two things, the first stands before the second: the last place of a list is
taken by the second, or neither is looked for there. -/
theorem pair_sublist_concat {α : Type} {a b last : α} {xs : List α} :
    List.Sublist [a, b] (xs ++ [last]) ↔ List.Sublist [a, b] xs ∨ a ∈ xs ∧ b = last := by
  have reversed (ys : List α) : List.Sublist [a, b] ys ↔ List.Sublist [b, a] ys.reverse :=
    List.reverse_sublist.symm
  rw [reversed, reversed]
  simp [List.cons_sublist_cons', and_comm]

namespace AliasMerge

/-- The attribute whose members are moved, by family and name. -/
def source (m : AliasMerge) : String × String :=
  (m.family, m.name)

/-- The attribute they are moved to. -/
def referent (m : AliasMerge) : String × String :=
  (m.targetFamily, m.target)

theorem moveMembers_ne_nil {collection : String} {members incoming : List Entity}
    (some : incoming ≠ []) : (moveMembers collection members incoming).1 ≠ [] := by
  obtain ⟨m, rest, rfl⟩ := List.exists_cons_of_ne_nil some
  intro none
  have found := find?_moveMembers collection members (m :: rest) m.name
  rw [none] at found
  simp [Named.find?, nameOf] at found

theorem source_of_ofAttribute? {family : String} {e : Entity} {m : AliasMerge}
    (h : ofAttribute? family e = some m) : m.source = (family, e.name) := by
  unfold ofAttribute? at h
  split at h
  · split at h
    · cases h
      rfl
    · cases h
  · cases h

end AliasMerge

namespace Registry

variable {r : Registry} {ms : List AliasMerge} {m : AliasMerge} {p : String × String} {e : Entity}

/-- Attributes are known by family and name, and none is listed twice. -/
theorem distinct_attributes (r : Registry) :
    (r.attributes.map fun a => (a.1, a.2.name)).Nodup := by
  have titles : r.families.toList.Pairwise fun f g => f.title ≠ g.title :=
    List.pairwise_map.mp r.families.distinct
  unfold attributes
  rw [List.map_flatMap]
  apply List.nodup_flatMap.mpr
  constructor
  · intro f _
    rw [List.map_map]
    apply List.Nodup.of_map Prod.snd
    rw [List.map_map]
    exact f.attributes.distinct
  · refine titles.imp fun {f g} different => ?_
    intro key here there
    simp only [List.map_map, List.mem_map, Function.comp_apply] at here there
    obtain ⟨_, _, rfl⟩ := here
    obtain ⟨_, _, same⟩ := there
    exact different (congrArg Prod.fst same).symm

theorem distinct_sources (r : Registry) : (r.aliasMerges.map AliasMerge.source).Nodup := by
  refine r.distinct_attributes.sublist ?_
  unfold aliasMerges
  induction r.attributes with
  | nil => exact List.Sublist.slnil
  | cons a as ih =>
    obtain ⟨family, e⟩ := a
    cases called : AliasMerge.ofAttribute? family e with
    | none =>
      simp only [List.filterMap_cons, called]
      exact ih.cons _
    | some m =>
      simp only [List.filterMap_cons, called, List.map_cons, AliasMerge.source_of_ofAttribute? called]
      exact ih.cons_cons _

/-- A merge is called for by an attribute with members whose alias has another name. -/
theorem mem_aliasMerges_iff : m ∈ r.aliasMerges ↔ ∃ e home,
    r.attribute? m.family m.name = some e ∧ e.members ≠ [] ∧
      e.reference = some (.byAlias m.target home) ∧ m.target ≠ m.name ∧
      m.targetFamily = home.getD m.family := by
  unfold aliasMerges
  simp only [List.mem_filterMap, Prod.exists]
  constructor
  · rintro ⟨family, e, listed, called⟩
    have known := mem_attributes_iff.mp listed
    unfold AliasMerge.ofAttribute? at called
    split at called
    · rename_i target home refers
      split at called
      · rename_i calls
        simp only [Bool.and_eq_true, bne_iff_ne, ne_eq] at calls
        cases called
        refine ⟨e, home, known, ?_, refers, calls.2, rfl⟩
        simpa [Entity.isCollection] using calls.1
      · cases called
    · cases called
  · rintro ⟨e, home, known, full, refers, other, family⟩
    have named := name_of_attribute? known
    refine ⟨m.family, e, mem_attributes_of_attribute? known, ?_⟩
    cases m
    simp_all [AliasMerge.ofAttribute?, Entity.isCollection]

/-- A merge of an attribute leads where its alias does. -/
theorem referent_of_mem_aliasMerges {target : String} {home : Option String}
    (called : m ∈ r.aliasMerges) (takes : m.source = p) (found : r.attribute? p.1 p.2 = some e)
    (refers : e.reference = some (.byAlias target home)) :
    m.targetFamily = home.getD p.1 ∧ m.target = target := by
  subst takes
  obtain ⟨s, home', known, -, refers', -, family⟩ := mem_aliasMerges_iff.mp called
  obtain rfl : e = s := Option.some.inj (found.symm.trans known)
  rw [refers] at refers'
  cases refers'
  exact ⟨family, rfl⟩

theorem mergeAlias_keeps (found : r.attribute? p.1 p.2 = some e)
    (stays : m.source = p → r.attribute? m.targetFamily m.target = none) :
    ∃ e', (r.mergeAlias m).attribute? p.1 p.2 = some e' ∧ e.members <+: e'.members := by
  rcases r.mergeAlias_cases m with
    ⟨-, same⟩ | ⟨-, same⟩ | ⟨target, source, moved, known, -, rfl, -, after⟩
  · exact ⟨e, by rw [same]; exact found, List.prefix_rfl⟩
  · exact ⟨e, by rw [same]; exact found, List.prefix_rfl⟩
  · have elsewhere : ¬ (p.1 = m.family ∧ p.2 = m.name) := by
      rintro ⟨family, name⟩
      rw [stays (Prod.ext family.symm name.symm)] at known
      cases known
    by_cases here : p.1 = m.targetFamily ∧ p.2 = m.target
    · refine ⟨_, (after p.1 p.2).trans (if_pos here), ?_⟩
      rw [here.1, here.2, known] at found
      cases found
      exact AliasMerge.prefix_moveMembers ..
    · refine ⟨e, ?_, List.prefix_rfl⟩
      rw [after, if_neg here, if_neg elsewhere, found]

/-- An attribute keeps its members, and their places, through merges none of which takes
them elsewhere. -/
theorem merges_keep (found : r.attribute? p.1 p.2 = some e)
    (stays : ∀ m ∈ ms, m.source = p → r.attribute? m.targetFamily m.target = none) :
    ∃ e', (ms.foldl mergeAlias r).attribute? p.1 p.2 = some e' ∧ e.members <+: e'.members := by
  induction ms using List.reverseRecOn with
  | nil => exact ⟨e, found, List.prefix_rfl⟩
  | append_singleton ms last ih =>
    obtain ⟨e₁, found₁, first⟩ := ih fun m member => stays m (List.mem_append_left _ member)
    have missing : last.source = p →
        (ms.foldl mergeAlias r).attribute? last.targetFamily last.target = none := by
      intro own
      have none := stays last (by simp) own
      rw [← Option.not_isSome_iff_eq_none] at none ⊢
      rwa [declared_merges]
    obtain ⟨e₂, found₂, second⟩ := mergeAlias_keeps found₁ missing
    refine ⟨e₂, ?_, first.trans second⟩
    rw [List.foldl_append]
    exact found₂

/-- A merge of an attribute that has members gives some to its referent, leaves its source
without any, and changes no other attribute. -/
theorem members_mergeAlias {s : Entity} (here : r.attribute? m.family m.name = some s)
    (full : s.members ≠ []) (found : r.attribute? p.1 p.2 = some e)
    (there : m.source = p → (r.attribute? m.targetFamily m.target).isSome = true) :
    ∃ e', (r.mergeAlias m).attribute? p.1 p.2 = some e' ∧
      (m.referent = p → e'.members ≠ []) ∧ (m.referent ≠ p → m.source = p → e'.members = []) ∧
      (m.referent ≠ p → m.source ≠ p → e' = e) := by
  rcases r.mergeAlias_cases m with
    ⟨absent, same⟩ | ⟨gone, -⟩ | ⟨target, source, moved, -, here', rfl, -, after⟩
  · refine ⟨e, by rw [same]; exact found, ?_, ?_, fun _ _ => rfl⟩
    · rintro rfl
      have clash : none = some e := absent.symm.trans found
      cases clash
    · intro _ takes
      have known := there takes
      rw [absent] at known
      cases known
  · rw [gone] at here
    cases here
  · obtain rfl : source = s := Option.some.inj (here'.symm.trans here)
    by_cases brings : m.referent = p
    · subst brings
      refine ⟨_, (after _ _).trans (if_pos ⟨rfl, rfl⟩), fun _ => ?_, ?_, ?_⟩
      · exact AliasMerge.moveMembers_ne_nil full
      · exact fun other => absurd rfl other
      · exact fun other => absurd rfl other
    · have elsewhere : ¬ (p.1 = m.targetFamily ∧ p.2 = m.target) := by
        rintro ⟨family, name⟩
        exact brings (Prod.ext family.symm name.symm)
      by_cases takes : m.source = p
      · subst takes
        refine ⟨_, (after _ _).trans ((if_neg elsewhere).trans (if_pos ⟨rfl, rfl⟩)), ?_, ?_, ?_⟩
        · exact fun same => absurd same brings
        · exact fun _ _ => rfl
        · exact fun _ other => absurd rfl other
      · have apart : ¬ (p.1 = m.family ∧ p.2 = m.name) := by
          rintro ⟨family, name⟩
          exact takes (Prod.ext family.symm name.symm)
        refine ⟨e, ?_, fun same => absurd same brings, fun _ same => absurd same takes,
          fun _ _ => rfl⟩
        rw [after, if_neg elsewhere, if_neg apart, found]

/-- Of the merges, those that bring members to an attribute come before its own one. -/
def EmptiedLast (ms : List AliasMerge) (p : String × String) : Prop :=
  ∀ m ∈ ms, m.referent = p → ∃ own, own.source = p ∧ List.Sublist [m, own] ms

section Last

variable {last : AliasMerge}

theorem not_emptiedLast_concat (fresh : last ∉ ms) (brings : last.referent = p) :
    ¬ EmptiedLast (ms ++ [last]) p := by
  intro emptied
  obtain ⟨own, -, first⟩ := emptied last (by simp) brings
  rcases pair_sublist_concat.mp first with before | ⟨listed, -⟩
  · exact fresh (before.subset List.mem_cons_self)
  · exact fresh listed

theorem emptiedLast_concat (takes : last.source = p) (other : last.referent ≠ p) :
    EmptiedLast (ms ++ [last]) p := by
  intro m member brings
  refine ⟨last, takes, pair_sublist_concat.mpr (Or.inr ⟨?_, rfl⟩)⟩
  rcases List.mem_append.mp member with old | new
  · exact old
  · rw [List.mem_singleton.mp new] at brings
    exact absurd brings other

/-- A merge that neither takes members from an attribute nor brings it any is of no
account. -/
theorem emptiedLast_concat_other (takes : last.source ≠ p) (brings : last.referent ≠ p) :
    EmptiedLast (ms ++ [last]) p ↔ EmptiedLast ms p := by
  have order : ∀ m own : AliasMerge, own.source = p →
      (List.Sublist [m, own] (ms ++ [last]) ↔ List.Sublist [m, own] ms) := by
    intro m own itself
    rw [pair_sublist_concat, or_iff_left]
    rintro ⟨-, rfl⟩
    exact takes itself
  unfold EmptiedLast
  simp only [List.mem_append, List.mem_singleton, or_imp, forall_and, forall_eq]
  constructor
  · rintro ⟨before, -⟩ m member same
    obtain ⟨own, itself, first⟩ := before m member same
    exact ⟨own, itself, (order m own itself).mp first⟩
  · intro before
    refine ⟨fun m member same => ?_, fun same => absurd same brings⟩
    obtain ⟨own, itself, first⟩ := before m member same
    exact ⟨own, itself, (order m own itself).mpr first⟩

end Last

/-- What is left of the members of an attribute after merges: none exactly if its own
merge, if it has had members, comes after all that bring any. -/
theorem members_merges (distinct : (ms.map AliasMerge.source).Nodup)
    (apart : ∀ m ∈ ms, m.source ≠ m.referent)
    (full : ∀ m ∈ ms, ∃ s, r.attribute? m.family m.name = some s ∧ s.members ≠ [])
    (found : r.attribute? p.1 p.2 = some e)
    (there : ∀ m ∈ ms, m.source = p → (r.attribute? m.targetFamily m.target).isSome = true) :
    ∃ e', (ms.foldl mergeAlias r).attribute? p.1 p.2 = some e' ∧
      (e'.members = [] ↔
        EmptiedLast ms p ∧ (e.members ≠ [] → ∃ own ∈ ms, own.source = p)) := by
  -- On the merges made so far; the last one decides, if it concerns the attribute at all.
  induction ms using List.reverseRecOn with
  | nil => exact ⟨e, found, by simp [EmptiedLast]⟩
  | append_singleton ms last ih =>
    have earlier : ∀ m ∈ ms, m ∈ ms ++ [last] := fun m member => List.mem_append_left _ member
    have isLast : last ∈ ms ++ [last] := by simp
    obtain ⟨distinct', fresh⟩ : (ms.map AliasMerge.source).Nodup ∧
        ∀ m ∈ ms, m.source ≠ last.source := by
      rw [List.map_append, List.nodup_append] at distinct
      exact ⟨distinct.1, fun m member => distinct.2.2 _ (List.mem_map_of_mem member) _ (by simp)⟩
    obtain ⟨e₁, found₁, left⟩ := ih distinct' (fun m member => apart m (earlier m member))
      (fun m member => full m (earlier m member)) (fun m member => there m (earlier m member))
    -- The source of the last merge still has the members it has had from the start.
    obtain ⟨s, here, some⟩ := full last isLast
    obtain ⟨s₁, here₁, kept⟩ := merges_keep (p := last.source) here fun m member same =>
      absurd same (fresh m member)
    have some₁ : s₁.members ≠ [] := by
      intro none
      rw [none] at kept
      exact some (List.prefix_nil.mp kept)
    obtain ⟨e₂, found₂, given, taken, other⟩ := members_mergeAlias here₁ some₁ found₁
      fun takes => (declared_merges ms r _ _).trans (there last isLast takes)
    refine ⟨e₂, by rw [List.foldl_append]; exact found₂, ?_⟩
    by_cases brings : last.referent = p
    · apply iff_of_false (given brings)
      rintro ⟨emptied, -⟩
      exact not_emptiedLast_concat (fun listed => fresh last listed rfl) brings emptied
    · by_cases takes : last.source = p
      · exact iff_of_true (taken brings takes)
          ⟨emptiedLast_concat takes brings, fun _ => ⟨last, isLast, takes⟩⟩
      · rw [other brings takes, left, emptiedLast_concat_other takes brings]
        simp [or_and_right, exists_or, takes]

/-- An attribute with an alias of another name that leads somewhere has no members after
merging exactly if every merge that brings it members comes before its own merge. One
that has had no members is not merged itself, so any merge that brings it members leaves
it with some. -/
theorem mergeAliases_empties_iff {family name target : String} {home : Option String}
    (found : r.attribute? family name = some e)
    (refers : e.reference = some (.byAlias target home)) (other : target ≠ name)
    (there : (r.attribute? (home.getD family) target).isSome = true) :
    ∃ e', r.mergeAliases.attribute? family name = some e' ∧
      (e'.members = [] ↔ ∀ m ∈ r.aliasMerges, m.referent = (family, name) →
        ∃ own, own.source = (family, name) ∧ List.Sublist [m, own] r.aliasMerges) := by
  have apart : ∀ m ∈ r.aliasMerges, m.source ≠ m.referent := by
    intro m member same
    obtain ⟨_, _, -, -, -, different, -⟩ := mem_aliasMerges_iff.mp member
    exact different (congrArg Prod.snd same).symm
  have full : ∀ m ∈ r.aliasMerges, ∃ s, r.attribute? m.family m.name = some s ∧ s.members ≠ [] := by
    intro m member
    obtain ⟨s, _, known, some, -⟩ := mem_aliasMerges_iff.mp member
    exact ⟨s, known, some⟩
  have leads : ∀ m ∈ r.aliasMerges, m.source = (family, name) →
      (r.attribute? m.targetFamily m.target).isSome = true := by
    intro m member takes
    obtain ⟨targetFamily, same⟩ := referent_of_mem_aliasMerges member takes found refers
    rw [targetFamily, same]
    exact there
  obtain ⟨e', found', left⟩ := members_merges r.distinct_sources apart full
    (p := (family, name)) found leads
  refine ⟨e', found', left.trans (and_iff_left fun some => ?_)⟩
  refine ⟨⟨family, name, home.getD family, target⟩, ?_, rfl⟩
  exact mem_aliasMerges_iff.mpr ⟨e, home, found, some, refers, other, rfl⟩

/-- A collection with one member, and the collection that it shares members with. -/
def sheetCollection (name member : String) (shared : Option String) : Entity where
  name := name
  grammar := ⟨"collection", "collection", false⟩
  reference := shared.map fun collection => .byAlias collection none
  members := [{ name := member, grammar := ⟨"keyword", "keyword", false⟩, isMember := true }]

def coverFront : Entity := sheetCollection "cover-front" "cover-type" none

def coverBack : Entity := sheetCollection "cover-back" "media" (some "cover-front")

def insertSheet : Entity := sheetCollection "insert-sheet" "sheet-count" (some "cover-back")

/-- A registry of one family. -/
def ofTemplate (attributes : List Entity) : Registry where
  families := .ofList [⟨"Job Template", .ofList attributes⟩]

/-- In the order of the chain, every alias is left without members. -/
theorem mergeAliases_empties_iff_of_sheets :
    let r := ofTemplate [insertSheet, coverBack, coverFront]
    ∃ e', r.mergeAliases.attribute? "Job Template" "cover-back" = some e' ∧ e'.members = [] := by
  intro r
  have found : r.attribute? "Job Template" "cover-back" = some coverBack := by rfl
  have there : (r.attribute? "Job Template" "cover-front").isSome = true := by decide
  have merges : r.aliasMerges =
      [⟨"Job Template", "insert-sheet", "Job Template", "cover-back"⟩,
       ⟨"Job Template", "cover-back", "Job Template", "cover-front"⟩] := by
    decide
  obtain ⟨e', left, empty⟩ := mergeAliases_empties_iff found rfl (by decide) there
  refine ⟨e', left, empty.mpr fun m member brings => ?_⟩
  rw [merges] at member ⊢
  rcases List.mem_cons.mp member with rfl | last
  · exact ⟨_, rfl, List.Sublist.refl _⟩
  · obtain rfl := List.mem_singleton.mp last
    exact absurd brings (by decide)

/-- A merge that comes later brings new members to an alias that has been emptied. -/
theorem mergeAliases_not_empties : ¬ ∀ (r : Registry) (family name target : String)
    (home : Option String) (e e' : Entity), r.attribute? family name = some e →
      e.reference = some (.byAlias target home) → target ≠ name →
      (r.attribute? (home.getD family) target).isSome = true →
      r.mergeAliases.attribute? family name = some e' → e'.members = [] := by
  intro empties
  let r := ofTemplate [coverBack, coverFront, insertSheet]
  have found : r.attribute? "Job Template" "cover-back" = some coverBack := by rfl
  have there : (r.attribute? "Job Template" "cover-front").isSome = true := by decide
  have refilled : (r.mergeAliases.attribute? "Job Template" "cover-back").map
      (fun e => Named.names e.members) = some ["sheet-count"] := by
    decide
  obtain ⟨e', left, names⟩ := Option.map_eq_some_iff.mp refilled
  have empty := empties r "Job Template" "cover-back" "cover-front" none coverBack e'
    found rfl (by decide) there left
  rw [empty] at names
  cases names

end Registry

end PrintRegistry
