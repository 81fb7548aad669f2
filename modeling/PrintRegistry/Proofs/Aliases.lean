import Mathlib.Logic.Relation
import PrintRegistry.Proofs.Assembly

/-!
Where merging takes members. A member moves along the alias of its collection,
and is dropped only where the collection meant declares it already; if it is
declared differently there, that is reported. So unless something is reported,
every path of names can still be followed, from the same attribute or from one
that aliases lead to.
-/

namespace PrintRegistry

namespace AliasMerge

theorem members_moveMember (collection : String) (moved : List Entity × List Finding)
    (m : Entity) :
    (moveMember collection moved m).1 = moved.1 ∨
      Named.find? moved.1 m.name = none ∧ (moveMember collection moved m).1 = moved.1 ++ [m] := by
  cases found : Named.find? moved.1 m.name with
  | some kept =>
    left
    simp only [moveMember, found]
    split <;> rfl
  | none =>
    right
    simp only [moveMember, found, true_and]
    exact Named.put_of_new (Named.find?_eq_none_iff.mp found)

theorem find?_moveMember (collection : String) (moved : List Entity × List Finding) (m : Entity)
    (name : String) : Named.find? (moveMember collection moved m).1 name =
      (Named.find? moved.1 name).or (Named.find? [m] name) := by
  cases found : Named.find? moved.1 m.name with
  | some kept =>
    have there : (Named.find? moved.1 name).or (Named.find? [m] name) =
        Named.find? moved.1 name := by
      by_cases here : m.name = name
      · rw [← here, found, Option.some_or]
      · simp [Named.find?, nameOf, here]
    rw [there]
    simp only [moveMember, found]
    split <;> rfl
  | none =>
    have added := Named.put_of_new (Named.find?_eq_none_iff.mp found)
    simp only [moveMember, found, added]
    exact List.find?_append

/-- A member is there, or one that is declared the same way. -/
def Settled (m : Entity) (moved : List Entity × List Finding) : Prop :=
  ∃ kept, Named.find? moved.1 m.name = some kept ∧ (kept = m ∨ kept.sameDeclaration m = true)

/-- A member is reported, since its collection declares it differently. -/
def Reported (collection : String) (m : Entity) (findings : List Finding) : Prop :=
  ∃ kept, .memberConflict collection kept m ∈ findings

theorem findings_moveMember (collection : String) (moved : List Entity × List Finding)
    (m : Entity) : moved.2 <+: (moveMember collection moved m).2 := by
  rw [moveMember]
  split
  · split
    · exact List.prefix_rfl
    · exact List.prefix_append ..
  · exact List.prefix_rfl

theorem settled_or_reported_moveMember (collection : String)
    (moved : List Entity × List Finding) (m : Entity) :
    Settled m (moveMember collection moved m) ∨
      Reported collection m (moveMember collection moved m).2 := by
  have after := find?_moveMember collection moved m m.name
  cases found : Named.find? moved.1 m.name with
  | some kept =>
    rw [found, Option.some_or] at after
    by_cases same : kept.sameDeclaration m = true
    · exact Or.inl ⟨kept, after, Or.inr same⟩
    · refine Or.inr ⟨kept, ?_⟩
      simp [moveMember, found, same]
  | none =>
    rw [found, Option.none_or] at after
    exact Or.inl ⟨m, after.trans (by simp [Named.find?, nameOf]), Or.inl rfl⟩

theorem find?_moveMembers (collection : String) (members incoming : List Entity) (name : String) :
    Named.find? (moveMembers collection members incoming).1 name =
      (Named.find? members name).or (Named.find? incoming name) := by
  induction incoming using List.reverseRecOn with
  | nil => simp [moveMembers, Named.find?]
  | append_singleton incoming last ih =>
    rw [moveMembers] at ih ⊢
    rw [List.foldl_append, List.foldl_cons, List.foldl_nil, find?_moveMember, ih, Option.or_assoc]
    simp [Named.find?]

/-- Every member that is moved is there in the end, or one that is declared the same way,
or else it is reported. -/
theorem settled_or_reported_moveMembers (collection : String) (members incoming : List Entity) :
    ∀ m ∈ incoming, Settled m (moveMembers collection members incoming) ∨
      Reported collection m (moveMembers collection members incoming).2 := by
  refine foldl_settles
    (motive := fun m moved => Settled m moved ∨ Reported collection m moved.2)
    (fun _ => True) (fun _ _ _ _ => trivial)
    (fun moved _ m _ => settled_or_reported_moveMember collection moved m) ?_ trivial
  rintro moved - m (⟨kept, found, same⟩ | ⟨kept, reported⟩) other -
  · refine Or.inl ⟨kept, ?_, same⟩
    rw [find?_moveMember, found, Option.some_or]
  · exact Or.inr ⟨kept, (findings_moveMember collection moved other).subset reported⟩

/-- Members that are there keep their places, and others come after them. -/
theorem prefix_moveMembers (collection : String) (members incoming : List Entity) :
    members <+: (moveMembers collection members incoming).1 := by
  refine List.foldlRecOn (motive := fun moved : List Entity × List Finding => members <+: moved.1)
    _ _ List.prefix_rfl ?_
  intro moved kept m _
  rcases members_moveMember collection moved m with same | ⟨-, added⟩
  · exact same.symm ▸ kept
  · rw [added]
    exact kept.trans (List.prefix_append ..)

end AliasMerge

namespace Registry

/-- An attribute, given by family and name, takes its members from another one
by an alias. -/
def AliasHop (r : Registry) (p q : String × String) : Prop :=
  ∃ e family, r.attribute? p.1 p.2 = some e ∧ e.reference = some (.byAlias q.2 family) ∧
    q.1 = family.getD p.1

/-- What a merge does: it finds no target, or no source, or moves the members of
the source to the target. -/
theorem mergeAlias_cases (r : Registry) (m : AliasMerge) :
    (r.attribute? m.targetFamily m.target = none ∧
        r.mergeAlias m = r.report (.missingAlias m.name m.target m.targetFamily)) ∨
      (r.attribute? m.family m.name = none ∧ r.mergeAlias m = r) ∨
      ∃ target source moved, r.attribute? m.targetFamily m.target = some target ∧
        r.attribute? m.family m.name = some source ∧
        moved = AliasMerge.moveMembers m.target target.members source.members ∧
        (r.mergeAlias m).findings = r.findings ++ moved.2 ∧
        ∀ family name, (r.mergeAlias m).attribute? family name =
          if family = m.targetFamily ∧ name = m.target then
            some { target with members := moved.1 }
          else if family = m.family ∧ name = m.name then some { source with members := [] }
          else r.attribute? family name := by
  rw [mergeAlias]
  cases known : r.attribute? m.targetFamily m.target with
  | none => exact Or.inl ⟨rfl, rfl⟩
  | some target =>
    cases here : r.attribute? m.family m.name with
    | none => exact Or.inr (Or.inl ⟨rfl, rfl⟩)
    | some source =>
      refine Or.inr (Or.inr ⟨target, source, _, rfl, rfl, rfl, rfl, fun family name => ?_⟩)
      have emptied := attribute?_adjustAttribute r m.family m.name
        (fun e => { e with members := [] }) fun _ => rfl
      have filled := fun members => attribute?_adjustAttribute
        (r.adjustAttribute m.family m.name fun e => { e with members := [] })
        m.targetFamily m.target (fun e => { e with members := members }) (fun _ => rfl) family name
      refine (filled _).trans ?_
      rw [emptied, emptied, known, here]
      by_cases isTarget : family = m.targetFamily ∧ name = m.target
      · rw [if_pos isTarget, if_pos isTarget]
        -- An attribute that is its own target is emptied before it is filled again.
        by_cases same : m.targetFamily = m.family ∧ m.target = m.name
        · rw [same.1, same.2, here] at known
          cases known
          rw [if_pos same]
          rfl
        · rw [if_neg same]
          rfl
      · rw [if_neg isTarget, if_neg isTarget]
        rfl

/-- Merges change members only. -/
theorem declared_merges (ms : List AliasMerge) (r : Registry) (family name : String) :
    ((ms.foldl mergeAlias r).attribute? family name).isSome =
      (r.attribute? family name).isSome := by
  refine foldl_keeps mergeAlias (fun r => (r.attribute? family name).isSome) (fun r m => ?_) ms r
  rw [mergeAlias]
  split
  · rfl
  · split
    · rfl
    · have emptied := attribute?_adjustAttribute_isSome r m.family m.name
        (fun e => { e with members := [] }) (fun _ => rfl) family name
      have filled := fun members => attribute?_adjustAttribute_isSome
        (r.adjustAttribute m.family m.name fun e => { e with members := [] }) m.targetFamily m.target
        (fun e => { e with members := members }) (fun _ => rfl) family name
      exact (filled _).trans emptied

theorem declared_mergeAliases (r : Registry) (family name : String) :
    (r.mergeAliases.attribute? family name).isSome = (r.attribute? family name).isSome :=
  declared_merges _ r family name

theorem aliasHop_of_mem_aliasMerges {r : Registry} {m : AliasMerge} (h : m ∈ r.aliasMerges) :
    r.AliasHop (m.family, m.name) (m.targetFamily, m.target) := by
  obtain ⟨⟨family, e⟩, listed, called⟩ := List.mem_filterMap.mp h
  have known := mem_attributes_iff.mp listed
  dsimp only [AliasMerge.ofAttribute?] at called
  split at called
  · rename_i target targetFamily refers
    split at called
    · cases called
      exact ⟨e, targetFamily, known, refers, rfl⟩
    · cases called
  · cases called

end Registry

end PrintRegistry
