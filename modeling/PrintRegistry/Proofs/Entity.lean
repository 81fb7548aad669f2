import PrintRegistry.Entity.Agreement
import PrintRegistry.Proofs.Matching

/-!
Members of entities. If names are distinct at every depth, entities that declare
the same have members of the same names, and so have their members: a path of
names that leads down one of them leads down the other.
-/

namespace PrintRegistry

/-- A path of names leads from the entries of a list down to what is inside
them. -/
def Nests {α : Type} [Named α] (inside : α → List α) : List α → List String → Prop
  | _, [] => True
  | xs, name :: path => ∃ x ∈ xs, nameOf x = name ∧ Nests inside (inside x) path

theorem nests_nil {α : Type} [Named α] (inside : α → List α) (xs : List α) :
    Nests inside xs [] := by
  cases xs <;> trivial

namespace Entity

/-- A property that passes from the members of an entity to the entity holds of
all entities. -/
theorem memberInduction {motive : Entity → Prop}
    (step : ∀ e, (∀ m ∈ e.members, motive m) → motive e) (e : Entity) : motive e := by
  refine Entity.rec (motive_1 := motive) (motive_2 := fun ms => ∀ m ∈ ms, motive m) ?_ ?_ ?_ e
  · intro name grammar specs values reference members unreadable hexadecimal isMember mayBeEmpty
      keywordType note emitted ih
    exact step _ ih
  · intro m member
    cases member
  · intro m ms ihm ihms x member
    rcases List.mem_cons.mp member with same | later
    · exact same ▸ ihm
    · exact ihms x later

/-- An entity is in a list, or among the members of one that is, at any depth. -/
inductive Inside (e : Entity) : List Entity → Prop where
  | here {ms : List Entity} (member : e ∈ ms) : e.Inside ms
  | deeper {m : Entity} {ms : List Entity} (member : m ∈ ms) (inside : e.Inside m.members) :
    e.Inside ms

/-- The members at every depth have distinct names. -/
inductive Distinct : Entity → Prop where
  | intro {e : Entity} (names : (Named.names e.members).Nodup)
      (members : ∀ m ∈ e.members, m.Distinct) : e.Distinct

namespace Distinct

theorem names {e : Entity} (h : e.Distinct) : (Named.names e.members).Nodup := by
  cases h
  assumption

theorem members {e m : Entity} (h : e.Distinct) (member : m ∈ e.members) : m.Distinct := by
  cases h with
  | intro _ members => exact members m member

theorem congr {e e' : Entity} (same : e'.members = e.members) (h : e.Distinct) : e'.Distinct :=
  .intro (same ▸ h.names) fun _ member => h.members (same ▸ member)

theorem ofNoMembers {e : Entity} (none : e.members = []) : e.Distinct :=
  .intro (by simp [none, Named.names]) (by simp [none])

theorem put {e m : Entity} (h : e.Distinct) (inner : m.Distinct) :
    ({ e with members := Named.put e.members m } : Entity).Distinct := by
  refine .intro (Named.nodup_names_put h.names m) fun x member => ?_
  rcases Named.mem_put member with same | old
  · exact same ▸ inner
  · exact h.members old

end Distinct

/-- Putting a member in keeps all paths if it has the paths of the one it takes
the place of. -/
theorem nests_put {ms : List Entity} (distinct : (Named.names ms).Nodup) {a : Entity}
    {path : List String} (h : Nests members ms path)
    (wider : ∀ old rest, Named.find? ms a.name = some old → path = a.name :: rest →
      Nests members old.members rest → Nests members a.members rest) :
    Nests members (Named.put ms a) path := by
  cases path with
  | nil => exact nests_nil _ _
  | cons name path =>
    obtain ⟨m, member, named, inner⟩ := h
    have found : Named.find? ms m.name = some m := Named.find?_of_mem distinct member
    have after := Named.find?_put ms a m.name
    by_cases same : nameOf a = m.name
    · rw [if_pos same] at after
      have replaced : Named.find? ms a.name = some m := (congrArg _ same).trans found
      have first : a.name = name := same.trans named
      exact ⟨a, (Named.mem_of_find? after).1, first, wider m path replaced (first ▸ rfl) inner⟩
    · rw [if_neg same, found] at after
      exact ⟨m, (Named.mem_of_find? after).1, named, inner⟩

theorem nests_put_self (ms : List Entity) (a : Entity) {path : List String}
    (h : Nests members a.members path) : Nests members (Named.put ms a) (a.name :: path) := by
  have found : Named.find? (Named.put ms a) a.name = some a :=
    (Named.find?_put ms a a.name).trans (if_pos rfl)
  exact ⟨a, (Named.mem_of_find? found).1, rfl, h⟩

theorem declaredIn_iff {xs ys : List Entity} :
    declaredIn xs ys = true ↔
      ∀ x ∈ xs, ∃ y, Named.find? ys x.name = some y ∧ x.sameDeclaration y = true := by
  induction xs with
  | nil => simp [declaredIn]
  | cons x xs ih =>
    rw [declaredIn, Bool.and_eq_true, ih, List.forall_mem_cons]
    refine and_congr ?_ Iff.rfl
    cases found : Named.find? ys x.name <;> simp

theorem sameMembers_iff {a b : Entity} : a.sameMembers b = true ↔
    Named.Matches (fun x y => x.sameDeclaration y = true) a.members b.members := by
  unfold sameMembers
  rw [Bool.and_eq_true, beq_iff_eq, declaredIn_iff]
  rfl

theorem sameDeclaration_iff {a b : Entity} : a.sameDeclaration b = true ↔
    a.name = b.name ∧ (a.grammar == b.grammar) = true ∧ a.values.agree b.values = true ∧
      a.reference = b.reference ∧ a.unreadable = b.unreadable ∧ a.sameMembers b = true := by
  cases a
  rw [sameDeclaration, sameMembers]
  simp only [Bool.and_eq_true, beq_iff_eq, and_assoc]

theorem sameMembers_of_sameDeclaration {a b : Entity} (h : a.sameDeclaration b = true) :
    a.sameMembers b = true :=
  (sameDeclaration_iff.mp h).2.2.2.2.2

theorem grammar_of_sameDeclaration {a b : Entity} (h : a.sameDeclaration b = true) :
    (a.grammar == b.grammar) = true :=
  (sameDeclaration_iff.mp h).2.1

end Entity

end PrintRegistry
