import Mathlib.Data.List.Forall2
import Mathlib.Data.List.Nodup
import Mathlib.Data.List.Perm.Subperm
import PrintRegistry.Proofs.Table

/-!
Lists that match: they have entries of the same names, and entries of one name are related. Only
the entries of the first list are looked up, but the lists are of one length and their names are
distinct, so that no entry of the second is left over. Hence matching is as symmetric as the
relation of the entries is, and it is the same as being related one by one in some order.
-/

namespace PrintRegistry

theorem exists_of_forall₂ {α β : Type} {R : α → β → Prop} {xs : List α} {ys : List β}
    (h : List.Forall₂ R xs ys) {x : α} (member : x ∈ xs) : ∃ y ∈ ys, R x y := by
  induction h with
  | nil => cases member
  | cons related _ ih =>
    rcases List.mem_cons.mp member with rfl | later
    · exact ⟨_, List.mem_cons_self, related⟩
    · obtain ⟨y, present, related'⟩ := ih later
      exact ⟨y, List.mem_cons_of_mem _ present, related'⟩

namespace Named

variable {α : Type} [Named α] {R S : α → α → Prop} {xs ys zs : List α}

/-- The lists are of one length, and under the name of each entry of the first one the second
has an entry that is related to it. -/
def Matches (R : α → α → Prop) (xs ys : List α) : Prop :=
  xs.length = ys.length ∧ ∀ x ∈ xs, ∃ y, find? ys (nameOf x) = some y ∧ R x y

theorem agree_iff {alike : α → α → Bool} :
    agree alike xs ys = true ↔ Matches (fun x y => alike x y = true) xs ys := by
  unfold agree
  rw [Bool.and_eq_true, beq_iff_eq, List.all_eq_true]
  apply and_congr Iff.rfl
  apply forall₂_congr
  intro x _
  cases find? ys (nameOf x) <;> simp

theorem matches_self (distinct : (names xs).Nodup) (self : ∀ x ∈ xs, R x x) : Matches R xs xs :=
  ⟨rfl, fun x member => ⟨x, find?_of_mem distinct member, self x member⟩⟩

namespace Matches

theorem imp (h : Matches R xs ys) (relates : ∀ x ∈ xs, ∀ y ∈ ys, nameOf y = nameOf x →
    R x y → S x y) : Matches S xs ys := by
  refine ⟨h.1, fun x member => ?_⟩
  obtain ⟨y, found, related⟩ := h.2 x member
  obtain ⟨present, named⟩ := mem_of_find? found
  exact ⟨y, found, relates x member y present named related⟩

theorem trans {T : α → α → Prop} (first : Matches R xs ys) (second : Matches S ys zs)
    (composes : ∀ x ∈ xs, ∀ y ∈ ys, ∀ z ∈ zs, R x y → S y z → T x z) : Matches T xs zs := by
  refine ⟨first.1.trans second.1, fun x member => ?_⟩
  obtain ⟨y, found, related⟩ := first.2 x member
  obtain ⟨present, named⟩ := mem_of_find? found
  obtain ⟨z, found', related'⟩ := second.2 y present
  exact ⟨z, named ▸ found', composes x member y present z (mem_of_find? found').1 related related'⟩

/-- No name of the second list is missing from the first, since there are only as many. -/
theorem perm_names (h : Matches R xs ys) (distinct : (names xs).Nodup) :
    (names xs).Perm (names ys) := by
  have sub : names xs ⊆ names ys := by
    intro name listed
    obtain ⟨x, member, rfl⟩ := List.mem_map.mp listed
    obtain ⟨y, found, -⟩ := h.2 x member
    exact find?_isSome_iff.mp ⟨y, found⟩
  apply (distinct.subperm sub).perm_of_length_le
  simp [names, h.1]

theorem symm (h : Matches R xs ys) (distinct : (names xs).Nodup) (distinct' : (names ys).Nodup)
    (converse : ∀ x ∈ xs, ∀ y ∈ ys, R x y → S y x) : Matches S ys xs := by
  refine ⟨h.1.symm, fun y member => ?_⟩
  obtain ⟨x, present, named⟩ :=
    List.mem_map.mp ((h.perm_names distinct).mem_iff.mpr (mem_names member))
  obtain ⟨y', found, related⟩ := h.2 x present
  have itself : y' = y := by
    rw [named, find?_of_mem distinct' member] at found
    exact (Option.some.inj found).symm
  subst itself
  exact ⟨x, named ▸ find?_of_mem distinct present, converse x present y' member related⟩

end Matches

theorem names_eq_of_forall₂ (named : ∀ x y, R x y → nameOf x = nameOf y)
    (h : List.Forall₂ R xs ys) : names xs = names ys := by
  induction h with
  | nil => rfl
  | cons related _ ih => exact List.cons_eq_cons.mpr ⟨named _ _ related, ih⟩

/-- The entries found under the names of a list, one by one. -/
theorem forall₂_found (found : ∀ y ∈ ys, ∃ x, find? xs (nameOf y) = some x ∧ R x y) :
    List.Forall₂ R (ys.filterMap fun y => find? xs (nameOf y)) ys := by
  induction ys with
  | nil => exact .nil
  | cons y ys ih =>
    obtain ⟨x, here, related⟩ := found y List.mem_cons_self
    rw [List.filterMap_cons, here]
    exact .cons related (ih fun y later => found y (List.mem_cons_of_mem _ later))

/-- Lists match if one of them can be brought into an order in which its entries are related to
those of the other one by one. -/
theorem matches_iff_perm (named : ∀ x y, R x y → nameOf x = nameOf y)
    (distinct : (names xs).Nodup) (distinct' : (names ys).Nodup) :
    Matches R xs ys ↔ ∃ zs, xs.Perm zs ∧ List.Forall₂ R zs ys := by
  constructor
  · intro h
    have found := (h.symm (S := fun y x => R x y) distinct distinct' fun _ _ _ _ related =>
      related).2
    have related := forall₂_found found
    refine ⟨_, List.Perm.symm ?_, related⟩
    have each : (ys.filterMap fun y => find? xs (nameOf y)).Nodup := by
      apply List.Nodup.of_map nameOf
      have same := names_eq_of_forall₂ named related
      rw [names] at same
      rw [same]
      exact distinct'
    have sub : (ys.filterMap fun y => find? xs (nameOf y)) ⊆ xs := by
      intro x listed
      obtain ⟨y, -, here⟩ := List.mem_filterMap.mp listed
      exact (mem_of_find? here).1
    apply (each.subperm sub).perm_of_length_le
    rw [related.length_eq]
    exact Nat.le_of_eq h.1
  · rintro ⟨zs, order, related⟩
    refine ⟨order.length_eq.trans related.length_eq, fun x member => ?_⟩
    obtain ⟨y, present, here⟩ := exists_of_forall₂ related (order.mem_iff.mp member)
    exact ⟨y, named x y here ▸ find?_of_mem distinct' present, here⟩

theorem matches_eq_iff_perm (distinct : (names xs).Nodup) (distinct' : (names ys).Nodup) :
    Matches Eq xs ys ↔ xs.Perm ys := by
  rw [matches_iff_perm (fun _ _ same => congrArg nameOf same) distinct distinct']
  simp only [List.forall₂_eq_eq_eq, exists_eq_right]

end Named

end PrintRegistry
