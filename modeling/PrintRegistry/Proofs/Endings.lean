import Mathlib.Data.List.Infix
import PrintRegistry.Proofs.Lookup
import PrintRegistry.Proofs.Text

/-!
Names that carry endings. A name without an entry that ends in `-default`, `-supported`,
`-actual` or `-supplied` stands for the name before the ending, and this goes on from the
outermost ending to the innermost. The exception is `-supported` after the name of a known
collection: it stands for the names of the members, and what is under it is not looked at.
-/

namespace PrintRegistry.Scope

/-- The endings of the variants of an attribute. -/
def endings : List String := ["-default", "-supported", "-actual", "-supplied"]

/-- A name with a stack of endings, the innermost first. -/
def stacked (base : String) (stack : List String) : String :=
  stack.foldl (· ++ ·) base

/-- Some `-supported` of the stack stands after the name of a known collection, which is the
base with the endings `inner`. -/
def ListsMembers (s : Scope) (base : String) (stack inner : List String) : Prop :=
  inner ++ ["-supported"] <+: stack ∧ s.isCollection (stacked base inner) = true

/-- A name with a stack of endings means the members of the collection under the outermost
`-supported` that lists members, or else what its base means. -/
def StackMeans (s : Scope) (base : String) (own : Option Resolved) (stack : List String)
    (found : Option Resolved) : Prop :=
  (∃ inner, s.ListsMembers base stack inner ∧
      (∀ other, s.ListsMembers base stack other → other.length ≤ inner.length) ∧
      found = some (.members (stacked base inner))) ∨
    (∀ inner, ¬ s.ListsMembers base stack inner) ∧ found = own

variable {s : Scope} {base ending : String} {inner stack : List String}

@[simp] theorem stacked_concat (base ending : String) (inner : List String) :
    stacked base (inner ++ [ending]) = stacked base inner ++ ending :=
  List.foldl_concat _ _ _ _

theorem length_stacked_le (base : String) {part : List String} (h : part <+: stack) :
    (stacked base part).length ≤ (stacked base stack).length := by
  induction stack using List.reverseRecOn with
  | nil => rw [List.prefix_nil.mp h]
  | append_singleton inner ending ih =>
    rcases List.prefix_concat_iff.mp h with rfl | h
    · exact Nat.le_refl _
    · rw [stacked_concat, String.length_append]
      exact Nat.le_add_right_of_le (ih h)

/-- One ending more adds one reading as members at most. -/
theorem listsMembers_concat {other : List String} :
    s.ListsMembers base (inner ++ [ending]) other ↔
      (other = inner ∧ ending = "-supported" ∧ s.isCollection (stacked base inner) = true) ∨
        s.ListsMembers base inner other := by
  simp only [ListsMembers, List.prefix_concat_iff, or_and_right]
  refine or_congr_left ⟨?_, ?_⟩
  · rintro ⟨same, known⟩
    obtain ⟨rfl, rfl⟩ : other = inner ∧ "-supported" = ending := by simpa using same
    exact ⟨rfl, rfl, known⟩
  · rintro ⟨rfl, rfl, known⟩
    exact ⟨rfl, known⟩

namespace StackMeans

variable {own found : Option Resolved}

theorem nil : s.StackMeans base own [] own := by
  refine Or.inr ⟨fun inner lists => ?_, rfl⟩
  have empty := List.prefix_nil.mp lists.1
  simp at empty

/-- The outermost ending decides if it stands after the name of a collection. -/
theorem members (known : s.isCollection (stacked base inner) = true) :
    s.StackMeans base own (inner ++ ["-supported"]) (some (.members (stacked base inner))) := by
  refine Or.inl ⟨inner, ⟨List.prefix_rfl, known⟩, fun other lists => ?_, rfl⟩
  have short := lists.1.length_le
  simpa using short

/-- Otherwise the name means what it means without that ending. -/
theorem concat (h : s.StackMeans base own inner found)
    (other : ¬ (ending = "-supported" ∧ s.isCollection (stacked base inner) = true)) :
    s.StackMeans base own (inner ++ [ending]) found := by
  have same : ∀ part, s.ListsMembers base (inner ++ [ending]) part ↔
      s.ListsMembers base inner part := by
    intro part
    rw [listsMembers_concat]
    exact or_iff_right fun ⟨_, listed⟩ => other listed
  simpa only [StackMeans, same] using h

theorem isSome (h : s.StackMeans base own stack found) (some : own.isSome = true) :
    found.isSome = true := by
  rcases h with ⟨inner, -, -, rfl⟩ | ⟨-, rfl⟩
  · rfl
  · exact some

end StackMeans

/-- Of the endings, a name loses the one it has and no other. -/
theorem withoutEnding?_of_endings {other : String} (h : ending ∈ endings) (known : other ∈ endings)
    (base : String) :
    Text.withoutEnding? (base ++ ending) other = if other = ending then some base else none := by
  have apart : ∀ x ∈ endings, ∀ y ∈ endings, x ≠ y → ¬ x.toList <:+ y.toList := by decide
  by_cases same : other = ending
  · rw [same, Text.withoutEnding?_append, if_pos rfl]
  · rw [if_neg same]
    exact Text.withoutEnding?_append_other base (apart other known ending h same)
      (apart ending h other known (Ne.symm same))

/-- The first fallback of a name with an ending is about the name before it. -/
theorem all_append (h : ending ∈ endings) (base : String) :
    ∃ rest, Fallback.all s (base ++ ending) =
      (if ending = "-supported" ∧ s.isCollection base = true then .members base
        else .retry base) :: rest := by
  have lost : ∀ other ∈ endings, Text.withoutEnding? (base ++ ending) other =
      if other = ending then some base else none :=
    fun other known => withoutEnding?_of_endings h known base
  simp only [endings, List.forall_mem_cons] at lost
  -- The conventions about endings come before all others.
  have first : (List.take 4 (Fallback.conventions s)).filterMap (· (base ++ ending)) =
      [if ending = "-supported" ∧ s.isCollection base = true then .members base
        else .retry base] := by
    simp only [endings, List.mem_cons, List.not_mem_nil, or_false] at h
    rcases h with rfl | rfl | rfl | rfl <;>
      simp [Fallback.conventions, Fallback.withoutEnding?, Fallback.supported?, lost]
  refine ⟨(List.drop 4 (Fallback.conventions s)).filterMap (· (base ++ ending)), ?_⟩
  rw [Fallback.all, ← List.take_append_drop 4 (Fallback.conventions s), List.filterMap_append,
    first, List.take_append_drop, List.singleton_append]

theorem stacked_ne_append {part : List String} (h : part <+: inner) (some : ending ∈ endings) :
    stacked base part ≠ stacked base inner ++ ending := by
  have nonempty : ∀ x ∈ endings, 0 < x.length := by decide
  have positive := nonempty ending some
  have shorter := length_stacked_le base h
  intro same
  rw [same, String.length_append] at shorter
  omega

section OneEnding

variable {limit : Nat} {seen : List String} (new : base ++ ending ∉ seen)
  (absent : s.table.find? (base ++ ending) = none) (known : ending ∈ endings)

include new absent known

/-- A `-supported` after the name of a collection ends the search. -/
theorem search_listing (lists : ending = "-supported" ∧ s.isCollection base = true) :
    (s.search (limit + 1) (base ++ ending) seen).1 = some (.members base) := by
  obtain ⟨rest, proposed⟩ := all_append (s := s) known base
  simp only [search, if_neg new, absent, proposed, if_pos lists, firstResolved]

/-- Any other ending is passed over, if the name before it means something. -/
theorem search_passing (other : ¬ (ending = "-supported" ∧ s.isCollection base = true))
    {found : Resolved} (deeper : (s.search limit base ((base ++ ending) :: seen)).1 = some found) :
    (s.search (limit + 1) (base ++ ending) seen).1 = some found := by
  obtain ⟨rest, proposed⟩ := all_append (s := s) known base
  simp only [search, if_neg new, absent, proposed, if_neg other, firstResolved]
  cases looked : s.search limit base ((base ++ ending) :: seen) with
  | mk result after =>
    obtain rfl : result = some found := by simpa [looked] using deeper
    rfl

end OneEnding

/-- A search goes through the endings one after another, the outermost first. The names on
the way get shorter, so that none of them has been seen. -/
theorem search_stacked {e : Entity} (entry : s.table.find? base = some e)
    (last : e.target? = none) (readable : e.unreadable = false) (known : ∀ x ∈ stack, x ∈ endings)
    (missing : ∀ part, part <+: stack → part ≠ [] → s.table.find? (stacked base part) = none)
    {limit : Nat} {seen : List String} (short : stack.length ≤ limit)
    (fresh : ∀ part, part <+: stack → stacked base part ∉ seen) :
    s.StackMeans base (settle e) stack (s.search (limit + 1) (stacked base stack) seen).1 := by
  induction stack using List.reverseRecOn generalizing limit seen with
  | nil =>
    have new : base ∉ seen := fresh [] List.prefix_rfl
    simp only [stacked, List.foldl_nil, search, if_neg new, entry, last]
    exact .nil
  | append_singleton inner ending ih =>
    have outer : ending ∈ endings := known ending (by simp)
    have new : stacked base inner ++ ending ∉ seen := by
      simpa using fresh _ List.prefix_rfl
    have absent : s.table.find? (stacked base inner ++ ending) = none := by
      simpa using missing _ List.prefix_rfl (by simp)
    rw [stacked_concat]
    by_cases lists : ending = "-supported" ∧ s.isCollection (stacked base inner) = true
    · rw [search_listing new absent outer lists]
      obtain ⟨rfl, collection⟩ := lists
      exact .members collection
    · obtain ⟨limit, rfl⟩ : ∃ fewer, limit = fewer + 1 :=
        Nat.exists_eq_succ_of_ne_zero (by rintro rfl; simp at short)
      have within : ∀ {part}, part <+: inner → part <+: inner ++ [ending] :=
        fun h => h.trans (List.prefix_append inner [ending])
      have later : ∀ part, part <+: inner →
          stacked base part ∉ (stacked base inner ++ ending) :: seen := by
        intro part h old
        rcases List.mem_cons.mp old with same | old
        · exact stacked_ne_append h outer same
        · exact fresh part (within h) old
      have meaning := ih (fun x member => known x (List.mem_append_left _ member))
        (fun part h => missing part (within h)) (Nat.le_of_succ_le_succ (by simpa using short)) later
      have some : (settle e).isSome = true := by
        rw [Option.isSome_iff_ne_none, ne_eq, settle_eq_none_iff, readable]
        exact Bool.false_ne_true
      obtain ⟨found, deeper⟩ := Option.isSome_iff_exists.mp (meaning.isSome some)
      rw [search_passing new absent outer lists deeper]
      exact (deeper ▸ meaning).concat lists

/-- A name with a stack of endings, none of which makes an entry of its own, means the
members of the collection under the outermost `-supported` that stands after the name of
one, and otherwise what the entry of its base means. -/
theorem resolve_stacked {e : Entity} (entry : s.table.find? base = some e)
    (last : e.target? = none) (readable : e.unreadable = false) (known : ∀ x ∈ stack, x ∈ endings)
    (missing : ∀ part, part <+: stack → part ≠ [] → s.table.find? (stacked base part) = none)
    (short : stack.length ≤ depthLimit) :
    s.StackMeans base (settle e) stack (s.resolve (stacked base stack)) :=
  search_stacked entry last readable known missing short fun _ _ => List.not_mem_nil

/-- Both `-supported` stand after the name of a collection, and the outer one is meant. -/
theorem resolve_stacked_of_sheets :
    let sheets := Entity.keyword "job-sheets" none
    let s : Scope := {
      table := .ofList [sheets]
      isCollection := fun name => name == "job-sheets" || name == "job-sheets-supported" }
    s.StackMeans "job-sheets" (some (.entity sheets)) ["-supported", "-supported", "-actual"]
      (some (.members "job-sheets-supported")) := by
  intro sheets s
  have found : s.resolve "job-sheets-supported-supported-actual" =
      some (.members "job-sheets-supported") := by with_unfolding_all rfl
  let stack := ["-supported", "-supported", "-actual"]
  have parts : ∀ part ∈ stack.inits, part ≠ [] →
      (s.table.find? (stacked "job-sheets" part)).isNone = true := by decide
  have missing : ∀ part, part <+: stack → part ≠ [] →
      s.table.find? (stacked "job-sheets" part) = none := by
    intro part h some
    exact Option.isNone_iff_eq_none.mp (parts part ((List.mem_inits part stack).mpr h) some)
  have entry : s.table.find? "job-sheets" = some sheets := rfl
  rw [← found]
  exact resolve_stacked entry rfl rfl (by decide) missing (by decide)

end PrintRegistry.Scope
