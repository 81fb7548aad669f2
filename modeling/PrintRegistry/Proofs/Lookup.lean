import PrintRegistry.Lookup
import PrintRegistry.Proofs.Table

/-!
What a search finds. A search goes on from a name in one of two ways: to the entry whose
values are shared, or to a name that a convention puts in its stead. It ends at a name that
means something without going on, and it goes there in no more than `depthLimit` steps. So
the answer is an entry of the table that can be read and lists values of its own, or a
collection that is known or that an entry of the table names. One convention takes a
supported-values entry as it stands, so that entry alone may still share the values of
another one, even of one that leads back to it.
-/

namespace PrintRegistry

/-- A way from one name to another by steps. The list has the names that are left behind,
from the first one on, so it is as long as the way. -/
inductive Way (step : String → String → Prop) : String → List String → String → Prop
  | stay (name : String) : Way step name [] name
  | go {name next last : String} {left : List String} (first : step name next)
      (rest : Way step next left last) : Way step name (name :: left) last

namespace Way

variable {step : String → String → Prop} {name last : String} {left : List String}

theorem start_mem (way : Way step name left last) : name ∈ left ++ [last] := by
  cases way with
  | stay => exact List.mem_singleton_self name
  | go => exact List.mem_cons_self

theorem exists_eq_cons (way : Way step name left last) :
    ∃ names, left ++ [last] = name :: names := by
  cases way with
  | stay => exact ⟨[], rfl⟩
  | @go _ _ _ left => exact ⟨left ++ [last], rfl⟩

end Way

/-- A keyword entry that has a name and a reference at most. -/
def Entity.keyword (name : String) (reference : Option Reference) : Entity :=
  { name, grammar := ⟨"keyword", "keyword", false⟩, reference }

/-- What a name may be found to mean. -/
def Resolved.IsAnswer (s : Scope) : Resolved → Prop
  | .entity e =>
    s.table.find? e.name = some e ∧ e.unreadable = false ∧
      (∀ collection, e.reference ≠ some (.byMembers collection)) ∧
      (e.target? = none ∨ Text.endsWith e.name "-supported" = true)
  | .members collection =>
    s.isCollection collection = true ∨
      ∃ e, s.table.find? e.name = some e ∧ e.reference = some (.byMembers collection)

namespace Fallback

/-- What the conventions come to: another name to look up, the member names of a
known collection, or the supported-values entry of the name. -/
theorem all_cases {s : Scope} {name : String} {fallback : Fallback} (h : fallback ∈ all s name) :
    (∃ other, fallback = retry other) ∨
      (∃ collection, fallback = members collection ∧ s.isCollection collection = true) ∨
      fallback = entry (name ++ "-supported") := by
  simp only [all, conventions, List.mem_filterMap, List.mem_cons, List.not_mem_nil, or_false] at h
  obtain ⟨convention, known, taken⟩ := h
  have renamed : ∀ {other : Option String}, other.map retry = some fallback →
      ∃ other, fallback = retry other := by
    intro other found
    obtain ⟨other, -, rfl⟩ := Option.map_eq_some_iff.mp found
    exact ⟨other, rfl⟩
  have chosen : ∀ {condition : Prop} [Decidable condition] {f : Fallback},
      (if condition then some f else none) = some fallback → fallback = f := by
    intro condition _ f found
    split at found
    · exact (Option.some.inj found).symm
    · cases found
  rcases known with rfl | rfl | rfl | rfl | rfl | rfl | rfl | rfl | rfl | rfl
  · exact Or.inl (renamed taken)
  · obtain ⟨base, -, found⟩ := Option.map_eq_some_iff.mp taken
    split at found
    · rename_i collection
      exact Or.inr (Or.inl ⟨base, found.symm, collection⟩)
    · exact Or.inl ⟨base, found.symm⟩
  · exact Or.inl (renamed taken)
  · exact Or.inl (renamed taken)
  · exact Or.inl ⟨_, chosen taken⟩
  · exact Or.inl ⟨_, chosen taken⟩
  · exact Or.inl ⟨_, chosen taken⟩
  · exact Or.inl (renamed taken)
  · exact Or.inl (renamed taken)
  · exact Or.inr (Or.inr (chosen taken))

theorem members_mem_all {s : Scope} {name collection : String}
    (h : members collection ∈ all s name) : s.isCollection collection = true := by
  rcases all_cases h with ⟨other, same⟩ | ⟨known, same, isKnown⟩ | same
  · cases same
  · cases same
    exact isKnown
  · cases same

/-- Only the supported-values entry of a name is taken as it stands. -/
theorem entry_mem_all {s : Scope} {name other : String} (h : entry other ∈ all s name) :
    other = name ++ "-supported" := by
  rcases all_cases h with ⟨next, same⟩ | ⟨known, same, -⟩ | same
  · cases same
  · cases same
  · cases same
    rfl

end Fallback

namespace Scope

/-- The entry of a name shares the values of the entry of the next name. -/
def Shares (s : Scope) (name next : String) : Prop :=
  ∃ e, s.table.find? name = some e ∧ e.target? = some next

/-- A name has no entry, and the next name is one to look up in its stead. -/
def Retries (s : Scope) (name next : String) : Prop :=
  s.table.find? name = none ∧ .retry next ∈ Fallback.all s name

/-- A search may go on from a name to the next one. -/
def Step (s : Scope) (name next : String) : Prop :=
  s.Shares name next ∨ s.Retries name next

/-- A name means something without another name being looked up. -/
inductive Yields (s : Scope) (name : String) : Resolved → Prop
  | own {e : Entity} {found : Resolved} (entry : s.table.find? name = some e)
      (last : e.target? = none) (settled : settle e = some found) : Yields s name found
  | members {collection : String} (missing : s.table.find? name = none)
      (proposed : .members collection ∈ Fallback.all s name) : Yields s name (.members collection)
  | taken {other : String} {e : Entity} {found : Resolved} (missing : s.table.find? name = none)
      (proposed : .entry other ∈ Fallback.all s name) (entry : s.table.find? other = some e)
      (settled : settle e = some found) : Yields s name found

variable {s : Scope} {name : String} {found : Resolved}

theorem settle_cases {e : Entity} (h : settle e = some found) :
    e.unreadable = false ∧
      ((∃ collection, e.reference = some (.byMembers collection) ∧ found = .members collection) ∨
        (∀ collection, e.reference ≠ some (.byMembers collection)) ∧ found = .entity e) := by
  rw [settle] at h
  split at h
  · cases h
  · rename_i readable
    refine ⟨by simpa using readable, ?_⟩
    split at h
    · rename_i collection refers
      exact Or.inl ⟨collection, refers, (Option.some.inj h).symm⟩
    · rename_i other
      exact Or.inr ⟨other, (Option.some.inj h).symm⟩

theorem settle_eq_none_iff {e : Entity} : settle e = none ↔ e.unreadable = true := by
  rw [settle]
  split
  · simp [*]
  · split <;> simp [*]

theorem settle_entity {e other : Entity} (h : settle e = some (.entity other)) : e = other := by
  obtain ⟨-, ⟨collection, -, same⟩ | ⟨-, same⟩⟩ := settle_cases h
  · cases same
  · exact (Resolved.entity.inj same).symm

/-- A fallback leads to an answer if names are looked up by `search`. -/
def LeadsBy (s : Scope) (search : String → List String → Option Resolved × List String)
    (found : Resolved) : Fallback → Prop
  | .members collection => found = .members collection
  | .entry other => ∃ e, s.table.find? other = some e ∧ settle e = some found
  | .retry next => ∃ seen, (search next seen).1 = some found

theorem firstResolved_leadsBy {search : String → List String → Option Resolved × List String}
    {fallbacks : List Fallback} {seen : List String}
    (h : (firstResolved s search fallbacks seen).1 = some found) :
    ∃ fallback ∈ fallbacks, s.LeadsBy search found fallback := by
  induction fallbacks generalizing seen with
  | nil => simp [firstResolved] at h
  | cons fallback rest ih =>
    have later : ∀ {seen}, (firstResolved s search rest seen).1 = some found →
        ∃ other ∈ fallback :: rest, s.LeadsBy search found other := by
      intro seen h
      obtain ⟨other, member, leads⟩ := ih h
      exact ⟨other, List.mem_cons_of_mem fallback member, leads⟩
    cases fallback with
    | members collection =>
      exact ⟨_, List.mem_cons_self, (Option.some.inj h).symm⟩
    | entry name =>
      rw [firstResolved] at h
      cases taken : (s.table.find? name).bind settle with
      | none => exact later (by simpa [taken] using h)
      | some answer =>
        obtain rfl : answer = found := by simpa [taken] using h
        exact ⟨_, List.mem_cons_self, Option.bind_eq_some_iff.mp taken⟩
    | retry name =>
      rw [firstResolved] at h
      cases looked : search name seen with
      | mk result after =>
        cases result with
        | none => exact later (by simpa [looked] using h)
        | some answer =>
          obtain rfl : answer = found := by simpa [looked] using h
          exact ⟨_, List.mem_cons_self, seen, by rw [looked]⟩

/-- A search that finds something finds it at the name itself or one step further on. -/
theorem search_cases {limit : Nat} {seen : List String}
    (h : (s.search (limit + 1) name seen).1 = some found) :
    s.Yields name found ∨
      ∃ next seen, s.Step name next ∧ (s.search limit next seen).1 = some found := by
  rw [search] at h
  split at h
  · cases h
  · cases entry : s.table.find? name with
    | some e =>
      cases target : e.target? with
      | none =>
        simp only [entry, target] at h
        exact Or.inl (.own entry target h)
      | some next =>
        simp only [entry, target] at h
        exact Or.inr ⟨next, _, Or.inl ⟨e, entry, target⟩, h⟩
    | none =>
      simp only [entry] at h
      obtain ⟨fallback, proposed, leads⟩ := firstResolved_leadsBy h
      cases fallback with
      | members collection =>
        obtain rfl : found = .members collection := leads
        exact Or.inl (.members entry proposed)
      | entry other =>
        obtain ⟨e, known, settled⟩ := leads
        exact Or.inl (.taken entry proposed known settled)
      | retry next =>
        obtain ⟨seen, looked⟩ := leads
        exact Or.inr ⟨next, seen, Or.inr ⟨entry, proposed⟩, looked⟩

/-- Whatever names a search has seen, it finds only what lies at the end of a way that is
shorter than its limit. -/
theorem search_way (limit : Nat) {seen : List String}
    (h : (s.search limit name seen).1 = some found) :
    ∃ left last, Way s.Step name left last ∧ left.length < limit ∧ s.Yields last found := by
  induction limit generalizing name seen with
  | zero => simp [search] at h
  | succ limit ih =>
    rcases search_cases h with yields | ⟨next, seen, first, looked⟩
    · exact ⟨[], name, .stay name, Nat.zero_lt_succ limit, yields⟩
    · obtain ⟨left, last, rest, short, yields⟩ := ih looked
      exact ⟨name :: left, last, .go first rest, Nat.succ_lt_succ short, yields⟩

theorem resolve_way (h : s.resolve name = some found) :
    ∃ left last, Way s.Step name left last ∧ left.length ≤ depthLimit ∧ s.Yields last found := by
  obtain ⟨left, last, way, short, yields⟩ := search_way _ h
  exact ⟨left, last, way, Nat.le_of_lt_succ short, yields⟩

theorem settle_isAnswer {e : Entity} (entry : s.table.find? name = some e)
    (own : e.target? = none ∨ Text.endsWith e.name "-supported" = true)
    (h : settle e = some found) : found.IsAnswer s := by
  obtain rfl : e.name = name := (Table.mem_of_find? entry).2
  obtain ⟨readable, ⟨collection, refers, rfl⟩ | ⟨other, rfl⟩⟩ := settle_cases h
  · exact Or.inr ⟨e, entry, refers⟩
  · exact ⟨entry, readable, other, own⟩

theorem Yields.isAnswer (h : s.Yields name found) : found.IsAnswer s := by
  cases h with
  | own entry last settled => exact settle_isAnswer entry (Or.inl last) settled
  | members missing proposed => exact Or.inl (Fallback.members_mem_all proposed)
  | @taken other e _ missing proposed entry settled =>
    have named : e.name = name ++ "-supported" :=
      (Table.mem_of_find? entry).2.trans (Fallback.entry_mem_all proposed)
    exact settle_isAnswer entry (Or.inr (by simp [named, Text.endsWith])) settled

theorem resolve_isAnswer (h : s.resolve name = some found) : found.IsAnswer s := by
  obtain ⟨left, last, -, -, yields⟩ := resolve_way h
  exact yields.isAnswer

/-- An entry that is found is one of the table, can be read and does not stand for the
members of a collection. It lists values of its own, unless the search has come to a name
without an entry and has taken the supported-values entry of that name. -/
theorem resolve_concrete {e : Entity} (h : s.resolve name = some (.entity e)) :
    s.table.find? e.name = some e ∧ e.unreadable = false ∧
      (∀ collection, e.reference ≠ some (.byMembers collection)) ∧
      (e.target? = none ∨
        ∃ base left, e.name = base ++ "-supported" ∧ s.table.find? base = none ∧
          Way s.Step name left base ∧ left.length ≤ depthLimit) := by
  obtain ⟨left, last, way, short, yields⟩ := resolve_way h
  obtain ⟨known, readable, own, -⟩ := yields.isAnswer
  refine ⟨known, readable, own, ?_⟩
  cases yields with
  | own entry shared settled =>
    obtain rfl := settle_entity settled
    exact Or.inl shared
  | taken missing proposed entry settled =>
    obtain rfl := settle_entity settled
    have named := (Table.mem_of_find? entry).2.trans (Fallback.entry_mem_all proposed)
    exact Or.inr ⟨last, left, named, missing, way, short⟩

/-- The sides in use are found at the sides, by way of an entry that shares its values
with a name that has no entry. -/
theorem resolve_concrete_of_sides :
    let sides := Entity.keyword "sides" none
    let s : Scope := {
      table := .ofList [sides, .keyword "sides-actual" (some (.byName "sides-default"))]
      isCollection := fun _ => false }
    s.resolve "sides-actual" = some (.entity sides) ∧ s.table.find? "sides" = some sides ∧
      sides.unreadable = false ∧ sides.target? = none := by
  intro sides s
  have found : s.resolve "sides-actual" = some (.entity sides) := by rfl
  obtain ⟨known, readable, -, own | ⟨base, left, named, -⟩⟩ := resolve_concrete found
  · exact ⟨found, known, readable, own⟩
  · have ending : Text.endsWith (base ++ "-supported") "-supported" = true := by
      simp [Text.endsWith]
    rw [← named] at ending
    exact absurd ending (by decide)

/-- A search finds an entry that leads back to itself: the one for the supported sides and
the one for the default sides share each other's values. -/
theorem resolve_not_concrete :
    ∃ (s : Scope) (name : String) (e : Entity), s.resolve name = some (.entity e) ∧
      e.target? ≠ none ∧ ∃ next, s.Shares e.name next ∧ s.Shares next e.name := by
  let supported := Entity.keyword "sides-supported" (some (.byName "sides-default"))
  let default := Entity.keyword "sides-default" (some (.byName "sides-supported"))
  refine ⟨⟨.ofList [supported, default], fun _ => false⟩, "sides", supported, rfl, ?_,
    "sides-default", ⟨supported, rfl, rfl⟩, ⟨default, rfl, rfl⟩⟩
  decide

/-- An entry of the name itself that shares no other entry's values decides. -/
theorem resolve_entry {e : Entity} (entry : s.table.find? name = some e)
    (own : e.target? = none) : s.resolve name = settle e := by
  simp [resolve, search, entry, own]

end Scope

end PrintRegistry
