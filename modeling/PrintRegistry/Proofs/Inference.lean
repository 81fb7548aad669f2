import PrintRegistry.Inference
import PrintRegistry.Proofs.Lookup

/-!
What a type is bound to. Only the rules for keywords, enumerations and
collections bind a type to anything. The first two bind it to what the search
for its values has found, the third one to a name that need not be that of a
collection.
-/

namespace PrintRegistry.Inference

/-- The rule that decides is one of the rules for keywords, enumerations and
collections, or infers a kind with nothing underlying. -/
theorem ofEntity?_cases {r : Registry} {e : Entity} {i : Inference} (h : ofEntity? r e = some i) :
    i = keywordOrName r e ∨ i = keyword r e ∨ enumeration? r e = some i ∨
      (i = collection e ∧ grammarText e = "collection") ∨
      ∃ kind, i = plain kind ∧ kind ≠ .enumeration ∧ kind ≠ .collection := by
  obtain ⟨rule, member, taken⟩ := List.exists_of_findSome?_eq_some h
  obtain ⟨applies, inferred⟩ : rule.condition.holds e.name (grammarText e) = true ∧
      rule.infer r e = some i := by
    split at taken
    · rename_i applies
      exact ⟨applies, taken⟩
    · cases taken
  simp only [rules, List.mem_cons, List.not_mem_nil, or_false] at member
  rcases member with rfl | rfl | rfl | member
  · exact Or.inl (Option.some.inj inferred).symm
  · exact Or.inr (Or.inl (Option.some.inj inferred).symm)
  · exact Or.inr (Or.inr (Or.inl inferred))
  · right; right; right
    -- All other rules infer a kind and no more, except for the one for collections.
    rcases member with rfl | rfl | rfl | rfl | rfl | rfl | rfl | rfl | rfl | rfl | rfl | rfl |
      rfl | rfl | rfl | rfl
    all_goals first
      | exact Or.inr ⟨_, (Option.some.inj inferred).symm, by decide, by decide⟩
      | exact Or.inl ⟨(Option.some.inj inferred).symm, beq_iff_eq.mp applies⟩

theorem kind_keywordOrName (r : Registry) (e : Entity) :
    (keywordOrName r e).kind = .keywordOrName := by
  rw [keywordOrName]
  split <;> rfl

theorem kind_keyword (r : Registry) (e : Entity) : (keyword r e).kind = .keyword := by
  rw [keyword]
  split
  · rfl
  · split <;> rfl
  · rfl

theorem kind_collection (e : Entity) :
    (collection e).kind = .collection ∨ (collection e).kind = .untypedCollection := by
  rw [collection]
  split
  · exact Or.inr rfl
  · exact Or.inl rfl

theorem kind_enumeration {r : Registry} {e : Entity} {i : Inference}
    (h : enumeration? r e = some i) : i.kind = .enumeration := by
  rw [enumeration?] at h
  split at h
  · cases h
    rfl
  · cases h

/-- The grammars known to be documented wrongly are not those of collections. -/
theorem grammarText_eq_collection {e : Entity} (h : grammarText e = "collection") :
    e.grammar.isCollection = true := by
  rw [grammarText] at h
  split at h
  · rename_i known
    have listed := List.mem_of_find?_eq_some known
    simp only [wrongGrammars, List.mem_singleton, Prod.mk.injEq] at listed
    rw [listed.2.2] at h
    exact absurd h (by decide)
  · exact beq_iff_eq.mpr h

/-- A collection has the grammar of one, and is bound to the collection that the
entity takes its members from. -/
theorem underlying_of_collection {r : Registry} {e : Entity} {i : Inference}
    (h : ofEntity? r e = some i) (kind : i.kind = .collection) :
    e.grammar.isCollection = true ∧ e.collectionName ∉ untypedCollections ∧
      i.underlying = some e.collectionName := by
  rcases ofEntity?_cases h with rfl | rfl | found | ⟨rfl, text⟩ | ⟨other, rfl, -, different⟩
  · rw [kind_keywordOrName] at kind
    cases kind
  · rw [kind_keyword] at kind
    cases kind
  · rw [kind_enumeration found] at kind
    cases kind
  · refine ⟨grammarText_eq_collection text, ?_⟩
    rw [collection] at kind ⊢
    split at kind
    · cases kind
    · rename_i modelled
      exact ⟨fun listed => modelled (List.contains_iff_mem.mpr listed), by rw [if_neg modelled]⟩
  · exact absurd kind different

/-- An enumeration is bound to the entry that the search has found. -/
theorem underlying_of_enumeration {r : Registry} {e : Entity} {i : Inference}
    (h : ofEntity? r e = some i) (kind : i.kind = .enumeration) :
    ∃ target, i.underlying = some target.name ∧
      r.enumScope.resolve (lookupName e.name) = some (.entity target) := by
  rcases ofEntity?_cases h with rfl | rfl | found | ⟨rfl, -⟩ | ⟨other, rfl, different, -⟩
  · rw [kind_keywordOrName] at kind
    cases kind
  · rw [kind_keyword] at kind
    cases kind
  · rw [enumeration?] at found
    split at found
    · rename_i target resolved
      cases found
      exact ⟨target, rfl, resolved⟩
    · cases found
  · rcases kind_collection e with collection | collection <;> rw [collection] at kind <;> cases kind
  · exact absurd kind different

/-- What a keyword is bound to, if anything, is what the search has found: a
collection, or an entry. Where a keyword may not be a name instead, the entry
lists values or needs none. -/
theorem underlying_of_keyword {r : Registry} {e : Entity} {i : Inference}
    (h : ofEntity? r e = some i) (kind : i.kind = .keyword ∨ i.kind = .keywordOrName)
    {name : String} (bound : i.underlying = some name) :
    r.keywordScope.resolve (lookupName e.name) = some (.members name) ∨
      ∃ k, k.name = name ∧ r.keywordScope.resolve (lookupName e.name) = some (.entity k) ∧
        (i.kind = .keyword → k.values.isEmpty = false ∨ k.mayBeEmpty = true) := by
  rcases ofEntity?_cases h with rfl | rfl | found | ⟨rfl, -⟩ | ⟨other, rfl, -⟩
  · have notKeyword : (keywordOrName r e).kind ≠ .keyword := by
      rw [kind_keywordOrName]
      decide
    rw [keywordOrName] at bound
    split at bound
    · rename_i collection resolved
      exact Or.inl (Option.some.inj bound ▸ resolved)
    · rename_i k resolved
      exact Or.inr ⟨k, Option.some.inj bound, resolved, fun same => absurd same notKeyword⟩
    · cases bound
  · rw [keyword] at bound
    split at bound
    · rename_i collection resolved
      exact Or.inl (Option.some.inj bound ▸ resolved)
    · rename_i k resolved
      by_cases listed : k.values.isEmpty = false
      · have named : k.name = name := by simpa [listed] using bound
        exact Or.inr ⟨k, named, resolved, fun _ => Or.inl listed⟩
      · by_cases needsNone : k.mayBeEmpty = true
        · have named : k.name = name := by simpa [listed, needsNone] using bound
          exact Or.inr ⟨k, named, resolved, fun _ => Or.inr needsNone⟩
        · simp [listed, needsNone] at bound
    · cases bound
  · rw [kind_enumeration found] at kind
    rcases kind with same | same <;> cases same
  · rcases kind_collection e with collection | collection <;> rw [collection] at kind <;>
      rcases kind with same | same <;> cases same
  · cases bound

end PrintRegistry.Inference
