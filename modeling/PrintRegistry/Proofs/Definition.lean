import PrintRegistry.Definition
import PrintRegistry.Proofs.Registry

/-!
Which entries are emitted. Unless something is reported, an entry that can be
read and has values of its own is emitted under its name.
-/

namespace PrintRegistry

theorem Values.asWords_ne_nil {v : Values} (codes : v.asCodes = []) (some : v.isEmpty = false) :
    v.asWords ≠ [] := by
  cases v with
  | unlisted => cases some
  | codes entries =>
    obtain rfl : entries = [] := codes
    cases some
  | words entries => simpa [isEmpty, asWords] using some

theorem Table.standing_own {t : Table Entity} {e : Entity} (readable : e.unreadable = false)
    (own : e.target? = none) : t.standing e = (none, true) := by
  simp [standing, readable, own]

theorem EnumDefinition.ofEntity_own {t : Table Entity} {e : Entity}
    (readable : e.unreadable = false) (own : e.target? = none)
    (silent : (ofEntity t e).2 = none) : ∃ d, (ofEntity t e).1 = some d ∧ d.fullName = e.name := by
  simp only [ofEntity, Table.standing_own readable own] at silent ⊢
  by_cases empty : e.values.asCodes.isEmpty = true
  · simp [empty] at silent
  · rw [if_neg empty]
    exact ⟨_, rfl, rfl⟩

/-- A keyword that takes the attribute names of a family is not emitted if there
is no such family, but then it is reported. -/
theorem KeywordDefinition.ofEntity_own {r : Registry} {e : Entity}
    (readable : e.unreadable = false) (own : e.target? = none)
    (listing : ∀ collection, e.reference ≠ some (.byMembers collection))
    (values : e.values.asWords ≠ [] ∨ e.mayBeEmpty = true) (silent : (ofEntity r e).2 = none) :
    ∃ d, (ofEntity r e).1 = some d ∧ d.fullName = e.name := by
  simp only [ofEntity, Table.standing_own readable own] at silent ⊢
  have something : (!e.values.asWords.isEmpty || e.mayBeEmpty) = true := by
    simpa using values
  have emitted : isEmitted r e = true := by
    rw [isEmitted, something, Bool.and_true]
    rw [finding?] at silent
    cases refers : e.reference with
    | none => rfl
    | some reference =>
      cases reference with
      | byMembers collection => exact absurd refers (listing collection)
      | byGroup family =>
        by_cases known : r.families.has family = true
        · exact known
        · simp [refers, known] at silent
      | byName name => rfl
      | byAlias collection family => rfl
  rw [if_pos emitted]
  exact ⟨_, rfl, rfl⟩

theorem EnumDefinition.fullName_ofEntity {t : Table Entity} {e : Entity} {d : EnumDefinition}
    (h : (ofEntity t e).1 = some d) : d.fullName = e.name := by
  rw [ofEntity] at h
  split at h
  · cases h
  · split at h
    · cases h
    · cases h
      rfl

theorem KeywordDefinition.fullName_ofEntity {r : Registry} {e : Entity} {d : KeywordDefinition}
    (h : (ofEntity r e).1 = some d) : d.fullName = e.name := by
  rw [ofEntity] at h
  split at h
  · cases h
  · dsimp only at h
    split at h
    · cases h
      rfl
    · cases h

theorem Registry.enumDefinitions_eq (r : Registry) : r.enumDefinitions.2 =
    r.enums.toList.filterMap fun e => (EnumDefinition.ofEntity r.enums e).1 := by
  simp only [enumDefinitions, List.filterMap_map, Function.comp_def]

theorem Registry.keywordDefinitions_eq (r : Registry) : r.keywordDefinitions.2 =
    r.keywords.toList.filterMap fun e => (KeywordDefinition.ofEntity r e).1 := by
  simp only [keywordDefinitions, List.filterMap_map, Function.comp_def]

namespace Registry

/-- Unless something is reported, every enumeration is emitted that can be read
and does not share the values of another one. -/
theorem enumDefinitions_emits {r : Registry} {e : Entity}
    (quiet : r.enumDefinitions.1.findings = []) (listed : e ∈ r.enums.toList)
    (readable : e.unreadable = false) (own : e.target? = none) :
    ∃ d ∈ r.enumDefinitions.2, d.fullName = e.name := by
  simp only [enumDefinitions, List.append_eq_nil_iff, List.filterMap_eq_nil_iff,
    List.forall_mem_map] at quiet
  obtain ⟨d, emitted, named⟩ := EnumDefinition.ofEntity_own readable own (quiet.2 e listed)
  exact ⟨d, List.mem_filterMap.mpr ⟨_, List.mem_map_of_mem listed, emitted⟩, named⟩

/-- Unless something is reported, every keyword is emitted that can be read, has
values of its own or needs none, and is no list of member names. -/
theorem keywordDefinitions_emits {r : Registry} {e : Entity}
    (quiet : r.keywordDefinitions.1.findings = []) (listed : e ∈ r.keywords.toList)
    (readable : e.unreadable = false) (own : e.target? = none)
    (listing : ∀ collection, e.reference ≠ some (.byMembers collection))
    (values : e.values.asWords ≠ [] ∨ e.mayBeEmpty = true) :
    ∃ d ∈ r.keywordDefinitions.2, d.fullName = e.name := by
  simp only [keywordDefinitions, List.append_eq_nil_iff, List.filterMap_eq_nil_iff,
    List.forall_mem_map] at quiet
  obtain ⟨d, emitted, named⟩ :=
    KeywordDefinition.ofEntity_own readable own listing values (quiet.2 e listed)
  exact ⟨d, List.mem_filterMap.mpr ⟨_, List.mem_map_of_mem listed, emitted⟩, named⟩

theorem keywords_enumDefinitions (r : Registry) :
    r.enumDefinitions.1.keywords = r.keywords := rfl

theorem enums_keywordDefinitions (r : Registry) :
    r.keywordDefinitions.1.enums = r.enums := rfl

theorem enums_enumDefinitions (r : Registry) : r.enumDefinitions.1.enums = r.enums := rfl

theorem findings_keywordDefinitions (r : Registry) :
    r.findings <+: r.keywordDefinitions.1.findings :=
  List.prefix_append ..

theorem noted_eq (r : Registry) (e : Entity) : ∃ note, r.noted e = { e with note } := by
  rw [noted]
  split
  · exact ⟨_, rfl⟩
  · exact ⟨e.note, by cases e; rfl⟩

/-- An entry of the keyword table after notes are added is one from before, with
a note. -/
theorem mem_keywordDefinitions {r : Registry} {k : Entity}
    (h : k ∈ r.keywordDefinitions.1.keywords.toList) :
    ∃ e ∈ r.keywords.toList, ∃ note, k = { e with note } := by
  obtain ⟨e, listed, rfl⟩ := List.mem_map.mp h
  exact ⟨e, listed, r.noted_eq e⟩

end Registry

end PrintRegistry
