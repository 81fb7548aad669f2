import PrintRegistry.Proofs.Definition
import PrintRegistry.Proofs.Inference
import PrintRegistry.Proofs.Model

/-!
What types are bound to. In a model without warnings an enumeration or a keyword
is bound to a definition of the model, with three exceptions: a list of member
names need not be that of a collection that exists, a supported-values entry is
taken even if it shares the values of another entry, and a keyword that may be a
name instead is bound to an entry that lists nothing.
-/

namespace PrintRegistry

/-- The entry of a name holds supported values, and shares those of another
entry. -/
def Table.SharesSupported (t : Table Entity) (name : String) : Prop :=
  Text.endsWith name "-supported" = true ∧ ∃ e, t.find? name = some e ∧ e.target? ≠ none

namespace Registry

def ListsMembersOf (r : Registry) (collection : String) : Prop :=
  ∃ k ∈ r.keywords.toList, k.reference = some (.byMembers collection)

/-- The keyword of a name has no values, and is not emitted without any. -/
def ListsNothing (r : Registry) (name : String) : Prop :=
  ∃ k, r.keywords.find? name = some k ∧ k.values.isEmpty = true ∧ k.mayBeEmpty = false

end Registry

namespace Model

def DefinesEnum (m : Model) (name : String) : Prop :=
  ∃ d ∈ m.enums, d.fullName = name

def DefinesKeyword (m : Model) (name : String) : Prop :=
  ∃ d ∈ m.keywords, d.fullName = name

def DefinesCollection (m : Model) (name : String) : Prop :=
  ∃ d ∈ m.collections, d.name = name

section Answers

variable {records : Records}

/-- The enumerations that a search finds are defined. -/
theorem definesEnum_of_isAnswer (quiet : Quiet records) {target : Entity}
    (answer : (Resolved.entity target).IsAnswer (assembled records).enumScope) :
    (resolve records).DefinesEnum target.name ∨
      (Registry.ofRecords records).enums.SharesSupported target.name := by
  obtain ⟨found, readable, -, own⟩ := answer
  have known : (Registry.ofRecords records).enums.find? target.name = some target := by
    rw [← enums_assembled]
    exact found
  cases shares : target.target? with
  | none =>
    rw [DefinesEnum, enums_resolve]
    exact Or.inl (Registry.enumDefinitions_emits quiet.enums (Table.mem_of_find? known).1
      readable shares)
  | some other =>
    rcases own with none | supported
    · rw [shares] at none
      cases none
    · exact Or.inr ⟨supported, target, known, by simp [shares]⟩

/-- The keywords that a search finds are defined if they list values or need
none. -/
theorem definesKeyword_of_isAnswer (quiet : Quiet records) {k : Entity}
    (answer : (Resolved.entity k).IsAnswer (assembled records).keywordScope) :
    (resolve records).DefinesKeyword k.name ∨
      (Registry.ofRecords records).keywords.SharesSupported k.name ∨
      (k.values.isEmpty = true ∧ k.mayBeEmpty = false ∧
        (Registry.ofRecords records).ListsNothing k.name) := by
  obtain ⟨found, readable, listing, own⟩ := answer
  obtain ⟨e, ingested, note, rfl⟩ := mem_keywords_assembled (Table.mem_of_find? found).1
  have known : (Registry.ofRecords records).keywords.find? e.name = some e :=
    Table.find?_of_mem ingested
  cases shares : e.target? with
  | none =>
    by_cases nothing : e.values.isEmpty = true ∧ e.mayBeEmpty = false
    · exact Or.inr (Or.inr ⟨nothing.1, nothing.2, e, known, nothing⟩)
    · have values : e.values.asWords ≠ [] ∨ e.mayBeEmpty = true := by
        by_cases some : e.values.isEmpty = false
        · exact Or.inl (Values.asWords_ne_nil (Registry.asCodes_ofRecords records e ingested) some)
        · have empty : e.values.isEmpty = true := by simpa using some
          exact Or.inr (by simpa [empty] using nothing)
      have silent := quiet.keywords
      rw [defined] at silent
      have listed : e ∈ (Registry.ofRecords records).enumDefinitions.1.keywords.toList := by
        rwa [Registry.keywords_enumDefinitions]
      rw [DefinesKeyword, keywords_resolve]
      exact Or.inl (Registry.keywordDefinitions_emits (e := e) silent listed readable shares listing
        values)
  | some other =>
    rcases own with none | supported
    · -- A note leaves alone what the entry refers to.
      rw [Entity.target?] at none shares
      rw [shares] at none
      cases none
    · exact Or.inr (Or.inl ⟨supported, e, known, by simp [shares]⟩)

theorem definesCollection_of_registered (quiet : Quiet records) {k : Entity}
    (registered : k ∈ (assembled records).collections.toList) :
    (resolve records).DefinesCollection k.name := by
  obtain ⟨d, present, named, -⟩ := defines_registered quiet registered
  exact ⟨d, present, named⟩

theorem definesCollection_of_isAnswer (quiet : Quiet records) {collection : String}
    (answer : (Resolved.members collection).IsAnswer (assembled records).keywordScope) :
    (resolve records).DefinesCollection collection ∨
      (Registry.ofRecords records).ListsMembersOf collection := by
  rcases answer with registered | ⟨k, found, refers⟩
  · obtain ⟨c, here⟩ := Named.find?_isSome_iff.mpr (Table.has_iff.mp registered)
    obtain ⟨member, named⟩ := Named.mem_of_find? here
    exact Or.inl (named ▸ definesCollection_of_registered quiet member)
  · obtain ⟨e, ingested, note, rfl⟩ := mem_keywords_assembled (Table.mem_of_find? found).1
    exact Or.inr ⟨e, ingested, refers⟩

theorem definesEnum_of_kind (quiet : Quiet records) {o : Occurrence}
    (here : o ∈ (resolve records).walk) (kind : o.type.kind = .enumeration) :
    ∃ name, o.type.underlying = some name ∧ ((resolve records).DefinesEnum name ∨
      (Registry.ofRecords records).enums.SharesSupported name) := by
  rw [walk_resolve] at here
  obtain ⟨e, i, inferred, sameKind, same⟩ := (Typing.walk_inferred _ o here).inference
  obtain ⟨target, bound, resolved⟩ :=
    Inference.underlying_of_enumeration inferred (sameKind.trans kind)
  exact ⟨target.name, same.symm.trans bound,
    definesEnum_of_isAnswer quiet (Scope.resolve_isAnswer resolved)⟩

/-- What a keyword in a model without warnings is bound to, if anything. -/
theorem definesKeyword_of_kind (quiet : Quiet records) {o : Occurrence}
    (here : o ∈ (resolve records).walk)
    (kind : o.type.kind = .keyword ∨ o.type.kind = .keywordOrName) {name : String}
    (bound : o.type.underlying = some name) :
    (resolve records).DefinesKeyword name ∨ (resolve records).DefinesCollection name ∨
      (Registry.ofRecords records).ListsMembersOf name ∨
      (Registry.ofRecords records).keywords.SharesSupported name ∨
      (o.type.kind = .keywordOrName ∧ (Registry.ofRecords records).ListsNothing name) := by
  rw [walk_resolve] at here
  obtain ⟨e, i, inferred, sameKind, same⟩ := (Typing.walk_inferred _ o here).inference
  rcases Inference.underlying_of_keyword inferred (sameKind.symm ▸ kind) (same.trans bound) with
    resolved | ⟨k, rfl, resolved, listed⟩
  · rcases definesCollection_of_isAnswer quiet (Scope.resolve_isAnswer resolved) with
      defined | members
    · exact Or.inr (Or.inl defined)
    · exact Or.inr (Or.inr (Or.inl members))
  · rcases definesKeyword_of_isAnswer quiet (Scope.resolve_isAnswer resolved) with
      defined | supported | ⟨empty, needsSome, nothing⟩
    · exact Or.inl defined
    · exact Or.inr (Or.inr (Or.inr (Or.inl supported)))
    · rcases kind with keyword | keywordOrName
      · rcases listed (sameKind.trans keyword) with some | needsNone
        · rw [empty] at some
          cases some
        · rw [needsSome] at needsNone
          cases needsNone
      · exact Or.inr (Or.inr (Or.inr (Or.inr ⟨keywordOrName, nothing⟩)))

end Answers

/-- In a model without warnings, types are bound to definitions. An enumeration
is bound to one that is defined, unless it is a supported-values entry that
shares the values of another one, and so is every enumeration in the index. What
a keyword is bound to, if anything, is a keyword that is defined, a collection
that is defined, or one that keywords take the member names of; unless it is a
supported-values entry that shares the values of another one or, where a name may
stand instead, a keyword that lists nothing. -/
theorem bindings_name_definitions (records : Records)
    (quiet : (resolve records).warnings = []) :
    let r := Registry.ofRecords records
    let m := resolve records
    (∀ o ∈ m.walk, o.type.kind = .enumeration → ∃ name, o.type.underlying = some name ∧
      (m.DefinesEnum name ∨ r.enums.SharesSupported name)) ∧
    (∀ u ∈ m.enumUsages, m.DefinesEnum u.enum ∨ r.enums.SharesSupported u.enum) ∧
    (∀ o ∈ m.walk, o.type.kind = .keyword → ∀ name, o.type.underlying = some name →
      m.DefinesKeyword name ∨ m.DefinesCollection name ∨ r.ListsMembersOf name ∨
        r.keywords.SharesSupported name) ∧
    ∀ o ∈ m.walk, o.type.kind = .keywordOrName → ∀ name, o.type.underlying = some name →
      m.DefinesKeyword name ∨ m.DefinesCollection name ∨ r.ListsMembersOf name ∨
        r.keywords.SharesSupported name ∨ r.ListsNothing name := by
  intro r m
  have silent : Quiet records := quiet_of_warnings quiet
  have enumerations : ∀ o ∈ m.walk, o.type.kind = .enumeration → ∃ name,
      o.type.underlying = some name ∧ (m.DefinesEnum name ∨ r.enums.SharesSupported name) :=
    fun o here kind => definesEnum_of_kind silent here kind
  refine ⟨enumerations, ?_, ?_, ?_⟩
  · intro u listed
    have indexed : u ∈ (Typing.ofRegistry (assembled records)).usages.enums := by
      rwa [← enumUsages_resolve]
    obtain ⟨o, here, use⟩ := Typing.exists_use_of_mem_enums indexed
    rw [← walk_resolve] at here
    simp only [Occurrence.isUseOf, Bool.and_eq_true, beq_iff_eq] at use
    obtain ⟨name, bound, defined⟩ := enumerations o here use.1
    obtain rfl : u.enum = name := Option.some.inj (use.2.symm.trans bound)
    exact defined
  · intro o here kind name bound
    rcases definesKeyword_of_kind silent here (Or.inl kind) bound with
      keyword | collection | members | supported | ⟨other, -⟩
    · exact Or.inl keyword
    · exact Or.inr (Or.inl collection)
    · exact Or.inr (Or.inr (Or.inl members))
    · exact Or.inr (Or.inr (Or.inr supported))
    · rw [kind] at other
      cases other
  · intro o here kind name bound
    rcases definesKeyword_of_kind silent here (Or.inr kind) bound with
      keyword | collection | members | supported | ⟨-, nothing⟩
    · exact Or.inl keyword
    · exact Or.inr (Or.inl collection)
    · exact Or.inr (Or.inr (Or.inl members))
    · exact Or.inr (Or.inr (Or.inr (Or.inl supported)))
    · exact Or.inr (Or.inr (Or.inr (Or.inr nothing)))

/-- An enumeration with a value, and an attribute that takes its values. -/
def finishings : Records where
  enums := [{ about := "finishings", name := some "staple", value := some "4" }]
  attributes := [{ family := "Job Template", name := "finishings", grammar := some "1setOf type2 enum" }]

theorem bindings_name_definitions_of_finishings :
    (resolve finishings).warnings = [] ∧
      (∃ u ∈ (resolve finishings).enumUsages, u.enum = "finishings") ∧
      ∀ u ∈ (resolve finishings).enumUsages, (resolve finishings).DefinesEnum u.enum ∨
        (Registry.ofRecords finishings).enums.SharesSupported u.enum := by
  have quiet : (resolve finishings).warnings = [] := by decide +kernel
  exact ⟨quiet, by decide +kernel, (bindings_name_definitions finishings quiet).2.1⟩

/-- Every enumeration is bound to one that is defined, and what a keyword is
bound to is defined as a keyword or as a collection. -/
structure BindingsClosed (m : Model) : Prop where
  enumerations : ∀ o ∈ m.walk, o.type.kind = .enumeration →
    ∃ name, o.type.underlying = some name ∧ m.DefinesEnum name
  usages : ∀ u ∈ m.enumUsages, m.DefinesEnum u.enum
  keywords : ∀ o ∈ m.walk, o.type.kind = .keyword ∨ o.type.kind = .keywordOrName →
    ∀ name, o.type.underlying = some name → m.DefinesKeyword name ∨ m.DefinesCollection name

/-- A keyword bound to a name that is defined neither as a keyword nor as a
collection is enough. -/
theorem not_closed_of_undefined {m : Model} (name : String)
    (bound : ∃ o ∈ m.walk, (o.type.kind = .keyword ∨ o.type.kind = .keywordOrName) ∧
      o.type.underlying = some name)
    (noKeyword : ∀ d ∈ m.keywords, d.fullName ≠ name)
    (noCollection : ∀ d ∈ m.collections, d.name ≠ name) : ¬ m.BindingsClosed := by
  intro closed
  obtain ⟨o, here, kind, underlying⟩ := bound
  rcases closed.keywords o here kind name underlying with ⟨d, defined, same⟩ | ⟨d, defined, same⟩
  · exact noKeyword d defined same
  · exact noCollection d defined same

/-- A keyword that takes the member names of a collection that is not there. -/
def memberNames : Records where
  attributes := [{ family := "Printer Description",
                   name := "destination-mandatory-access-attributes",
                   grammar := some "1setOf keyword" }]

/-- A keyword without values, and an attribute that takes it or a name. -/
def emptyKeyword : Records where
  keywords := [{ about := "foo", grammar := some "keyword" }]
  attributes := [{ family := "Job Template", name := "foo", grammar := some "keyword | name" }]

/-- A supported-values enumeration that shares the values of another one, and an
attribute whose supported values it holds. -/
def sharedSupported : Records where
  enums := [{ about := "y", name := some "a", value := some "3" },
            { about := "x-supported", name := some "Values are the same as \"y\"" }]
  attributes := [{ family := "Job Template", name := "x", grammar := some "type1 enum" }]

/-- Each of the exceptions is met without a warning. -/
theorem bindings_not_closed :
    ((resolve memberNames).warnings = [] ∧ ¬ (resolve memberNames).BindingsClosed) ∧
      ((resolve emptyKeyword).warnings = [] ∧ ¬ (resolve emptyKeyword).BindingsClosed) ∧
      (resolve sharedSupported).warnings = [] ∧ ¬ (resolve sharedSupported).BindingsClosed := by
  refine ⟨⟨by decide +kernel, ?_⟩, ⟨by decide +kernel, ?_⟩, by decide +kernel, ?_⟩
  · exact not_closed_of_undefined "destination-accesses" (by decide +kernel)
      (by decide +kernel) (by decide +kernel)
  · exact not_closed_of_undefined "foo" (by decide +kernel) (by decide +kernel)
      (by decide +kernel)
  · intro closed
    have listed : ∃ u ∈ (resolve sharedSupported).enumUsages, u.enum = "x-supported" := by
      decide +kernel
    have undefined : ∀ d ∈ (resolve sharedSupported).enums, d.fullName ≠ "x-supported" := by
      decide +kernel
    obtain ⟨u, here, named⟩ := listed
    obtain ⟨d, defined, same⟩ := closed.usages u here
    exact undefined d defined (same.trans named)

end Model

end PrintRegistry
