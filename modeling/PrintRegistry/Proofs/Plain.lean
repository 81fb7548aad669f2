import PrintRegistry.Proofs.Canonical
import PrintRegistry.Proofs.Inference
import PrintRegistry.Proofs.Values

/-!
Plain enumerations and keywords. An attribute whose records list values and
nothing else, and whose families agree that it is an enumeration or a keyword, is
defined with these values and typed accordingly, whatever other records there
are.
-/

namespace PrintRegistry

/-- Whether a text is written as a hexadecimal number, blanks around it apart. -/
def Text.isHexadecimal (s : String) : Bool :=
  ['0', 'x'].isPrefixOf (trim s.toList) || ['0', 'X'].isPrefixOf (trim s.toList)

theorem Text.hexadecimal_of_code? {s : String} {code : Int} {hexadecimal : Bool}
    (h : code? s = some (code, hexadecimal)) : isHexadecimal s = hexadecimal := by
  have unmarked : ∀ mark, (∀ cs, trim s.toList = '0' :: mark :: cs → False) →
      ['0', mark].isPrefixOf (trim s.toList) = false := by
    intro mark absent
    rw [Bool.eq_false_iff]
    intro found
    obtain ⟨cs, same⟩ := List.isPrefixOf_iff_prefix.mp found
    exact absent cs same.symm
  rw [code?] at h
  split at h
  · rename_i cs start
    obtain ⟨_, -, same⟩ := Option.map_eq_some_iff.mp h
    cases same
    simp [isHexadecimal, start]
  · rename_i cs start
    obtain ⟨_, -, same⟩ := Option.map_eq_some_iff.mp h
    cases same
    simp [isHexadecimal, start]
  · rename_i lower upper
    obtain ⟨_, -, same⟩ := Option.map_eq_some_iff.mp h
    cases same
    rw [isHexadecimal, unmarked _ lower, unmarked _ upper, Bool.or_false]

namespace EnumRecord

/-- The code that a record lists: that of a label neither qualified nor reserved. -/
def listed? (r : EnumRecord) : Option EnumCode :=
  r.name.bind fun label =>
    if isQualified label || Text.contains label "Reserved" then none
    else (r.value.bind Text.code?).map fun (code, _) => ⟨label, code⟩

/-- A record with a label and a code, whose label does not defer to another
enumeration. -/
structure IsPlain (r : EnumRecord) : Prop where
  labelled : ∃ label, r.name = some label ∧ Reference.ofEnumLabel? label = none
  coded : ∃ value, r.value = some value ∧ (Text.code? value).isSome = true

/-- The record lists a code, and its value is written in hexadecimal. -/
def listsHexadecimal (r : EnumRecord) : Bool :=
  r.listed?.isSome && r.value.any Text.isHexadecimal

theorem enter_plain {r : EnumRecord} (plain : r.IsPlain) {e : Entity}
    (shared : Text.startsWith e.name "job-finishings" = false)
    (replaced : e.name ≠ "fetch-status-code") :
    (r.enter e).1 = match r.listed? with
      | some c => e.withCode c.label c.code r.listsHexadecimal
      | none => e := by
  obtain ⟨label, named, prose⟩ := plain.labelled
  obtain ⟨value, given, coded⟩ := plain.coded
  obtain ⟨⟨code, hexadecimal⟩, read⟩ := Option.isSome_iff_exists.mp coded
  have written := Text.hexadecimal_of_code? read
  have own : e.redirected = e := by
    simp [Entity.redirected, sharedEnums, shared]
  have kept : replacedEnums.lookup e.name = none := by
    simp [replacedEnums, replaced]
  rw [enter]
  simp only [named, given, prose, Option.bind_some, own, kept, enterCode, listsHexadecimal, listed?,
    read, Option.map_some, Option.any_some, written]
  by_cases passed : (isQualified label || Text.contains label "Reserved") = true
  · simp only [passed, if_true]
  · simp only [passed, Bool.false_eq_true, if_false, Option.isSome_some, Bool.true_and]

/-- An entry of the enumeration table that plain records alone have made. -/
structure HaveMade (rs : List EnumRecord) (name : String) (e : Entity) : Prop where
  name : e.name = name
  readable : e.unreadable = false
  reference : e.reference = none
  codes : e.values.asCodes = Named.putAll [] (rs.filterMap listed?)
  hexadecimal : e.hexadecimal = rs.any listsHexadecimal

theorem HaveMade.enter {rs : List EnumRecord} {name : String} {e : Entity}
    (h : HaveMade rs name e) {r : EnumRecord} (plain : r.IsPlain)
    (shared : Text.startsWith name "job-finishings" = false)
    (replaced : name ≠ "fetch-status-code") (spec : Option String) :
    HaveMade (rs ++ [r]) name (r.enter (e.citingAny spec)).1 := by
  have cited : HaveMade rs name (e.citingAny spec) := by
    cases spec with
    | none => exact h
    | some spec => exact ⟨h.name, h.readable, h.reference, h.codes, h.hexadecimal⟩
  have entered := enter_plain plain (e := e.citingAny spec) (cited.name ▸ shared)
    (cited.name ▸ replaced)
  rw [entered]
  cases lists : r.listed? with
  | none =>
    have decimal : r.listsHexadecimal = false := by simp [listsHexadecimal, lists]
    have codes : (rs ++ [r]).filterMap listed? = rs.filterMap listed? := by simp [lists]
    exact { cited with
      codes := by rw [codes, cited.codes]
      hexadecimal := by simp [cited.hexadecimal, decimal] }
  | some c =>
    have codes : (rs ++ [r]).filterMap listed? = rs.filterMap listed? ++ [c] := by simp [lists]
    exact { cited with
      codes := by rw [codes, Named.putAll_concat, ← cited.codes]; rfl
      hexadecimal := by simp [Entity.withCode, cited.hexadecimal] }

end EnumRecord

namespace KeywordRecord

/-- The word that a record lists. -/
def listed? (r : KeywordRecord) : Option String :=
  r.value.filter fun value => !isQualified value

/-- A record without a value of several words. -/
def IsPlain (r : KeywordRecord) : Prop :=
  ∀ value, r.value = some value → isQualified value = true ∨ Text.contains value " " = false

/-- An entry of the keyword table that plain records alone have made. -/
structure HaveMade (rs : List KeywordRecord) (name : String) (e : Entity) : Prop where
  name : e.name = name
  readable : e.unreadable = false
  reference : e.reference = none
  words : e.values.asWords = (rs.filterMap listed?).eraseDups

theorem HaveMade.passOver {rs : List KeywordRecord} {name : String} {e : Entity}
    (h : HaveMade rs name e) {r : KeywordRecord} (nothing : r.listed? = none) :
    HaveMade (rs ++ [r]) name e := by
  have words : (rs ++ [r]).filterMap listed? = rs.filterMap listed? := by simp [nothing]
  exact ⟨h.name, h.readable, h.reference, words ▸ h.words⟩

theorem HaveMade.enterValue {rs : List KeywordRecord} {name : String} {e : Entity}
    (h : HaveMade rs name e) {r : KeywordRecord} (plain : r.IsPlain) {value : String}
    (given : r.value = some value) : HaveMade (rs ++ [r]) name (enterValue e value).1 := by
  rw [KeywordRecord.enterValue]
  cases qualified : isQualified value with
  | true => exact h.passOver (by simp [listed?, given, qualified])
  | false =>
    have single : Text.contains value " " = false :=
      (plain value given).resolve_left (by simp [qualified])
    have lists : r.listed? = some value := by simp [listed?, given, qualified]
    have words : (rs ++ [r]).filterMap listed? = rs.filterMap listed? ++ [value] := by
      simp [lists]
    simp only [single, Bool.false_eq_true, if_false, Bool.not_false, if_true]
    refine ⟨h.name, h.readable, h.reference, ?_⟩
    rw [words, ← Named.put_eraseDups, ← h.words]
    rfl

theorem HaveMade.enter {rs : List KeywordRecord} {name : String} {e : Entity}
    (h : HaveMade rs name e) {r : KeywordRecord} (plain : r.IsPlain) (spec : Option String) :
    HaveMade (rs ++ [r]) name (r.enter (e.citingAny spec)).1 := by
  have cited : HaveMade rs name (e.citingAny spec) := by
    cases spec with
    | none => exact h
    | some spec => exact ⟨h.name, h.readable, h.reference, h.words⟩
  have typed : ∀ keywordType : Option String,
      HaveMade rs name { e.citingAny spec with keywordType } :=
    fun _ => ⟨cited.name, cited.readable, cited.reference, cited.words⟩
  rw [KeywordRecord.enter]
  cases given : r.value with
  | none =>
    have nothing : r.listed? = none := by simp [listed?, given]
    cases r.keywordType with
    | none => exact cited.passOver nothing
    | some keywordType => exact (typed (some keywordType)).passOver nothing
  | some value =>
    cases r.keywordType with
    | none => exact cited.enterValue plain given
    | some keywordType => exact (typed (some keywordType)).enterValue plain given

end KeywordRecord

/-- The first element that is turned into something of a kind is found by what it
was itself. -/
theorem find?_filterMap_of_find? {α β : Type} {f : α → Option β} {p : α → Bool} {q : β → Bool}
    (keeps : ∀ a b, f a = some b → q b = p a) {xs : List α} {a : α} {b : β}
    (found : xs.find? p = some a) (made : f a = some b) : (xs.filterMap f).find? q = some b := by
  induction xs with
  | nil => cases found
  | cons x xs ih =>
    rw [List.find?_cons] at found
    cases here : p x with
    | true =>
      rw [here] at found
      obtain rfl := Option.some.inj found
      rw [List.filterMap_cons, made, List.find?_cons, keeps x b made, here]
    | false =>
      rw [here] at found
      rw [List.filterMap_cons]
      cases other : f x with
      | none => exact ih found
      | some c =>
        rw [List.find?_cons, keeps x c other, here]
        exact ih found

namespace Inference

theorem ofEntity?_enum {r : Registry} {e : Entity} {i : Inference} (text : e.grammar.text = "enum")
    (found : enumeration? r e = some i) : ofEntity? r e = some i := by
  have right : grammarText e = "enum" := by
    simp [grammarText, wrongGrammars, text]
  simp [ofEntity?, byRules, rules, Condition.holds, Condition.fits, right, found]

theorem ofEntity?_keyword {r : Registry} {e : Entity} (text : e.grammar.text = "keyword")
    (documented : e.name ∉ wrongGrammars.map Prod.fst) : ofEntity? r e = some (keyword r e) := by
  have right : grammarText e = "keyword" := by
    have other : ¬ "job-collation-type-actual" = e.name := by
      simpa [wrongGrammars, eq_comm] using documented
    simp [grammarText, wrongGrammars, text, other]
  simp [ofEntity?, byRules, rules, Condition.holds, Condition.fits, right]

theorem lookupName_own {name : String} (own : name ∉ lookupNames.map Prod.fst) :
    lookupName name = name := by
  simp only [lookupNames, List.map_cons, List.map_nil, List.mem_cons, List.not_mem_nil, or_false,
    not_or, ← beq_eq_false_iff_ne] at own
  simp [lookupName, lookupNames, List.lookup_cons, own]

end Inference

namespace Model

theorem type?_resolve {records : Records} {name : String} {e : Entity} {i : Inference}
    (canonical : (assembled records).types.find? name = some e)
    (inferred : Inference.ofEntity? (assembled records) e = some i) :
    (resolve records).type? name = some (Descriptor.ofInference e i) := by
  obtain ⟨listed, named⟩ := Table.mem_of_find? canonical
  have ordered : e ∈ Typing.attributesInOrder (assembled records) := List.mem_mergeSort.mpr listed
  have distinct : (Named.names (Typing.attributesInOrder (assembled records))).Nodup :=
    ((List.mergeSort_perm _ _).map nameOf).nodup_iff.mpr (assembled records).types.distinct
  have found : Named.find? (Typing.attributesInOrder (assembled records)) name = some e :=
    named ▸ Named.find?_of_mem distinct ordered
  have made : Descriptor.ofEntity? (assembled records) e = some (Descriptor.ofInference e i) := by
    rw [Descriptor.ofEntity?, inferred]
    rfl
  rw [type?, types_resolve, Typing.types_ofRegistry]
  refine find?_filterMap_of_find? (fun x d made => ?_) found made
  exact congrArg (· == name) (Descriptor.name_ofEntity? made)

/-- Every type that is bound to an enumeration is among its uses. -/
theorem usage_of_type {records : Records} {name enum : String} {d : Descriptor}
    (typed : (resolve records).type? name = some d) (kind : d.kind = .enumeration)
    (bound : d.underlying = some enum) :
    ∃ u ∈ (resolve records).enumUsages, u.enum = enum ∧ Site.top.usage name ∈ u.places := by
  obtain ⟨listed, named⟩ := Named.mem_of_find? typed
  have walked : (⟨.top, d⟩ : Occurrence) ∈ (Typing.ofRegistry (assembled records)).walk := by
    rw [← walk_resolve]
    exact List.mem_append_right _ (List.mem_map_of_mem listed)
  have use : (⟨.top, d⟩ : Occurrence).isUseOf enum = true := by
    simp [Occurrence.isUseOf, kind, bound]
  have place : Site.top.usage name ∈
      Usages.placesIn (Typing.ofRegistry (assembled records)).walk enum :=
    List.mem_map.mpr ⟨_, List.mem_filter.mpr ⟨walked, use⟩, congrArg Site.top.usage named⟩
  have found := (Usages.enums_recordAll (Typing.ofRegistry (assembled records)).walk).2 enum
  rw [if_neg (List.ne_nil_of_mem place), ← Typing.usages_ofRegistry, ← enumUsages_resolve] at found
  exact ⟨_, (Named.mem_of_find? found).1, rfl, List.mem_eraseDups.mpr place⟩

theorem enum?_resolve {records : Records} {name : String} {e : Entity}
    (entry : (Registry.ofRecords records).enums.find? name = some e)
    (readable : e.unreadable = false) (own : e.reference = none)
    (lists : e.values.asCodes ≠ []) :
    ∃ d, (resolve records).enum? name = some d ∧ d.values = e.values.asCodes ∧
      d.hexadecimal = e.hexadecimal := by
  have target : e.target? = none := by rw [Entity.target?, own]; rfl
  have some : e.values.asCodes.isEmpty = false := by simpa using lists
  have made : (EnumDefinition.ofEntity (Registry.ofRecords records).enums e).1 =
      Option.some ⟨Naming.enumName e.name, e.name, e.values.asCodes, e.hexadecimal, e.specs,
        (Registry.ofRecords records).enums.sharersOf e.name⟩ := by
    simp only [EnumDefinition.ofEntity, Table.standing_own readable target, some,
      Bool.false_eq_true, if_false]
  rw [enum?, enums_resolve, Registry.enumDefinitions_eq]
  refine ⟨_, find?_filterMap_of_find? (fun x d defined => ?_) entry made, rfl, rfl⟩
  exact congrArg (· == name) (EnumDefinition.fullName_ofEntity defined)

theorem keyword?_resolve {records : Records} {name : String} {e : Entity}
    (entry : (Registry.ofRecords records).keywords.find? name = some e)
    (readable : e.unreadable = false) (own : e.reference = none)
    (lists : e.values.asWords ≠ []) :
    ∃ d, (resolve records).keyword? name = some d ∧ d.values = e.values.asWords := by
  have target : e.target? = none := by rw [Entity.target?, own]; rfl
  have emitted : ∀ r, KeywordDefinition.isEmitted r e = true := by
    intro r
    simp [KeywordDefinition.isEmitted, own, lists]
  rw [keyword?, keywords_resolve, Registry.keywordDefinitions_eq]
  have standing := Table.standing_own (t := (Registry.ofRecords records).keywords) readable target
  obtain ⟨d, made, values⟩ : ∃ d, (KeywordDefinition.ofEntity
      (Registry.ofRecords records).enumDefinitions.1 e).1 = some d ∧
      d.values = e.values.asWords := by
    simp only [KeywordDefinition.ofEntity, Registry.keywords_enumDefinitions, standing, emitted,
      if_true]
    exact ⟨_, rfl, rfl⟩
  refine ⟨d, find?_filterMap_of_find? (fun x d defined => ?_) entry made, values⟩
  exact congrArg (· == name) (KeywordDefinition.fullName_ofEntity defined)

end Model

/-- The families that declare an attribute agree on the text of its grammar: each
of its first records gives it this text. -/
def Records.DeclareAs (records : Records) (name text : String) : Prop :=
  (∃ family, (records.grammar? family name).isSome = true) ∧
    ∀ family g, records.grammar? family name = some g → g.text = text

/-- It is enough that all records of the attribute give it this text. -/
theorem Records.declareAs_of_records {records : Records} {name text : String}
    (declared : ∃ r ∈ records.attributes, r.name = name)
    (alike : ∀ r ∈ records.attributes, r.name = name →
      (Grammar.normalizeFor name (r.grammar.getD "")).text = text) :
    records.DeclareAs name text := by
  obtain ⟨r, listed, named⟩ := declared
  refine ⟨⟨r.family, ?_⟩, fun family g known => ?_⟩
  · rw [grammar?, Option.isSome_map, first?, List.find?_isSome]
    exact ⟨r, listed, by simp [named]⟩
  · obtain ⟨first, found, rfl⟩ := Option.map_eq_some_iff.mp known
    have here : first.family = family ∧ first.name = name := by
      simpa using List.find?_some found
    exact alike first (List.mem_of_find?_eq_some found) here.2

/-- One of the first records of an attribute gives it the grammar of a set. -/
def Records.DeclareSet (records : Records) (name : String) : Prop :=
  ∃ family g, records.grammar? family name = some g ∧ g.isSet = true

/-- A name without conventions of its own, of which the snapshot lists codes and
nothing else. -/
structure Records.PlainEnum (records : Records) (name : String) : Prop where
  unqualified : isQualified name = false
  shared : Text.startsWith name "job-finishings" = false
  replaced : name ≠ "fetch-status-code"
  noStatus : name ≠ "status"
  lookup : name ∉ Inference.lookupNames.map Prod.fst
  plain : ∀ r ∈ records.enums, r.about = name → r.IsPlain
  listed : ∃ r ∈ records.enums, r.about = name ∧ r.listed?.isSome = true

/-- A name without conventions of its own, of which the snapshot lists words and
nothing else. -/
structure Records.PlainKeyword (records : Records) (name : String) : Prop where
  unqualified : isQualified name = false
  supplied : name ∉ SupplementaryKeyword.all.map SupplementaryKeyword.name
  documented : name ∉ Inference.wrongGrammars.map Prod.fst
  lookup : name ∉ Inference.lookupNames.map Prod.fst
  plain : ∀ r ∈ records.keywords, r.about = name → r.IsPlain
  listed : ∃ r ∈ records.keywords, r.about = name ∧ r.listed?.isSome = true

namespace Records

/-- The codes that the records of an enumeration list, in order. -/
def codesOf (records : Records) (name : String) : List EnumCode :=
  (records.enums.filter (·.about == name)).filterMap EnumRecord.listed?

/-- The words that the records of a keyword list, in order. -/
def wordsOf (records : Records) (name : String) : List String :=
  (records.keywords.filter (·.about == name)).filterMap KeywordRecord.listed?

end Records

namespace Model

variable {records : Records} {name : String}

/-- The entry of a plain enumeration lists the codes of its records. -/
theorem entry_of_plainEnum (h : records.PlainEnum name) :
    ∃ e, (Registry.ofRecords records).enums.find? name = some e ∧ e.values.asCodes ≠ [] ∧
      EnumRecord.HaveMade (records.enums.filter (·.about == name)) name e := by
  obtain ⟨r, listed, about, lists⟩ := h.listed
  obtain ⟨e, made, entry⟩ := Registry.entryOf_about EnumRecord.toValue EnumRecord.about
    (motive := fun rs e => EnumRecord.HaveMade rs name e) ⟨r, listed, about⟩
    (fun r _ about => ⟨about, rfl, rfl, rfl, rfl⟩)
    (fun before e r listed about made => made.enter (h.plain r listed about) h.shared h.replaced
      (Citation.specId? r.citation))
  rw [← Registry.find?_enums_ofRecords records h.noStatus] at made
  obtain ⟨c, code⟩ := Option.isSome_iff_exists.mp lists
  have among : c ∈ (records.enums.filter (·.about == name)).filterMap EnumRecord.listed? :=
    List.mem_filterMap.mpr ⟨r, List.mem_filter.mpr ⟨listed, beq_iff_eq.mpr about⟩, code⟩
  have labelled : c.label ∈ Named.names e.values.asCodes := by
    rw [entry.codes, Named.names_putAll]
    exact List.mem_eraseDups.mpr (List.mem_map_of_mem among)
  refine ⟨e, made, fun none => ?_, entry⟩
  rw [none] at labelled
  cases labelled

theorem plain_enum_defined (h : records.PlainEnum name) :
    ∃ d, (resolve records).enum? name = some d ∧
      Named.names d.values = (Named.names (records.codesOf name)).eraseDups ∧
      (∀ label, Named.find? d.values label =
        ((records.codesOf name).filter (·.label == label)).getLast?) ∧
      (d.hexadecimal = true ↔
        ∃ r ∈ records.enums, r.about = name ∧ r.listsHexadecimal = true) := by
  obtain ⟨e, found, lists, entry⟩ := entry_of_plainEnum h
  obtain ⟨d, defined, values, hexadecimal⟩ :=
    enum?_resolve found entry.readable entry.reference lists
  refine ⟨d, defined, ?_, fun label => ?_, ?_⟩
  · rw [values, entry.codes, Named.names_putAll]
    rfl
  · rw [values, entry.codes, Named.find?_putAll]
    rfl
  · rw [hexadecimal, entry.hexadecimal, List.any_eq_true]
    constructor
    · rintro ⟨r, member, written⟩
      obtain ⟨listed, about⟩ := List.mem_filter.mp member
      exact ⟨r, listed, beq_iff_eq.mp about, written⟩
    · rintro ⟨r, listed, about, written⟩
      exact ⟨r, List.mem_filter.mpr ⟨listed, beq_iff_eq.mpr about⟩, written⟩

theorem plain_enum_typed (h : records.PlainEnum name) (declared : records.DeclareAs name "enum") :
    ∃ d, (resolve records).type? name = some d ∧ d.kind = .enumeration ∧
      d.underlying = some name ∧ (d.isSet = true ↔ records.DeclareSet name) ∧
      ∃ u ∈ (resolve records).enumUsages, u.enum = name ∧ "types." ++ name ∈ u.places := by
  obtain ⟨e, found, -, entry⟩ := entry_of_plainEnum h
  have settled : Grammar.IsSettled "enum" :=
    ⟨by decide, by decide, by decide⟩
  obtain ⟨declaration, canonical, named, text, set⟩ :=
    canonical_assembled settled h.unqualified declared.1 declared.2
  have known : (assembled records).enumScope.table.find? name = some e := by
    rw [Registry.enumScope, enums_assembled, found]
  have own : e.target? = none := by rw [Entity.target?, entry.reference]; rfl
  have resolved : (assembled records).enumScope.resolve name = some (.entity e) := by
    rw [Scope.resolve_entry known own, Scope.settle, entry.readable, entry.reference]
    rfl
  have inferred : Inference.ofEntity? (assembled records) declaration =
      some { kind := .enumeration, underlying := some name } := by
    refine Inference.ofEntity?_enum text ?_
    rw [Inference.enumeration?, named, Inference.lookupName_own h.lookup, resolved, ← entry.name]
  have typed := type?_resolve canonical inferred
  obtain ⟨u, used, enum, place⟩ := usage_of_type typed rfl rfl
  exact ⟨_, typed, rfl, rfl, set, u, used, enum, place⟩

theorem entry_of_plainKeyword (h : records.PlainKeyword name) :
    ∃ e, (Registry.ofRecords records).keywords.find? name = some e ∧ e.values.asWords ≠ [] ∧
      KeywordRecord.HaveMade (records.keywords.filter (·.about == name)) name e := by
  obtain ⟨r, listed, about, lists⟩ := h.listed
  obtain ⟨e, made, entry⟩ := Registry.entryOf_about KeywordRecord.toValue KeywordRecord.about
    (motive := fun rs e => KeywordRecord.HaveMade rs name e) ⟨r, listed, about⟩
    (fun r _ about => ⟨about, rfl, rfl, rfl⟩)
    (fun before e r listed about made =>
      made.enter (h.plain r listed about) (Citation.specId? r.citation))
  rw [← Registry.find?_keywords_ofRecords records h.supplied] at made
  obtain ⟨word, value⟩ := Option.isSome_iff_exists.mp lists
  have among : word ∈ (records.keywords.filter (·.about == name)).filterMap KeywordRecord.listed? :=
    List.mem_filterMap.mpr ⟨r, List.mem_filter.mpr ⟨listed, beq_iff_eq.mpr about⟩, value⟩
  refine ⟨e, made, fun none => ?_, entry⟩
  have listed : word ∈ e.values.asWords := entry.words ▸ List.mem_eraseDups.mpr among
  rw [none] at listed
  cases listed

theorem plain_keyword_defined (h : records.PlainKeyword name) :
    ∃ d, (resolve records).keyword? name = some d ∧
      d.values = (records.wordsOf name).eraseDups := by
  obtain ⟨e, found, lists, entry⟩ := entry_of_plainKeyword h
  obtain ⟨d, defined, values⟩ := keyword?_resolve found entry.readable entry.reference lists
  exact ⟨d, defined, values.trans entry.words⟩

theorem plain_keyword_typed (h : records.PlainKeyword name)
    (declared : records.DeclareAs name "keyword") :
    ∃ d, (resolve records).type? name = some d ∧ d.kind = .keyword ∧
      d.underlying = some name ∧ (d.isSet = true ↔ records.DeclareSet name) := by
  obtain ⟨e, found, lists, entry⟩ := entry_of_plainKeyword h
  have settled : Grammar.IsSettled "keyword" :=
    ⟨by decide, by decide, by decide⟩
  obtain ⟨declaration, canonical, named, text, set⟩ :=
    canonical_assembled settled h.unqualified declared.1 declared.2
  obtain ⟨note, noted⟩ := Registry.noted_eq (Registry.ofRecords records).enumDefinitions.1 e
  have known : (assembled records).keywordScope.table.find? name = some { e with note } := by
    rw [Registry.keywordScope, find?_keywords_assembled, found, Option.map_some, noted]
  have own : ({ e with note } : Entity).target? = none := by
    rw [Entity.target?, entry.reference]
    rfl
  have resolved : (assembled records).keywordScope.resolve name =
      some (.entity { e with note }) := by
    rw [Scope.resolve_entry known own, Scope.settle, entry.readable, entry.reference]
    rfl
  have some : e.values.isEmpty = false := by
    cases values : e.values with
    | unlisted => simp [values, Values.asWords] at lists
    | codes entries => simp [values, Values.asWords] at lists
    | words entries => simpa [values, Values.asWords, Values.isEmpty] using lists
  have inferred : ∃ note, Inference.ofEntity? (assembled records) declaration =
      Option.some { kind := .keyword, underlying := Option.some name, note } := by
    rw [Inference.ofEntity?_keyword text (named ▸ h.documented), Inference.keyword, named,
      Inference.lookupName_own h.lookup, resolved]
    simp only [some, Bool.not_false, if_true, entry.name]
    exact ⟨_, rfl⟩
  obtain ⟨note, inferred⟩ := inferred
  exact ⟨_, type?_resolve canonical inferred, rfl, rfl, set⟩

/-- Plain enumerations and keywords resolve as they are listed, whatever other
records there are. The definition of an enumeration has the labels listed in order
of first mention, each with its last code, and that of a keyword the words. If the
families that declare the attribute agree on its kind, it has a type of this kind,
bound to the definition, which takes a set if one of the families says so; and the
type of an enumeration is among its uses. -/
theorem plain_values_resolve (records : Records) (name : String) :
    (records.PlainEnum name →
      (∃ d, (resolve records).enum? name = some d ∧
        Named.names d.values = (Named.names (records.codesOf name)).eraseDups ∧
        (∀ label, Named.find? d.values label =
          ((records.codesOf name).filter (·.label == label)).getLast?) ∧
        (d.hexadecimal = true ↔
          ∃ r ∈ records.enums, r.about = name ∧ r.listsHexadecimal = true)) ∧
      (records.DeclareAs name "enum" →
        ∃ d, (resolve records).type? name = some d ∧ d.kind = .enumeration ∧
          d.underlying = some name ∧ (d.isSet = true ↔ records.DeclareSet name) ∧
          ∃ u ∈ (resolve records).enumUsages, u.enum = name ∧ "types." ++ name ∈ u.places)) ∧
    (records.PlainKeyword name →
      (∃ d, (resolve records).keyword? name = some d ∧
        d.values = (records.wordsOf name).eraseDups) ∧
      (records.DeclareAs name "keyword" →
        ∃ d, (resolve records).type? name = some d ∧ d.kind = .keyword ∧
          d.underlying = some name ∧ (d.isSet = true ↔ records.DeclareSet name))) :=
  ⟨fun h => ⟨plain_enum_defined h, plain_enum_typed h⟩,
    fun h => ⟨plain_keyword_defined h, plain_keyword_typed h⟩⟩

/-- Two states of a job and two sides of a sheet, with the attributes they are the
values of. -/
theorem plain_values_resolve_of_job_state :
    let records : Records := {
      enums := [{ about := "job-state", name := some "pending", value := some "3" },
        { about := "job-state", name := some "processing", value := some "0x5" }]
      keywords := [{ about := "sides", value := some "one-sided" },
        { about := "sides", value := some "two-sided-long-edge" }]
      attributes := [{ family := "Job Status", name := "job-state", grammar := some "type1 enum" },
        { family := "Job Template", name := "sides", grammar := some "1setOf type2 keyword" }] }
    records.PlainEnum "job-state" ∧ records.DeclareAs "job-state" "enum" ∧
      records.PlainKeyword "sides" ∧ records.DeclareAs "sides" "keyword" ∧
      (∃ d, (resolve records).type? "job-state" = some d ∧ d.underlying = some "job-state") ∧
      ∃ d, (resolve records).type? "sides" = some d ∧ d.underlying = some "sides" := by
  intro records
  have enum : records.PlainEnum "job-state" := by
    refine ⟨by decide, by decide, by decide, by decide, by decide, ?_, ?_⟩
    · intro r member _
      rcases List.mem_cons.mp member with rfl | later
      · exact ⟨⟨_, rfl, by decide⟩, ⟨_, rfl, by decide⟩⟩
      · obtain rfl := List.mem_singleton.mp later
        exact ⟨⟨_, rfl, by decide⟩, ⟨_, rfl, by decide⟩⟩
    · exact ⟨_, List.mem_cons_self, rfl, by decide⟩
  have keyword : records.PlainKeyword "sides" := by
    refine ⟨by decide, by decide, by decide, by decide, ?_, ?_⟩
    · intro r member _ value given
      rcases List.mem_cons.mp member with rfl | later
      · cases given
        decide
      · obtain rfl := List.mem_singleton.mp later
        cases given
        decide
    · exact ⟨_, List.mem_cons_self, rfl, by decide⟩
  have declaredEnum : records.DeclareAs "job-state" "enum" :=
    Records.declareAs_of_records ⟨_, List.mem_cons_self, rfl⟩ (by decide)
  have declaredKeyword : records.DeclareAs "sides" "keyword" :=
    Records.declareAs_of_records ⟨_, List.mem_cons_of_mem _ List.mem_cons_self, rfl⟩
      (by decide)
  obtain ⟨d, typed, -, bound, -⟩ :=
    ((plain_values_resolve records "job-state").1 enum).2 declaredEnum
  obtain ⟨d', typed', -, bound', -⟩ :=
    ((plain_values_resolve records "sides").2 keyword).2 declaredKeyword
  exact ⟨enum, declaredEnum, keyword, declaredKeyword, ⟨d, typed, bound⟩, d', typed', bound'⟩

end Model

end PrintRegistry
