import PrintRegistry.Proofs.Ingestion

/-!
Records of values. A value of an enumeration, a value of a keyword and a status
code are all entered in one way: into the entry of the name they are about,
which is made first if it is missing. What a record does depends on that entry
alone, and it changes no other.
-/

namespace PrintRegistry

namespace Citation

def specId? (c : Option Citation) : Option String :=
  (c.bind spec?).map Spec.id

def finding? (c : Option Citation) : Option Finding :=
  c.bind fun c => if c.spec?.isNone then some (.unreadableCitation c) else none

end Citation

/-- The documents with the one that is cited. -/
def Table.citing (t : Table Spec) (c : Option Citation) : Table Spec :=
  match c.bind Citation.spec? with
  | some spec => if t.has spec.id then t else t.put spec
  | none => t

theorem Table.has_put {α : Type} [Named α] (t : Table α) (a : α) (name : String) :
    (t.put a).has name = (nameOf a == name || t.has name) := by
  have found := t.find?_put a name
  simp only [Table.find?] at found
  simp only [Table.has, Named.has, found]
  by_cases same : nameOf a = name <;> simp [same]

theorem Table.has_citing (t : Table Spec) (c : Option Citation) (id : String) :
    (t.citing c).has id = (Citation.specId? c == some id || t.has id) := by
  rw [citing, Citation.specId?]
  cases c.bind Citation.spec? with
  | none => rfl
  | some spec =>
    by_cases known : t.has spec.id = true
    · simp only [known, if_true, Option.map_some]
      by_cases same : spec.id = id
      · simp [← same, known]
      · simp [same]
    · simp only [known, Bool.false_eq_true, if_false, Option.map_some, Table.has_put]
      rfl

namespace Registry

theorem cite_eq_citing (r : Registry) (c : Option Citation) :
    r.cite c = ({ r with
      specs := r.specs.citing c
      findings := r.findings ++ (Citation.finding? c).toList }, Citation.specId? c) := by
  cases c with
  | none => simp [cite, Table.citing, Citation.finding?, Citation.specId?]
  | some c =>
    cases read : c.spec? with
    | none => simp [cite, read, Table.citing, Citation.finding?, Citation.specId?, report]
    | some spec =>
      by_cases known : r.specs.has spec.id = true <;>
        simp [cite, read, known, Table.citing, Citation.finding?, Citation.specId?]

theorem reportAny_eq_append (r : Registry) (f : Option Finding) :
    r.reportAny f = { r with findings := r.findings ++ f.toList } := by
  cases f <;> simp [reportAny, report]

end Registry

/-- What is common to all records of values: the name a record is about, the
entry made if there is none, and what the record does to the entry. -/
structure ValueRecord where
  about : String
  citation : Option Citation
  fresh : Entity
  enter : Entity → Entity × Option Finding
  name_fresh : fresh.name = about
  name_enter : ∀ e, (enter e).1.name = e.name

namespace ValueRecord

/-- The entry of the name after the record, and the finding made. -/
def entered (v : ValueRecord) (found : Option Entity) : Entity × Option Finding :=
  v.enter ((found.getD v.fresh).citingAny (Citation.specId? v.citation))

/-- The findings made about the record and its citation. -/
def findings (v : ValueRecord) (found : Option Entity) : List Finding :=
  (Citation.finding? v.citation).toList ++ (v.entered found).2.toList

/-- Enters the record into a table. -/
def enterInto (s : Table Entity × List Finding) (v : ValueRecord) :
    Table Entity × List Finding :=
  (s.1.put (v.entered (s.1.find? v.about)).1, s.2 ++ v.findings (s.1.find? v.about))

theorem name_entered (v : ValueRecord) (t : Table Entity) :
    (v.entered (t.find? v.about)).1.name = v.about := by
  rw [entered, v.name_enter, AttributeRecord.name_citingAny]
  cases found : t.find? v.about with
  | none => exact v.name_fresh
  | some e => exact (Table.mem_of_find? found).2

/-- Every other entry is as before. -/
theorem find?_enterInto (s : Table Entity × List Finding) (v : ValueRecord) (name : String) :
    (enterInto s v).1.find? name =
      if v.about = name then some (v.entered (s.1.find? v.about)).1 else s.1.find? name := by
  rw [enterInto, Table.find?_put]
  simp only [nameOf, name_entered]

/-- The entry of a name after many records is made by the records about it
alone. -/
theorem find?_foldl_enterInto (vs : List ValueRecord) (s : Table Entity × List Finding)
    (name : String) :
    (vs.foldl enterInto s).1.find? name =
      (vs.filter (·.about == name)).foldl (fun found v => some (v.entered found).1)
        (s.1.find? name) := by
  induction vs generalizing s with
  | nil => rfl
  | cons v vs ih =>
    rw [List.foldl_cons, ih, find?_enterInto]
    by_cases here : v.about = name
    · subst here
      simp
    · simp [here]

end ValueRecord

/-- A view of entities that shows neither values nor references, nor what records of values
say about these. -/
structure Entity.IsAside {β : Type} (view : Entity → β) : Prop where
  values : ∀ e values hexadecimal, view { e with values, hexadecimal } = view e
  reference : ∀ e reference, view { e with reference } = view e
  unreadable : ∀ e unreadable, view { e with unreadable } = view e
  keywordType : ∀ e keywordType, view { e with keywordType } = view e

theorem Entity.isAside_name : IsAside Entity.name :=
  ⟨fun _ _ _ => rfl, fun _ _ => rfl, fun _ _ => rfl, fun _ _ => rfl⟩

section Views

variable {β : Type} {view : Entity → β}

theorem Entity.view_redirected (reference : ∀ e reference, view { e with reference } = view e)
    (e : Entity) : view e.redirected = view e := by
  rw [redirected]
  split
  · exact reference e _
  · rfl

theorem EnumRecord.view_enterCode
    (values : ∀ e values hexadecimal, view { e with values, hexadecimal } = view e)
    (e : Entity) (label value : String) : view (enterCode e label value).1 = view e := by
  rw [enterCode]
  split
  · rfl
  · split
    · exact values e _ _
    · rfl

theorem EnumRecord.view_enterReference (aside : Entity.IsAside view) (e : Entity)
    (value : String) : view (enterReference e value).1 = view e := by
  rw [enterReference]
  split
  · exact aside.reference e _
  · exact aside.unreadable e _

theorem EnumRecord.view_enter (aside : Entity.IsAside view) (r : EnumRecord) (e : Entity) :
    view (r.enter e).1 = view e := by
  rw [enter]
  cases r.name.bind Reference.ofEnumLabel? with
  | some target =>
    have told := (Entity.view_redirected aside.reference _).trans
      (aside.reference e (some (.byName target)))
    dsimp only
    split
    · exact (aside.reference _ _).trans told
    · exact told
  | none =>
    have told := Entity.view_redirected aside.reference e
    dsimp only
    split
    · exact (aside.reference _ _).trans told
    · split
      · exact (view_enterCode aside.values _ _ _).trans told
      · exact (view_enterReference aside _ _).trans told
      · exact told

theorem KeywordRecord.view_enterValue (aside : Entity.IsAside view) (e : Entity)
    (value : String) : view (enterValue e value).1 = view e := by
  rw [enterValue]
  split
  · rfl
  · split
    · exact aside.values e _ e.hexadecimal
    · split
      · exact aside.reference e _
      · exact aside.unreadable e _

theorem KeywordRecord.view_enter (aside : Entity.IsAside view) (r : KeywordRecord) (e : Entity) :
    view (r.enter e).1 = view e := by
  rw [enter]
  cases r.keywordType with
  | some type =>
    cases r.value with
    | some value => exact (view_enterValue aside _ _).trans (aside.keywordType e _)
    | none => exact aside.keywordType e _
  | none =>
    cases r.value with
    | some value => exact view_enterValue aside e _
    | none => rfl

theorem StatusRecord.view_enter
    (values : ∀ e values hexadecimal, view { e with values, hexadecimal } = view e)
    (r : StatusRecord) (e : Entity) : view (r.enter e).1 = view e := by
  rw [enter]
  split
  · rfl
  · split
    · exact values e _ _
    · rfl

end Views

theorem Entity.name_redirected (e : Entity) : e.redirected.name = e.name :=
  view_redirected isAside_name.reference e

def EnumRecord.toValue (r : EnumRecord) : ValueRecord where
  about := r.about
  citation := r.citation
  fresh := Entity.fresh r.about r.grammar
  enter := r.enter
  name_fresh := rfl
  name_enter := r.view_enter Entity.isAside_name

def KeywordRecord.toValue (r : KeywordRecord) : ValueRecord where
  about := r.about
  citation := r.citation
  fresh := Entity.fresh r.about r.grammar
  enter := r.enter
  name_fresh := rfl
  name_enter := r.view_enter Entity.isAside_name

def StatusRecord.toValue (r : StatusRecord) : ValueRecord where
  about := enumName
  citation := r.citation
  fresh := freshEnum
  enter := r.enter
  name_fresh := rfl
  name_enter := r.view_enter Entity.isAside_name.values

namespace Registry

/-- Enters a record into the enumeration table. -/
def enterEnum (r : Registry) (v : ValueRecord) : Registry :=
  { r with
    specs := r.specs.citing v.citation
    enums := (v.enterInto (r.enums, r.findings)).1
    findings := (v.enterInto (r.enums, r.findings)).2 }

/-- Enters a record into the keyword table. -/
def enterKeyword (r : Registry) (v : ValueRecord) : Registry :=
  { r with
    specs := r.specs.citing v.citation
    keywords := (v.enterInto (r.keywords, r.findings)).1
    findings := (v.enterInto (r.keywords, r.findings)).2 }

theorem ingestEnum_eq_enterEnum (r : Registry) (record : EnumRecord) :
    r.ingestEnum record = r.enterEnum record.toValue := by
  rw [ingestEnum, cite_eq_citing]
  refine (reportAny_eq_append _ _).trans ?_
  rw [List.append_assoc]
  rfl

theorem ingestStatus_eq_enterEnum (r : Registry) (record : StatusRecord) :
    r.ingestStatus record = r.enterEnum record.toValue := by
  rw [ingestStatus, cite_eq_citing]
  refine (reportAny_eq_append _ _).trans ?_
  rw [List.append_assoc]
  rfl

theorem ingestKeyword_eq_enterKeyword (r : Registry) (record : KeywordRecord) :
    r.ingestKeyword record = r.enterKeyword record.toValue := by
  rw [ingestKeyword, cite_eq_citing]
  refine (reportAny_eq_append _ _).trans ?_
  rw [List.append_assoc]
  rfl

/-- Records that are entered into the enumeration table one after another. -/
theorem entries_foldl_enterEnum {α : Type} {step : Registry → α → Registry}
    {toValue : α → ValueRecord} (enters : ∀ r a, step r a = r.enterEnum (toValue a))
    (as : List α) (r : Registry) :
    ((as.foldl step r).enums, (as.foldl step r).findings) =
      (as.map toValue).foldl ValueRecord.enterInto (r.enums, r.findings) := by
  induction as generalizing r with
  | nil => rfl
  | cons a as ih =>
    rw [List.foldl_cons, ih, enters]
    rfl

theorem entries_foldl_ingestEnum (rs : List EnumRecord) (r : Registry) :
    ((rs.foldl ingestEnum r).enums, (rs.foldl ingestEnum r).findings) =
      (rs.map EnumRecord.toValue).foldl ValueRecord.enterInto (r.enums, r.findings) :=
  entries_foldl_enterEnum ingestEnum_eq_enterEnum rs r

theorem entries_foldl_ingestStatus (rs : List StatusRecord) (r : Registry) :
    ((rs.foldl ingestStatus r).enums, (rs.foldl ingestStatus r).findings) =
      (rs.map StatusRecord.toValue).foldl ValueRecord.enterInto (r.enums, r.findings) :=
  entries_foldl_enterEnum ingestStatus_eq_enterEnum rs r

theorem entries_foldl_ingestKeyword (rs : List KeywordRecord) (r : Registry) :
    ((rs.foldl ingestKeyword r).keywords, (rs.foldl ingestKeyword r).findings) =
      (rs.map KeywordRecord.toValue).foldl ValueRecord.enterInto (r.keywords, r.findings) := by
  induction rs generalizing r with
  | nil => rfl
  | cons record rs ih =>
    rw [List.foldl_cons, ih, ingestKeyword_eq_enterKeyword]
    rfl

theorem enums_foldl_ingestKeyword (rs : List KeywordRecord) (r : Registry) :
    (rs.foldl ingestKeyword r).enums = r.enums :=
  foldl_keeps ingestKeyword Registry.enums
    (fun r record => by rw [ingestKeyword_eq_enterKeyword]; rfl) rs r

theorem keywords_foldl_ingestEnum (rs : List EnumRecord) (r : Registry) :
    (rs.foldl ingestEnum r).keywords = r.keywords :=
  foldl_keeps ingestEnum Registry.keywords
    (fun r record => by rw [ingestEnum_eq_enterEnum]; rfl) rs r

/-- Attributes are entered into families alone. -/
theorem values_foldl_ingestAttribute (as : List AttributeRecord) (r : Registry) :
    (as.foldl ingestAttribute r).enums = r.enums ∧
      (as.foldl ingestAttribute r).keywords = r.keywords := by
  refine Prod.mk.inj (foldl_keeps ingestAttribute (fun r => (r.enums, r.keywords)) ?_ as r)
  intro r record
  cases plain : isQualified record.name with
  | true => simp [ingestAttribute, plain]
  | false =>
    obtain ⟨_, _, _, same⟩ := r.ingestAttribute_eq plain
    rw [same]
    rfl

/-- The entry that records about one name make. -/
def entryOf (vs : List ValueRecord) : Option Entity :=
  vs.foldl (fun found v => some (v.entered found).1) none

/-- The last record is entered into the entry that the ones before it make. -/
theorem entryOf_concat (vs : List ValueRecord) (v : ValueRecord) :
    entryOf (vs ++ [v]) = some (v.entered (entryOf vs)).1 := by
  rw [entryOf, List.foldl_append]
  rfl

/-- What holds of a fresh entry, and is carried from record to record, holds of the
entry that records make. -/
theorem entryOf_induction {α : Type} (toValue : α → ValueRecord) {motive : List α → Entity → Prop}
    {rs : List α} (some : rs ≠ []) (start : ∀ r ∈ rs, motive [] (toValue r).fresh)
    (step : ∀ before e, ∀ r ∈ rs, motive before e → motive (before ++ [r])
      ((toValue r).enter (e.citingAny (Citation.specId? (toValue r).citation))).1) :
    ∃ e, entryOf (rs.map toValue) = Option.some e ∧ motive rs e := by
  induction rs using List.reverseRecOn with
  | nil => exact absurd rfl some
  | append_singleton rs r ih =>
    have last : r ∈ rs ++ [r] := List.mem_append_right _ List.mem_cons_self
    rw [List.map_append]
    refine ⟨_, entryOf_concat _ _, step rs _ r last ?_⟩
    by_cases first : rs = []
    · subst first
      exact start r last
    · obtain ⟨e, made, holds⟩ := ih first
        (fun r member => start r (List.mem_append_left _ member))
        (fun before e r member => step before e r (List.mem_append_left _ member))
      rw [made]
      exact holds

/-- The same for the records about one name among others. -/
theorem entryOf_about {α : Type} (toValue : α → ValueRecord) (about : α → String) {name : String}
    {motive : List α → Entity → Prop} {rs : List α} (listed : ∃ r ∈ rs, about r = name)
    (start : ∀ r ∈ rs, about r = name → motive [] (toValue r).fresh)
    (step : ∀ before e, ∀ r ∈ rs, about r = name → motive before e → motive (before ++ [r])
      ((toValue r).enter (e.citingAny (Citation.specId? (toValue r).citation))).1) :
    ∃ e, entryOf ((rs.filter (about · == name)).map toValue) = some e ∧
      motive (rs.filter (about · == name)) e := by
  have own : ∀ r, r ∈ rs.filter (about · == name) ↔ r ∈ rs ∧ about r = name := fun r => by
    rw [List.mem_filter, beq_iff_eq]
  obtain ⟨r, member, here⟩ := listed
  exact entryOf_induction toValue (List.ne_nil_of_mem ((own r).mpr ⟨member, here⟩))
    (fun r member => start r ((own r).mp member).1 ((own r).mp member).2)
    (fun before e r member => step before e r ((own r).mp member).1 ((own r).mp member).2)

/-- Status codes are entered after the records of enumerations. -/
theorem enums_ofRecords (records : Records) : ∃ findings, (ofRecords records).enums =
    ((records.statusCodes.map StatusRecord.toValue).foldl ValueRecord.enterInto
      (((records.enums.map EnumRecord.toValue).foldl ValueRecord.enterInto (.empty, [])).1,
        findings)).1 := by
  have entered := congrArg Prod.fst (entries_foldl_ingestEnum records.enums {})
  have attributes := (values_foldl_ingestAttribute records.attributes (beforeAttributes records)).1
  have status := congrArg Prod.fst (entries_foldl_ingestStatus records.statusCodes
    (records.attributes.foldl ingestAttribute (beforeAttributes records)))
  have supplied := foldl_keeps supplyMember Registry.enums (fun r s => by
    rcases r.supplyMember_cases s with same | ⟨_, _, _, _, _, same⟩
    · rw [same]
    · rw [same]
      rfl) SiblingMember.all
  have before : (beforeAttributes records).enums =
      ((records.enums.map EnumRecord.toValue).foldl ValueRecord.enterInto (.empty, [])).1 :=
    (enums_foldl_ingestKeyword records.keywords _).trans entered
  rw [attributes, before] at status
  exact ⟨_, (supplied _).trans status⟩

/-- Keywords are supplied after the records of keywords are entered. -/
theorem keywords_ofRecords (records : Records) : ∃ findings, (ofRecords records).keywords =
    (SupplementaryKeyword.all.map (·.entity)).foldl .put
      ((records.keywords.map KeywordRecord.toValue).foldl ValueRecord.enterInto
        (.empty, findings)).1 := by
  have entered := congrArg Prod.fst (entries_foldl_ingestKeyword records.keywords
    (records.enums.foldl ingestEnum {}))
  rw [keywords_foldl_ingestEnum] at entered
  have supplied := congrArg
    (fun t : Table Entity => (SupplementaryKeyword.all.map (·.entity)).foldl .put t) entered
  exact ⟨(records.enums.foldl ingestEnum {}).findings,
    (tables_ofRecords records).1.trans supplied⟩

/-- The entry of an enumeration, apart from that of status codes, is made by its
own records. -/
theorem find?_enums_ofRecords (records : Records) {name : String}
    (noStatus : name ≠ StatusRecord.enumName) :
    (ofRecords records).enums.find? name =
      entryOf ((records.enums.filter (·.about == name)).map EnumRecord.toValue) := by
  have other : (records.statusCodes.map StatusRecord.toValue).filter (·.about == name) = [] := by
    rw [List.filter_eq_nil_iff]
    intro v member
    obtain ⟨s, -, rfl⟩ := List.mem_map.mp member
    simpa [StatusRecord.toValue] using noStatus.symm
  obtain ⟨findings, enums⟩ := enums_ofRecords records
  rw [enums, ValueRecord.find?_foldl_enterInto, other, List.foldl_nil,
    ValueRecord.find?_foldl_enterInto, List.filter_map]
  rfl

/-- The entry of a keyword that is not missing from the listing is made by its own
records. -/
theorem find?_keywords_ofRecords (records : Records) {name : String}
    (listed : name ∉ SupplementaryKeyword.all.map SupplementaryKeyword.name) :
    (ofRecords records).keywords.find? name =
      entryOf ((records.keywords.filter (·.about == name)).map KeywordRecord.toValue) := by
  have other : (SupplementaryKeyword.all.map (·.entity)).filter (nameOf · == name) = [] := by
    rw [List.filter_eq_nil_iff]
    intro e member
    obtain ⟨k, known, rfl⟩ := List.mem_map.mp member
    exact fun same => listed (eq_of_beq same ▸ List.mem_map_of_mem known)
  obtain ⟨findings, keywords⟩ := keywords_ofRecords records
  rw [keywords, Table.find?_foldl_put, other, List.getLast?_nil, Option.none_or,
    ValueRecord.find?_foldl_enterInto, List.filter_map]
  rfl

end Registry

end PrintRegistry
