import PrintRegistry.Proofs.Registry
import PrintRegistry.Registry.Supplement

/-!
What ingestion makes of the records of a snapshot. Every attribute is declared
by a record and every unqualified record declares one, with the members it
names; later records add to what earlier ones have declared.
-/

namespace PrintRegistry

namespace AttributeRecord

/-- The name of the submember that the record declares, if it does. Prose that
begins with an angle bracket is no name. -/
def submemberPath (r : AttributeRecord) : List String :=
  match r.submember with
  | none => []
  | some column => if Text.startsWith column "<" then [] else [column]

/-- The names of the member and of the submember that the record declares. -/
def path (r : AttributeRecord) : List String :=
  match r.member with
  | none => []
  | some column =>
    if Text.startsWith (memberName column) "<" then [] else memberName column :: r.submemberPath

/-- The record declares something below a member that a sibling supplies
instead. -/
def IsSupplied (r : AttributeRecord) : Prop :=
  ∃ s ∈ SiblingMember.all, r.family = s.family ∧ r.name = s.collection ∧
    ∃ submember rest, r.path = s.member :: submember :: rest

@[simp] theorem name_citingAny (e : Entity) (spec : Option String) :
    (e.citingAny spec).name = e.name := by
  cases spec <;> rfl

@[simp] theorem members_citingAny (e : Entity) (spec : Option String) :
    (e.citingAny spec).members = e.members := by
  cases spec <;> rfl

@[simp] theorem grammar_citingAny (e : Entity) (spec : Option String) :
    (e.citingAny spec).grammar = e.grammar := by
  cases spec <;> rfl

@[simp] theorem values_citingAny (e : Entity) (spec : Option String) :
    (e.citingAny spec).values = e.values := by
  cases spec <;> rfl

@[simp] theorem unreadable_citingAny (e : Entity) (spec : Option String) :
    (e.citingAny spec).unreadable = e.unreadable := by
  cases spec <;> rfl

/-- Entering a record into a member keeps its name, and puts the submember in
that the record declares, or the one there is of that name. -/
theorem enterMember_cases (r : AttributeRecord) (spec : Option String) (m : Entity) :
    (r.enterMember spec m).1.name = m.name ∧
      ((r.submemberPath = [] ∧ (r.enterMember spec m).1.members = m.members) ∨
        ∃ name, r.submemberPath = [name] ∧ (r.enterMember spec m).1.members =
          Named.put m.members
            (((Named.find? m.members name).getD (freshMember name r.grammar)).citingAny spec)) := by
  rw [enterMember, submemberPath]
  cases r.submember with
  | none => simp
  | some column =>
    by_cases prose : Text.startsWith column "<" = true
    · cases read : Reference.ofPhrase? column <;> simp [prose, read]
    · simp [prose, Entity.upsertMember, freshMember, Entity.fresh]

/-- Entering a record into an attribute keeps its name, and puts the member in
again that the record declares, with the record entered into it. -/
theorem enter_cases (r : AttributeRecord) (spec : Option String) (e : Entity) :
    (r.enter spec e).1.name = e.name ∧
      ((r.path = [] ∧ (r.enter spec e).1.members = e.members) ∨
        ∃ name, r.path = name :: r.submemberPath ∧ (r.enter spec e).1.members =
          Named.put e.members (r.enterMember spec
            ((Named.find? e.members name).getD (freshMember name r.grammar))).1) := by
  rw [enter, path]
  cases r.member with
  | none => simp
  | some column =>
    by_cases prose : Text.startsWith (memberName column) "<" = true
    · cases read : Reference.ofPhrase? (memberName column) <;> simp [prose, read]
    · simp [prose]

section Found

variable {e : Entity} (name : String) (grammar : Option String)

theorem name_found :
    ((Named.find? e.members name).getD (freshMember name grammar)).name = name := by
  cases found : Named.find? e.members name with
  | none => rfl
  | some m => exact (Named.mem_of_find? found).2

private theorem distinct_found (h : e.Distinct) :
    ((Named.find? e.members name).getD (freshMember name grammar)).Distinct := by
  cases found : Named.find? e.members name with
  | none => exact Entity.Distinct.ofNoMembers rfl
  | some m => exact h.members (Named.mem_of_find? found).1

end Found

theorem distinct_enterMember (r : AttributeRecord) (spec : Option String) {m : Entity}
    (h : m.Distinct) : (r.enterMember spec m).1.Distinct := by
  rcases (r.enterMember_cases spec m).2 with ⟨-, same⟩ | ⟨name, -, put⟩
  · exact h.congr same
  · exact (h.put ((distinct_found name _ h).congr (members_citingAny _ spec))).congr put

theorem distinct_enter (r : AttributeRecord) (spec : Option String) {e : Entity}
    (h : e.Distinct) : (r.enter spec e).1.Distinct := by
  rcases (r.enter_cases spec e).2 with ⟨-, same⟩ | ⟨name, -, put⟩
  · exact h.congr same
  · exact (h.put (r.distinct_enterMember spec (distinct_found name _ h))).congr put

theorem nests_enterMember_of_nests (r : AttributeRecord) (spec : Option String) {m : Entity}
    (distinct : m.Distinct) {path : List String} (h : Nests Entity.members m.members path) :
    Nests Entity.members (r.enterMember spec m).1.members path := by
  rcases (r.enterMember_cases spec m).2 with ⟨-, same⟩ | ⟨name, -, put⟩
  · exact same ▸ h
  · rw [put]
    refine Entity.nests_put distinct.names h fun old rest found _ inner => ?_
    rw [name_citingAny, name_found] at found
    rw [found, members_citingAny]
    exact inner

theorem nests_enterMember (r : AttributeRecord) (spec : Option String) (m : Entity) :
    Nests Entity.members (r.enterMember spec m).1.members r.submemberPath := by
  rcases (r.enterMember_cases spec m).2 with ⟨none, -⟩ | ⟨name, some, put⟩
  · exact none ▸ nests_nil _ _
  · rw [some, put]
    have declared := Entity.nests_put_self m.members
      (((Named.find? m.members name).getD (freshMember name r.grammar)).citingAny spec)
      (nests_nil _ _)
    rwa [name_citingAny, name_found] at declared

/-- Entering a record into an attribute loses no member and no submember. -/
theorem nests_enter_of_nests (r : AttributeRecord) (spec : Option String) {e : Entity}
    (distinct : e.Distinct) {path : List String} (h : Nests Entity.members e.members path) :
    Nests Entity.members (r.enter spec e).1.members path := by
  rcases (r.enter_cases spec e).2 with ⟨-, same⟩ | ⟨name, -, put⟩
  · exact same ▸ h
  · rw [put]
    refine Entity.nests_put distinct.names h fun old rest found _ inner => ?_
    -- The member replaced is the one that the record was entered into.
    rw [(r.enterMember_cases spec _).1, name_found] at found
    rw [found]
    exact r.nests_enterMember_of_nests spec (distinct.members (Named.mem_of_find? found).1) inner

theorem nests_enter (r : AttributeRecord) (spec : Option String) (e : Entity) :
    Nests Entity.members (r.enter spec e).1.members r.path := by
  rcases (r.enter_cases spec e).2 with ⟨none, -⟩ | ⟨name, some, put⟩
  · exact none ▸ nests_nil _ _
  · rw [some, put]
    have declared := Entity.nests_put_self e.members _
      (r.nests_enterMember spec ((Named.find? e.members name).getD (freshMember name r.grammar)))
    rwa [(r.enterMember_cases spec _).1, name_found] at declared

end AttributeRecord

theorem KeywordRecord.asCodes_enter (r : KeywordRecord) {e : Entity} (h : e.values.asCodes = []) :
    (r.enter e).1.values.asCodes = [] := by
  have value : ∀ (e : Entity) (v : String), e.values.asCodes = [] →
      (enterValue e v).1.values.asCodes = [] := by
    intro e v h
    rw [enterValue]
    split
    · exact h
    · split
      · rfl
      · split <;> exact h
  rw [enter]
  cases r.keywordType <;> cases r.value <;> first | exact h | exact value _ _ h

theorem SupplementaryKeyword.asCodes_entity :
    ∀ k ∈ all, k.entity.values.asCodes = [] := by
  decide

namespace Registry

theorem cite_eq (r : Registry) (citation : Option Citation) :
    ∃ specs findings spec, r.cite citation = ({ r with specs, findings }, spec) := by
  cases citation with
  | none => exact ⟨r.specs, r.findings, none, rfl⟩
  | some citation =>
    rw [cite]
    cases citation.spec? with
    | none => exact ⟨_, _, none, rfl⟩
    | some spec =>
      dsimp only
      split
      · exact ⟨r.specs, r.findings, spec.id, rfl⟩
      · exact ⟨_, _, spec.id, rfl⟩

theorem reportAny_eq (r : Registry) (finding : Option Finding) :
    ∃ findings, r.reportAny finding = { r with findings } := by
  cases finding with
  | none => exact ⟨r.findings, rfl⟩
  | some f => exact ⟨_, rfl⟩

theorem ingestEnum_eq (r : Registry) (record : EnumRecord) :
    ∃ specs enums findings, r.ingestEnum record = { r with specs, enums, findings } := by
  obtain ⟨specs, findings, spec, cited⟩ := r.cite_eq record.citation
  rw [ingestEnum, cited]
  obtain ⟨after, reported⟩ := reportAny_eq _ (record.enter _).2
  exact ⟨_, _, _, reported⟩

theorem ingestStatus_eq (r : Registry) (record : StatusRecord) :
    ∃ specs enums findings, r.ingestStatus record = { r with specs, enums, findings } := by
  obtain ⟨specs, findings, spec, cited⟩ := r.cite_eq record.citation
  rw [ingestStatus, cited]
  obtain ⟨after, reported⟩ := reportAny_eq _ (record.enter _).2
  exact ⟨_, _, _, reported⟩

theorem ingestKeyword_eq (r : Registry) (record : KeywordRecord) :
    ∃ specs findings spec, r.ingestKeyword record =
      { r with
        specs
        findings
        keywords := r.keywords.put (record.enter (((r.keywords.find? record.about).getD
          (Entity.fresh record.about record.grammar)).citingAny spec)).1 } := by
  obtain ⟨specs, findings, spec, cited⟩ := r.cite_eq record.citation
  rw [ingestKeyword, cited]
  obtain ⟨after, reported⟩ := reportAny_eq _ (record.enter _).2
  exact ⟨_, _, _, reported⟩

def entered (r : Registry) (record : AttributeRecord) (spec : Option String) : Entity :=
  (record.enter spec ((r.attribute? record.family record.name).getD
    (Entity.fresh record.name record.grammar))).1

theorem name_entered (r : Registry) (record : AttributeRecord) (spec : Option String) :
    (r.entered record spec).name = record.name := by
  rw [entered, (record.enter_cases spec _).1]
  cases known : r.attribute? record.family record.name with
  | none => rfl
  | some e => exact name_of_attribute? known

theorem ingestAttribute_eq (r : Registry) {record : AttributeRecord}
    (plain : isQualified record.name = false) :
    ∃ specs findings spec, r.ingestAttribute record =
      { r.alterFamily record.family (·.put (r.entered record spec)) with specs, findings } := by
  obtain ⟨specs, findings, spec, cited⟩ := r.cite_eq record.citation
  obtain ⟨after, reported⟩ := reportAny_eq
    (({ r with specs, findings } : Registry).alterFamily record.family
      (·.put (r.entered record spec)))
    (record.enter spec ((r.attribute? record.family record.name).getD
      (Entity.fresh record.name record.grammar))).2
  refine ⟨specs, after, spec, ?_⟩
  simp only [ingestAttribute, plain, cited, Bool.false_eq_true, if_false]
  exact reported

/-- A record is entered into the attribute of its family and name, and every
other attribute is left alone. -/
theorem attribute?_ingestAttribute (r : Registry) {record : AttributeRecord}
    (plain : isQualified record.name = false) (family name : String) :
    ∃ spec, (r.ingestAttribute record).attribute? family name =
      if family = record.family ∧ name = record.name then some (r.entered record spec)
      else r.attribute? family name := by
  obtain ⟨specs, findings, spec, ingested⟩ := r.ingestAttribute_eq plain
  have put := attribute?_putAttribute r record.family (r.entered record spec) family name
  rw [name_entered] at put
  exact ⟨spec, by rw [← put, ingested]; rfl⟩

/-- The attributes are those that unqualified records declare, and their members
have distinct names at every depth. -/
structure DeclaredBy (records : List AttributeRecord) (r : Registry) : Prop where
  distinct : r.DistinctMembers
  origin : ∀ family name e, r.attribute? family name = some e → ∃ record ∈ records,
    isQualified record.name = false ∧ record.family = family ∧ record.name = name

/-- The attribute of an unqualified record is there, with the members that the
record declares unless a sibling supplies them. -/
def Declares (record : AttributeRecord) (r : Registry) : Prop :=
  isQualified record.name = false → ∃ e, r.attribute? record.family record.name = some e ∧
    (¬ record.IsSupplied → Nests Entity.members e.members record.path)

private theorem distinct_entered {records : List AttributeRecord} {r : Registry}
    (h : r.DeclaredBy records) (record : AttributeRecord) (spec : Option String) :
    (r.entered record spec).Distinct := by
  refine record.distinct_enter spec ?_
  cases known : r.attribute? record.family record.name with
  | none => exact Entity.Distinct.ofNoMembers rfl
  | some e => exact h.distinct _ _ e known

private theorem declaredBy_ingestAttribute {records : List AttributeRecord} {r : Registry}
    (h : r.DeclaredBy records) {record : AttributeRecord} (member : record ∈ records) :
    (r.ingestAttribute record).DeclaredBy records := by
  cases plain : isQualified record.name with
  | true => simpa [ingestAttribute, plain] using h
  | false =>
    constructor
    · intro family name e known
      obtain ⟨spec, after⟩ := r.attribute?_ingestAttribute plain family name
      rw [after] at known
      split at known
      · cases known
        exact distinct_entered h record spec
      · exact h.distinct family name e known
    · intro family name e known
      obtain ⟨spec, after⟩ := r.attribute?_ingestAttribute plain family name
      rw [after] at known
      split at known
      · rename_i here
        exact ⟨record, member, plain, here.1.symm, here.2.symm⟩
      · exact h.origin family name e known

private theorem declares_ingestAttribute (r : Registry) (record : AttributeRecord) :
    (r.ingestAttribute record).Declares record := by
  intro plain
  obtain ⟨spec, after⟩ := r.attribute?_ingestAttribute plain record.family record.name
  rw [if_pos ⟨rfl, rfl⟩] at after
  exact ⟨_, after, fun _ => record.nests_enter spec _⟩

private theorem declares_step {records : List AttributeRecord} {r : Registry}
    (h : r.DeclaredBy records) {record : AttributeRecord} (declared : r.Declares record)
    (other : AttributeRecord) : (r.ingestAttribute other).Declares record := by
  intro plain
  obtain ⟨e, known, nested⟩ := declared plain
  cases plainOther : isQualified other.name with
  | true => exact ⟨e, by simpa [ingestAttribute, plainOther] using known, nested⟩
  | false =>
    obtain ⟨spec, after⟩ := r.attribute?_ingestAttribute plainOther record.family record.name
    by_cases same : record.family = other.family ∧ record.name = other.name
    · rw [if_pos same, entered, ← same.1, ← same.2, known] at after
      exact ⟨_, after, fun own =>
        other.nests_enter_of_nests spec (h.distinct _ _ e known) (nested own)⟩
    · rw [if_neg same, known] at after
      exact ⟨e, after, nested⟩

/-- A member is copied from the sibling, or nothing changes. -/
theorem supplyMember_cases (r : Registry) (s : SiblingMember) :
    r.supplyMember s = r ∨
      ∃ sibling m, r.attribute? s.family s.sibling = some sibling ∧ m ∈ sibling.members ∧
        m.name = s.member ∧ r.supplyMember s = r.adjustAttribute s.family s.collection fun e =>
          { e with members := Named.put e.members m } := by
  rw [supplyMember]
  cases found : (r.attribute? s.family s.sibling).bind fun e => Named.find? e.members s.member with
  | none => exact Or.inl rfl
  | some m =>
    obtain ⟨sibling, known, here⟩ := Option.bind_eq_some_iff.mp found
    obtain ⟨member, named⟩ := Named.mem_of_find? here
    exact Or.inr ⟨sibling, m, known, member, named, rfl⟩

private theorem declaredBy_supplyMember {records : List AttributeRecord} {r : Registry}
    (h : r.DeclaredBy records) (s : SiblingMember) : (r.supplyMember s).DeclaredBy records := by
  rcases r.supplyMember_cases s with same | ⟨sibling, m, known, member, -, supplied⟩
  · exact same.symm ▸ h
  · have inner : m.Distinct := (h.distinct _ _ sibling known).members member
    rw [supplied]
    have after := attribute?_adjustAttribute r s.family s.collection
      (fun e => { e with members := Named.put e.members m }) (fun _ => rfl)
    constructor
    · intro family name e found
      rw [after] at found
      split at found
      · obtain ⟨old, before, rfl⟩ := Option.map_eq_some_iff.mp found
        exact (h.distinct _ _ old before).put inner
      · exact h.distinct family name e found
    · intro family name e found
      rw [after] at found
      split at found
      · rename_i here
        obtain ⟨old, before, -⟩ := Option.map_eq_some_iff.mp found
        exact here.1 ▸ here.2 ▸ h.origin _ _ old before
      · exact h.origin family name e found

private theorem declares_supplyMember {records : List AttributeRecord} {r : Registry}
    (h : r.DeclaredBy records) {record : AttributeRecord} (declared : r.Declares record)
    {s : SiblingMember} (known : s ∈ SiblingMember.all) : (r.supplyMember s).Declares record := by
  intro plain
  obtain ⟨e, found, nested⟩ := declared plain
  rcases r.supplyMember_cases s with same | ⟨sibling, m, -, -, named, supplied⟩
  · exact ⟨e, same.symm ▸ found, nested⟩
  · rw [supplied]
    have after := attribute?_adjustAttribute r s.family s.collection
      (fun e => { e with members := Named.put e.members m }) (fun _ => rfl) record.family record.name
    by_cases here : record.family = s.family ∧ record.name = s.collection
    · have before : r.attribute? s.family s.collection = some e := here.1 ▸ here.2 ▸ found
      rw [if_pos here, before] at after
      refine ⟨_, after, fun own => ?_⟩
      refine Entity.nests_put (h.distinct _ _ e found).names (nested own) ?_
      intro old rest _ first _
      -- Only what is below the member supplied may be lost.
      cases rest with
      | nil => exact nests_nil _ _
      | cons submember rest =>
        exact absurd ⟨s, known, here.1, here.2, submember, rest, named ▸ first⟩ own
    · rw [if_neg here] at after
      exact ⟨e, after.trans found, nested⟩

/-- What ingestion has made of attributes: those that records declare, and all
that they declare. -/
private def Ingested (records : Records) (r : Registry) : Prop :=
  r.DeclaredBy records.attributes ∧ ∀ record ∈ records.attributes, r.Declares record

private theorem ingested_congr {records : Records} {r r' : Registry}
    (same : r'.families = r.families) (h : Ingested records r) : Ingested records r' := by
  have attributes := attribute?_congr same
  refine ⟨⟨fun family name e found => ?_, fun family name e found => ?_⟩,
    fun record member plain => ?_⟩
  · exact h.1.distinct family name e (attributes family name ▸ found)
  · exact h.1.origin family name e (attributes family name ▸ found)
  · rw [attributes]
    exact h.2 record member plain

/-- The registry of a snapshot before any attribute is entered. -/
def beforeAttributes (records : Records) : Registry :=
  (records.keywords.foldl ingestKeyword (records.enums.foldl ingestEnum {})).supplyKeywords

/-- Enumerations and keywords declare neither attributes nor collections. -/
theorem tables_beforeAttributes (records : Records) :
    (beforeAttributes records).families = .empty ∧
      (beforeAttributes records).collections = .empty := by
  have enums := foldl_keeps ingestEnum (fun r => (r.families, r.collections))
    (fun r record => by obtain ⟨_, _, _, same⟩ := r.ingestEnum_eq record; rw [same])
    records.enums {}
  have keywords := foldl_keeps ingestKeyword (fun r => (r.families, r.collections))
    (fun r record => by obtain ⟨_, _, _, same⟩ := r.ingestKeyword_eq record; rw [same])
    records.keywords (records.enums.foldl ingestEnum {})
  exact Prod.mk.inj (keywords.trans enums)

private theorem tables_ingestAttribute (r : Registry) (record : AttributeRecord) :
    ((r.ingestAttribute record).keywords, (r.ingestAttribute record).collections) =
      (r.keywords, r.collections) := by
  cases plain : isQualified record.name with
  | true => simp [ingestAttribute, plain]
  | false =>
    obtain ⟨_, _, _, same⟩ := r.ingestAttribute_eq plain
    rw [same]
    rfl

private theorem tables_supplyMember (r : Registry) (s : SiblingMember) :
    ((r.supplyMember s).keywords, (r.supplyMember s).collections) = (r.keywords, r.collections) := by
  rcases r.supplyMember_cases s with same | ⟨_, _, _, _, _, same⟩
  · rw [same]
  · rw [same]
    rfl

/-- Status codes are no attributes. -/
theorem families_foldl_ingestStatus (codes : List StatusRecord) (r : Registry) :
    (codes.foldl ingestStatus r).families = r.families :=
  foldl_keeps ingestStatus Registry.families
    (fun r record => by obtain ⟨_, _, _, same⟩ := r.ingestStatus_eq record; rw [same]) codes r

/-- Attributes and status codes are no keywords and no registered collections. -/
theorem tables_ofRecords (records : Records) :
    (ofRecords records).keywords = (beforeAttributes records).keywords ∧
      (ofRecords records).collections = .empty := by
  have attributes := foldl_keeps ingestAttribute (fun r => (r.keywords, r.collections))
    tables_ingestAttribute
    records.attributes (beforeAttributes records)
  have status := foldl_keeps ingestStatus (fun r => (r.keywords, r.collections))
    (fun r record => by obtain ⟨_, _, _, same⟩ := r.ingestStatus_eq record; rw [same])
    records.statusCodes
  have supplied := foldl_keeps supplyMember (fun r => (r.keywords, r.collections))
    tables_supplyMember
    SiblingMember.all
  have same := Prod.mk.inj ((supplied _).trans ((status _).trans attributes))
  exact ⟨same.1, same.2.trans (tables_beforeAttributes records).2⟩

private theorem ingested_attributes (records : Records) {r : Registry} (none : r.families = .empty) :
    Ingested records (records.attributes.foldl ingestAttribute r) := by
  have absent : ∀ family name e, ¬ r.attribute? family name = some e := by
    intro family name e
    rw [attribute?_congr (r := {}) none]
    simp [attribute?, family?]
  have start : r.DeclaredBy records.attributes :=
    ⟨fun family name e found => absurd found (absent family name e),
      fun family name e found => absurd found (absent family name e)⟩
  have keep : ∀ r : Registry, r.DeclaredBy records.attributes → ∀ record ∈ records.attributes,
      (r.ingestAttribute record).DeclaredBy records.attributes :=
    fun _ h _ member => declaredBy_ingestAttribute h member
  constructor
  · exact List.foldlRecOn (motive := DeclaredBy records.attributes) _ _ start keep
  · exact foldl_settles (motive := Declares) (DeclaredBy records.attributes) keep
      (fun r _ record _ => declares_ingestAttribute r record)
      (fun _ h _ declared other _ => declares_step h declared other) start

private theorem ingested_ofRecords (records : Records) : Ingested records (ofRecords records) := by
  have attributes := ingested_attributes records (tables_beforeAttributes records).1
  refine List.foldlRecOn (motive := Ingested records) _ _
    (ingested_congr (families_foldl_ingestStatus _ _) attributes) ?_
  intro r h s known
  exact ⟨declaredBy_supplyMember h.1 s,
    fun record member => declares_supplyMember h.1 (h.2 record member) known⟩

theorem ofRecords_declaredBy (records : Records) :
    (ofRecords records).DeclaredBy records.attributes :=
  (ingested_ofRecords records).1

theorem ofRecords_declares (records : Records) {record : AttributeRecord}
    (member : record ∈ records.attributes) : (ofRecords records).Declares record :=
  (ingested_ofRecords records).2 record member

theorem collections_ofRecords (records : Records) : (ofRecords records).collections = .empty :=
  (tables_ofRecords records).2

theorem asCodes_ofRecords (records : Records) :
    ∀ k ∈ (ofRecords records).keywords.toList, k.values.asCodes = [] := by
  have enums := foldl_keeps ingestEnum Registry.keywords
    (fun r record => by obtain ⟨_, _, _, same⟩ := r.ingestEnum_eq record; rw [same])
    records.enums {}
  have listed : ∀ k ∈ (records.keywords.foldl ingestKeyword
      (records.enums.foldl ingestEnum {})).keywords.toList, k.values.asCodes = [] := by
    refine List.foldlRecOn
      (motive := fun r : Registry => ∀ k ∈ r.keywords.toList, k.values.asCodes = []) _ _ ?_ ?_
    · rw [enums]
      intro k member
      cases member
    · intro r words record _ k member
      obtain ⟨_, _, spec, same⟩ := r.ingestKeyword_eq record
      rw [same] at member
      rcases Table.mem_put member with new | old
      · subst new
        refine record.asCodes_enter ?_
        cases found : r.keywords.find? record.about with
        | none => cases spec <;> rfl
        | some e => cases spec <;> exact words e (Table.mem_of_find? found).1
      · exact words k old
  rw [(tables_ofRecords records).1]
  refine List.foldlRecOn (motive := fun t : Table Entity => ∀ k ∈ t.toList, k.values.asCodes = [])
    (SupplementaryKeyword.all.map (·.entity)) _ listed ?_
  intro t words e supplied k member
  rcases Table.mem_put member with new | old
  · obtain ⟨s, known, rfl⟩ := List.mem_map.mp supplied
    exact new ▸ SupplementaryKeyword.asCodes_entity s known
  · exact words k old

end Registry

end PrintRegistry
