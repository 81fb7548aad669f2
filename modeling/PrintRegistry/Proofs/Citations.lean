import PrintRegistry.Proofs.Locality

/-!
Citations. Every record that is entered notes the document it cites in the table of documents,
where the first citation of a document gives its place, and adds the document to the entities
it is about. So what ingestion makes of records cites documents of the table alone, with one
exception: the keywords that are supplied cite documents that nobody has noted.
-/

namespace PrintRegistry

/-- The citations of the records of a snapshot, in the order in which these are entered.
Records of attributes with a qualified name are passed over. -/
def Records.citations (records : Records) : List (Option Citation) :=
  records.enums.map (·.citation) ++ records.keywords.map (·.citation) ++
    (records.attributes.filter fun a => !isQualified a.name).map (·.citation) ++
    records.statusCodes.map (·.citation)

theorem Records.mem_citations {records : Records} {c : Option Citation} :
    c ∈ records.citations ↔ (∃ r ∈ records.enums, r.citation = c) ∨
      (∃ r ∈ records.keywords, r.citation = c) ∨
      (∃ r ∈ records.attributes, isQualified r.name = false ∧ r.citation = c) ∨
      ∃ r ∈ records.statusCodes, r.citation = c := by
  simp [citations, and_assoc]

/-- Some record cites the document. -/
def Records.Cites (records : Records) (spec : String) : Prop :=
  ∃ c ∈ records.citations, Citation.specId? c = some spec

namespace Table

theorem find?_citing (t : Table Spec) (c : Option Citation) (id : String) :
    (t.citing c).find? id = (t.find? id).or (Named.find? (c.bind Citation.spec?).toList id) := by
  rw [citing]
  cases c.bind Citation.spec? with
  | none => exact Option.or_none.symm
  | some spec =>
    have single : Named.find? [spec] id = if spec.id = id then some spec else none := by
      by_cases here : spec.id = id <;> simp [Named.find?, nameOf, here]
    dsimp only [Option.toList_some]
    rw [single]
    by_cases known : t.has spec.id = true
    · obtain ⟨old, found⟩ := Option.isSome_iff_exists.mp known
      rw [if_pos known]
      by_cases here : spec.id = id
      · rw [← here, show t.find? spec.id = some old from found, Option.some_or]
      · rw [if_neg here, Option.or_none]
    · rw [if_neg known, find?_put]
      by_cases here : spec.id = id
      · have absent : t.find? id = none := by
          rw [← here]
          exact Option.not_isSome_iff_eq_none.mp known
        rw [if_pos here, absent, Option.none_or]
        exact if_pos here
      · rw [if_neg here, Option.or_none]
        exact if_neg here

/-- The place of a document is the one of its first citation. -/
theorem find?_foldl_citing (cs : List (Option Citation)) (t : Table Spec) (id : String) :
    (cs.foldl citing t).find? id =
      (t.find? id).or (Named.find? (cs.filterMap (·.bind Citation.spec?)) id) := by
  induction cs generalizing t with
  | nil => exact Option.or_none.symm
  | cons c cs ih =>
    have first : Named.find? ((c :: cs).filterMap (·.bind Citation.spec?)) id =
        (Named.find? (c.bind Citation.spec?).toList id).or
          (Named.find? (cs.filterMap (·.bind Citation.spec?)) id) := by
      rw [Named.find?, ← List.singleton_append, List.filterMap_append, List.find?_append]
      cases read : c.bind Citation.spec? <;> simp [read, Named.find?]
    rw [List.foldl_cons, ih, find?_citing, Option.or_assoc, first]

end Table

namespace Registry

/-- Records that note what they cite, one after another. -/
theorem specs_foldl {α : Type} {step : Registry → α → Registry} {citation : α → Option Citation}
    (notes : ∀ r a, (step r a).specs = r.specs.citing (citation a)) (as : List α) (r : Registry) :
    (as.foldl step r).specs = (as.map citation).foldl Table.citing r.specs := by
  rw [List.foldl_map]
  exact (List.foldl_hom Registry.specs fun r a => (notes r a).symm).symm

theorem specs_ingestEnum (r : Registry) (record : EnumRecord) :
    (r.ingestEnum record).specs = r.specs.citing record.citation := by
  rw [ingestEnum_eq_enterEnum]
  rfl

theorem specs_ingestKeyword (r : Registry) (record : KeywordRecord) :
    (r.ingestKeyword record).specs = r.specs.citing record.citation := by
  rw [ingestKeyword_eq_enterKeyword]
  rfl

theorem specs_ingestStatus (r : Registry) (record : StatusRecord) :
    (r.ingestStatus record).specs = r.specs.citing record.citation := by
  rw [ingestStatus_eq_enterEnum]
  rfl

theorem specs_ingestAttribute (r : Registry) (record : AttributeRecord) :
    (r.ingestAttribute record).specs =
      if !isQualified record.name then r.specs.citing record.citation else r.specs := by
  cases qualified : isQualified record.name with
  | true => rw [r.ingestAttribute_qualified qualified]; rfl
  | false => rw [r.ingestAttribute_eq_enter qualified]; rfl

theorem specs_foldl_ingestAttribute (as : List AttributeRecord) (r : Registry) :
    (as.foldl ingestAttribute r).specs =
      ((as.filter fun a => !isQualified a.name).map (·.citation)).foldl Table.citing r.specs := by
  rw [List.foldl_map, List.foldl_filter]
  exact (List.foldl_hom Registry.specs fun r a => (r.specs_ingestAttribute a).symm).symm

/-- The documents of a snapshot are those that its records cite. -/
theorem specs_ofRecords (records : Records) :
    (ofRecords records).specs = records.citations.foldl Table.citing .empty := by
  have supplied := foldl_keeps supplyMember Registry.specs (fun r s => by
    rcases r.supplyMember_cases s with same | ⟨_, _, _, _, _, same⟩
    · rw [same]
    · rw [same]
      rfl) SiblingMember.all
  have keywords (r : Registry) : r.supplyKeywords.specs = r.specs := rfl
  rw [ofRecords, supplyMembers, supplied]
  refine (specs_foldl specs_ingestStatus _ _).trans ?_
  rw [specs_foldl_ingestAttribute, keywords, specs_foldl specs_ingestKeyword,
    specs_foldl specs_ingestEnum, Records.citations, List.foldl_append, List.foldl_append,
    List.foldl_append]

/-- A document is in the table exactly if some record cites it. -/
theorem mem_names_specs_ofRecords {records : Records} {spec : String} :
    spec ∈ (ofRecords records).specs.names ↔ records.Cites spec := by
  have found : (ofRecords records).specs.find? spec =
      Named.find? (records.citations.filterMap (·.bind Citation.spec?)) spec := by
    rw [specs_ofRecords, Table.find?_foldl_citing, Table.find?_empty, Option.none_or]
  rw [Table.names, ← Named.find?_isSome_iff]
  change (∃ s, (ofRecords records).specs.find? spec = some s) ↔ _
  rw [found, Named.find?_isSome_iff]
  simp only [Named.names, List.mem_map, List.mem_filterMap, Records.Cites, Citation.specId?,
    Option.map_eq_some_iff]
  constructor
  · rintro ⟨s, ⟨c, cited, read⟩, named⟩
    exact ⟨c, cited, s, read, named⟩
  · rintro ⟨c, cited, s, read, named⟩
    exact ⟨s, ⟨c, cited, read⟩, named⟩

end Registry

/-- What an entity cites, itself and in its members. -/
def Entity.citations (e : Entity) : List String × List Entity :=
  (e.specs, e.members)

/-- The entity cites documents of the kind alone, and so do its members at every depth. -/
inductive Entity.CitesWithin (P : String → Prop) : Entity → Prop where
  | intro {e : Entity} (specs : ∀ spec ∈ e.specs, P spec)
      (members : ∀ m ∈ e.members, m.CitesWithin P) : e.CitesWithin P

namespace Entity.CitesWithin

variable {P : String → Prop} {e e' : Entity}

theorem specs (h : e.CitesWithin P) : ∀ spec ∈ e.specs, P spec := by
  cases h
  assumption

theorem members (h : e.CitesWithin P) : ∀ m ∈ e.members, m.CitesWithin P := by
  cases h
  assumption

theorem congr (h : e.CitesWithin P) (same : e'.citations = e.citations) : e'.CitesWithin P := by
  obtain ⟨specs, members⟩ := Prod.mk.inj same
  exact .intro (specs ▸ h.specs) (members ▸ h.members)

theorem of_nothing (specs : e.specs = []) (members : e.members = []) : e.CitesWithin P :=
  .intro (by simp [specs]) (by simp [members])

theorem inside (h : e.CitesWithin P) {x : Entity} (within : x.Inside e.members) :
    x.CitesWithin P := by
  have each : ∀ m ∈ e.members, m.CitesWithin P := h.members
  generalize e.members = ms at within each
  induction within with
  | here member => exact each _ member
  | deeper member _ ih => exact ih (each _ member).members

theorem citingAll (h : e.CitesWithin P) {specs : List String} (cited : ∀ spec ∈ specs, P spec) :
    (e.citingAll specs).CitesWithin P := by
  refine .intro (fun spec listed => ?_) h.members
  have names := (List.foldlRecOn (motive := fun all : List String => ∀ spec ∈ all, P spec) specs
    Named.put h.specs fun all before spec member other listed => by
      rcases Named.mem_put listed with rfl | old
      · exact cited _ member
      · exact before other old)
  exact names spec listed

theorem citingAny (h : e.CitesWithin P) {spec : Option String}
    (cited : ∀ id, spec = some id → P id) : (e.citingAny spec).CitesWithin P := by
  cases spec with
  | none => exact h
  | some id =>
    change (e.citingAll [id]).CitesWithin P
    exact h.citingAll fun other listed => cited other (List.mem_singleton.mp listed ▸ rfl)

/-- Putting a member in, in the place of another one or at the end. -/
theorem put (h : e.CitesWithin P) {m : Entity} (member : m.CitesWithin P) :
    ({ e with members := Named.put e.members m } : Entity).CitesWithin P := by
  refine .intro h.specs fun x listed => ?_
  rcases Named.mem_put listed with rfl | old
  · exact member
  · exact h.members x old

/-- The member of a name, or a fresh one. -/
theorem found (h : e.CitesWithin P) (name : String) (grammar : Option String) :
    ((Named.find? e.members name).getD
      (AttributeRecord.freshMember name grammar)).CitesWithin P := by
  cases known : Named.find? e.members name with
  | none => exact of_nothing rfl rfl
  | some m => exact h.members m (Named.mem_of_find? known).1

end Entity.CitesWithin

namespace AttributeRecord

variable {P : String → Prop} {spec : Option String}

theorem specs_enterMember (r : AttributeRecord) (spec : Option String) (m : Entity) :
    (r.enterMember spec m).1.specs = (m.citingAny spec).specs := by
  rw [enterMember]
  cases r.submember with
  | none => rfl
  | some column =>
    dsimp only
    split
    · split <;> rfl
    · rfl

theorem specs_enter (r : AttributeRecord) (spec : Option String) (e : Entity) :
    (r.enter spec e).1.specs = (e.citingAny spec).specs := by
  rw [enter]
  cases r.member with
  | none => rfl
  | some column =>
    dsimp only
    split
    · split <;> rfl
    · rfl

theorem citesWithin_enterMember (r : AttributeRecord) (cited : ∀ id, spec = some id → P id)
    {m : Entity} (h : m.CitesWithin P) : (r.enterMember spec m).1.CitesWithin P := by
  rcases (r.enterMember_cases spec m).2 with ⟨-, same⟩ | ⟨name, -, put⟩
  · exact (h.citingAny cited).congr
      (Prod.ext (r.specs_enterMember spec m) (same.trans (members_citingAny m spec).symm))
  · have entered := (h.citingAny cited).put ((h.found name r.grammar).citingAny cited)
    rw [members_citingAny, ← put] at entered
    exact entered.congr (Prod.ext (r.specs_enterMember spec m) rfl)

theorem citesWithin_enter (r : AttributeRecord) (cited : ∀ id, spec = some id → P id)
    {e : Entity} (h : e.CitesWithin P) : (r.enter spec e).1.CitesWithin P := by
  rcases (r.enter_cases spec e).2 with ⟨-, same⟩ | ⟨name, -, put⟩
  · exact (h.citingAny cited).congr
      (Prod.ext (r.specs_enter spec e) (same.trans (members_citingAny e spec).symm))
  · have entered := (h.citingAny cited).put
      (r.citesWithin_enterMember cited (h.found name r.grammar))
    rw [members_citingAny, ← put] at entered
    exact entered.congr (Prod.ext (r.specs_enter spec e) rfl)

end AttributeRecord

/-- What the record makes of its entry cites no document of another kind. -/
structure ValueRecord.CitesWithin (P : String → Prop) (v : ValueRecord) : Prop where
  fresh : v.fresh.CitesWithin P
  enter : ∀ e : Entity, e.CitesWithin P →
    (v.enter (e.citingAny (Citation.specId? v.citation))).1.CitesWithin P

section Values

variable {P : String → Prop}

theorem ValueRecord.CitesWithin.entered {v : ValueRecord} (h : v.CitesWithin P)
    {found : Option Entity} (before : ∀ e, found = some e → e.CitesWithin P) :
    (v.entered found).1.CitesWithin P := by
  refine h.enter _ ?_
  cases found with
  | none => exact h.fresh
  | some e => exact before e rfl

theorem ValueRecord.citesWithin_foldl_enterInto {vs : List ValueRecord}
    (own : ∀ v ∈ vs, v.CitesWithin P) {s : Table Entity × List Finding}
    (before : ∀ e ∈ s.1.toList, e.CitesWithin P) :
    ∀ e ∈ (vs.foldl enterInto s).1.toList, e.CitesWithin P := by
  refine List.foldlRecOn (motive := fun s : Table Entity × List Finding =>
    ∀ e ∈ s.1.toList, e.CitesWithin P) vs _ before fun s before v member e listed => ?_
  rcases Table.mem_put listed with rfl | old
  · exact (own v member).entered fun e found => before e (Table.mem_of_find? found).1
  · exact before e old

theorem Registry.citesWithin_entryOf {vs : List ValueRecord} (own : ∀ v ∈ vs, v.CitesWithin P) :
    ∀ e, entryOf vs = some e → e.CitesWithin P :=
  List.foldlRecOn (motive := fun found : Option Entity => ∀ e, found = some e → e.CitesWithin P)
    vs _ (fun _ none => nomatch none) fun found before v member e made => by
      obtain rfl := Option.some.inj made
      exact (own v member).entered before

/-- Records of values change neither what their entry cites nor its members. -/
theorem Entity.isAside_citations : IsAside citations :=
  ⟨fun _ _ _ => rfl, fun _ _ => rfl, fun _ _ => rfl, fun _ _ => rfl⟩

theorem EnumRecord.citesWithin_toValue {r : EnumRecord}
    (cited : ∀ id, Citation.specId? r.citation = some id → P id) : r.toValue.CitesWithin P where
  fresh := .of_nothing rfl rfl
  enter _ h := (h.citingAny cited).congr (r.view_enter Entity.isAside_citations _)

theorem KeywordRecord.citesWithin_toValue {r : KeywordRecord}
    (cited : ∀ id, Citation.specId? r.citation = some id → P id) : r.toValue.CitesWithin P where
  fresh := .of_nothing rfl rfl
  enter _ h := (h.citingAny cited).congr (r.view_enter Entity.isAside_citations _)

theorem StatusRecord.citesWithin_toValue {r : StatusRecord}
    (cited : ∀ id, Citation.specId? r.citation = some id → P id) : r.toValue.CitesWithin P where
  fresh := .of_nothing rfl rfl
  enter _ h := (h.citingAny cited).congr (r.view_enter Entity.isAside_citations.values _)

theorem AttributeRecord.citesWithin_toValue {r : AttributeRecord}
    (cited : ∀ id, Citation.specId? r.citation = some id → P id) : r.toValue.CitesWithin P where
  fresh := .of_nothing rfl rfl
  enter e h := by
    rw [r.enter_toValue]
    exact r.citesWithin_enter cited h

end Values

namespace Registry

/-- All attributes cite documents of the kind alone. -/
def CitesWithin (P : String → Prop) (r : Registry) : Prop :=
  ∀ family name e, r.attribute? family name = some e → e.CitesWithin P

section Attributes

variable {P : String → Prop} {r : Registry}

theorem CitesWithin.of_families (h : r.CitesWithin P) {after : Registry}
    (same : after.families = r.families) : after.CitesWithin P := by
  intro family name e found
  exact h family name e ((attribute?_congr same family name).symm.trans found)

theorem CitesWithin.adjustAttribute (h : r.CitesWithin P) (family name : String)
    {change : Entity → Entity} (keeps : ∀ e, (change e).name = e.name)
    (within : ∀ e : Entity, e.CitesWithin P → (change e).CitesWithin P) :
    (r.adjustAttribute family name change).CitesWithin P := by
  intro family' name' e found
  rw [attribute?_adjustAttribute r family name change keeps] at found
  split at found
  · obtain ⟨old, known, rfl⟩ := Option.map_eq_some_iff.mp found
    exact within old (h _ _ old known)
  · exact h _ _ e found

theorem CitesWithin.supplyMember (h : r.CitesWithin P) (s : SiblingMember) :
    (r.supplyMember s).CitesWithin P := by
  rcases r.supplyMember_cases s with same | ⟨sibling, m, known, member, -, supplied⟩
  · exact same.symm ▸ h
  · rw [supplied]
    exact h.adjustAttribute _ _ (fun _ => rfl) fun e within =>
      within.put ((h _ _ sibling known).members m member)

/-- Records of attributes leave attributes that cite what the records cite. -/
theorem citesWithin_foldl_ingestAttribute {as : List AttributeRecord}
    (cited : ∀ a ∈ as, isQualified a.name = false →
      ∀ id, Citation.specId? a.citation = some id → P id)
    (none : r.families = .empty) : (as.foldl ingestAttribute r).CitesWithin P := by
  intro family name e found
  rw [attribute?_foldl_ingestAttribute as none] at found
  refine citesWithin_entryOf (List.forall_mem_map.mpr fun a listed => ?_) e found
  obtain ⟨member, about⟩ := List.mem_filter.mp listed
  exact AttributeRecord.citesWithin_toValue
    (cited a member (AttributeRecord.isOf_iff.mp about).1)

end Attributes

section Snapshot

variable {records : Records} {e : Entity}

theorem citesWithin_enums_ofRecords (records : Records) :
    ∀ e ∈ (ofRecords records).enums.toList, e.CitesWithin records.Cites := by
  obtain ⟨findings, enums⟩ := enums_ofRecords records
  rw [enums]
  refine ValueRecord.citesWithin_foldl_enterInto (List.forall_mem_map.mpr fun r listed => ?_)
    (ValueRecord.citesWithin_foldl_enterInto (List.forall_mem_map.mpr fun r listed => ?_)
      fun e listed => nomatch listed)
  · exact StatusRecord.citesWithin_toValue fun id cited =>
      ⟨_, Records.mem_citations.mpr (Or.inr (Or.inr (Or.inr ⟨r, listed, rfl⟩))), cited⟩
  · exact EnumRecord.citesWithin_toValue fun id cited =>
      ⟨_, Records.mem_citations.mpr (Or.inl ⟨r, listed, rfl⟩), cited⟩

/-- A keyword is supplied, or cites what records cite. -/
theorem keywords_ofRecords_cases (h : e ∈ (ofRecords records).keywords.toList) :
    (∃ k ∈ SupplementaryKeyword.all, e = k.entity) ∨
      e.name ∉ SupplementaryKeyword.all.map (·.name) ∧ e.CitesWithin records.Cites := by
  obtain ⟨findings, keywords⟩ := keywords_ofRecords records
  have found := Table.find?_of_mem h
  rw [keywords, Table.find?_foldl_put] at found
  cases supplied : ((SupplementaryKeyword.all.map (·.entity)).filter
      (nameOf · == nameOf e)).getLast? with
  | some k =>
    rw [supplied, Option.some_or, Option.some.injEq] at found
    obtain ⟨listed, -⟩ := List.mem_filter.mp (found ▸ List.mem_of_getLast? supplied)
    obtain ⟨k, known, rfl⟩ := List.mem_map.mp listed
    exact Or.inl ⟨k, known, rfl⟩
  | none =>
    rw [supplied, Option.none_or] at found
    refine Or.inr ⟨fun named => ?_, ?_⟩
    · obtain ⟨k, known, same⟩ := List.mem_map.mp named
      have listed : k.entity ∈ (SupplementaryKeyword.all.map (·.entity)).filter
          (nameOf · == nameOf e) :=
        List.mem_filter.mpr ⟨List.mem_map_of_mem known, beq_iff_eq.mpr same⟩
      rw [List.getLast?_eq_none_iff.mp supplied] at listed
      cases listed
    · refine ValueRecord.citesWithin_foldl_enterInto (List.forall_mem_map.mpr fun r listed => ?_)
        (fun _ listed => by cases listed) e (Table.mem_of_find? found).1
      exact KeywordRecord.citesWithin_toValue fun id cited =>
        ⟨_, Records.mem_citations.mpr (Or.inr (Or.inl ⟨r, listed, rfl⟩)), cited⟩

theorem citesWithin_ofRecords (records : Records) :
    (ofRecords records).CitesWithin records.Cites := by
  have attributes : (records.attributes.foldl ingestAttribute
      (beforeAttributes records)).CitesWithin records.Cites :=
    citesWithin_foldl_ingestAttribute (fun a listed plain id cited =>
      ⟨_, Records.mem_citations.mpr (Or.inr (Or.inr (Or.inl ⟨a, listed, plain, rfl⟩))), cited⟩)
      (tables_beforeAttributes records).1
  exact List.foldlRecOn (motive := CitesWithin records.Cites) _ _
    (attributes.of_families (families_foldl_ingestStatus _ _)) fun _ within s _ =>
      within.supplyMember s

end Snapshot

end Registry

end PrintRegistry
