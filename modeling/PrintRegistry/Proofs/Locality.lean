import PrintRegistry.Proofs.Values

/-!
Locality of ingestion. A record is entered into the entry of its name, and what it does
there hangs on that entry alone. So the entry of a name is what its own records make of
it, in their order, whatever other records come between them; and a table holds the names
that are mentioned, in order of first mention.
-/

namespace PrintRegistry

theorem Entity.citingAny_citingAny (e : Entity) (spec : Option String) :
    (e.citingAny spec).citingAny spec = e.citingAny spec := by
  cases spec with
  | none => rfl
  | some spec =>
    have listed : spec ∈ Named.put e.specs spec := by
      rw [Named.put_string]
      split <;> simp [*]
    simp only [citingAny, citing]
    rw [Named.put_string (Named.put e.specs spec), if_pos listed]

/-- Changing the entry of a name, there or not, puts the name at the end if it is new. -/
theorem Table.names_upsert {α : Type} [Named α] (t : Table α) (fresh : α) {change : α → α}
    (keeps : ∀ a, nameOf (change a) = nameOf a) :
    (t.upsert fresh change).names = Named.put t.names (nameOf fresh) := by
  have named : nameOf (change ((t.find? (nameOf fresh)).getD fresh)) = nameOf fresh := by
    rw [keeps]
    cases found : t.find? (nameOf fresh) with
    | none => rfl
    | some a => exact (mem_of_find? found).2
  rw [← named]
  exact Named.names_put_eq _ _

namespace ValueRecord

/-- Records entered into an empty table leave the names they are about, in order of first
mention. -/
theorem names_foldl_enterInto (vs : List ValueRecord) (findings : List Finding) :
    (vs.foldl enterInto (.empty, findings)).1.names = (vs.map about).eraseDups := by
  induction vs using List.reverseRecOn with
  | nil => rfl
  | append_singleton vs v ih =>
    have named := v.name_entered (vs.foldl enterInto (.empty, findings)).1
    rw [List.foldl_append, List.foldl_cons, List.foldl_nil, List.map_append, List.map_cons,
      List.map_nil, ← Named.put_eraseDups, ← ih, ← named]
    exact Named.names_put_eq _ _

end ValueRecord

namespace AttributeRecord

/-- An attribute is entered as a value is, but it knows the document cited in its members,
too. -/
def toValue (r : AttributeRecord) : ValueRecord where
  about := r.name
  citation := r.citation
  fresh := Entity.fresh r.name r.grammar
  enter := r.enter (Citation.specId? r.citation)
  name_fresh := rfl
  name_enter e := (r.enter_cases _ e).1

theorem enter_citingAny (r : AttributeRecord) (spec : Option String) (e : Entity) :
    r.enter spec (e.citingAny spec) = r.enter spec e := by
  simp only [enter, Entity.citingAny_citingAny]

theorem enter_toValue (r : AttributeRecord) (e : Entity) :
    r.toValue.enter (e.citingAny (Citation.specId? r.toValue.citation)) =
      r.enter (Citation.specId? r.citation) e := by
  simp only [toValue, enter_citingAny]

theorem entered_toValue (r : AttributeRecord) (found : Option Entity) :
    r.toValue.entered found =
      r.enter (Citation.specId? r.citation) (found.getD (Entity.fresh r.name r.grammar)) :=
  r.enter_toValue _

/-- The record is of an attribute of the family, and its name is not qualified. -/
def isIn (family : String) (r : AttributeRecord) : Bool :=
  !isQualified r.name && r.family == family

/-- The record is of the attribute of the family and the name, which is not qualified. -/
def isOf (family name : String) (r : AttributeRecord) : Bool :=
  r.isIn family && r.name == name

theorem isOf_iff {family name : String} {r : AttributeRecord} : r.isOf family name = true ↔
    isQualified r.name = false ∧ r.family = family ∧ r.name = name := by
  simp only [isOf, isIn, Bool.and_eq_true, Bool.not_eq_true', beq_iff_eq, and_assoc]

theorem isOf_eq {family name : String} (plain : isQualified name = false) :
    isOf family name = fun r => r.family == family && r.name == name := by
  funext r
  by_cases named : r.name = name
  · simp [isOf, isIn, named, plain]
  · simp only [isOf, beq_eq_false_iff_ne.mpr named, Bool.and_false]

end AttributeRecord

namespace Registry

variable {record : AttributeRecord}

/-- The attributes of a family, none if there is no such family. -/
def attributesOf (r : Registry) (family : String) : Table Entity :=
  (r.family? family).getD .empty

theorem attribute?_eq (r : Registry) (family name : String) :
    r.attribute? family name = (r.attributesOf family).find? name := by
  rw [attribute?, attributesOf]
  cases r.family? family <;> rfl

theorem attributesOf_of_none {r : Registry} (none : r.families = .empty) (family : String) :
    r.attributesOf family = .empty := by
  rw [attributesOf, family?, none]
  rfl

theorem ingestAttribute_qualified (r : Registry) (qualified : isQualified record.name = true) :
    r.ingestAttribute record = r :=
  if_pos qualified

theorem ingestAttribute_eq_enter (r : Registry) (plain : isQualified record.name = false) :
    r.ingestAttribute record =
      { r.alterFamily record.family (·.put
          (record.toValue.entered (r.attribute? record.family record.name)).1) with
        specs := r.specs.citing record.citation
        findings :=
          r.findings ++ record.toValue.findings (r.attribute? record.family record.name) } := by
  simp only [ingestAttribute, plain, Bool.false_eq_true, if_false, cite_eq_citing,
    ValueRecord.findings, record.entered_toValue, ← List.append_assoc]
  exact reportAny_eq_append _ _

/-- A record is entered into the attributes of its family as a value is into its table, and
every other family is left alone. -/
theorem attributesOf_ingestAttribute (r : Registry) (record : AttributeRecord) (family : String)
    (findings : List Finding) :
    (r.ingestAttribute record).attributesOf family =
      if record.isIn family then
        (ValueRecord.enterInto (r.attributesOf family, findings) record.toValue).1
      else r.attributesOf family := by
  cases qualified : isQualified record.name with
  | true => simp [r.ingestAttribute_qualified qualified, AttributeRecord.isIn, qualified]
  | false =>
    let e := (record.toValue.entered (r.attribute? record.family record.name)).1
    have after : (r.ingestAttribute record).family? family =
        (r.alterFamily record.family (·.put e)).family? family := by
      rw [r.ingestAttribute_eq_enter qualified]
      rfl
    rw [attributesOf, after, family?_alterFamily]
    by_cases here : family = record.family
    · subst here
      simp only [AttributeRecord.isIn, qualified, e, attribute?_eq]
      simp only [Bool.not_false, beq_self_eq_true, Bool.and_self, if_true, Option.getD_some]
      rfl
    · simp [AttributeRecord.isIn, here, Ne.symm here, attributesOf]

theorem attributesOf_foldl_ingestAttribute (as : List AttributeRecord) (r : Registry)
    (family : String) :
    (as.foldl ingestAttribute r).attributesOf family =
      (((as.filter (·.isIn family)).map AttributeRecord.toValue).foldl ValueRecord.enterInto
        (r.attributesOf family, [])).1 := by
  induction as using List.reverseRecOn with
  | nil => rfl
  | append_singleton as a ih =>
    rw [List.foldl_append, List.foldl_cons, List.foldl_nil, List.filter_append, List.map_append,
      List.foldl_append]
    cases own : a.isIn family with
    | true =>
      rw [attributesOf_ingestAttribute _ a family (((as.filter (·.isIn family)).map
        AttributeRecord.toValue).foldl ValueRecord.enterInto (r.attributesOf family, [])).2, ih]
      simp [own]
    | false => simpa [own, attributesOf_ingestAttribute _ a family []] using ih

/-- Records of attributes leave the families they are of, in order of first mention. -/
theorem names_families_foldl_ingestAttribute (as : List AttributeRecord) {r : Registry}
    (none : r.families = .empty) :
    (as.foldl ingestAttribute r).families.names =
      ((as.filter fun a => !isQualified a.name).map (·.family)).eraseDups := by
  induction as using List.reverseRecOn with
  | nil => exact congrArg Table.names none
  | append_singleton as a ih =>
    rw [List.foldl_append, List.foldl_cons, List.foldl_nil, List.filter_append, List.map_append]
    cases qualified : isQualified a.name with
    | true =>
      rw [ingestAttribute_qualified _ qualified, ih]
      simp [qualified]
    | false =>
      have last : ([a].filter fun a => !isQualified a.name).map (·.family) = [a.family] := by
        simp [qualified]
      rw [ingestAttribute_eq_enter _ qualified, last, ← Named.put_eraseDups, ← ih]
      exact Table.names_upsert _ _ fun _ => rfl

/-- The attribute of a name after records of attributes is the entry that its own records
make. -/
theorem attribute?_foldl_ingestAttribute (as : List AttributeRecord) {r : Registry}
    (none : r.families = .empty) (family name : String) :
    (as.foldl ingestAttribute r).attribute? family name =
      entryOf ((as.filter (·.isOf family name)).map AttributeRecord.toValue) := by
  rw [attribute?_eq, attributesOf_foldl_ingestAttribute, attributesOf_of_none none,
    ValueRecord.find?_foldl_enterInto, List.filter_map, List.filter_filter]
  have own : ∀ a : AttributeRecord, (a.toValue.about == name && a.isIn family) =
      a.isOf family name := fun a => Bool.and_comm _ _
  simp only [Function.comp_def, own]
  rfl

/-- The registry of the records of enumerations, keywords and attributes of a snapshot,
before anything is supplied and before the status codes. -/
def ofListings (records : Records) : Registry :=
  records.attributes.foldl ingestAttribute
    (records.keywords.foldl ingestKeyword (records.enums.foldl ingestEnum {}))

section Listings

variable (records : Records)

theorem enums_ofListings : (ofListings records).enums =
    ((records.enums.map EnumRecord.toValue).foldl ValueRecord.enterInto (.empty, [])).1 := by
  rw [ofListings, (values_foldl_ingestAttribute _ _).1, enums_foldl_ingestKeyword]
  exact congrArg Prod.fst (entries_foldl_ingestEnum records.enums {})

theorem keywords_ofListings : ∃ findings, (ofListings records).keywords =
    ((records.keywords.map KeywordRecord.toValue).foldl ValueRecord.enterInto
      (.empty, findings)).1 := by
  rw [ofListings, (values_foldl_ingestAttribute _ _).2]
  have entered := congrArg Prod.fst (entries_foldl_ingestKeyword records.keywords
    (records.enums.foldl ingestEnum {}))
  rw [keywords_foldl_ingestEnum] at entered
  exact ⟨_, entered⟩

theorem find?_enums_ofListings (name : String) : (ofListings records).enums.find? name =
    entryOf ((records.enums.filter (·.about == name)).map EnumRecord.toValue) := by
  rw [enums_ofListings, ValueRecord.find?_foldl_enterInto, List.filter_map]
  rfl

theorem find?_keywords_ofListings (name : String) : (ofListings records).keywords.find? name =
    entryOf ((records.keywords.filter (·.about == name)).map KeywordRecord.toValue) := by
  obtain ⟨findings, entered⟩ := keywords_ofListings records
  rw [entered, ValueRecord.find?_foldl_enterInto, List.filter_map]
  rfl

theorem families_beforeListing :
    (records.keywords.foldl ingestKeyword (records.enums.foldl ingestEnum {})).families =
      .empty :=
  (tables_beforeAttributes records).1

theorem attribute?_ofListings (family name : String) :
    (ofListings records).attribute? family name =
      entryOf ((records.attributes.filter (·.isOf family name)).map AttributeRecord.toValue) :=
  attribute?_foldl_ingestAttribute _ (families_beforeListing records) family name

theorem names_attributes_ofListings (family : String) :
    ((ofListings records).attributesOf family).names =
      ((records.attributes.filter (·.isIn family)).map (·.name)).eraseDups := by
  rw [ofListings, attributesOf_foldl_ingestAttribute,
    attributesOf_of_none (families_beforeListing records), ValueRecord.names_foldl_enterInto,
    List.map_map]
  rfl

/-- Ingestion is local and keeps the order of first mention. The tables of enumerations and
keywords hold the names that records are about, the families those that records of
attributes name, and a family the names of its attributes, each in order of first mention;
records of attributes with a qualified name are passed over. Every entry, with its members,
values, documents, reference and marks, is the one that the records of its name make alone. -/
theorem ofListings_local (records : Records) :
    let r := ofListings records
    let named := records.attributes.filter fun a => !isQualified a.name
    r.enums.names = (records.enums.map (·.about)).eraseDups ∧
      r.keywords.names = (records.keywords.map (·.about)).eraseDups ∧
      r.families.names = (named.map (·.family)).eraseDups ∧
      (∀ family, (r.attributesOf family).names =
        ((named.filter (·.family == family)).map (·.name)).eraseDups) ∧
      (∀ name, r.enums.find? name =
        (ofListings { enums := records.enums.filter (·.about == name) }).enums.find? name) ∧
      (∀ name, r.keywords.find? name =
        (ofListings { keywords := records.keywords.filter (·.about == name) }).keywords.find?
          name) ∧
      ∀ family name, r.attribute? family name =
        (ofListings { attributes := records.attributes.filter fun a =>
          a.family == family && a.name == name }).attribute? family name := by
  intro r named
  refine ⟨?_, ?_, ?_, fun family => ?_, fun name => ?_, fun name => ?_, fun family name => ?_⟩
  · rw [enums_ofListings, ValueRecord.names_foldl_enterInto, List.map_map]
    rfl
  · obtain ⟨findings, entered⟩ := keywords_ofListings records
    rw [entered, ValueRecord.names_foldl_enterInto, List.map_map]
    rfl
  · exact names_families_foldl_ingestAttribute _ (families_beforeListing records)
  · rw [names_attributes_ofListings, List.filter_filter]
    simp only [AttributeRecord.isIn, Bool.and_comm]
  · rw [find?_enums_ofListings, find?_enums_ofListings, List.filter_filter]
    simp only [Bool.and_self]
  · rw [find?_keywords_ofListings, find?_keywords_ofListings, List.filter_filter]
    simp only [Bool.and_self]
  · rw [attribute?_ofListings, attribute?_ofListings, List.filter_filter]
    refine congrArg (fun as => entryOf (List.map AttributeRecord.toValue as))
      (List.filter_congr fun a _ => ?_)
    simp only [AttributeRecord.isOf, AttributeRecord.isIn]
    grind

end Listings

end Registry

end PrintRegistry
