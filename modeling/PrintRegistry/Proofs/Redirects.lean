import PrintRegistry.Proofs.Values

/-!
Where enumerations have their values from. A record may tell it by its label or by its value,
and the name of the enumeration tells it by itself if it is in a table of shared or of
replaced enumerations. A replaced enumeration is the other one, whatever its records say, and
lists no values. A shared one is not so safe: the label yields to the table, but the value
does not, so the last record may lead an enumeration elsewhere than its name says.
-/

namespace PrintRegistry

namespace Reference

/-- The enumeration that takes the place of the one of the name. -/
def ofReplacedName? (name : String) : Option Reference :=
  (replacedEnums.lookup name).map .byName

/-- The enumeration that the one of the name shares the values of. -/
def ofSharedName? (name : String) : Option Reference :=
  (sharedEnums.find? fun (start, _) => Text.startsWith name start).map fun s => .byName s.2

end Reference

theorem Entity.reference_redirected (e : Entity) :
    e.redirected.reference = (Reference.ofSharedName? e.name).or e.reference := by
  rw [redirected, Reference.ofSharedName?]
  cases sharedEnums.find? fun (start, _) => Text.startsWith e.name start <;> rfl

theorem Entity.values_redirected (e : Entity) : e.redirected.values = e.values :=
  e.view_redirected fun _ _ => rfl

namespace EnumRecord

/-- The enumeration that the label defers to. -/
def labelReference? (r : EnumRecord) : Option Reference :=
  (r.name.bind Reference.ofEnumLabel?).map .byName

/-- The reference in the value of a record that has no label. -/
def valueReference? (r : EnumRecord) : Option Reference :=
  if r.name.isNone then r.value.bind Reference.ofEnumValue? else none

theorem reference_enterReference (e : Entity) (value : String) :
    (enterReference e value).1.reference = (Reference.ofEnumValue? value).or e.reference := by
  rw [enterReference]
  cases Reference.ofEnumValue? value <;> rfl

/-- After a record an enumeration is the one that replaces it, or else refers to what the
value of the record says, to what its name says, to what the label says, or to what it has
referred to before, in this order. -/
theorem reference_enter (r : EnumRecord) (e : Entity) : (r.enter e).1.reference =
    (Reference.ofReplacedName? e.name).or (r.valueReference?.or
      ((Reference.ofSharedName? e.name).or (r.labelReference?.or e.reference))) := by
  rw [enter, Reference.ofReplacedName?, labelReference?, valueReference?]
  cases deferred : r.name.bind Reference.ofEnumLabel? with
  | some target =>
    obtain ⟨label, labelled, -⟩ := Option.bind_eq_some_iff.mp deferred
    simp only [Entity.name_redirected, labelled]
    cases replacedEnums.lookup e.name with
    | some other => rfl
    | none => simp [Entity.reference_redirected]
  | none =>
    simp only [Entity.name_redirected]
    cases replacedEnums.lookup e.name with
    | some other => rfl
    | none =>
      cases r.value <;> cases r.name <;>
        simp [view_enterCode, reference_enterReference, Entity.reference_redirected]

/-- A replaced enumeration lists nothing that its records say. -/
theorem values_enter_of_replaced (r : EnumRecord) {e : Entity} {reference : Reference}
    (replaced : Reference.ofReplacedName? e.name = some reference) :
    (r.enter e).1.values = e.values := by
  obtain ⟨target, known, -⟩ := Option.map_eq_some_iff.mp replaced
  rw [enter]
  cases r.name.bind Reference.ofEnumLabel? <;>
    simp only [Entity.name_redirected, known, Entity.values_redirected]

end EnumRecord

/-- A record of an enumeration or of a status code, as one of a value. -/
def ValueRecord.ofCode : EnumRecord ⊕ StatusRecord → ValueRecord :=
  Sum.elim EnumRecord.toValue StatusRecord.toValue

namespace Registry

/-- Enters a record of an enumeration or of a status code. -/
def ingestCode (r : Registry) : EnumRecord ⊕ StatusRecord → Registry :=
  Sum.elim r.ingestEnum r.ingestStatus

/-- The records of the enumeration of a name. -/
def codesOf (name : String) (codes : List (EnumRecord ⊕ StatusRecord)) : List EnumRecord :=
  (codes.filterMap Sum.getLeft?).filter (·.about == name)

variable {codes : List (EnumRecord ⊕ StatusRecord)} {name : String} {e : Entity}

theorem ingestCode_eq_enterEnum (r : Registry) (code : EnumRecord ⊕ StatusRecord) :
    r.ingestCode code = r.enterEnum (.ofCode code) := by
  cases code with
  | inl record => exact r.ingestEnum_eq_enterEnum record
  | inr record => exact r.ingestStatus_eq_enterEnum record

theorem filter_ofCode (noStatus : name ≠ StatusRecord.enumName)
    (codes : List (EnumRecord ⊕ StatusRecord)) :
    (codes.map ValueRecord.ofCode).filter (·.about == name) =
      (codesOf name codes).map EnumRecord.toValue := by
  induction codes with
  | nil => rfl
  | cons code codes ih =>
    cases code with
    | inl record =>
      by_cases about : record.about = name <;>
        simpa [ValueRecord.ofCode, EnumRecord.toValue, codesOf, about] using ih
    | inr record =>
      simpa [ValueRecord.ofCode, StatusRecord.toValue, codesOf, List.filterMap_cons,
        noStatus.symm] using ih

/-- The entry of an enumeration, apart from that of status codes, is made by its own
records. -/
theorem find?_foldl_ingestCode (noStatus : name ≠ StatusRecord.enumName)
    (codes : List (EnumRecord ⊕ StatusRecord)) :
    (codes.foldl ingestCode {}).enums.find? name =
      entryOf ((codesOf name codes).map EnumRecord.toValue) := by
  have entered := congrArg Prod.fst (entries_foldl_enterEnum ingestCode_eq_enterEnum codes {})
  refine (congrArg (Table.find? · name) entered).trans ?_
  rw [ValueRecord.find?_foldl_enterInto, filter_ofCode noStatus]
  rfl

/-- The last record of an enumeration is entered into an entry of its name. -/
theorem entered_last (found : (codes.foldl ingestCode {}).enums.find? name = some e)
    (noStatus : name ≠ StatusRecord.enumName) :
    ∃ last old, (codesOf name codes).getLast? = some last ∧ old.name = name ∧
      e = (last.enter old).1 := by
  have named : e.name = name := (Table.mem_of_find? found).2
  rw [find?_foldl_ingestCode noStatus] at found
  rcases List.eq_nil_or_concat' (codesOf name codes) with none | ⟨before, last, records⟩
  · rw [none] at found
    cases found
  · rw [records, List.map_append, List.map_singleton, entryOf_concat] at found
    obtain rfl := Option.some.inj found
    exact ⟨last, _, by rw [records, List.getLast?_concat],
      (last.view_enter Entity.isAside_name _).symm.trans named, rfl⟩

/-- An enumeration that shares the values of another one refers to that one, unless the value
of its last record refers elsewhere. -/
theorem reference_of_shared (found : (codes.foldl ingestCode {}).enums.find? name = some e)
    (noStatus : name ≠ StatusRecord.enumName) (own : Reference.ofReplacedName? name = none)
    {reference : Reference} (shared : Reference.ofSharedName? name = some reference) :
    e.reference =
      some (((codesOf name codes).getLast?.bind EnumRecord.valueReference?).getD reference) := by
  obtain ⟨last, old, final, named, rfl⟩ := entered_last found noStatus
  rw [last.reference_enter, named, own, shared, final, Option.none_or, Option.some_or,
    Option.bind_some]
  cases last.valueReference? <;> rfl

/-- A replaced enumeration is the other one, and lists no values. -/
theorem values_of_replaced (found : (codes.foldl ingestCode {}).enums.find? name = some e)
    (noStatus : name ≠ StatusRecord.enumName) {reference : Reference}
    (replaced : Reference.ofReplacedName? name = some reference) :
    e.reference = some reference ∧ e.values = .unlisted := by
  obtain ⟨last, old, final, named, same⟩ := entered_last found noStatus
  refine ⟨by rw [same, last.reference_enter, named, replaced, Option.some_or], ?_⟩
  have listed : ∃ r ∈ codes.filterMap Sum.getLeft?, r.about = name := by
    obtain ⟨member, about⟩ := List.mem_filter.mp (List.mem_of_getLast? final)
    exact ⟨last, member, eq_of_beq about⟩
  obtain ⟨e', made, -, unlisted⟩ := entryOf_about EnumRecord.toValue EnumRecord.about
    (motive := fun _ e => e.name = name ∧ e.values = .unlisted) listed
    (fun _ _ about => ⟨about, rfl⟩) fun _ e r _ _ ⟨named, unlisted⟩ => by
      let cited := e.citingAny (Citation.specId? r.citation)
      have about : cited.name = name := (AttributeRecord.name_citingAny e _).trans named
      have none : cited.values = .unlisted := (AttributeRecord.values_citingAny e _).trans unlisted
      exact ⟨(r.view_enter Entity.isAside_name cited).trans about,
        (r.values_enter_of_replaced (about ▸ replaced)).trans none⟩
  have itself : some e = some e' :=
    found.symm.trans ((find?_foldl_ingestCode noStatus codes).trans made)
  exact Option.some.inj itself ▸ unlisted

/-- An enumeration whose name begins like that of job finishings refers to finishings, unless
the value of its last record refers elsewhere. The enumeration of fetched status codes is that
of status codes and lists nothing itself. -/
theorem redirects_of_codes (found : (codes.foldl ingestCode {}).enums.find? name = some e) :
    (Text.startsWith name "job-finishings" = true → e.reference =
      some (((codesOf name codes).getLast?.bind EnumRecord.valueReference?).getD
        (.byName "finishings"))) ∧
      (name = "fetch-status-code" → e.reference = some (.byName "status") ∧
        e.values = .unlisted) := by
  constructor
  · intro starts
    have noStatus : name ≠ StatusRecord.enumName := by
      rintro rfl
      exact absurd starts (by decide)
    have own : Reference.ofReplacedName? name = none := by
      have other : name ≠ "fetch-status-code" := by
        rintro rfl
        exact absurd starts (by decide)
      rw [Reference.ofReplacedName?, replacedEnums, List.lookup_cons,
        beq_eq_false_iff_ne.mpr other]
      rfl
    have shared : Reference.ofSharedName? name = some (.byName "finishings") := by
      simp [Reference.ofSharedName?, sharedEnums, starts]
    exact reference_of_shared found noStatus own shared
  · rintro rfl
    exact values_of_replaced found (by decide) (by decide)

/-- Finishings and a default for those of a job, whose value is prose. -/
def finishingCodes : List (EnumRecord ⊕ StatusRecord) :=
  [.inl { about := "job-finishings", name := some "staple", value := some "4" },
   .inl { about := "job-finishings-default", value := some "< any \"job-finishings\" value >" },
   .inl { about := "fetch-status-code", name := some "successful-ok", value := some "0x0000" },
   .inr { name := "successful-ok", value := "0x0000" }]

theorem redirects_of_finishingCodes :
    ∃ e d s, (finishingCodes.foldl ingestCode {}).enums.find? "job-finishings" = some e ∧
      (finishingCodes.foldl ingestCode {}).enums.find? "job-finishings-default" = some d ∧
      (finishingCodes.foldl ingestCode {}).enums.find? "fetch-status-code" = some s ∧
      e.reference = some (.byName "finishings") ∧
      d.reference = some (.byName "job-finishings") ∧
      s.reference = some (.byName "status") ∧ s.values = .unlisted := by
  let enums := (finishingCodes.foldl ingestCode {}).enums
  have entered : (enums.find? "job-finishings").isSome = true ∧
      (enums.find? "job-finishings-default").isSome = true ∧
      (enums.find? "fetch-status-code").isSome = true := by
    decide
  simp only [Option.isSome_iff_exists] at entered
  obtain ⟨⟨e, finishings⟩, ⟨d, default⟩, s, status⟩ := entered
  have own := (redirects_of_codes finishings).1 (by decide)
  have prose := (redirects_of_codes default).1 (by decide)
  have codes := (redirects_of_codes status).2 rfl
  refine ⟨e, d, s, finishings, default, status, ?_, ?_, codes⟩
  · exact own.trans (by decide)
  · exact prose.trans (by decide)

/-- An enumeration whose name begins like that of job finishings does not always refer to
finishings. -/
theorem not_redirects_of_codes : ¬ ∀ (codes : List (EnumRecord ⊕ StatusRecord)) (name : String)
    (e : Entity), (codes.foldl ingestCode {}).enums.find? name = some e →
      (Text.startsWith name "job-finishings" = true → e.reference = some (.byName "finishings")) ∧
        (name = "fetch-status-code" → e.reference = some (.byName "status") ∧
          e.values = .unlisted) := by
  intro claimed
  have read : ((finishingCodes.foldl ingestCode {}).enums.find?
      "job-finishings-default").map (·.reference) = some (some (.byName "job-finishings")) := by
    decide
  obtain ⟨d, known, elsewhere⟩ := Option.map_eq_some_iff.mp read
  have same := (claimed _ _ d known).1 (by decide)
  exact absurd (elsewhere.symm.trans same) (by decide)

end Registry

end PrintRegistry
