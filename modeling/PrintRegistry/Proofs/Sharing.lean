import Mathlib.Data.Fintype.Card
import Mathlib.Data.Set.Finite.List
import Mathlib.Logic.Relation
import PrintRegistry.Proofs.Model
import PrintRegistry.Proofs.Values

/-!
Enumerations that share the values of other ones. Following shared values from an
enumeration ends, or else comes back to where it has been before. Where it ends stands
an enumeration that is emitted, or one that a warning is about. A circle is neither
emitted nor reported: every enumeration on it shares the values of one that is in the
table.
-/

namespace PrintRegistry

namespace Table

/-- An entry shares the values of another entry. -/
def Shares (t : Table Entity) (e next : Entity) : Prop :=
  ∃ target, e.target? = some target ∧ t.find? target = some next

/-- Following shared values leads from one entry to another, in any number of
steps. -/
def LeadsTo (t : Table Entity) : Entity → Entity → Prop :=
  Relation.ReflTransGen t.Shares

/-- Following shared values from an entry leads to one that shares its own values in
the end. -/
def RunsInCircle (t : Table Entity) (e : Entity) : Prop :=
  ∃ x, t.LeadsTo e x ∧ Relation.TransGen t.Shares x x

variable {t : Table Entity} {e x y : Entity}

theorem Shares.unique (first : t.Shares e x) (second : t.Shares e y) : x = y := by
  obtain ⟨target, refers, found⟩ := first
  obtain ⟨target', refers', found'⟩ := second
  obtain rfl : target = target' := Option.some.inj (refers.symm.trans refers')
  exact Option.some.inj (found.symm.trans found')

theorem LeadsTo.mem (leads : t.LeadsTo e x) (listed : e ∈ t.toList) : x ∈ t.toList := by
  induction leads with
  | refl => exact listed
  | tail _ step _ =>
    obtain ⟨target, -, found⟩ := step
    exact (mem_of_find? found).1

/-- Every entry on the way into a circle, or on it, shares the values of a next
one. -/
theorem RunsInCircle.step (circle : t.RunsInCircle e) : ∃ next, t.Shares e next := by
  obtain ⟨x, leads, back⟩ := circle
  cases leads.cases_head with
  | inl same =>
    subst same
    obtain ⟨next, step, -⟩ := Relation.TransGen.head'_iff.mp back
    exact ⟨next, step⟩
  | inr further =>
    obtain ⟨next, step, -⟩ := further
    exact ⟨next, step⟩

theorem RunsInCircle.next (circle : t.RunsInCircle e) (step : t.Shares e y) :
    t.RunsInCircle y := by
  obtain ⟨x, leads, back⟩ := circle
  cases leads.cases_head with
  | inl same =>
    -- The entry is on the circle itself, and so is the next one.
    subst same
    obtain ⟨next, first, rest⟩ := Relation.TransGen.head'_iff.mp back
    obtain rfl := first.unique step
    exact ⟨e, rest, back⟩
  | inr further =>
    obtain ⟨next, first, rest⟩ := further
    obtain rfl := first.unique step
    exact ⟨x, rest, back⟩

theorem RunsInCircle.of_leadsTo (circle : t.RunsInCircle e) (leads : t.LeadsTo e x) :
    t.RunsInCircle x := by
  induction leads with
  | refl => exact circle
  | tail _ step ih => exact ih.next step

/-- Following shared values ends at some entry, or runs in a circle: a table has
finitely many entries. -/
theorem ends_or_runsInCircle (listed : e ∈ t.toList) :
    (∃ x ∈ t.toList, t.LeadsTo e x ∧ ∀ next, ¬ t.Shares x next) ∨ t.RunsInCircle e := by
  rw [or_iff_not_imp_right]
  intro straight
  let Reached := { x // x ∈ t.toList ∧ t.LeadsTo e x }
  let after (y x : Reached) : Prop := Relation.TransGen t.Shares x.1 y.1
  have finite : Finite Reached :=
    ((List.finite_toSet t.toList).subset fun _ reached => reached.1).to_subtype
  have transitive : IsTrans Reached after :=
    ⟨fun _ _ _ later earlier => earlier.trans later⟩
  have irreflexive : Std.Irrefl after :=
    ⟨fun x back => straight ⟨x.1, x.2.2, back⟩⟩
  have wellFounded : WellFounded after := Finite.wellFounded_of_trans_of_irrefl after
  obtain ⟨⟨x, member, leads⟩, -, last⟩ :=
    wellFounded.has_min Set.univ ⟨⟨e, listed, .refl⟩, trivial⟩
  refine ⟨x, member, leads, fun next step => ?_⟩
  have further : t.LeadsTo e next := leads.tail step
  exact last ⟨next, further.mem listed, further⟩ trivial (.single step)

/-- Every entry of a table whose prose could not be read is among the findings. -/
def ReportsUnreadable (t : Table Entity) (findings : List Finding) : Prop :=
  ∀ e ∈ t.toList, e.unreadable = true →
    ∃ value, Finding.unreadableEnumValue e.name value ∈ findings

theorem ReportsUnreadable.mono {findings more : List Finding}
    (h : t.ReportsUnreadable findings) (kept : findings ⊆ more) : t.ReportsUnreadable more := by
  intro e listed unreadable
  obtain ⟨value, found⟩ := h e listed unreadable
  exact ⟨value, kept found⟩

end Table

/-- A record makes an entry unreadable only with a finding about its value. -/
structure ValueRecord.IsCandid (v : ValueRecord) : Prop where
  fresh : v.fresh.unreadable = false
  enter : ∀ e, (v.enter e).1.unreadable = e.unreadable ∨
    ∃ value, (v.enter e).2 = some (.unreadableEnumValue e.name value)

namespace ValueRecord

theorem unreadable_entered {v : ValueRecord} (candid : v.IsCandid) {found : Option Entity}
    (unreadable : (v.entered found).1.unreadable = true) :
    (∃ e, found = some e ∧ e.unreadable = true) ∨
      ∃ value, (v.entered found).2 =
        some (.unreadableEnumValue (v.entered found).1.name value) := by
  rcases candid.enter ((found.getD v.fresh).citingAny (Citation.specId? v.citation)) with
    same | ⟨value, made⟩
  · rw [entered, same, AttributeRecord.unreadable_citingAny] at unreadable
    cases found with
    | none =>
      rw [Option.getD_none, candid.fresh] at unreadable
      cases unreadable
    | some e => exact Or.inl ⟨e, rfl, unreadable⟩
  · refine Or.inr ⟨value, ?_⟩
    rw [entered, v.name_enter, made]

theorem reportsUnreadable_enterInto {v : ValueRecord} (candid : v.IsCandid)
    {s : Table Entity × List Finding} (h : s.1.ReportsUnreadable s.2) :
    (enterInto s v).1.ReportsUnreadable (enterInto s v).2 := by
  intro e listed unreadable
  rcases Table.mem_put listed with rfl | old
  · rcases unreadable_entered candid unreadable with ⟨old, known, before⟩ | ⟨value, made⟩
    · obtain ⟨member, named⟩ := Table.mem_of_find? known
      obtain ⟨value, found⟩ := h old member before
      have same : (v.entered (s.1.find? v.about)).1.name = old.name :=
        (v.name_entered s.1).trans named.symm
      exact ⟨value, List.mem_append_left _ (same ▸ found)⟩
    · refine ⟨value, List.mem_append_right _ (List.mem_append_right _ ?_)⟩
      rw [made]
      exact List.mem_singleton_self _
  · obtain ⟨value, found⟩ := h e old unreadable
    exact ⟨value, List.mem_append_left _ found⟩

end ValueRecord

theorem Entity.unreadable_redirected (e : Entity) : e.redirected.unreadable = e.unreadable :=
  e.view_redirected fun _ _ => rfl

namespace EnumRecord

theorem unreadable_enterCode (e : Entity) (label value : String) :
    (enterCode e label value).1.unreadable = e.unreadable :=
  view_enterCode (fun _ _ _ => rfl) e label value

theorem unreadable_enterReference (e : Entity) (value : String) :
    (enterReference e value).1.unreadable = e.unreadable ∨
      (enterReference e value).2 = some (.unreadableEnumValue e.name value) := by
  rw [enterReference]
  split
  · exact Or.inl rfl
  · exact Or.inr rfl

theorem unreadable_enter (r : EnumRecord) (e : Entity) :
    (r.enter e).1.unreadable = e.unreadable ∨
      ∃ value, (r.enter e).2 = some (.unreadableEnumValue e.name value) := by
  have readable := Entity.unreadable_redirected
  rw [enter]
  cases r.name.bind Reference.ofEnumLabel? with
  | some target =>
    dsimp only
    split
    · exact Or.inl (readable _)
    · exact Or.inl (readable _)
  | none =>
    dsimp only
    split
    · exact Or.inl (readable e)
    · split
      · exact Or.inl ((unreadable_enterCode _ _ _).trans (readable e))
      · rcases unreadable_enterReference e.redirected _ with same | made
        · exact Or.inl (same.trans (readable e))
        · rw [Entity.name_redirected] at made
          exact Or.inr ⟨_, made⟩
      · exact Or.inl (readable e)

theorem isCandid_toValue (r : EnumRecord) : r.toValue.IsCandid :=
  ⟨rfl, r.unreadable_enter⟩

end EnumRecord

theorem StatusRecord.unreadable_enter (r : StatusRecord) (e : Entity) :
    (r.enter e).1.unreadable = e.unreadable :=
  r.view_enter (fun _ _ _ => rfl) e

theorem StatusRecord.isCandid_toValue (r : StatusRecord) : r.toValue.IsCandid :=
  ⟨rfl, fun e => Or.inl (r.unreadable_enter e)⟩

namespace Registry

/-- The unreadable enumerations of a registry are among its findings. -/
def IsCandid (r : Registry) : Prop :=
  r.enums.ReportsUnreadable r.findings

theorem IsCandid.grow {r after : Registry} (h : r.IsCandid) (same : after.enums = r.enums)
    (kept : r.findings ⊆ after.findings) : after.IsCandid := by
  rw [IsCandid, same]
  exact Table.ReportsUnreadable.mono h kept

theorem isCandid_foldl_enterInto {vs : List ValueRecord} (candid : ∀ v ∈ vs, v.IsCandid)
    {s : Table Entity × List Finding} (h : s.1.ReportsUnreadable s.2) :
    (vs.foldl ValueRecord.enterInto s).1.ReportsUnreadable
      (vs.foldl ValueRecord.enterInto s).2 :=
  List.foldlRecOn (motive := fun s : Table Entity × List Finding => s.1.ReportsUnreadable s.2)
    vs _ h fun _ h v member => ValueRecord.reportsUnreadable_enterInto (candid v member) h

theorem IsCandid.ingestKeyword {r : Registry} (h : r.IsCandid) (record : KeywordRecord) :
    (r.ingestKeyword record).IsCandid := by
  rw [ingestKeyword_eq_enterKeyword]
  exact h.grow rfl (List.subset_append_left _ _)

theorem IsCandid.ingestAttribute {r : Registry} (h : r.IsCandid) (record : AttributeRecord) :
    (r.ingestAttribute record).IsCandid := by
  cases plain : isQualified record.name with
  | true => simpa [Registry.ingestAttribute, plain] using h
  | false =>
    simp only [Registry.ingestAttribute, plain, Bool.false_eq_true, if_false, cite_eq_citing,
      reportAny_eq_append]
    refine h.grow rfl (List.Subset.trans ?_ (List.subset_append_left _ _))
    exact List.subset_append_left _ _

theorem IsCandid.supplyMember {r : Registry} (h : r.IsCandid) (s : SiblingMember) :
    (r.supplyMember s).IsCandid := by
  rcases r.supplyMember_cases s with same | ⟨_, _, _, _, _, same⟩
  · exact same.symm ▸ h
  · rw [same]
    exact h

theorem isCandid_ofRecords (records : Records) : (ofRecords records).IsCandid := by
  have enums : (records.enums.foldl ingestEnum {}).IsCandid := by
    have candid : ∀ v ∈ records.enums.map EnumRecord.toValue, v.IsCandid :=
      List.forall_mem_map.mpr fun r _ => r.isCandid_toValue
    have none : Table.ReportsUnreadable .empty [] := fun e listed => by cases listed
    have made := isCandid_foldl_enterInto candid (s := (.empty, [])) none
    rw [← entries_foldl_ingestEnum records.enums {}] at made
    exact made
  have keywords : (beforeAttributes records).IsCandid :=
    List.foldlRecOn (motive := IsCandid) records.keywords _ enums fun _ h r _ => h.ingestKeyword r
  have attributes : (records.attributes.foldl ingestAttribute (beforeAttributes records)).IsCandid :=
    List.foldlRecOn (motive := IsCandid) _ _ keywords fun _ h r _ => h.ingestAttribute r
  have codes : (records.statusCodes.foldl ingestStatus
      (records.attributes.foldl ingestAttribute (beforeAttributes records))).IsCandid := by
    have candid : ∀ v ∈ records.statusCodes.map StatusRecord.toValue, v.IsCandid :=
      List.forall_mem_map.mpr fun r _ => r.isCandid_toValue
    have made := isCandid_foldl_enterInto candid (s := (_, _)) attributes
    rw [← entries_foldl_ingestStatus] at made
    exact made
  exact List.foldlRecOn (motive := IsCandid) _ _ codes fun _ h s _ => h.supplyMember s

end Registry

namespace EnumDefinition

/-- An entry that shares the values of another entry of its table is passed over in
silence. -/
theorem ofEntity_of_shares {t : Table Entity} {e next : Entity} (step : t.Shares e next) :
    ofEntity t e = (none, none) := by
  obtain ⟨target, refers, found⟩ := step
  have known : t.has target = true := Option.isSome_iff_exists.mpr ⟨next, found⟩
  have silent : t.standing e = (none, false) := by
    rw [Table.standing, refers]
    simp only [known, if_true, ite_self]
  rw [ofEntity, silent]

/-- An entry that can be read and does not share the values of another one is
emitted, or something is found about its reference or its values. -/
theorem ofEntity_of_last {t : Table Entity} {e : Entity} (readable : e.unreadable = false)
    (last : ∀ next, ¬ t.Shares e next) :
    (∃ d, (ofEntity t e).1 = some d) ∨ (ofEntity t e).2 = some (.enumWithoutValues e.name) ∨
      ∃ target, (ofEntity t e).2 = some (.danglingReference e target) := by
  cases refers : e.target? with
  | some target =>
    have unknown : t.has target = false := by
      rw [Bool.eq_false_iff]
      intro known
      obtain ⟨next, found⟩ := Option.isSome_iff_exists.mp known
      exact last next ⟨target, refers, found⟩
    refine Or.inr (Or.inr ⟨target, ?_⟩)
    simp [ofEntity, Table.standing, readable, refers, unknown]
  | none =>
    by_cases empty : e.values.asCodes.isEmpty = true
    · refine Or.inr (Or.inl ?_)
      simp only [ofEntity, Table.standing_own readable refers, empty, if_true]
    · simp only [ofEntity, Table.standing_own readable refers, if_neg empty]
      exact Or.inl ⟨_, rfl⟩

end EnumDefinition

/-- The finding names an enumeration, for its value, its reference or its missing
values. -/
def Finding.IsAbout (e : Entity) : Finding → Prop
  | unreadableEnumValue enum _ | enumCodeNotInteger enum _ | enumWithoutValues enum =>
    enum = e.name
  | danglingReference entity _ => entity = e
  | _ => False

/-- An entry that does not share the values of another one is emitted, or something is
found about it. -/
theorem Registry.IsCandid.emitted_or_found {r : Registry} (candid : r.IsCandid) {e : Entity}
    (listed : e ∈ r.enums.toList) (last : ∀ next, ¬ r.enums.Shares e next) :
    (∃ d ∈ r.enumDefinitions.2, d.fullName = e.name) ∨
      ∃ f ∈ r.enumDefinitions.1.findings, f.IsAbout e := by
  have own : ∀ f, (EnumDefinition.ofEntity r.enums e).2 = some f →
      f ∈ r.enumDefinitions.1.findings := by
    intro f made
    refine List.mem_append_right _ (List.mem_filterMap.mpr ⟨_, ?_, made⟩)
    exact List.mem_map_of_mem listed
  cases readable : e.unreadable with
  | true =>
    obtain ⟨value, found⟩ := candid e listed readable
    exact Or.inr ⟨_, List.mem_append_left _ found, rfl⟩
  | false =>
    rcases EnumDefinition.ofEntity_of_last readable last with
      ⟨d, emitted⟩ | made | ⟨target, made⟩
    · refine Or.inl ⟨d, ?_, EnumDefinition.fullName_ofEntity emitted⟩
      rw [enumDefinitions_eq]
      exact List.mem_filterMap.mpr ⟨e, listed, emitted⟩
    · exact Or.inr ⟨_, own _ made, rfl⟩
    · exact Or.inr ⟨_, own _ made, rfl⟩

namespace Model

/-- What is found about enumerations is reported. -/
theorem findings_of_enums (records : Records) :
    (Registry.ofRecords records).enumDefinitions.1.findings ⊆ (resolve records).findings := by
  have keywords :=
    Registry.findings_keywordDefinitions (Registry.ofRecords records).enumDefinitions.1
  have assembly := (Registry.continues_assemble (defined records)).findings
  rw [← defined] at keywords
  rw [findings_resolve, assembled]
  exact fun _ found => List.mem_append_left _ (assembly.subset (keywords.subset found))

/-- Following shared values leads from an entry to one that is emitted, or to one that
a warning is about. -/
def TracesEnum (m : Model) (t : Table Entity) (e : Entity) : Prop :=
  ∃ x, t.LeadsTo e x ∧
    ((∃ d ∈ m.enums, d.fullName = x.name) ∨ ∃ f ∈ m.findings, f.IsAbout x)

/-- No enumeration gets lost unless it runs in a circle. One that does leads only to
enumerations that are not emitted, and about which nothing is found when definitions
are made. -/
theorem enums_traced (records : Records) {e : Entity}
    (listed : e ∈ (Registry.ofRecords records).enums.toList) :
    ((resolve records).TracesEnum (Registry.ofRecords records).enums e ∨
      (Registry.ofRecords records).enums.RunsInCircle e) ∧
    ((Registry.ofRecords records).enums.RunsInCircle e →
      ∀ x, (Registry.ofRecords records).enums.LeadsTo e x →
        EnumDefinition.ofEntity (Registry.ofRecords records).enums x = (none, none) ∧
          ∀ d ∈ (resolve records).enums, d.fullName ≠ x.name) := by
  have candid := Registry.isCandid_ofRecords records
  constructor
  · rcases Table.ends_or_runsInCircle listed with ⟨x, member, leads, last⟩ | circle
    · refine Or.inl ⟨x, leads, ?_⟩
      rcases candid.emitted_or_found member last with emitted | ⟨f, found, about⟩
      · exact Or.inl emitted
      · exact Or.inr ⟨f, findings_of_enums records found, about⟩
    · exact Or.inr circle
  · intro circle x leads
    obtain ⟨next, step⟩ := (circle.of_leadsTo leads).step
    have silent := EnumDefinition.ofEntity_of_shares step
    refine ⟨silent, fun d defined named => ?_⟩
    rw [enums_resolve, Registry.enumDefinitions_eq] at defined
    obtain ⟨y, other, emitted⟩ := List.mem_filterMap.mp defined
    -- The definition is that of the only entry of this name.
    have named : y.name = x.name := (EnumDefinition.fullName_ofEntity emitted).symm.trans named
    have same : y = x :=
      List.inj_on_of_nodup_map (Registry.ofRecords records).enums.distinct other
        (leads.mem listed) named
    rw [same, silent] at emitted
    cases emitted

/-- The finishings of a job share the values of other finishings, which are emitted. -/
theorem enums_traced_of_finishings :
    let records : Records := {
      enums := [{ about := "finishings", name := some "staple", value := some "4" },
        { about := "job-finishings", value := some "< any \"finishings\" value >" }] }
    let t := (Registry.ofRecords records).enums
    ∃ e ∈ t.toList, e.name = "job-finishings" ∧ (resolve records).TracesEnum t e := by
  intro records t
  have refers : (t.find? "job-finishings").map Entity.target? = some (some "finishings") := by
    decide
  have own : (t.find? "finishings").map Entity.target? = some none := by decide
  obtain ⟨e, found, target⟩ := Option.map_eq_some_iff.mp refers
  obtain ⟨x, known, last⟩ := Option.map_eq_some_iff.mp own
  obtain ⟨listed, named⟩ := Table.mem_of_find? found
  refine ⟨e, listed, named, (enums_traced records listed).1.resolve_right fun circle => ?_⟩
  obtain ⟨next, target', refers', -⟩ := (circle.next ⟨_, target, known⟩).step
  rw [last] at refers'
  cases refers'

/-- Two enumerations that share the values of each other are neither emitted nor
reported. -/
theorem enums_not_all_traced :
    ¬ ∀ records : Records, ∀ e ∈ (Registry.ofRecords records).enums.toList,
      (resolve records).TracesEnum (Registry.ofRecords records).enums e := by
  intro traced
  let records : Records := {
    enums := [{ about := "a", value := some "< any \"b\" value >" },
      { about := "b", value := some "< any \"a\" value >" }] }
  have known : ((Registry.ofRecords records).enums.find? "a").isSome = true := by decide
  have undefined : (resolve records).enums = [] := by
    rw [← List.isEmpty_iff]
    decide
  have silent : (resolve records).findings = [] := by
    rw [← List.isEmpty_iff]
    decide +kernel
  obtain ⟨e, found⟩ := Option.isSome_iff_exists.mp known
  obtain ⟨x, -, emitted | reported⟩ := traced records e (Table.mem_of_find? found).1
  · obtain ⟨d, defined, -⟩ := emitted
    rw [undefined] at defined
    cases defined
  · obtain ⟨f, made, -⟩ := reported
    rw [silent] at made
    cases made

end Model

end PrintRegistry
