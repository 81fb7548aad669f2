import PrintRegistry.Model
import PrintRegistry.Proofs.Definition
import PrintRegistry.Proofs.Ingestion
import PrintRegistry.Proofs.Registration
import PrintRegistry.Proofs.Walk

/-!
The stages of a model. The findings of each stage are kept by all later ones, so
a model without warnings comes from stages that have found nothing.
-/

namespace PrintRegistry.Model

/-- The registry of a snapshot when its enumerations and keywords are defined. -/
@[irreducible] def defined (records : Records) : Registry :=
  (Registry.ofRecords records).enumDefinitions.1.keywordDefinitions.1

/-- The registry of a snapshot when its collections are assembled. -/
@[irreducible] def assembled (records : Records) : Registry :=
  (defined records).assemble

/-- The registry of a snapshot when the audit looks at it. -/
@[irreducible] def filled (records : Records) : Registry :=
  (defined records).mergeAliases.registerCollections.backfill

theorem collections_filled (records : Records) :
    (filled records).collections = (assembled records).collections := by
  rw [filled, assembled, Registry.collections_assemble, Registry.collections_backfill]

theorem types_assembled (records : Records) :
    (assembled records).types = (filled records).canon.1 := by
  -- The audit looks at attributes and changes none.
  have same : (filled records).audit.attributes = (filled records).attributes := rfl
  have canonical : (assembled records).types = (filled records).audit.canon.1 := by
    rw [assembled, Registry.assemble, ← filled]
    rfl
  rw [canonical, Registry.canon, Registry.canon, same]

theorem families_defined (records : Records) :
    (defined records).families = (Registry.ofRecords records).families := by
  rw [defined]
  rfl

theorem collections_defined (records : Records) : (defined records).collections = .empty := by
  rw [defined]
  exact Registry.collections_ofRecords records

theorem collections_merged (records : Records) :
    (defined records).mergeAliases.collections = .empty :=
  (Registry.collections_mergeAliases _).trans (collections_defined records)

theorem enums_assembled (records : Records) :
    (assembled records).enums = (Registry.ofRecords records).enums := by
  rw [assembled, (Registry.continues_assemble _).enums, defined,
    Registry.enums_keywordDefinitions, Registry.enums_enumDefinitions]

/-- The entries of the keyword table that are looked up are those that were
ingested, with notes. -/
theorem mem_keywords_assembled {records : Records} {k : Entity}
    (h : k ∈ (assembled records).keywords.toList) :
    ∃ e ∈ (Registry.ofRecords records).keywords.toList, ∃ note, k = { e with note } := by
  rw [assembled, (Registry.continues_assemble _).keywords, defined] at h
  obtain ⟨e, listed, noted⟩ := Registry.mem_keywordDefinitions h
  rw [Registry.keywords_enumDefinitions] at listed
  exact ⟨e, listed, noted⟩

theorem find?_keywords_assembled (records : Records) (name : String) :
    (assembled records).keywords.find? name = ((Registry.ofRecords records).keywords.find? name).map
      (Registry.ofRecords records).enumDefinitions.1.noted := by
  rw [assembled, (Registry.continues_assemble _).keywords, defined]
  exact Table.find?_map _ (Registry.name_noted _) name

def walk (m : Model) : List Occurrence :=
  walkAll m.collections m.types

theorem enums_resolve (records : Records) :
    (resolve records).enums = (Registry.ofRecords records).enumDefinitions.2 := rfl

theorem keywords_resolve (records : Records) : (resolve records).keywords =
    (Registry.ofRecords records).enumDefinitions.1.keywordDefinitions.2 := rfl

theorem collections_resolve (records : Records) :
    (resolve records).collections = (Typing.ofRegistry (assembled records)).collections := by
  unfold assembled defined
  rfl

theorem types_resolve (records : Records) :
    (resolve records).types = (Typing.ofRegistry (assembled records)).types := by
  unfold assembled defined
  rfl

theorem enumUsages_resolve (records : Records) :
    (resolve records).enumUsages = (Typing.ofRegistry (assembled records)).usages.enums := by
  unfold assembled defined
  rfl

theorem keyValues_resolve (records : Records) :
    (resolve records).keyValues = (Typing.ofRegistry (assembled records)).usages.keyValues := by
  unfold assembled defined
  rfl

theorem specs_resolve (records : Records) :
    (resolve records).specs = (assembled records).specs.toList := by
  simp only [resolve, assembled, defined]

theorem findings_resolve (records : Records) : (resolve records).findings =
    (assembled records).findings ++ (Typing.ofRegistry (assembled records)).findings := by
  unfold assembled defined
  rfl

theorem walk_resolve (records : Records) :
    (resolve records).walk = (Typing.ofRegistry (assembled records)).walk := by
  rw [walk, Typing.walk, collections_resolve, types_resolve]

theorem mem_warnings {m : Model} {f : Finding} (h : f ∈ m.findings) : f.warning ∈ m.warnings :=
  List.mem_map_of_mem h

/-- A model has no warnings exactly if nothing was found while its registry was
assembled, every emitted collection is typed, and so is every attribute. -/
theorem warnings_eq_nil_iff {records : Records} :
    (resolve records).warnings = [] ↔ (assembled records).findings = [] ∧
      (Typing.ofCollections (assembled records)).findings = [] ∧
      ∀ e ∈ (assembled records).types.toList,
        (Descriptor.ofEntity? (assembled records) e).isSome = true := by
  have typed : ((Typing.attributesInOrder (assembled records)).filter fun e =>
      (Descriptor.ofEntity? (assembled records) e).isNone).map Finding.untypedAttribute = [] ↔
      ∀ e ∈ (assembled records).types.toList,
        (Descriptor.ofEntity? (assembled records) e).isSome = true := by
    simp [Typing.attributesInOrder, List.mem_mergeSort, Option.isSome_iff_ne_none]
  rw [warnings, List.map_eq_nil_iff, findings_resolve, List.append_eq_nil_iff,
    Typing.findings_ofRegistry, List.append_eq_nil_iff, typed]

/-- No stage of the resolution of a snapshot has found anything irregular. -/
structure Quiet (records : Records) : Prop where
  enums : (Registry.ofRecords records).enumDefinitions.1.findings = []
  keywords : (defined records).findings = []
  merged : (defined records).mergeAliases.findings = []
  registered : (defined records).mergeAliases.registerCollections.findings = []
  audited : (filled records).audit.findings = []
  assembled : (assembled records).findings = []
  typed : (Typing.ofCollections (Model.assembled records)).findings = []

theorem quiet_of_warnings {records : Records} (h : (resolve records).warnings = []) :
    Quiet records := by
  obtain ⟨assembled, typed, -⟩ := warnings_eq_nil_iff.mp h
  have audited : (filled records).audit.findings = [] := by
    rw [Model.assembled, Registry.assemble, ← filled] at assembled
    exact (Registry.continues_unifyFamilies _).quiet assembled
  have registered : (defined records).mergeAliases.registerCollections.findings = [] := by
    rw [Model.assembled] at assembled
    exact (Registry.continues_after_registration _).quiet assembled
  have merged : (defined records).mergeAliases.findings = [] :=
    (Registry.continues_registerCollections _).quiet registered
  have keywords : (defined records).findings = [] :=
    (Registry.continues_mergeAliases _).quiet merged
  have enums : (Registry.ofRecords records).enumDefinitions.1.findings = [] := by
    have later := Registry.findings_keywordDefinitions (Registry.ofRecords records).enumDefinitions.1
    rw [← defined, keywords] at later
    exact List.prefix_nil.mp later
  exact ⟨enums, keywords, merged, registered, audited, assembled, typed⟩

theorem registered_from_attribute {records : Records} (quiet : Quiet records) {k : Entity}
    (registered : k ∈ (assembled records).collections.toList) :
    ∃ family c, (family, c) ∈ (defined records).mergeAliases.attributes ∧
      k = { c with emitted := true } := by
  rw [assembled, Registry.collections_assemble] at registered
  exact Registry.registerCollections_from_attributes (collections_merged records)
    quiet.registered k registered

/-- A model without warnings defines every collection that is registered, with
the types of all its members. -/
theorem defines_registered {records : Records} (quiet : Quiet records) {k : Entity}
    (registered : k ∈ (assembled records).collections.toList) :
    ∃ d ∈ (resolve records).collections, d.name = k.name ∧
      ∃ u u', typeMembers (assembled records) (Site.top.child k.name) u k.members =
        .ok (d.members, u') := by
  obtain ⟨family, c, -, marked⟩ := registered_from_attribute quiet registered
  have emitted : k.emitted = true := marked ▸ rfl
  rw [collections_resolve, Typing.collections_ofRegistry]
  exact Typing.ofCollections_defines quiet.typed registered emitted

end PrintRegistry.Model
