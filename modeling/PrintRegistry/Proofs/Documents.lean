import PrintRegistry.Proofs.Backfill
import PrintRegistry.Proofs.Citations
import PrintRegistry.Proofs.FirstDefinition
import PrintRegistry.Proofs.Model

/-!
The documents of a model. No pass makes up a citation: members keep theirs where they are
moved, a registered collection those of its attribute, and declarations of several families
are joined with the citations of all. So a model lists every document that it cites, apart
from those of the keywords that are supplied. These are not noted when the keywords are put
in, and a model lists them only if a record happens to cite them.
-/

namespace PrintRegistry

variable {P : String → Prop}

theorem AliasMerge.mem_moveMembers {collection : String} {members incoming : List Entity}
    {x : Entity} (h : x ∈ (moveMembers collection members incoming).1) :
    x ∈ members ∨ x ∈ incoming := by
  have origin := List.foldlRecOn (motive := fun moved : List Entity × List Finding =>
    ∀ x ∈ moved.1, x ∈ members ∨ x ∈ incoming) incoming (moveMember collection)
    (b := (members, [])) (fun _ => Or.inl) fun moved before m listed x there => by
      rcases members_moveMember collection moved m with same | ⟨-, added⟩
      · exact before x (same ▸ there)
      · rw [added] at there
        rcases List.mem_append.mp there with old | new
        · exact before x old
        · exact Or.inr (List.mem_singleton.mp new ▸ listed)
  exact origin x h

theorem Entity.CitesWithin.reconcile? {kept other both : Entity} (first : kept.CitesWithin P)
    (second : other.CitesWithin P) (h : kept.reconcile? other = some both) :
    both.CitesWithin P := by
  rw [(Entity.reconcile?_eq_some h).1]
  exact (first.citingAll second.specs).congr rfl

theorem Entity.citations_backfilled? {e e' : Entity} {collections : Table Entity}
    (h : e.backfilled? collections = some e') : e'.citations = e.citations := by
  rcases backfills_of_backfilled? h with rfl | ⟨-, target, -, rfl⟩ <;> rfl

namespace Registry

variable {r : Registry}

theorem CitesWithin.mergeAlias (h : r.CitesWithin P) (m : AliasMerge) :
    (r.mergeAlias m).CitesWithin P := by
  rcases r.mergeAlias_cases m with
    ⟨-, same⟩ | ⟨-, same⟩ | ⟨target, source, moved, known, here, rfl, -, after⟩
  · exact same.symm ▸ h.of_families rfl
  · exact same.symm ▸ h
  · intro family name e found
    rw [after] at found
    have targetWithin := h _ _ target known
    have sourceWithin := h _ _ source here
    split at found
    · obtain rfl := Option.some.inj found
      refine .intro targetWithin.specs fun x listed => ?_
      rcases AliasMerge.mem_moveMembers listed with own | moved
      · exact targetWithin.members x own
      · exact sourceWithin.members x moved
    · split at found
      · obtain rfl := Option.some.inj found
        exact .intro sourceWithin.specs fun x none => by cases none
      · exact h family name e found

theorem CitesWithin.mergeAliases (h : r.CitesWithin P) : r.mergeAliases.CitesWithin P :=
  List.foldlRecOn (motive := CitesWithin P) _ _ h fun _ before m _ => before.mergeAlias m

theorem CitesWithin.registerCollections (h : r.CitesWithin P) :
    r.registerCollections.CitesWithin P := by
  intro family name e found
  have same := view_registerCollections Entity.citations (fun _ _ => rfl) r family name
  rw [found, Option.map_some, eq_comm, Option.map_eq_some_iff] at same
  obtain ⟨old, known, citations⟩ := same
  exact (h family name old known).congr citations.symm

/-- Registered collections cite what the attributes that define them do. -/
theorem CitesWithin.collections (h : r.CitesWithin P) (none : r.collections = .empty) :
    ∀ k ∈ r.registerCollections.collections.toList, k.CitesWithin P := by
  refine List.foldlRecOn (motive := fun r : Registry => ∀ k ∈ r.collections.toList,
    k.CitesWithin P) _ _ (fun k listed => ?_) fun r before a listed k registered => ?_
  · rw [none] at listed
    cases listed
  · rw [collections_registerAttribute] at registered
    have found := Table.find?_of_mem registered
    rw [find?_registerCollection, Option.or_eq_some_iff] at found
    rcases found with old | ⟨-, new⟩
    · exact before k (Table.mem_of_find? old).1
    · obtain ⟨-, same⟩ := Option.ite_none_right_eq_some.mp new
      obtain rfl := Option.some.inj same
      have within := h _ _ _ (mem_attributes_iff.mp (List.mem_filter.mp listed).1)
      exact within.congr rfl

theorem CitesWithin.backfill (h : r.CitesWithin P) : r.backfill.CitesWithin P := by
  intro family name e found
  obtain ⟨old, listed, filled⟩ := mem_attributes_backfill.mp (mem_attributes_of_attribute? found)
  exact (h _ _ old (mem_attributes_iff.mp listed)).congr (Entity.citations_backfilled? filled)

/-- Canonical declarations cite what the declarations of families do. -/
theorem CitesWithin.canon (h : r.CitesWithin P) : ∀ e ∈ r.canon.1.toList, e.CitesWithin P := by
  intro e listed
  refine canonInduction (motive := fun _ found => ∀ e, found = some e → e.CitesWithin P) r e.name
    (fun _ none => nomatch none) (fun _ found family other known before _ e stands => ?_) e
    (Table.find?_of_mem listed)
  have own := h family _ other known
  obtain rfl := Option.some.inj stands
  cases found with
  | none => exact own
  | some kept =>
    have first := before kept rfl
    dsimp only [Option.elim_some]
    cases joined : kept.reconcile? other with
    | none => exact first
    | some both => exact first.reconcile? own joined

end Registry

/-- Descriptors repeat what their entity cites. -/
theorem Descriptor.specs_ofEntity? {r : Registry} {e : Entity} {d : Descriptor}
    (h : ofEntity? r e = some d) : d.specs = e.specs := by
  obtain ⟨i, -, rfl⟩ := ofEntity?_eq_some_iff.mp h
  rfl

theorem EnumDefinition.specs_ofEntity {t : Table Entity} {e : Entity} {d : EnumDefinition}
    (h : (ofEntity t e).1 = some d) : d.specs = e.specs := by
  rw [ofEntity] at h
  split at h
  · cases h
  · split at h <;> cases h
    rfl

theorem KeywordDefinition.specs_ofEntity {r : Registry} {e : Entity} {d : KeywordDefinition}
    (h : (ofEntity r e).1 = some d) : d.specs = e.specs := by
  rw [ofEntity] at h
  split at h
  · cases h
  · dsimp only at h
    split at h <;> cases h
    rfl

namespace Typing

variable {r : Registry}

/-- Descriptors at every place cite what registered collections and canonical attributes
do. -/
theorem specs_of_walk (collections : ∀ k ∈ r.collections.toList, k.CitesWithin P)
    (types : ∀ e ∈ r.types.toList, e.CitesWithin P) :
    ∀ o ∈ (ofRegistry r).walk, ∀ spec ∈ o.type.specs, P spec := by
  intro o here spec cited
  rcases walk_origin r o here with ⟨k, registered, e, inside, typed⟩ | ⟨-, e, canonical, found⟩
  · have bare : o.type.bare.specs = e.specs := Descriptor.specs_ofEntity? typed.ofEntity?_bare
    exact ((collections k registered).inside inside).specs spec (bare ▸ cited)
  · exact (types e canonical).specs spec (Descriptor.specs_ofEntity? found ▸ cited)

theorem specs_of_collections (collections : ∀ k ∈ r.collections.toList, k.CitesWithin P) :
    ∀ d ∈ (ofRegistry r).collections, ∀ spec ∈ d.specs, P spec := by
  rw [collections_ofRegistry]
  refine List.foldlRecOn (motive := fun t : Typing => ∀ d ∈ t.collections,
    ∀ spec ∈ d.specs, P spec) _ _ (fun _ none => by cases none) fun t before k emitted => ?_
  rcases addCollection_cases r t k with ⟨ds, u, -, step⟩ | ⟨m, step⟩
  · rw [step]
    intro d listed
    rcases List.mem_append.mp listed with old | new
    · exact before d old
    · obtain rfl := List.mem_singleton.mp new
      exact (collections k (List.mem_filter.mp emitted).1).specs
  · rw [step]
    exact before

/-- The blocks of keys and values are descriptors of the walk. -/
theorem specs_of_keyValues (walk : ∀ o ∈ (ofRegistry r).walk, ∀ spec ∈ o.type.specs, P spec) :
    ∀ d ∈ (ofRegistry r).usages.keyValues, ∀ spec ∈ d.specs, P spec := by
  rw [usages_ofRegistry, Usages.keyValues_recordAll]
  refine List.foldlRecOn (motive := fun ds : List Descriptor => ∀ d ∈ ds, ∀ spec ∈ d.specs, P spec)
    _ _ (fun _ none => by cases none) fun ds before block listed d there => ?_
  rcases Named.mem_put there with rfl | old
  · obtain ⟨o, here, rfl⟩ := List.mem_map.mp listed
    exact walk o (List.mem_filter.mp here).1
  · exact before d old

end Typing

namespace Model

/-- The model lists every document that it cites, apart from citations by the keywords of the
names given. -/
structure ListsDocuments (exempt : List String) (m : Model) : Prop where
  enums : ∀ d ∈ m.enums, d.specs ⊆ Named.names m.specs
  keywords : ∀ d ∈ m.keywords, d.fullName ∉ exempt → d.specs ⊆ Named.names m.specs
  collections : ∀ d ∈ m.collections, d.specs ⊆ Named.names m.specs
  descriptors : ∀ o ∈ m.walk, o.type.specs ⊆ Named.names m.specs
  keyValues : ∀ d ∈ m.keyValues, d.specs ⊆ Named.names m.specs

theorem mem_names_specs_resolve {records : Records} {spec : String} :
    spec ∈ Named.names (resolve records).specs ↔ records.Cites spec := by
  rw [← Registry.mem_names_specs_ofRecords, specs_resolve, assembled,
    (Registry.continues_assemble _).specs, defined]
  rfl

theorem citesWithin_collections_assembled (records : Records) :
    ∀ k ∈ (assembled records).collections.toList, k.CitesWithin records.Cites := by
  rw [assembled, Registry.collections_assemble]
  have declared : (defined records).CitesWithin records.Cites :=
    (Registry.citesWithin_ofRecords records).of_families (families_defined records)
  exact declared.mergeAliases.collections (collections_merged records)

theorem citesWithin_types_assembled (records : Records) :
    ∀ e ∈ (assembled records).types.toList, e.CitesWithin records.Cites := by
  rw [types_assembled, filled]
  have declared : (defined records).CitesWithin records.Cites :=
    (Registry.citesWithin_ofRecords records).of_families (families_defined records)
  exact declared.mergeAliases.registerCollections.backfill.canon

theorem cites_of_walk_resolve (records : Records) :
    ∀ o ∈ (resolve records).walk, ∀ spec ∈ o.type.specs, records.Cites spec := by
  rw [walk_resolve]
  exact Typing.specs_of_walk (citesWithin_collections_assembled records)
    (citesWithin_types_assembled records)

theorem enum_of_resolve {records : Records} {d : EnumDefinition} (h : d ∈ (resolve records).enums) :
    ∃ e ∈ (Registry.ofRecords records).enums.toList, d.specs = e.specs := by
  rw [enums_resolve, Registry.enumDefinitions_eq] at h
  obtain ⟨e, entered, made⟩ := List.mem_filterMap.mp h
  exact ⟨e, entered, EnumDefinition.specs_ofEntity made⟩

theorem keyword_of_resolve {records : Records} {d : KeywordDefinition}
    (h : d ∈ (resolve records).keywords) :
    ∃ e ∈ (Registry.ofRecords records).keywords.toList, d.fullName = e.name ∧ d.specs = e.specs := by
  rw [keywords_resolve, Registry.keywordDefinitions_eq, Registry.keywords_enumDefinitions] at h
  obtain ⟨e, entered, made⟩ := List.mem_filterMap.mp h
  exact ⟨e, entered, KeywordDefinition.fullName_ofEntity made, KeywordDefinition.specs_ofEntity made⟩

/-- A keyword that is supplied is defined as it is supplied, whatever records say of it. -/
theorem specs_of_supplied {records : Records} {d : KeywordDefinition}
    (h : d ∈ (resolve records).keywords) {k : SupplementaryKeyword}
    (known : k ∈ SupplementaryKeyword.all) (named : d.fullName = k.name) : d.specs = [k.spec] := by
  obtain ⟨e, entered, same, specs⟩ := keyword_of_resolve h
  rcases Registry.keywords_ofRecords_cases entered with ⟨k', known', rfl⟩ | ⟨own, -⟩
  · have names : (SupplementaryKeyword.all.map (·.name)).Nodup := by decide
    obtain rfl := List.inj_on_of_nodup_map names known' known (same.symm.trans named)
    exact specs
  · exact absurd (List.mem_map_of_mem known) (named ▸ same ▸ own)

/-- A model lists every document that it cites, apart from citations by the keywords that are
supplied. Each of these cites the one document that it is supplied with, and a model lists it
exactly if some record cites it. -/
theorem listsDocuments_resolve (records : Records) :
    (resolve records).ListsDocuments (SupplementaryKeyword.all.map (·.name)) ∧
      ∀ d ∈ (resolve records).keywords, ∀ k ∈ SupplementaryKeyword.all, d.fullName = k.name →
        d.specs = [k.spec] ∧
          (k.spec ∈ Named.names (resolve records).specs ↔ records.Cites k.spec) := by
  have listed : ∀ {specs : List String}, (∀ spec ∈ specs, records.Cites spec) →
      specs ⊆ Named.names (resolve records).specs :=
    fun cited spec member => mem_names_specs_resolve.mpr (cited spec member)
  have walk := cites_of_walk_resolve records
  refine ⟨⟨fun d emitted => ?_, fun d emitted own => ?_, fun d defined => ?_,
    fun o here => listed (walk o here), fun d block => ?_⟩, fun d emitted k known named =>
      ⟨specs_of_supplied emitted known named, mem_names_specs_resolve⟩⟩
  · obtain ⟨e, entered, specs⟩ := enum_of_resolve emitted
    exact specs ▸ listed (Registry.citesWithin_enums_ofRecords records e entered).specs
  · obtain ⟨e, entered, named, specs⟩ := keyword_of_resolve emitted
    rcases Registry.keywords_ofRecords_cases entered with ⟨k, known, rfl⟩ | ⟨-, within⟩
    · exact absurd (named ▸ List.mem_map_of_mem known) own
    · exact specs ▸ listed within.specs
  · rw [collections_resolve] at defined
    exact listed (Typing.specs_of_collections (citesWithin_collections_assembled records) d defined)
  · rw [keyValues_resolve] at block
    rw [walk_resolve] at walk
    exact listed (Typing.specs_of_keyValues walk d block)

/-- Records that cite the documents of two of the keywords supplied, but not that of the
others. -/
def printerKinds : Records where
  keywords :=
    [{ about := "printer-kind", value := some "disc", grammar := some "type2 keyword",
       citation := some { kind := .rfc, data := "PWG5100.16" } },
     { about := "preset-name", value := some "draft", grammar := some "keyword | name(MAX)",
       citation := some { kind := .rfc, data := "IPPPRESET" } }]

/-- Some keyword that is supplied cites a document that the model does not list. -/
theorem not_listsDocuments_resolve :
    ¬ ∀ records : Records, (resolve records).ListsDocuments [] := by
  intro claimed
  have facts : ((resolve printerKinds).keywords.getLast?.map (·.specs),
      Named.names (resolve printerKinds).specs) =
        (some ["RFC3380"], ["PWG5100.16", "IPPPRESET"]) := by
    decide
  obtain ⟨last, names⟩ := Prod.mk.inj facts
  obtain ⟨d, final, cites⟩ := Option.map_eq_some_iff.mp last
  have listed := (claimed printerKinds).keywords d (List.mem_of_getLast? final) List.not_mem_nil
  rw [cites, names] at listed
  exact absurd (listed List.mem_cons_self) (by decide)

end Model

end PrintRegistry
