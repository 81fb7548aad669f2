import PrintRegistry.Proofs.Documents

/-!
The order of citations. A family notes what the records of an attribute cite in the order of
these records, and no pass changes that, or the order of families. So where families agree,
an attribute cites what its records cite, family by family, each document where it is first
mentioned. The place of a document is a matter of its own: it is that of the first citation by
any record of the snapshot.
-/

namespace PrintRegistry

namespace Named

/-- Texts that are put in come after those that are there, each where it is first mentioned. -/
theorem putAll_eraseDups (xs as : List String) :
    putAll xs.eraseDups as = (xs ++ as).eraseDups := by
  induction as using List.reverseRecOn with
  | nil => simp [putAll]
  | append_singleton as a ih => rw [putAll_concat, ih, put_eraseDups, List.append_assoc]

/-- It makes no difference whether texts that are put in are put together without repeats
before. -/
theorem eraseDups_append_eraseDups (xs ys : List String) :
    (xs ++ ys.eraseDups).eraseDups = (xs ++ ys).eraseDups := by
  induction ys using List.reverseRecOn with
  | nil => rfl
  | append_singleton ys y ih =>
    rw [← put_eraseDups ys, put_string]
    split
    · rename_i known
      have there : y ∈ (xs ++ ys).eraseDups :=
        List.mem_eraseDups.mpr (List.mem_append_right _ (List.mem_eraseDups.mp known))
      rw [ih, ← List.append_assoc, ← put_eraseDups, put_string, if_pos there]
    · rw [← List.append_assoc, ← List.append_assoc, ← put_eraseDups, ih, put_eraseDups]

theorem eraseDups_flatMap_eraseDups {α : Type} (as : List α) (texts : α → List String) :
    (as.flatMap fun a => (texts a).eraseDups).eraseDups = (as.flatMap texts).eraseDups := by
  induction as using List.reverseRecOn with
  | nil => rfl
  | append_singleton as a ih =>
    rw [List.flatMap_append, List.flatMap_append, List.flatMap_singleton, List.flatMap_singleton,
      eraseDups_append_eraseDups, ← putAll_eraseDups, ih, putAll_eraseDups]

end Named

theorem Table.names_adjust {α : Type} [Named α] (t : Table α) (name : String) {change : α → α}
    (keeps : ∀ a, nameOf (change a) = nameOf a) : (t.adjust name change).names = t.names := by
  have same : ∀ a, nameOf (if nameOf a = name then change a else a) = nameOf a := by
    intro a
    split
    · exact keeps a
    · rfl
  rw [names, Named.names, toList_adjust t name change keeps, List.map_map]
  exact List.map_congr_left fun a _ => same a

/-- Names being distinct, the entries of a name are the one that is found, if any. -/
theorem Table.filter_name {α : Type} [Named α] (t : Table α) (name : String) :
    t.toList.filter (nameOf · == name) = (t.find? name).toList := by
  rw [find?, Named.find?, ← List.head?_filter]
  have distinct : (Named.names (t.toList.filter (nameOf · == name))).Nodup :=
    t.distinct.sublist (List.filter_sublist.map nameOf)
  have named : ∀ a ∈ t.toList.filter (nameOf · == name), nameOf a = name := fun a member =>
    beq_iff_eq.mp (List.mem_filter.mp member).2
  generalize t.toList.filter (nameOf · == name) = own at distinct named
  rcases own with _ | ⟨a, _ | ⟨b, own⟩⟩
  · rfl
  · rfl
  · have same : nameOf b = nameOf a := (named b (by simp)).trans (named a (by simp)).symm
    have new : nameOf a ∉ nameOf b :: own.map nameOf := (List.nodup_cons.mp distinct).1
    exact absurd (same ▸ List.mem_cons_self) new

/-- The documents that records cite, in their order. -/
def AttributeRecord.cited (as : List AttributeRecord) : List String :=
  as.filterMap fun a => Citation.specId? a.citation

theorem Entity.specs_citingAny (e : Entity) (spec : Option String) :
    (e.citingAny spec).specs = Named.putAll e.specs spec.toList := by
  cases spec <;> rfl

/-- What an attribute cites, nothing if there is none. -/
def Entity.specsOf (found : Option Entity) : List String :=
  found.elim [] Entity.specs

theorem Entity.specsOf_eq (found : Option Entity) : specsOf found = (found.map specs).getD [] := by
  cases found <;> rfl

/-- The entry that records of an attribute make cites what they cite, in their order. -/
theorem Registry.specsOf_entryOf (as : List AttributeRecord) :
    Entity.specsOf (entryOf (as.map AttributeRecord.toValue)) =
      (AttributeRecord.cited as).eraseDups := by
  induction as using List.reverseRecOn with
  | nil => rfl
  | append_singleton as a ih =>
    have before : ((entryOf (as.map AttributeRecord.toValue)).getD
        (Entity.fresh a.name a.grammar)).specs = (AttributeRecord.cited as).eraseDups := by
      rw [← ih]
      cases entryOf (as.map AttributeRecord.toValue) <;> rfl
    have last : AttributeRecord.cited [a] = (Citation.specId? a.citation).toList := by
      cases read : Citation.specId? a.citation <;> simp [AttributeRecord.cited, read]
    rw [List.map_append, List.map_singleton, entryOf_concat, a.entered_toValue, Entity.specsOf,
      Option.elim_some, a.specs_enter, Entity.specs_citingAny, before, Named.putAll_eraseDups,
      ← last, AttributeRecord.cited, AttributeRecord.cited, ← List.filterMap_append]
    rfl

namespace Registry

variable {r : Registry}

/-- What the families cite for a name: the titles of the families in order, and what each of
them cites. -/
def citing (r : Registry) (name : String) : List String × (String → List String) :=
  (r.families.names, fun family => Entity.specsOf (r.attribute? family name))

/-- The declarations of a name are those that the families in their order have. -/
theorem declarations_eq (r : Registry) (name : String) :
    r.declarations name = r.families.names.filterMap (r.attribute? · name) := by
  have own : ∀ f ∈ r.families.toList,
      ((f.attributes.toList.map (f.title, ·)).map Prod.snd).filter (·.name == name) =
        (r.attribute? f.title name).toList := by
    intro f listed
    have found : r.family? f.title = some f.attributes := by
      rw [family?, show r.families.find? f.title = some f from Table.find?_of_mem listed,
        Option.map_some]
    rw [List.map_map, attribute?, found, Option.bind_some, ← Table.filter_name]
    exact congrArg _ (List.map_id _)
  rw [declarations, attributes, List.map_flatMap, List.filter_flatMap, Table.names, Named.names,
    List.filterMap_map, List.filterMap_eq_flatMap_toList]
  exact List.flatMap_congr own

/-- What the declarations of a name cite, family by family. -/
theorem specs_declarations (r : Registry) (name : String) :
    (r.declarations name).flatMap Entity.specs = (r.citing name).1.flatMap (r.citing name).2 := by
  rw [declarations_eq, citing, List.filterMap_eq_flatMap_toList, List.flatMap_assoc]
  refine List.flatMap_congr fun family _ => ?_
  cases found : r.attribute? family name <;> simp [Entity.specsOf, found]

theorem citing_congr {r' : Registry} {name : String}
    (titles : r'.families.names = r.families.names)
    (cited : ∀ family, (r'.attribute? family name).map Entity.specs =
      (r.attribute? family name).map Entity.specs) : r'.citing name = r.citing name := by
  refine Prod.ext titles (funext fun family => ?_)
  dsimp only [citing]
  rw [Entity.specsOf_eq, Entity.specsOf_eq, cited]

theorem titles_adjustAttribute (r : Registry) (family name : String) (change : Entity → Entity) :
    (r.adjustAttribute family name change).families.names = r.families.names :=
  Table.names_adjust r.families family fun _ => rfl

section Passes

theorem citing_supplyMember (r : Registry) (s : SiblingMember) (name : String) :
    (r.supplyMember s).citing name = r.citing name := by
  rcases r.supplyMember_cases s with same | ⟨_, m, _, _, _, supplied⟩
  · rw [same]
  · rw [supplied]
    exact citing_congr (titles_adjustAttribute ..) fun family =>
      view_adjustAttribute Entity.specs r _ _ (fun e => { e with members := Named.put e.members m })
        (fun _ => rfl) (fun _ => rfl) family name

theorem titles_mergeAlias (r : Registry) (m : AliasMerge) :
    (r.mergeAlias m).families.names = r.families.names := by
  rw [mergeAlias]
  split
  · rfl
  · split
    · rfl
    · exact (titles_adjustAttribute ..).trans (titles_adjustAttribute ..)

theorem citing_mergeAliases (r : Registry) (name : String) :
    r.mergeAliases.citing name = r.citing name :=
  citing_congr (foldl_keeps mergeAlias (fun r => r.families.names) titles_mergeAlias _ r)
    fun family => view_mergeAliases Entity.specs (fun _ _ => rfl) r family name

theorem families_registerCollection (r : Registry) (c : Entity) :
    (r.registerCollection c).1.families = r.families := by
  rw [registerCollection]
  split
  · dsimp only
    split <;> rfl
  · split <;> rfl

theorem titles_registerAttribute (r : Registry) (family : String) (c : Entity) :
    (r.registerAttribute family c).families.names = r.families.names := by
  have same := families_registerCollection r c
  rw [registerAttribute]
  split <;> rename_i after result <;> rw [result] at same
  · rw [titles_adjustAttribute, same]
  · rw [same]

theorem citing_registerCollections (r : Registry) (name : String) :
    r.registerCollections.citing name = r.citing name :=
  citing_congr (foldl_keeps (fun r (a : String × Entity) => r.registerAttribute a.1 a.2)
      (fun r => r.families.names) (fun r a => titles_registerAttribute r a.1 a.2) _ r)
    fun family => view_registerCollections Entity.specs (fun _ _ => rfl) r family name

theorem titles_backfill (r : Registry) : r.backfill.families.names = r.families.names := by
  have titles : ∀ r : Registry, r.families.names = r.listing.map Prod.fst := by
    intro r
    rw [listing, List.map_map]
    rfl
  rw [titles, titles, r.backfill_carries.1, revise, List.map_map]
  rfl

/-- Where no attribute of a name is dropped, the backfill leaves what is cited. -/
theorem citing_backfill {name : String} (current : name ∉ Backfill.obsolete)
    (kept : ∀ e, .membersMissing e ∉ r.backfill.findings) :
    r.backfill.citing name = r.citing name := by
  refine citing_congr r.titles_backfill fun family => ?_
  cases after : r.backfill.attribute? family name with
  | none =>
    cases before : r.attribute? family name with
    | none => rfl
    | some e =>
      have accounted := accountsFor_backfill (Option.isSome_iff_exists.mpr ⟨e, before⟩)
      rcases accounted with declared | obsolete | ⟨e, dropped, -⟩
      · rw [after] at declared
        cases declared
      · exact absurd obsolete current
      · exact absurd dropped (kept e)
  | some e' =>
    obtain ⟨e, listed, filled⟩ := mem_attributes_backfill.mp (mem_attributes_of_attribute? after)
    have named : e.name = name :=
      (Entity.name_backfilled? filled).symm.trans (name_of_attribute? after)
    have before : r.attribute? family name = some e := named ▸ mem_attributes_iff.mp listed
    rw [before, Option.map_some, Option.map_some]
    exact congrArg (fun c => some c.1) (Entity.citations_backfilled? filled)

/-- Where families agree, a canonical declaration cites what the declarations do that it
stands for, in their order. -/
theorem specsOf_canon {name : String}
    (agreed : ∀ family kept e, .familiesDisagree family kept e ∉ r.canon.2)
    (distinct : ∀ family e, r.attribute? family name = some e → e.specs.eraseDups = e.specs) :
    Entity.specsOf (r.canon.1.find? name) =
      ((r.declarations name).flatMap Entity.specs).eraseDups := by
  refine canonInduction (motive := fun es found =>
    Entity.specsOf found = (es.flatMap Entity.specs).eraseDups) r name rfl
    fun es found family e known before disputed => ?_
  rw [List.flatMap_append, List.flatMap_singleton, ← Named.putAll_eraseDups, ← before]
  cases found with
  | none =>
    have first : Named.putAll [] e.specs = e.specs :=
      (Named.putAll_eraseDups [] e.specs).trans (distinct family e known)
    exact first.symm
  | some kept =>
    cases joined : kept.reconcile? e with
    | none => exact absurd ((disputed kept rfl).2 joined) (agreed family kept e)
    | some both =>
      rw [Option.elim_some, joined, Option.getD_some, (Entity.reconcile?_eq_some joined).1]
      rfl

end Passes

/-- The families of a snapshot, and what the records of an attribute in each of them cite. -/
theorem citing_ofRecords (records : Records) {name : String} (plain : isQualified name = false) :
    (ofRecords records).citing name =
      (((records.attributes.filter fun a => !isQualified a.name).map (·.family)).eraseDups,
        fun family => (AttributeRecord.cited (records.attributes.filter fun a =>
          a.family == family && a.name == name)).eraseDups) := by
  have none := (tables_beforeAttributes records).1
  have entered : (records.attributes.foldl ingestAttribute (beforeAttributes records)).citing name =
      (((records.attributes.filter fun a => !isQualified a.name).map (·.family)).eraseDups,
        fun family => (AttributeRecord.cited (records.attributes.filter fun a =>
          a.family == family && a.name == name)).eraseDups) := by
    refine Prod.ext (names_families_foldl_ingestAttribute _ none) (funext fun family => ?_)
    dsimp only [citing]
    rw [attribute?_foldl_ingestAttribute _ none, specsOf_entryOf, AttributeRecord.isOf_eq plain]
  have supplied := foldl_keeps supplyMember (fun r => r.citing name)
    (fun r s => r.citing_supplyMember s name) SiblingMember.all
  have status := families_foldl_ingestStatus records.statusCodes
  refine (supplied _).trans (Eq.trans ?_ entered)
  exact citing_congr (congrArg Table.names (status _)) fun family =>
    congrArg _ (attribute?_congr (status _) family name)

end Registry

namespace Records

/-- The documents that the records of a snapshot cite, with the places they give, in the order
in which the records are entered. -/
def documents (records : Records) : List Spec :=
  records.citations.filterMap (·.bind Citation.spec?)

/-- The documents that the records of an attribute cite, its own and those of its members, each
where it is first mentioned: family by family, in the order in which the records of attributes
that are not passed over first mention families, and in the order of records within a family. -/
def documentsOf (records : Records) (name : String) : List String :=
  let families :=
    ((records.attributes.filter fun a => !isQualified a.name).map (·.family)).eraseDups
  (families.flatMap fun family => AttributeRecord.cited (records.attributes.filter fun a =>
    a.family == family && a.name == name)).eraseDups

end Records

namespace Model

variable {records : Records}

theorem find?_specs_resolve (records : Records) (id : String) :
    Named.find? (resolve records).specs id = Named.find? records.documents id := by
  have found : (Registry.ofRecords records).specs.find? id = Named.find? records.documents id := by
    rw [Registry.specs_ofRecords, Table.find?_foldl_citing, Table.find?_empty, Option.none_or]
    rfl
  rw [← found, specs_resolve, assembled, (Registry.continues_assemble _).specs, defined]
  rfl

/-- An attribute without a dispute about its families, and none dropped, cites in its canonical
declaration what its records cite. -/
theorem specsOf_assembled {name : String} (plain : isQualified name = false)
    (current : name ∉ Backfill.obsolete)
    (agreed : ∀ family kept e, .familiesDisagree family kept e ∉ (assembled records).findings)
    (kept : ∀ e, .membersMissing e ∉ (assembled records).findings) :
    Entity.specsOf ((assembled records).types.find? name) = records.documentsOf name := by
  have findings : (assembled records).findings =
      (filled records).audit.findings ++ (filled records).canon.2 := by
    rw [assembled, Registry.assemble, ← filled]
    rfl
  have audited := (Registry.continues_audit (filled records)).findings.subset
  have citing : (filled records).citing name = (Registry.ofRecords records).citing name := by
    have families := families_defined records
    rw [filled, Registry.citing_backfill current fun e missing => kept e ?_,
      Registry.citing_registerCollections, Registry.citing_mergeAliases]
    · exact Registry.citing_congr (congrArg Table.names families) fun family =>
        congrArg _ (Registry.attribute?_congr families family name)
    · rw [findings]
      rw [← filled] at missing
      exact List.mem_append_left _ (audited missing)
  rw [Registry.citing_ofRecords records plain] at citing
  rw [types_assembled, Registry.specsOf_canon, Registry.specs_declarations, citing]
  · exact Named.eraseDups_flatMap_eraseDups _ _
  · intro family kept e disputed
    exact agreed family kept e (findings ▸ List.mem_append_right _ disputed)
  · intro family e declared
    have own : e.specs = (AttributeRecord.cited (records.attributes.filter fun a =>
        a.family == family && a.name == name)).eraseDups := by
      refine Eq.trans ?_ (congrFun (congrArg Prod.snd citing) family)
      simp only [Registry.citing, declared, Entity.specsOf, Option.elim_some]
    rw [own]
    exact Named.eraseDups_append_eraseDups [] _

/-- A type comes from a canonical declaration of its name, which is not qualified. -/
theorem declaration_of_type {d : Descriptor} (typed : d ∈ (resolve records).types) :
    isQualified d.name = false ∧ ∃ e, (assembled records).types.find? d.name = some e ∧
      d.specs = e.specs := by
  rw [types_resolve, Typing.types_ofRegistry] at typed
  obtain ⟨e, ordered, inferred⟩ := List.mem_filterMap.mp typed
  have canonical : e ∈ (assembled records).types.toList := List.mem_mergeSort.mp ordered
  have found : (assembled records).types.find? d.name = some e := by
    rw [Descriptor.name_ofEntity? inferred]
    exact Table.find?_of_mem canonical
  refine ⟨?_, e, found, Descriptor.specs_ofEntity? inferred⟩
  have known : d.name ∈ (assembled records).types.names := Named.find?_isSome_iff.mp ⟨e, found⟩
  rw [assembled] at known
  obtain ⟨family, declared⟩ := Registry.declared_of_canonical known
  rw [Registry.attribute?_congr (families_defined records)] at declared
  obtain ⟨own, entered⟩ := Option.isSome_iff_exists.mp declared
  obtain ⟨record, -, plain, -, same⟩ :=
    (Registry.ofRecords_declaredBy records).origin family d.name own entered
  exact same ▸ plain

/-- Unless families disagree or an attribute is dropped, the type of an attribute cites all that
the records of the attribute cite, family by family, each document where it is first mentioned;
and the model has each of these documents with the place that the first record of all gives
that cites it. One name is known to be dropped without a warning and is left out. -/
theorem types_cite_in_order (records : Records)
    (agreed : ∀ w ∈ (resolve records).warnings, w.kind ≠ .conflict ∧ w.kind ≠ .memberless) :
    ∀ d ∈ (resolve records).types, d.name ≠ "document-overrides-actual" →
      d.specs = records.documentsOf d.name ∧
        ∀ id ∈ d.specs, ∃ document, Named.find? (resolve records).specs id = some document ∧
          Named.find? records.documents id = some document := by
  intro d typed current
  obtain ⟨plain, e, found, specs⟩ := declaration_of_type typed
  have quiet : ∀ f ∈ (assembled records).findings, f.kind ≠ .conflict ∧ f.kind ≠ .memberless := by
    intro f listed
    refine agreed f.warning (mem_warnings ?_)
    rw [findings_resolve]
    exact List.mem_append_left _ listed
  have cited := specsOf_assembled plain (fun obsolete => current (List.mem_singleton.mp obsolete))
    (fun family kept other disputed => (quiet _ disputed).1 rfl)
    fun other missing => (quiet _ missing).2 rfl
  rw [found, Entity.specsOf, Option.elim_some] at cited
  refine ⟨specs.trans cited, fun id listed => ?_⟩
  have within := citesWithin_types_assembled records e (Table.mem_of_find? found).1
  have known : id ∈ Named.names (resolve records).specs :=
    mem_names_specs_resolve.mpr (within.specs id (specs ▸ listed))
  obtain ⟨document, here⟩ := Named.find?_isSome_iff.mpr known
  exact ⟨document, here, (find?_specs_resolve records id).symm.trans here⟩

def jobExtensions : Citation where
  kind := .uri
  data := "https://ftp.pwg.org/pub/pwg/candidates/cs-ippjobext21-20230210-5100.7.pdf"
  text := some "PWG5100.7"

def printerExtensions : Citation where
  kind := .uri
  data := "https://ftp.pwg.org/pub/pwg/candidates/cs-ippjobprinterext3v10-20120727-5100.13.pdf"
  text := some "PWG5100.13"

/-- A collection of two families, of which the second one is mentioned first by a record that is
passed over. Its members come before and after the record of the other family, and a document
that it cites is cited with another place by an enumeration. -/
def mediaCitations : Records where
  enums :=
    [{ about := "finishings", name := some "none", value := some "3", grammar := some "type2 enum",
       citation := some printerExtensions }]
  attributes :=
    [{ family := "Printer Description", name := "media-col (deprecated)",
       grammar := some "collection", citation := some ⟨.rfc, "rfc3380", none⟩ },
     { family := "Job Template", name := "media-col", grammar := some "collection",
       citation := some jobExtensions },
     { family := "Printer Description", name := "media-col", grammar := some "collection",
       citation := some ⟨.rfc, "rfc8011", none⟩ },
     { family := "Job Template", name := "media-col", member := some "media-size",
       grammar := some "collection",
       citation := some ⟨.rfc, "PWG5100.13", none⟩ },
     { family := "Job Template", name := "media-col", member := some "media-size",
       submember := some "x-dimension", grammar := some "integer(0:MAX)",
       citation := some jobExtensions }]

theorem types_cite_in_order_of_media :
    ∃ d ∈ (resolve mediaCitations).types, d.name = "media-col" ∧
      d.specs = ["PWG5100.7", "PWG5100.13", "rfc8011"] ∧
        Named.find? (resolve mediaCitations).specs "PWG5100.13" =
          some ⟨"PWG5100.13", printerExtensions.data⟩ := by
  have agreed : ∀ w ∈ (resolve mediaCitations).warnings,
      w.kind ≠ .conflict ∧ w.kind ≠ .memberless := by
    decide +kernel
  have listed : "media-col" ∈ (resolve mediaCitations).types.map Descriptor.name := by
    decide +kernel
  obtain ⟨d, typed, named⟩ := List.mem_map.mp listed
  obtain ⟨specs, places⟩ := types_cite_in_order mediaCitations agreed d typed (by simp [named])
  have cited : mediaCitations.documentsOf d.name = ["PWG5100.7", "PWG5100.13", "rfc8011"] := by
    rw [named]
    decide
  obtain ⟨document, here, first⟩ := places "PWG5100.13" (by simp [specs, cited])
  have place : Named.find? mediaCitations.documents "PWG5100.13" =
      some ⟨"PWG5100.13", printerExtensions.data⟩ := by
    decide
  exact ⟨d, typed, named, specs.trans cited, here.trans (first.symm.trans place)⟩

end Model

end PrintRegistry
