import PrintRegistry.Proofs.Backfill
import PrintRegistry.Proofs.FirstDefinition
import PrintRegistry.Registry.Supplement

/-!
Where attributes take their members from. After all passes an attribute with the grammar of
a collection takes them from the collection that its family names, or else from the one that
the naming conventions tell, which is the same in all families. Nothing compares what the
families name: where one names a collection, another family may have named a different one,
or have left it to the conventions, and this is not reported.
-/

namespace PrintRegistry

/-- The collection that the naming conventions tell for a name that no alias is given for. -/
def Backfill.conventional (collections : Table Entity) (name : String) : String :=
  match ofName collections name with
  | .sharing target => target
  | .registered | .kept | .dropped _ => name

/-- After the backfill an attribute takes its members from its alias, or from the collection
that the conventions tell. An attribute that has members itself has been registered. -/
theorem Entity.collectionName_backfilled? {e e' : Entity} {collections : Table Entity}
    (h : e.backfilled? collections = some e') (collection : e.grammar.isCollection = true)
    (registered : e.members ≠ [] → collections.has e.name = true) :
    e'.collectionName = e.alias?.getD (Backfill.conventional collections e.name) := by
  rw [backfilled?] at h
  by_cases lacks : e.isMemberless = true
  · obtain ⟨-, -, unshared⟩ := isMemberless_iff.mp lacks
    rw [if_pos lacks] at h
    rw [unshared, Option.getD_none, Backfill.conventional]
    cases outcome : Backfill.ofName collections e.name with
    | registered | kept =>
      rw [outcome] at h
      obtain rfl := Option.some.inj h
      rw [collectionName, unshared, Option.getD_none]
    | sharing target =>
      rw [outcome] at h
      obtain rfl := Option.some.inj h
      rfl
    | dropped =>
      rw [outcome] at h
      cases h
  · obtain rfl : e = e' := Option.some.inj ((if_neg lacks).symm.trans h)
    cases shared : e.alias? with
    | some target => rw [collectionName, shared, Option.getD_some, Option.getD_some]
    | none =>
      have full : e.members ≠ [] := fun none =>
        lacks (isMemberless_iff.mpr ⟨collection, none, shared⟩)
      have known : Backfill.ofName collections e.name = .registered :=
        if_pos (registered full)
      rw [collectionName, shared, Backfill.conventional, known]

namespace Registry

variable {r : Registry} {family name : String}

theorem mem_names_registerAttribute (r : Registry) (family : String) (c : Entity) (other : String) :
    other ∈ (r.registerAttribute family c).collections.names ↔
      other = c.name ∨ other ∈ r.collections.names := by
  have names : (r.registerAttribute family c).collections.names =
      Named.put r.collections.names c.name := by
    rw [← names_registerCollection, collections_registerAttribute]
  rw [names, Named.put_string]
  by_cases old : c.name ∈ r.collections.names
  · rw [if_pos old, or_iff_right_of_imp fun same => same ▸ old]
  · rw [if_neg old, List.mem_append, List.mem_singleton, or_comm]

/-- Whatever is reported, a collection of the name of every attribute with members is
registered. -/
theorem has_registerCollections {e : Entity}
    (found : r.registerCollections.attribute? family name = some e) (full : e.members ≠ []) :
    r.registerCollections.collections.has name = true := by
  -- Registering changes no members, so the attribute has had them before.
  have same := view_registerCollections Entity.members (fun _ _ => rfl) r family name
  rw [found, Option.map_some, eq_comm, Option.map_eq_some_iff] at same
  obtain ⟨c, known, members⟩ := same
  have isCollection : c.isCollection = true := by simpa [Entity.isCollection, members] using full
  have listed : (family, c) ∈ r.attributes.filter fun a => a.2.isCollection :=
    List.mem_filter.mpr ⟨mem_attributes_of_attribute? known, isCollection⟩
  have registered := foldl_settles (b := r)
    (motive := fun (a : String × Entity) (r : Registry) => a.2.name ∈ r.collections.names)
    (fun _ => True) (fun _ _ _ _ => trivial)
    (fun r _ a _ => (mem_names_registerAttribute r a.1 a.2 _).mpr (Or.inl rfl))
    (fun r _ _ before a _ => (mem_names_registerAttribute r a.1 a.2 _).mpr (Or.inr before))
    trivial _ listed
  exact Table.has_iff.mpr (name_of_attribute? known ▸ registered)

theorem families_audit (r : Registry) : r.audit.families = r.families := rfl

theorem families_unifyFamilies (r : Registry) : r.unifyFamilies.families = r.families := rfl

theorem families_assemble (r : Registry) :
    r.assemble.families = r.mergeAliases.registerCollections.backfill.families := by
  rw [assemble, families_unifyFamilies, families_audit]

/-- After all passes an attribute with the grammar of a collection takes its members from the
alias that its family gives it, or from the collection that the conventions tell. -/
theorem collectionName_assemble {a : Entity}
    (found : r.assemble.attribute? family name = some a)
    (collection : a.grammar.isCollection = true) :
    ∃ d, r.attribute? family name = some d ∧ a.collectionName =
      d.alias?.getD (Backfill.conventional r.assemble.collections name) := by
  let s := r.mergeAliases.registerCollections
  have left : s.backfill.attribute? family name = some a :=
    (attribute?_congr r.families_assemble family name).symm.trans found
  obtain ⟨e, listed, backfilled⟩ := mem_attributes_backfill.mp (mem_attributes_of_attribute? left)
  have named : e.name = name :=
    (Entity.name_backfilled? backfilled).symm.trans (name_of_attribute? left)
  have known : s.attribute? family name = some e := named ▸ mem_attributes_iff.mp listed
  have same := (view_registerCollections (fun e => (e.grammar, e.reference)) (fun _ _ => rfl)
    r.mergeAliases family name).trans
      (view_mergeAliases (fun e => (e.grammar, e.reference)) (fun _ _ => rfl) r family name)
  rw [known, Option.map_some, eq_comm, Option.map_eq_some_iff] at same
  obtain ⟨d, declared, views⟩ := same
  obtain ⟨grammar, reference⟩ := Prod.mk.inj views
  refine ⟨d, declared, ?_⟩
  have shared : d.alias? = e.alias? := congrArg (Option.bind · Reference.alias?) reference
  rw [shared, collections_assemble, ← named]
  refine Entity.collectionName_backfilled? backfilled ?_ fun full => ?_
  · rw [Entity.grammar_backfilled? backfilled] at collection
    exact collection
  · exact named ▸ has_registerCollections known full

/-- Two families that declare a collection of one name take its members from the same
collection exactly if they give it the same alias, or if one of them gives it none and the
other one the collection that the conventions tell. -/
theorem assemble_agrees_iff {other : String} {a b : Entity}
    (first : r.assemble.attribute? family name = some a)
    (second : r.assemble.attribute? other name = some b)
    (collections : (a.grammar.isCollection && b.grammar.isCollection) = true) :
    ∃ d e s, r.attribute? family name = some d ∧ r.attribute? other name = some e ∧
      s = Backfill.conventional r.assemble.collections name ∧
      (a.collectionName = b.collectionName ↔ d.alias? = e.alias? ∨
        d.alias? = none ∧ e.alias? = some s ∨ d.alias? = some s ∧ e.alias? = none) := by
  obtain ⟨left, right⟩ := Bool.and_eq_true_iff.mp collections
  obtain ⟨d, declared, source⟩ := collectionName_assemble first left
  obtain ⟨e, declared', source'⟩ := collectionName_assemble second right
  refine ⟨d, e, _, declared, declared', rfl, ?_⟩
  rw [source, source']
  cases d.alias? <;> cases e.alias? <;> simp [eq_comm]

/-- A collection of media in one family, with a default in two: one says whose members it
has, and the other one leaves it to the conventions. -/
def mediaDefaults : Records where
  attributes :=
    [{ family := "Job Template", name := "media-col", grammar := some "collection" },
     { family := "Job Template", name := "media-col", member := some "media-key",
       grammar := some "type3 keyword | name(MAX)" },
     { family := "Job Template", name := "media-col-default", grammar := some "collection" },
     { family := "Printer Description", name := "media-col-default", grammar := some "collection",
       member := some
         "<Member attributes are the same as the \"media-col\" Job Template attribute>" }]

theorem assemble_agrees_of_mediaDefaults :
    ∃ a b, (ofRecords mediaDefaults).assemble.attribute? "Job Template" "media-col-default" =
        some a ∧
      (ofRecords mediaDefaults).assemble.attribute? "Printer Description" "media-col-default" =
        some b ∧
      a.collectionName = b.collectionName := by
  let r := ofRecords mediaDefaults
  let left := r.assemble.attribute? "Job Template" "media-col-default"
  let right := r.assemble.attribute? "Printer Description" "media-col-default"
  have facts : (left.map (·.grammar.isCollection), right.map (·.grammar.isCollection),
      (r.attribute? "Job Template" "media-col-default").map (·.alias?),
      (r.attribute? "Printer Description" "media-col-default").map (·.alias?),
      Backfill.conventional r.assemble.collections "media-col-default") =
        (some true, some true, some none, some (some "media-col"), "media-col") := by
    decide +kernel
  simp only [Prod.mk.injEq, Option.map_eq_some_iff] at facts
  obtain ⟨⟨a, first, collection⟩, ⟨b, second, collection'⟩, ⟨d, declared, bare⟩,
    ⟨e, declared', shared⟩, told⟩ := facts
  obtain ⟨d', e', s, known, known', conventional, agrees⟩ :=
    assemble_agrees_iff first second (Bool.and_eq_true_iff.mpr ⟨collection, collection'⟩)
  obtain rfl := Option.some.inj (declared.symm.trans known)
  obtain rfl := Option.some.inj (declared'.symm.trans known')
  refine ⟨a, b, first, second, agrees.mpr (Or.inr (Or.inl ⟨bare, ?_⟩))⟩
  rw [shared, conventional, told]

/-- Covers at the back with members of their own in one family, and with those of the media
collection in another. -/
def backCovers : Records where
  attributes :=
    [{ family := "Job Template", name := "media-col", grammar := some "collection" },
     { family := "Job Template", name := "media-col", member := some "media-key",
       grammar := some "type3 keyword | name(MAX)" },
     { family := "Job Template", name := "cover-back", grammar := some "collection" },
     { family := "Job Template", name := "cover-back", member := some "cover-type",
       grammar := some "type2 keyword" },
     { family := "Printer Description", name := "cover-back", grammar := some "collection",
       member := some
         "<Member attributes are the same as the \"media-col\" Job Template attribute>" }]

/-- Two families that point one name at different collections are not always reported. -/
theorem assemble_not_agrees : ¬ ∀ (r : Registry) (family other name : String) (a b : Entity),
    r.assemble.findings = r.findings → family ≠ other →
      r.assemble.attribute? family name = some a → a.grammar.isCollection = true →
        r.assemble.attribute? other name = some b → b.grammar.isCollection = true →
          a.collectionName = b.collectionName := by
  intro agrees
  let r := ofRecords backCovers
  have facts : (r.assemble.findings.length, r.findings.length,
      (r.assemble.attribute? "Job Template" "cover-back").map
        (fun e => (e.grammar.isCollection, e.collectionName)),
      (r.assemble.attribute? "Printer Description" "cover-back").map
        (fun e => (e.grammar.isCollection, e.collectionName))) =
        (0, 0, some (true, "cover-back"), some (true, "media-col")) := by
    decide +kernel
  simp only [Prod.mk.injEq, List.length_eq_zero_iff, Option.map_eq_some_iff] at facts
  obtain ⟨quiet, before, ⟨a, first, collection, own⟩, b, second, collection', shared⟩ := facts
  have same := agrees _ _ _ _ a b (quiet.trans before.symm) (by decide) first collection
    second collection'
  rw [own, shared] at same
  exact absurd same (by decide)

end Registry

end PrintRegistry
