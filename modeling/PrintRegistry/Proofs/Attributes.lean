import PrintRegistry.Proofs.Aliases
import PrintRegistry.Proofs.Model

/-!
Where attributes go. From ingestion to typing an attribute is kept, or dropped
for want of members, or left without a type; both are reported, except that one
name is known to be obsolete. What is kept is typed once, in ascending order of
names.
-/

namespace PrintRegistry

namespace Registry

theorem attribute?_registerCollection (r : Registry) (c : Entity) (family name : String) :
    (r.registerCollection c).1.attribute? family name = r.attribute? family name := by
  rw [registerCollection]
  split
  · dsimp only
    split <;> rfl
  · split <;> rfl

/-- Registering collections marks attributes and no more. -/
theorem declared_registerCollections (r : Registry) (family name : String) :
    (r.registerCollections.attribute? family name).isSome =
      (r.attribute? family name).isSome := by
  rw [registerCollections]
  refine foldl_keeps (fun r (a : String × Entity) => r.registerAttribute a.1 a.2)
    (fun r => (r.attribute? family name).isSome) (fun r a => ?_) _ r
  have registered := attribute?_registerCollection r a.2 family name
  rw [registerAttribute]
  split
  · rename_i after result
    rw [result] at registered
    have marked := attribute?_adjustAttribute_isSome after a.1 a.2.name
      (fun e => { e with emitted := true }) (fun _ => rfl) family name
    exact marked.trans (congrArg Option.isSome registered)
  · rename_i after result
    rw [result] at registered
    rw [registered]

end Registry

/-- What is dropped is marked as obsolete exactly if it is. -/
theorem Backfill.mark_of_ofName {collections : Table Entity} {name : String} {mark : Bool}
    (h : ofName collections name = dropped mark) : mark = decide (name ∈ obsolete) := by
  rw [ofName] at h
  split at h
  · cases h
  · split at h
    · cases h
    · split at h
      · cases h
      · exact (dropped.inj h).symm

theorem Backfill.obsolete_of_ofName {collections : Table Entity} {name : String}
    (h : ofName collections name = dropped true) : name ∈ obsolete :=
  of_decide_eq_true (mark_of_ofName h).symm

namespace Registry

/-- An attribute is there, or is known to be obsolete, or was reported when it
was dropped. -/
def AccountsFor (family name : String) (r : Registry) : Prop :=
  (r.attribute? family name).isSome = true ∨ name ∈ Backfill.obsolete ∨
    ∃ e, .membersMissing e ∈ r.findings ∧ e.name = name

/-- What becomes of one attribute without members leaves every attribute
accounted for, and adds none. -/
theorem accountsFor_backfillAttribute {r : Registry} {family name : String}
    (h : r.AccountsFor family name) {home other : String} {b : Backfill}
    (obsolete : b = .dropped true → other ∈ Backfill.obsolete) :
    (r.backfillAttribute home other b).AccountsFor family name := by
  cases b with
  | registered => exact h
  | kept => exact h
  | sharing target =>
    rcases h with declared | known
    · left
      rw [← declared]
      exact attribute?_adjustAttribute_isSome r home other
        (fun e => { e with reference := some (.byAlias target none) }) (fun _ => rfl) family name
    · exact Or.inr known
  | dropped isObsolete =>
    rw [backfillAttribute]
    split
    · exact h
    · rename_i e found
      have erased := attribute?_eraseAttribute r home other family name
      rw [adjustFamily] at erased
      -- Only the attribute taken out is lost: as obsolete, or with a finding.
      by_cases here : family = home ∧ name = other
      · cases isObsolete with
        | true => exact Or.inr (Or.inl (here.2 ▸ obsolete rfl))
        | false =>
          refine Or.inr (Or.inr ⟨e, List.mem_append_right _ List.mem_cons_self, ?_⟩)
          exact (name_of_attribute? found).trans here.2.symm
      · rw [if_neg here] at erased
        rcases h with declared | known | ⟨missing, reported, named⟩
        · left
          dsimp only
          split <;> exact erased ▸ declared
        · exact Or.inr (Or.inl known)
        · refine Or.inr (Or.inr ⟨missing, ?_, named⟩)
          dsimp only
          split
          · exact reported
          · exact List.mem_append_left _ reported

theorem declared_of_backfillAttribute {r : Registry} {family name home other : String}
    {b : Backfill}
    (h : ((r.backfillAttribute home other b).attribute? family name).isSome = true) :
    (r.attribute? family name).isSome = true := by
  cases b with
  | registered => exact h
  | kept => exact h
  | sharing target =>
    rw [← h]
    exact (attribute?_adjustAttribute_isSome r home other
      (fun e => { e with reference := some (.byAlias target none) }) (fun _ => rfl) family name).symm
  | dropped isObsolete =>
    have erased := attribute?_eraseAttribute r home other family name
    rw [adjustFamily] at erased
    rw [backfillAttribute] at h
    split at h
    · exact h
    · have after : ((r.adjustFamily home (·.erase other)).attribute? family name).isSome = true := by
        dsimp only at h
        split at h <;> exact h
      rw [adjustFamily, erased] at after
      split at after
      · cases after
      · exact after

theorem accountsFor_backfill {r : Registry} {family name : String}
    (h : (r.attribute? family name).isSome = true) : r.backfill.AccountsFor family name := by
  rw [backfill]
  refine List.foldlRecOn (motive := AccountsFor family name) _ _ (Or.inl h) ?_
  rintro r' kept ⟨home, e⟩ -
  exact accountsFor_backfillAttribute kept Backfill.obsolete_of_ofName

theorem declared_of_backfill {r : Registry} {family name : String}
    (h : (r.backfill.attribute? family name).isSome = true) :
    (r.attribute? family name).isSome = true := by
  revert h
  rw [backfill]
  refine List.foldlRecOn (motive := fun r' : Registry =>
    (r'.attribute? family name).isSome = true → (r.attribute? family name).isSome = true) _ _ id ?_
  rintro r' before ⟨home, e⟩ - h
  exact before (declared_of_backfillAttribute h)

end Registry

/-- How two declarations are reconciled: the first one cites the documents of both, and its
grammar stands, or is replaced by the one that covers both. -/
theorem Entity.reconcile?_eq_some {kept other both : Entity}
    (h : kept.reconcile? other = some both) :
    both = { kept.citingAll other.specs with grammar := both.grammar } ∧
      ((kept.grammar.isCollection && other.grammar.isCollection) = true ∧
          both.grammar = kept.grammar ∨
        (kept.grammar.isCollection && other.grammar.isCollection) = false ∧
          (Grammar.unify kept.grammar other.grammar = some both.grammar ∨
            kept.sameDeclaration other = true ∧ both.grammar = kept.grammar)) := by
  rw [reconcile?] at h
  split at h
  · rename_i collections
    obtain rfl := Option.some.inj h
    exact ⟨rfl, Or.inl ⟨collections, rfl⟩⟩
  · rename_i apart
    rw [Bool.not_eq_true] at apart
    split at h
    · rename_i unified
      obtain rfl := Option.some.inj h
      exact ⟨rfl, Or.inr ⟨apart, Or.inl unified⟩⟩
    · split at h
      · rename_i same
        obtain rfl := Option.some.inj h
        exact ⟨rfl, Or.inr ⟨apart, Or.inr ⟨same, rfl⟩⟩⟩
      · cases h

theorem Entity.name_reconcile? {kept other both : Entity}
    (h : kept.reconcile? other = some both) : both.name = kept.name := by
  rw [(reconcile?_eq_some h).1]
  rfl

namespace Registry

/-- A declaration adds its name to the canonical ones and takes none away. -/
theorem mem_names_canonize (canon : Table Entity × List Finding) (family : String) (e : Entity)
    (name : String) :
    name ∈ (canonize canon family e).1.names ↔ name = e.name ∨ name ∈ canon.1.names := by
  cases found : canon.1.find? e.name with
  | none =>
    simp only [canonize, found]
    exact Named.mem_names_put
  | some kept =>
    have known : e.name ∈ canon.1.names := Named.find?_isSome_iff.mp ⟨kept, found⟩
    have absorbed : name = e.name ∨ name ∈ canon.1.names ↔ name ∈ canon.1.names :=
      or_iff_right_of_imp fun same => same ▸ known
    rw [absorbed]
    cases reconciled : kept.reconcile? e with
    | none => simp only [canonize, found, reconciled]
    | some both =>
      simp only [canonize, found, reconciled]
      have named : both.name = e.name :=
        (Entity.name_reconcile? reconciled).trans (Table.mem_of_find? found).2
      refine Named.mem_names_put.trans (or_iff_right_of_imp fun same => ?_)
      exact same.trans named ▸ known

theorem mem_names_foldl_canonize (as : List (String × Entity))
    (canon : Table Entity × List Finding) (name : String) :
    name ∈ (as.foldl (fun canon a => canonize canon a.1 a.2) canon).1.names ↔
      (∃ a ∈ as, name = a.2.name) ∨ name ∈ canon.1.names := by
  induction as generalizing canon with
  | nil => simp
  | cons a as ih =>
    rw [List.foldl_cons, ih, mem_names_canonize, List.exists_mem_cons_iff, ← or_assoc,
      or_comm (b := name = a.2.name)]

/-- The canonical declarations have the names of all attributes. -/
theorem mem_names_canon (r : Registry) (name : String) :
    name ∈ r.canon.1.names ↔ ∃ family, (r.attribute? family name).isSome = true := by
  rw [canon]
  refine (mem_names_foldl_canonize r.attributes _ name).trans ⟨?_, ?_⟩
  · rintro (⟨⟨family, e⟩, listed, rfl⟩ | none)
    · exact ⟨family, Option.isSome_iff_exists.mpr ⟨e, mem_attributes_iff.mp listed⟩⟩
    · cases none
  · rintro ⟨family, declared⟩
    obtain ⟨e, found⟩ := Option.isSome_iff_exists.mp declared
    exact Or.inl ⟨(family, e), mem_attributes_of_attribute? found, (name_of_attribute? found).symm⟩

end Registry

namespace Typing

/-- Attributes are typed in ascending order of names, each name once. -/
theorem ascending_attributesInOrder (r : Registry) :
    (Named.names (attributesInOrder r)).Pairwise (· < ·) := by
  have trans : ∀ a b c : Entity, decide (a.name ≤ b.name) = true →
      decide (b.name ≤ c.name) = true → decide (a.name ≤ c.name) = true := by
    intro a b c ab bc
    exact decide_eq_true (String.le_trans (of_decide_eq_true ab) (of_decide_eq_true bc))
  have total : ∀ a b : Entity, (decide (a.name ≤ b.name) || decide (b.name ≤ a.name)) = true := by
    intro a b
    simpa using String.le_total a.name b.name
  have sorted := List.pairwise_mergeSort trans total r.types.toList
  have distinct : (Named.names (attributesInOrder r)).Nodup :=
    ((List.mergeSort_perm _ _).map nameOf).nodup_iff.mpr r.types.distinct
  refine List.pairwise_map.mpr (sorted.imp₂ (fun a b ordered different => ?_)
    (List.pairwise_map.mp distinct))
  exact String.not_le.mp fun ge => different (String.le_antisymm (of_decide_eq_true ordered) ge)

theorem names_filterMap_ofEntity? (r : Registry) (es : List Entity) :
    (es.filterMap (Descriptor.ofEntity? r)).map Descriptor.name =
      Named.names (es.filter fun e => (Descriptor.ofEntity? r e).isSome) := by
  induction es with
  | nil => rfl
  | cons e es ih =>
    cases found : Descriptor.ofEntity? r e with
    | none => simpa [found] using ih
    | some d =>
      have named : d.name = e.name := Descriptor.name_ofEntity? found
      simpa [found, named, Named.names, nameOf] using ih

theorem ascending_types (r : Registry) :
    ((ofRegistry r).types.map Descriptor.name).Pairwise (· < ·) := by
  rw [types_ofRegistry, names_filterMap_ofEntity?]
  exact (ascending_attributesInOrder r).sublist (List.filter_sublist.map nameOf)

theorem typed_or_reported {r : Registry} {name : String} (h : name ∈ r.types.names) :
    name ∈ (ofRegistry r).types.map Descriptor.name ∨
      ∃ e, .untypedAttribute e ∈ (ofRegistry r).findings ∧ e.name = name := by
  obtain ⟨e, listed, rfl⟩ := List.mem_map.mp h
  have ordered : e ∈ attributesInOrder r := List.mem_mergeSort.mpr listed
  cases found : Descriptor.ofEntity? r e with
  | some d =>
    left
    rw [types_ofRegistry]
    exact List.mem_map.mpr ⟨d, List.mem_filterMap.mpr ⟨e, ordered, found⟩,
      Descriptor.name_ofEntity? found⟩
  | none =>
    right
    rw [findings_ofRegistry]
    refine ⟨e, List.mem_append_right _ (List.mem_map_of_mem ?_), rfl⟩
    exact List.mem_filter.mpr ⟨ordered, by simp [found]⟩

theorem mem_types_names {r : Registry} {d : Descriptor} (h : d ∈ (ofRegistry r).types) :
    d.name ∈ r.types.names := by
  rw [types_ofRegistry] at h
  obtain ⟨e, ordered, found⟩ := List.mem_filterMap.mp h
  rw [Descriptor.name_ofEntity? found]
  exact Named.mem_names (List.mem_mergeSort.mp ordered)

end Typing

namespace Registry

theorem mem_names_unifyFamilies (r : Registry) (name : String) :
    name ∈ r.audit.unifyFamilies.types.names ↔
      ∃ family, (r.attribute? family name).isSome = true :=
  mem_names_canon r.audit name

/-- After all passes an attribute has a canonical declaration, or is known to be
obsolete, or was reported when it was dropped. -/
theorem canonical_or_reported {r : Registry} {family name : String}
    (h : (r.attribute? family name).isSome = true) :
    name ∈ r.assemble.types.names ∨ name ∈ Backfill.obsolete ∨
      ∃ e, .membersMissing e ∈ r.assemble.findings ∧ e.name = name := by
  have registered : (r.mergeAliases.registerCollections.attribute? family name).isSome = true := by
    rw [declared_registerCollections, declared_mergeAliases]
    exact h
  have later := (continues_audit r.mergeAliases.registerCollections.backfill).trans
    (continues_unifyFamilies _)
  rw [assemble]
  rcases accountsFor_backfill registered with declared | known | ⟨e, reported, named⟩
  · exact Or.inl ((mem_names_unifyFamilies _ name).mpr ⟨family, declared⟩)
  · exact Or.inr (Or.inl known)
  · exact Or.inr (Or.inr ⟨e, later.findings.subset reported, named⟩)

/-- No pass adds a name that no attribute has. -/
theorem declared_of_canonical {r : Registry} {name : String} (h : name ∈ r.assemble.types.names) :
    ∃ family, (r.attribute? family name).isSome = true := by
  rw [assemble, mem_names_unifyFamilies] at h
  obtain ⟨family, declared⟩ := h
  have before : (r.mergeAliases.registerCollections.attribute? family name).isSome = true :=
    declared_of_backfill declared
  rw [declared_registerCollections, declared_mergeAliases] at before
  exact ⟨family, before⟩

end Registry

namespace Model

/-- No attribute is lost silently. Every unqualified record of an attribute, apart
from the one that is obsolete, is typed exactly once under its name, or the model
warns that the collection of that name has no members, or that the attribute has
no type. Types are in ascending order of names, and each has the name of a
record. -/
theorem attributes_accounted_for (records : Records) :
    let m := resolve records
    (∀ record ∈ records.attributes, isQualified record.name = false →
      record.name ≠ "document-overrides-actual" →
        (m.types.map Descriptor.name).count record.name = 1 ∨
        (∃ w ∈ m.warnings, w.kind = .memberless ∧
          w.message = s!"no members found for collection {record.name}") ∨
        ∃ w ∈ m.warnings, w.kind = .untyped ∧ ∃ grammar : String,
          w.message = s!"No type for attribute {record.name} with syntax '{grammar}'") ∧
    (m.types.map Descriptor.name).Pairwise (· < ·) ∧
    ∀ d ∈ m.types, ∃ record ∈ records.attributes,
      isQualified record.name = false ∧ record.name = d.name := by
  intro m
  have sorted : (m.types.map Descriptor.name).Pairwise (· < ·) := by
    rw [types_resolve]
    exact Typing.ascending_types _
  refine ⟨fun record member plain current => ?_, sorted, fun d typed => ?_⟩
  · obtain ⟨e, found, -⟩ := Registry.ofRecords_declares records member plain
    have declared : ((defined records).attribute? record.family record.name).isSome = true := by
      rw [Registry.attribute?_congr (families_defined records), found]
      rfl
    have assembled := Registry.canonical_or_reported declared
    rw [← Model.assembled] at assembled
    rcases assembled with canonical | obsolete | ⟨e, reported, named⟩
    · rcases Typing.typed_or_reported canonical with typed | ⟨e, reported, named⟩
      · left
        rw [← types_resolve] at typed
        have distinct : (m.types.map Descriptor.name).Nodup := by
          refine sorted.imp fun before same => ?_
          exact String.lt_irrefl _ (same ▸ before)
        exact List.count_eq_one_of_mem distinct typed
      · have warned : (Finding.untypedAttribute e).warning ∈ m.warnings := by
          refine mem_warnings ?_
          rw [findings_resolve]
          exact List.mem_append_right _ reported
        exact Or.inr (Or.inr ⟨_, warned, rfl, e.grammar.raw, named ▸ rfl⟩)
    · exact absurd (List.mem_singleton.mp obsolete) current
    · have warned : (Finding.membersMissing e).warning ∈ m.warnings := by
        refine mem_warnings ?_
        rw [findings_resolve]
        exact List.mem_append_left _ reported
      exact Or.inr (Or.inl ⟨_, warned, rfl, named ▸ rfl⟩)
  · rw [types_resolve] at typed
    have canonical := Typing.mem_types_names typed
    rw [assembled] at canonical
    obtain ⟨family, declared⟩ := Registry.declared_of_canonical canonical
    rw [Registry.attribute?_congr (families_defined records)] at declared
    obtain ⟨e, found⟩ := Option.isSome_iff_exists.mp declared
    obtain ⟨record, member, plain, -, named⟩ :=
      (Registry.ofRecords_declaredBy records).origin family d.name e found
    exact ⟨record, member, plain, named⟩

/-- An attribute that is declared in two families, and a collection without
members. -/
def copies : Records where
  attributes :=
    [{ family := "Job Template", name := "copies", grammar := some "integer(1:MAX)" },
     { family := "Printer Description", name := "copies", grammar := some "integer(1:MAX)" },
     { family := "Job Template", name := "cover-back", grammar := some "collection" }]

theorem attributes_accounted_for_of_copies :
    ((resolve copies).types.map Descriptor.name).count "copies" = 1 ∧
      (resolve copies).warnings.map Warning.message =
        ["no members found for collection cover-back"] := by
  have unwarned : ∀ w ∈ (resolve copies).warnings,
      w.message ≠ "no members found for collection " ++ "copies" ∧ w.kind ≠ .untyped := by
    decide +kernel
  refine ⟨?_, by decide +kernel⟩
  rcases (attributes_accounted_for copies).1
    { family := "Job Template", name := "copies", grammar := some "integer(1:MAX)" }
    (by decide) (by decide) (by decide) with
    typed | ⟨w, warned, -, message⟩ | ⟨w, warned, kind, -⟩
  · exact typed
  · exact absurd message (unwarned w warned).1
  · exact absurd kind (unwarned w warned).2

end Model

end PrintRegistry
