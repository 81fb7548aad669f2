import PrintRegistry.Collection.Assembly
import PrintRegistry.Proofs.Registry

/-!
What the assembly of collections leaves alone. Its passes never touch the
tables of values, and they only ever add findings.
-/

namespace PrintRegistry.Registry

/-- One registry has the tables of values and the documents of another, and its
findings with perhaps more after them. -/
structure Continues (before after : Registry) : Prop where
  specs : after.specs = before.specs
  enums : after.enums = before.enums
  keywords : after.keywords = before.keywords
  findings : before.findings <+: after.findings

namespace Continues

theorem refl (r : Registry) : Continues r r :=
  ⟨rfl, rfl, rfl, List.prefix_rfl⟩

theorem trans {r s t : Registry} (first : Continues r s) (second : Continues s t) :
    Continues r t where
  specs := second.specs.trans first.specs
  enums := second.enums.trans first.enums
  keywords := second.keywords.trans first.keywords
  findings := first.findings.trans second.findings

theorem quiet {r s : Registry} (h : Continues r s) (none : s.findings = []) : r.findings = [] :=
  List.prefix_nil.mp (none ▸ h.findings)

theorem foldl {α : Type} {step : Registry → α → Registry}
    (continues : ∀ r a, Continues r (step r a)) (as : List α) (r : Registry) :
    Continues r (as.foldl step r) :=
  List.foldlRecOn (motive := Continues r) as step (refl r) fun s kept a _ =>
    kept.trans (continues s a)

end Continues

theorem continues_report (r : Registry) (f : Finding) : Continues r (r.report f) :=
  ⟨rfl, rfl, rfl, List.prefix_append ..⟩

theorem continues_adjustAttribute (r : Registry) (family name : String)
    (change : Entity → Entity) : Continues r (r.adjustAttribute family name change) :=
  ⟨rfl, rfl, rfl, List.prefix_rfl⟩

theorem continues_mergeAlias (r : Registry) (m : AliasMerge) : Continues r (r.mergeAlias m) := by
  rw [mergeAlias]
  split
  · exact continues_report r _
  · split
    · exact Continues.refl r
    · exact ⟨rfl, rfl, rfl, List.prefix_append ..⟩

theorem continues_mergeAliases (r : Registry) : Continues r r.mergeAliases :=
  Continues.foldl continues_mergeAlias _ r

theorem continues_registerCollection (r : Registry) (c : Entity) :
    Continues r (r.registerCollection c).1 := by
  rw [registerCollection]
  split
  · dsimp only
    split
    · exact Continues.refl r
    · exact continues_report r _
  · split <;> exact ⟨rfl, rfl, rfl, by simp [report]⟩

theorem continues_registerAttribute (r : Registry) (family : String) (c : Entity) :
    Continues r (r.registerAttribute family c) := by
  have registered := continues_registerCollection r c
  rw [registerAttribute]
  split
  · rename_i after result
    rw [result] at registered
    exact registered.trans (continues_adjustAttribute after _ _ _)
  · rename_i after result
    rw [result] at registered
    exact registered

theorem continues_registerCollections (r : Registry) : Continues r r.registerCollections := by
  rw [registerCollections]
  apply Continues.foldl
  rintro r ⟨family, c⟩
  exact continues_registerAttribute r family c

theorem continues_backfillAttribute (r : Registry) (family name : String) (b : Backfill) :
    Continues r (r.backfillAttribute family name b) := by
  cases b with
  | registered => exact Continues.refl r
  | kept => exact Continues.refl r
  | sharing target => exact continues_adjustAttribute r family name _
  | dropped obsolete =>
    rw [backfillAttribute]
    split
    · exact Continues.refl r
    · dsimp only
      split <;> exact ⟨rfl, rfl, rfl, by simp [report]⟩

theorem continues_backfill (r : Registry) : Continues r r.backfill := by
  rw [backfill]
  apply Continues.foldl
  rintro r' ⟨family, e⟩
  exact continues_backfillAttribute r' family e.name _

theorem continues_audit (r : Registry) : Continues r r.audit :=
  ⟨rfl, rfl, rfl, List.prefix_append ..⟩

theorem continues_unifyFamilies (r : Registry) : Continues r r.unifyFamilies :=
  ⟨rfl, rfl, rfl, List.prefix_append ..⟩

theorem continues_after_registration (r : Registry) :
    Continues r.mergeAliases.registerCollections r.assemble :=
  (continues_backfill _).trans <| (continues_audit _).trans (continues_unifyFamilies _)

theorem continues_assemble (r : Registry) : Continues r r.assemble :=
  (continues_mergeAliases r).trans <| (continues_registerCollections _).trans <|
    continues_after_registration r

theorem collections_mergeAliases (r : Registry) : r.mergeAliases.collections = r.collections := by
  rw [mergeAliases]
  refine foldl_keeps mergeAlias Registry.collections (fun r m => ?_) _ r
  rw [mergeAlias]
  split
  · rfl
  · split <;> rfl

theorem collections_backfillAttribute (r : Registry) (family name : String) (b : Backfill) :
    (r.backfillAttribute family name b).collections = r.collections := by
  cases b with
  | registered => rfl
  | kept => rfl
  | sharing target => rfl
  | dropped obsolete =>
    rw [backfillAttribute]
    split
    · rfl
    · dsimp only
      split <;> rfl

theorem collections_backfill (r : Registry) : r.backfill.collections = r.collections := by
  rw [backfill]
  apply foldl_keeps _ Registry.collections
  rintro r' ⟨family, e⟩
  exact collections_backfillAttribute r' family e.name _

theorem collections_audit (r : Registry) : r.audit.collections = r.collections := rfl

theorem collections_unifyFamilies (r : Registry) : r.unifyFamilies.collections = r.collections := rfl

/-- What is registered stays as it is in the later passes. -/
theorem collections_assemble (r : Registry) :
    r.assemble.collections = r.mergeAliases.registerCollections.collections := by
  rw [assemble, collections_unifyFamilies, collections_audit, collections_backfill]

end PrintRegistry.Registry
