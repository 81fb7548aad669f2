import PrintRegistry.Proofs.Model
import PrintRegistry.Proofs.Values

/-!
Registries that are alike: they hold the same entries of values, but perhaps in
another order. Entries are found by name, so every step of a run takes registries
that are alike to registries that are alike, and the types come out the same.
-/

namespace PrintRegistry

/-- A relation that every step respects is respected by a run of steps. -/
theorem foldl_respects {α σ : Type} {step : σ → α → σ} (alike : σ → σ → Prop)
    (respects : ∀ {s s'} a, alike s s' → alike (step s a) (step s' a)) (as : List α) {s s' : σ}
    (h : alike s s') : alike (as.foldl step s) (as.foldl step s') := by
  induction as generalizing s s' with
  | nil => exact h
  | cons a as ih => exact ih (respects a h)

namespace Table

variable {α : Type} [Named α]

/-- The same entry under every name. -/
def Alike (t t' : Table α) : Prop :=
  ∀ name, t.find? name = t'.find? name

namespace Alike

variable {t t' t'' : Table α}

theorem refl (t : Table α) : t.Alike t :=
  fun _ => rfl

theorem trans (h : t.Alike t') (h' : t'.Alike t'') : t.Alike t'' :=
  fun name => (h name).trans (h' name)

theorem has (h : t.Alike t') (name : String) : t.has name = t'.has name :=
  congrArg Option.isSome (h name)

theorem put (h : t.Alike t') (a : α) : (t.put a).Alike (t'.put a) := by
  intro name
  rw [find?_put, find?_put, h name]

theorem mem_iff (h : t.Alike t') (a : α) : a ∈ t.toList ↔ a ∈ t'.toList := by
  have listed : ∀ t : Table α, a ∈ t.toList ↔ t.find? (nameOf a) = some a :=
    fun t => ⟨find?_of_mem, fun found => (mem_of_find? found).1⟩
  rw [listed, listed, h]

theorem perm (h : t.Alike t') : t.toList.Perm t'.toList :=
  (List.perm_ext_iff_of_nodup t.distinct.of_map t'.distinct.of_map).mpr h.mem_iff

theorem map (h : t.Alike t') {change change' : α → α} (same : change = change')
    (keeps : ∀ a, nameOf (change a) = nameOf a) (keeps' : ∀ a, nameOf (change' a) = nameOf a) :
    (t.map change keeps).Alike (t'.map change' keeps') := by
  subst same
  intro name
  rw [find?_map, find?_map, h name]

end Alike

end Table

namespace Registry

/-- The same documents cited, the same entries under every name and the same
findings, in any order, with the same attributes and collections. -/
structure Alike (r r' : Registry) : Prop where
  specs : ∀ id, r.specs.has id = r'.specs.has id
  enums : r.enums.Alike r'.enums
  keywords : r.keywords.Alike r'.keywords
  families : r.families = r'.families
  collections : r.collections = r'.collections
  types : r.types = r'.types
  findings : r.findings.Perm r'.findings

namespace Alike

variable {r r' r'' : Registry}

theorem refl (r : Registry) : Alike r r :=
  ⟨fun _ => rfl, .refl _, .refl _, rfl, rfl, rfl, .refl _⟩

theorem trans (h : Alike r r') (h' : Alike r' r'') : Alike r r'' where
  specs id := (h.specs id).trans (h'.specs id)
  enums := h.enums.trans h'.enums
  keywords := h.keywords.trans h'.keywords
  families := h.families.trans h'.families
  collections := h.collections.trans h'.collections
  types := h.types.trans h'.types
  findings := h.findings.trans h'.findings

end Alike

end Registry

namespace ValueRecord

theorem alike_enterInto {t t' : Table Entity} {fs fs' : List Finding} (entries : t.Alike t')
    (findings : fs.Perm fs') (v : ValueRecord) :
    (enterInto (t, fs) v).1.Alike (enterInto (t', fs') v).1 ∧
      (enterInto (t, fs) v).2.Perm (enterInto (t', fs') v).2 := by
  simp only [enterInto, entries v.about]
  exact ⟨entries.put _, findings.append_right _⟩

/-- Records about two names can be entered in either order. -/
theorem enterInto_comm (s : Table Entity × List Finding) {v w : ValueRecord}
    (other : v.about ≠ w.about) :
    (enterInto (enterInto s v) w).1.Alike (enterInto (enterInto s w) v).1 ∧
      (enterInto (enterInto s v) w).2.Perm (enterInto (enterInto s w) v).2 := by
  have unchangedByFirst : (enterInto s v).1.find? w.about = s.1.find? w.about := by
    rw [find?_enterInto, if_neg other]
  have unchangedBySecond : (enterInto s w).1.find? v.about = s.1.find? v.about := by
    rw [find?_enterInto, if_neg other.symm]
  constructor
  · intro name
    rw [find?_enterInto (enterInto s v), unchangedByFirst, find?_enterInto s v,
      find?_enterInto (enterInto s w), unchangedBySecond, find?_enterInto s w]
    by_cases first : v.about = name
    · have second : ¬ w.about = name := fun same => other (first.trans same.symm)
      simp [first, second]
    · simp [first]
  · have findings : ∀ (s : Table Entity × List Finding) (v : ValueRecord),
        (enterInto s v).2 = s.2 ++ v.findings (s.1.find? v.about) := fun _ _ => rfl
    rw [findings (enterInto s v), unchangedByFirst, findings s v, findings (enterInto s w),
      unchangedBySecond, findings s w, List.append_assoc, List.append_assoc]
    exact List.perm_append_comm.append_left _

end ValueRecord

namespace Registry

variable {r r' : Registry}

theorem has_citing_comm (t : Table Spec) (c d : Option Citation) (id : String) :
    ((t.citing c).citing d).has id = ((t.citing d).citing c).has id := by
  rw [Table.has_citing, Table.has_citing, Table.has_citing, Table.has_citing, Bool.or_left_comm]

namespace Alike

theorem citing (h : Alike r r') (c : Option Citation) (id : String) :
    (r.specs.citing c).has id = (r'.specs.citing c).has id := by
  rw [Table.has_citing, Table.has_citing, h.specs]

theorem enterEnum (h : Alike r r') (v : ValueRecord) : Alike (r.enterEnum v) (r'.enterEnum v) := by
  obtain ⟨enums, findings⟩ := ValueRecord.alike_enterInto h.enums h.findings v
  exact ⟨h.citing v.citation, enums, h.keywords, h.families, h.collections, h.types, findings⟩

theorem enterKeyword (h : Alike r r') (v : ValueRecord) :
    Alike (r.enterKeyword v) (r'.enterKeyword v) := by
  obtain ⟨keywords, findings⟩ := ValueRecord.alike_enterInto h.keywords h.findings v
  exact ⟨h.citing v.citation, h.enums, keywords, h.families, h.collections, h.types, findings⟩

end Alike

theorem enterEnum_comm (r : Registry) {v w : ValueRecord} (other : v.about ≠ w.about) :
    Alike ((r.enterEnum v).enterEnum w) ((r.enterEnum w).enterEnum v) := by
  obtain ⟨enums, findings⟩ := ValueRecord.enterInto_comm (r.enums, r.findings) other
  exact ⟨has_citing_comm r.specs v.citation w.citation, enums, .refl _, rfl, rfl, rfl, findings⟩

theorem enterKeyword_comm (r : Registry) {v w : ValueRecord} (other : v.about ≠ w.about) :
    Alike ((r.enterKeyword v).enterKeyword w) ((r.enterKeyword w).enterKeyword v) := by
  obtain ⟨keywords, findings⟩ := ValueRecord.enterInto_comm (r.keywords, r.findings) other
  exact ⟨has_citing_comm r.specs v.citation w.citation, .refl _, keywords, rfl, rfl, rfl, findings⟩

namespace Alike

theorem attribute? (h : Alike r r') (family name : String) :
    r.attribute? family name = r'.attribute? family name :=
  attribute?_congr h.families family name

theorem ingestEnum (h : Alike r r') (record : EnumRecord) :
    Alike (r.ingestEnum record) (r'.ingestEnum record) := by
  rw [ingestEnum_eq_enterEnum, ingestEnum_eq_enterEnum]
  exact h.enterEnum _

theorem ingestStatus (h : Alike r r') (record : StatusRecord) :
    Alike (r.ingestStatus record) (r'.ingestStatus record) := by
  rw [ingestStatus_eq_enterEnum, ingestStatus_eq_enterEnum]
  exact h.enterEnum _

theorem ingestKeyword (h : Alike r r') (record : KeywordRecord) :
    Alike (r.ingestKeyword record) (r'.ingestKeyword record) := by
  rw [ingestKeyword_eq_enterKeyword, ingestKeyword_eq_enterKeyword]
  exact h.enterKeyword _

theorem ingestAttribute (h : Alike r r') (record : AttributeRecord) :
    Alike (r.ingestAttribute record) (r'.ingestAttribute record) := by
  cases qualified : isQualified record.name with
  | true => simpa [Registry.ingestAttribute, qualified] using h
  | false =>
    have found : ∀ r : Registry, r.ingestAttribute record =
        { r.alterFamily record.family (·.put (r.entered record (Citation.specId? record.citation)))
          with
          specs := r.specs.citing record.citation
          findings := r.findings ++ (Citation.finding? record.citation).toList ++
            (record.enter (Citation.specId? record.citation)
              ((r.attribute? record.family record.name).getD
                (Entity.fresh record.name record.grammar))).2.toList } := by
      intro r
      simp only [Registry.ingestAttribute, qualified, Bool.false_eq_true, if_false, cite_eq_citing,
        reportAny_eq_append]
      rfl
    have entered : r.entered record (Citation.specId? record.citation) =
        r'.entered record (Citation.specId? record.citation) := by
      rw [Registry.entered, Registry.entered, h.attribute?]
    rw [found, found, entered, h.attribute?]
    refine ⟨h.citing record.citation, h.enums, h.keywords, ?_, h.collections, h.types, ?_⟩
    · simp only [alterFamily, h.families]
    · exact (h.findings.append_right _).append_right _

theorem supplyKeywords (h : Alike r r') : Alike r.supplyKeywords r'.supplyKeywords := by
  refine { h with keywords := ?_ }
  exact foldl_respects Table.Alike (fun e alike => alike.put e) _ h.keywords

theorem supplyMember (h : Alike r r') (s : SiblingMember) :
    Alike (r.supplyMember s) (r'.supplyMember s) := by
  rw [Registry.supplyMember, Registry.supplyMember, h.attribute?]
  split
  · exact { h with families := by simp only [adjustAttribute, h.families] }
  · exact h

end Alike

end Registry

namespace Scope

variable {s s' : Scope}

theorem fallbacks_congr (table : s.table.Alike s'.table) (known : s.isCollection = s'.isCollection)
    (name : String) : Fallback.all s name = Fallback.all s' name := by
  have supported : Fallback.supported? s = Fallback.supported? s' := by
    funext name
    simp only [Fallback.supported?, known]
  have entry : Fallback.supportedEntry? s = Fallback.supportedEntry? s' := by
    funext name
    simp only [Fallback.supportedEntry?, table.has]
  simp only [Fallback.all, Fallback.conventions, supported, entry]

theorem firstResolved_congr (table : s.table.Alike s'.table)
    (search : String → List String → Option Resolved × List String) (fallbacks : List Fallback)
    (seen : List String) :
    s.firstResolved search fallbacks seen = s'.firstResolved search fallbacks seen := by
  induction fallbacks generalizing seen with
  | nil => rfl
  | cons fallback rest ih =>
    cases fallback with
    | members collection => rfl
    | entry name => simp only [firstResolved, table name, ih]
    | retry name => simp only [firstResolved, ih]

/-- A search finds the same in two tables with the same entries, in whatever
order these are. -/
theorem search_congr (table : s.table.Alike s'.table) (known : s.isCollection = s'.isCollection)
    (limit : Nat) : s.search limit = s'.search limit := by
  induction limit with
  | zero => rfl
  | succ limit ih =>
    funext name seen
    simp only [search, ih, table name, fallbacks_congr table known, firstResolved_congr table]

theorem resolve_congr (table : s.table.Alike s'.table)
    (known : s.isCollection = s'.isCollection) : s.resolve = s'.resolve := by
  funext name
  simp only [resolve, search_congr table known]

end Scope

namespace Registry.Alike

variable {r r' : Registry}

theorem inference (h : r.Alike r') : Inference.ofEntity? r = Inference.ofEntity? r' := by
  have known : r.collections.has = r'.collections.has := congrArg Table.has h.collections
  have keywords : r.keywordScope.resolve = r'.keywordScope.resolve :=
    Scope.resolve_congr h.keywords known
  have enums : r.enumScope.resolve = r'.enumScope.resolve := Scope.resolve_congr h.enums known
  funext e
  have rules : ∀ rule ∈ Inference.rules, rule.infer r e = rule.infer r' e := by
    simp [Inference.rules, Inference.Rule.plain, Inference.keywordOrName, Inference.keyword,
      Inference.enumeration?, keywords, enums]
  have tried : ∀ table : List Inference.Rule, (∀ rule ∈ table, rule.infer r e = rule.infer r' e) →
      Inference.byRules table r e = Inference.byRules table r' e := by
    intro table same
    induction table with
    | nil => rfl
    | cons rule table ih =>
      have rest := ih fun rule member => same rule (List.mem_cons_of_mem _ member)
      simp only [Inference.byRules] at rest ⊢
      simp only [List.findSome?_cons, same rule List.mem_cons_self, rest]
  exact tried Inference.rules rules

theorem descriptor (h : r.Alike r') : Descriptor.ofEntity? r = Descriptor.ofEntity? r' := by
  funext e
  rw [Descriptor.ofEntity?, Descriptor.ofEntity?, h.inference]

end Registry.Alike

private theorem typeMembers_congr_of {r r' : Registry} (ms : List Entity)
    (single : ∀ m ∈ ms, ∀ site u, m.type r site u = m.type r' site u) (site : Site) (u : Usages) :
    typeMembers r site u ms = typeMembers r' site u ms := by
  induction ms generalizing u with
  | nil => rfl
  | cons m ms ih =>
    have rest := ih fun x member => single x (List.mem_cons_of_mem m member)
    simp only [typeMembers, single m List.mem_cons_self, rest]

/-- Types hang on a registry only through what is inferred about single
entities. -/
theorem Entity.type_congr {r r' : Registry}
    (same : Descriptor.ofEntity? r = Descriptor.ofEntity? r') (e : Entity) :
    ∀ site u, e.type r site u = e.type r' site u := by
  induction e using Entity.memberInduction with
  | step e ih =>
    intro site u
    have inner := typeMembers_congr_of e.members ih
    cases e
    simp only [Entity.type, same, inner]

theorem typeMembers_congr {r r' : Registry}
    (same : Descriptor.ofEntity? r = Descriptor.ofEntity? r') (ms : List Entity) (site : Site)
    (u : Usages) : typeMembers r site u ms = typeMembers r' site u ms :=
  typeMembers_congr_of ms (fun m _ => Entity.type_congr same m) site u

/-- Registries that are alike have the same types. -/
theorem Registry.Alike.typing {r r' : Registry} (h : r.Alike r') :
    Typing.ofRegistry r = Typing.ofRegistry r' := by
  have collections : Typing.addCollection r = Typing.addCollection r' := by
    funext t c
    simp only [Typing.addCollection, typeMembers_congr h.descriptor]
  have attributes : Typing.addAttribute r = Typing.addAttribute r' := by
    funext t e
    simp only [Typing.addAttribute, h.descriptor]
  simp only [Typing.ofRegistry, Typing.attributesInOrder, collections, attributes, h.collections,
    h.types]

namespace Registry.Alike

variable {r r' : Registry}

theorem report (h : r.Alike r') (f : Finding) : (r.report f).Alike (r'.report f) :=
  { h with findings := h.findings.append_right _ }

theorem adjustAttribute (h : r.Alike r') (family name : String) (change : Entity → Entity) :
    (r.adjustAttribute family name change).Alike (r'.adjustAttribute family name change) :=
  { h with families := by simp only [Registry.adjustAttribute, h.families] }

theorem attributes (h : r.Alike r') : r.attributes = r'.attributes := by
  rw [Registry.attributes, Registry.attributes, h.families]

theorem mergeAlias (h : r.Alike r') (m : AliasMerge) : (r.mergeAlias m).Alike (r'.mergeAlias m) := by
  rw [Registry.mergeAlias, Registry.mergeAlias, h.attribute?, h.attribute?]
  split
  · exact h.report _
  · split
    · exact h
    · refine ⟨h.specs, h.enums, h.keywords, ?_, h.collections, h.types, h.findings.append_right _⟩
      simp only [Registry.adjustAttribute, h.families]

theorem mergeAliases (h : r.Alike r') : r.mergeAliases.Alike r'.mergeAliases := by
  rw [Registry.mergeAliases, Registry.mergeAliases, aliasMerges, aliasMerges, h.attributes]
  exact foldl_respects Alike (fun m h => mergeAlias h m) _ h

theorem registerCollection (h : r.Alike r') (c : Entity) :
    (r.registerCollection c).1.Alike (r'.registerCollection c).1 ∧
      (r.registerCollection c).2 = (r'.registerCollection c).2 := by
  have registered : ∀ kept : Entity,
      Alike { r with collections := r.collections.put kept }
        { r' with collections := r'.collections.put kept } :=
    fun kept => { h with collections := congrArg (Table.put · kept) h.collections }
  rw [Registry.registerCollection, Registry.registerCollection,
    congrArg (Table.find? · c.name) h.collections]
  split
  · dsimp only
    split
    · exact ⟨h, rfl⟩
    · exact ⟨h.report _, rfl⟩
  · split
    · exact ⟨(registered _).report _, rfl⟩
    · exact ⟨registered _, rfl⟩

theorem registerAttribute (h : r.Alike r') (family : String) (c : Entity) :
    (r.registerAttribute family c).Alike (r'.registerAttribute family c) := by
  obtain ⟨alike, emitted⟩ := h.registerCollection c
  have unfolded : ∀ r : Registry, r.registerAttribute family c =
      if (r.registerCollection c).2 then
        (r.registerCollection c).1.adjustAttribute family c.name fun e => { e with emitted := true }
      else (r.registerCollection c).1 := by
    intro r
    rw [Registry.registerAttribute]
    rcases r.registerCollection c with ⟨after, _ | _⟩ <;> rfl
  rw [unfolded, unfolded, emitted]
  split
  · exact alike.adjustAttribute family c.name _
  · exact alike

theorem registerCollections (h : r.Alike r') :
    r.registerCollections.Alike r'.registerCollections := by
  rw [Registry.registerCollections, Registry.registerCollections, h.attributes]
  exact foldl_respects Alike (fun a h => registerAttribute h a.1 a.2) _ h

theorem backfillAttribute (h : r.Alike r') (family name : String) (b : Backfill) :
    (r.backfillAttribute family name b).Alike (r'.backfillAttribute family name b) := by
  cases b with
  | registered => exact h
  | kept => exact h
  | sharing target => exact h.adjustAttribute family name _
  | dropped obsolete =>
    rw [Registry.backfillAttribute, Registry.backfillAttribute, h.attribute?]
    split
    · exact h
    · rename_i e _
      have erased : Alike
          { r with families := r.families.adjust family fun f =>
            { f with attributes := f.attributes.erase name } }
          { r' with families := r'.families.adjust family fun f =>
            { f with attributes := f.attributes.erase name } } :=
        { h with families := by simp only [h.families] }
      cases obsolete
      · exact erased.report (.membersMissing e)
      · exact erased

theorem backfill (h : r.Alike r') : r.backfill.Alike r'.backfill := by
  rw [Registry.backfill, Registry.backfill, h.attributes, h.collections]
  exact foldl_respects Alike (fun a h => backfillAttribute h a.1 a.2.name _) _ h

theorem audit (h : r.Alike r') : r.audit.Alike r'.audit := by
  have wrong : r.pointerFinding? = r'.pointerFinding? := by
    funext p
    rw [pointerFinding?, pointerFinding?, h.collections]
  refine { h with findings := ?_ }
  rw [Registry.audit, Registry.audit, pointers, pointers, h.attributes, wrong]
  exact h.findings.append_right _

theorem unifyFamilies (h : r.Alike r') : r.unifyFamilies.Alike r'.unifyFamilies := by
  have canonical : r.canon = r'.canon := by
    rw [canon, canon, h.attributes]
  refine { h with types := ?_, findings := ?_ }
  · exact congrArg Prod.fst canonical
  · rw [Registry.unifyFamilies, Registry.unifyFamilies, canonical]
    exact h.findings.append_right _

/-- Every pass of the assembly does the same to registries that are alike. -/
theorem assemble (h : r.Alike r') : r.assemble.Alike r'.assemble :=
  h.mergeAliases.registerCollections.backfill.audit.unifyFamilies

end Registry.Alike

end PrintRegistry
