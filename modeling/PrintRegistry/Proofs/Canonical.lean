import PrintRegistry.Proofs.Attributes
import PrintRegistry.Proofs.Locality

/-!
The grammar of an attribute from its first record to its canonical declaration.
No pass alters it, and no pass drops an attribute whose grammar is not that of a
collection. Families that agree on the text are reconciled into one grammar,
which takes a set if one of theirs does.
-/

namespace PrintRegistry

/-- The record that declares an attribute of a family first. -/
def Records.first? (records : Records) (family name : String) : Option AttributeRecord :=
  records.attributes.find? fun r => r.family == family && r.name == name

/-- The grammar that the first record of an attribute of a family gives it. -/
def Records.grammar? (records : Records) (family name : String) : Option Grammar :=
  (records.first? family name).map fun r => Grammar.normalizeFor name (r.grammar.getD "")

theorem AttributeRecord.grammar_enter (r : AttributeRecord) (spec : Option String) (e : Entity) :
    (r.enter spec e).1.grammar = e.grammar := by
  rw [enter]
  cases r.member with
  | none => exact grammar_citingAny e spec
  | some column =>
    dsimp only
    split
    · split <;> exact grammar_citingAny e spec
    · exact grammar_citingAny e spec

namespace Registry

def grammar? (r : Registry) (family name : String) : Option Grammar :=
  (r.attribute? family name).map Entity.grammar

theorem grammar?_congr {r r' : Registry} (same : r'.families = r.families) (family name : String) :
    r'.grammar? family name = r.grammar? family name := by
  rw [grammar?, grammar?, attribute?_congr same]

section Views

variable {β : Type} (view : Entity → β)

/-- A change that a view does not show. -/
theorem view_adjustAttribute (r : Registry) (family name : String) (change : Entity → Entity)
    (keepsName : ∀ e, (change e).name = e.name) (keeps : ∀ e, view (change e) = view e)
    (family' name' : String) :
    ((r.adjustAttribute family name change).attribute? family' name').map view =
      (r.attribute? family' name').map view := by
  rw [attribute?_adjustAttribute r family name change keepsName]
  split
  · rename_i here
    rw [here.1, here.2, Option.map_map, Function.comp_def]
    simp only [keeps]
  · rfl

/-- Merging changes members alone. -/
theorem view_mergeAliases (keeps : ∀ e members, view { e with members } = view e) (r : Registry)
    (family name : String) :
    (r.mergeAliases.attribute? family name).map view = (r.attribute? family name).map view := by
  rw [mergeAliases]
  refine foldl_keeps mergeAlias (fun r => (r.attribute? family name).map view) (fun r m => ?_) _ r
  rw [mergeAlias]
  split
  · rfl
  · split
    · rfl
    · have source := view_adjustAttribute view r m.family m.name (fun e => { e with members := [] })
        (fun _ => rfl) (fun e => keeps e []) family name
      exact (view_adjustAttribute view _ m.targetFamily m.target
        (fun e => { e with members := (AliasMerge.moveMembers _ _ _).1 })
        (fun _ => rfl) (fun e => keeps e _) family name).trans source

/-- Registering changes marks alone. -/
theorem view_registerCollections (keeps : ∀ e emitted, view { e with emitted } = view e)
    (r : Registry) (family name : String) :
    (r.registerCollections.attribute? family name).map view =
      (r.attribute? family name).map view := by
  rw [registerCollections]
  refine foldl_keeps (fun r (a : String × Entity) => r.registerAttribute a.1 a.2)
    (fun r => (r.attribute? family name).map view) (fun r a => ?_) _ r
  have registered := congrArg (Option.map view) (attribute?_registerCollection r a.2 family name)
  rw [registerAttribute]
  split
  · rename_i after result
    rw [result] at registered
    exact (view_adjustAttribute view after a.1 a.2.name (fun e => { e with emitted := true })
      (fun _ => rfl) (fun e => keeps e true) family name).trans registered
  · rename_i after result
    rw [result] at registered
    exact registered

end Views

section Ingestion

/-- The entry that records of an attribute make has the grammar of the first of them. -/
theorem grammar_entryOf {name : String} (as : List AttributeRecord)
    (named : ∀ a ∈ as, a.name = name) :
    (entryOf (as.map AttributeRecord.toValue)).map Entity.grammar =
      as.head?.map fun a => Grammar.normalizeFor name (a.grammar.getD "") := by
  induction as using List.reverseRecOn with
  | nil => rfl
  | append_singleton as a ih =>
    have before := ih fun b earlier => named b (List.mem_append_left _ earlier)
    rw [List.map_append, List.map_singleton, entryOf_concat, a.entered_toValue, Option.map_some,
      a.grammar_enter, ← Option.getD_map Entity.grammar, before]
    cases as with
    | nil =>
      have own : a.name = name := named a (List.mem_append_right _ List.mem_cons_self)
      rw [← own]
      rfl
    | cons b bs => rfl

/-- After records of attributes, an attribute has the grammar of its first record. -/
theorem grammar?_foldl_ingestAttribute (as : List AttributeRecord) {r : Registry}
    (none : r.families = .empty) (family name : String) :
    (as.foldl ingestAttribute r).grammar? family name =
      (as.find? (·.isOf family name)).map fun a =>
        Grammar.normalizeFor name (a.grammar.getD "") := by
  have named : ∀ a ∈ as.filter (·.isOf family name), a.name = name := fun a own =>
    (AttributeRecord.isOf_iff.mp (List.mem_filter.mp own).2).2.2
  rw [grammar?, attribute?_foldl_ingestAttribute as none, grammar_entryOf _ named,
    List.head?_filter]

theorem grammar?_supplyMember (r : Registry) (s : SiblingMember) (family name : String) :
    (r.supplyMember s).grammar? family name = r.grammar? family name := by
  rcases r.supplyMember_cases s with same | ⟨_, m, _, _, _, supplied⟩
  · rw [same]
  · rw [supplied]
    exact view_adjustAttribute Entity.grammar r _ _
      (fun e => { e with members := Named.put e.members m }) (fun _ => rfl) (fun _ => rfl) family name

theorem grammar?_ofRecords (records : Records) {name : String} (plain : isQualified name = false)
    (family : String) : (ofRecords records).grammar? family name = records.grammar? family name := by
  have attributes := grammar?_foldl_ingestAttribute records.attributes
    (tables_beforeAttributes records).1 family name
  rw [AttributeRecord.isOf_eq plain] at attributes
  have supplied := foldl_keeps supplyMember (fun r => r.grammar? family name)
    (fun r s => r.grammar?_supplyMember s family name) SiblingMember.all
  have status := families_foldl_ingestStatus records.statusCodes
  exact (supplied _).trans ((grammar?_congr (status _) family name).trans attributes)

end Ingestion

section Passes

theorem grammar?_mergeAliases (r : Registry) (family name : String) :
    r.mergeAliases.grammar? family name = r.grammar? family name :=
  view_mergeAliases Entity.grammar (fun _ _ => rfl) r family name

theorem grammar?_registerCollections (r : Registry) (family name : String) :
    r.registerCollections.grammar? family name = r.grammar? family name :=
  view_registerCollections Entity.grammar (fun _ _ => rfl) r family name

theorem attribute?_backfillAttribute_other (r : Registry) {family name home other : String}
    (elsewhere : ¬ (family = home ∧ name = other)) (b : Backfill) :
    (r.backfillAttribute home other b).attribute? family name = r.attribute? family name := by
  cases b with
  | registered => rfl
  | kept => rfl
  | sharing target =>
    have shared := attribute?_adjustAttribute r home other
      (fun e => { e with reference := some (.byAlias target none) }) (fun _ => rfl) family name
    rwa [if_neg elsewhere] at shared
  | dropped obsolete =>
    have erased := attribute?_eraseAttribute r home other family name
    rw [adjustFamily, if_neg elsewhere] at erased
    rw [backfillAttribute]
    split
    · rfl
    · cases obsolete <;> exact erased

/-- Attributes that do not lack members are left alone by the backfill. -/
theorem attribute?_backfill (r : Registry) {family name : String}
    (h : ∀ e, r.attribute? family name = some e → e.isMemberless = false) :
    r.backfill.attribute? family name = r.attribute? family name := by
  rw [backfill]
  refine List.foldlRecOn
    (motive := fun r' : Registry => r'.attribute? family name = r.attribute? family name) _ _ rfl ?_
  rintro r' kept ⟨home, e⟩ lacking
  obtain ⟨listed, memberless⟩ := List.mem_filter.mp lacking
  refine (attribute?_backfillAttribute_other r' ?_ _).trans kept
  rintro ⟨rfl, rfl⟩
  dsimp only at memberless
  rw [h e (mem_attributes_iff.mp listed)] at memberless
  cases memberless

theorem grammar?_backfill (r : Registry) {family name : String}
    (h : ∀ g, r.grammar? family name = some g → g.isCollection = false) :
    r.backfill.grammar? family name = r.grammar? family name := by
  rw [grammar?, attribute?_backfill r, grammar?]
  intro e found
  have plain := h e.grammar (by rw [grammar?, found]; rfl)
  simp [Entity.isMemberless, plain]

end Passes

end Registry

/-- A text that is its own normal form, without a marker, and is not that of
collections. -/
structure Grammar.IsSettled (text : String) : Prop where
  normal : (normalize text).text = text
  unmarked : (normalize text).isSet = false
  other : text ≠ "collection"

section Families

variable {text : String}

/-- Two declarations of one text are reconciled, or the first one stands: in
either case with the text, and as a set if one of them is. -/
theorem Entity.grammar_reconcile? (settled : Grammar.IsSettled text) {kept e : Entity}
    (first : kept.grammar.text = text) (second : e.grammar.text = text) :
    ((kept.reconcile? e).getD kept).grammar.text = text ∧
      ((kept.reconcile? e).getD kept).grammar.isSet = (kept.grammar.isSet || e.grammar.isSet) := by
  have plain : kept.grammar.isCollection = false := by
    simp [Grammar.isCollection, first, settled.other]
  rw [reconcile?, plain, Bool.false_and, if_neg Bool.false_ne_true, Grammar.unify]
  by_cases same : kept.grammar == e.grammar
  · have sets := ((Grammar.beq_iff _ _).mp same).2
    have stands : ∀ specs, (kept.citingAll specs).grammar.isSet =
        (kept.grammar.isSet || e.grammar.isSet) := by
      intro specs
      rw [← sets, Bool.or_self]
      rfl
    rw [if_pos same]
    dsimp only
    split
    · exact ⟨first, stands e.specs⟩
    · exact ⟨first, stands []⟩
  · have texts : kept.grammar.text = e.grammar.text := first.trans second.symm
    rw [if_neg same, if_pos texts]
    refine ⟨?_, ?_⟩
    · simp [Grammar.ofText, Grammar.withSet, first, settled.normal]
    · simp [Grammar.ofText, Grammar.withSet, first, settled.unmarked]

theorem Registry.find?_canonize (canon : Table Entity × List Finding) (family : String) (e : Entity)
    (name : String) :
    (canonize canon family e).1.find? name =
      if e.name = name then
        some ((canon.1.find? name).elim e fun kept => (kept.reconcile? e).getD kept)
      else canon.1.find? name := by
  rw [canonize]
  cases found : canon.1.find? e.name with
  | none =>
    rw [Table.find?_put]
    by_cases here : e.name = name
    · subst here
      simp [nameOf, found]
    · simp [nameOf, here]
  | some kept =>
    have named : kept.name = e.name := (Table.mem_of_find? found).2
    dsimp only
    cases reconciled : kept.reconcile? e with
    | none =>
      by_cases here : e.name = name
      · subst here
        simp [found, reconciled]
      · simp [here]
    | some both =>
      have both' : both.name = e.name := (Entity.name_reconcile? reconciled).trans named
      rw [Table.find?_put]
      by_cases here : e.name = name
      · subst here
        simp [nameOf, both', found, reconciled]
      · simp [nameOf, both', here]

/-- A canonical declaration stands for declarations of one text: it has the text,
and takes a set if one of them does. -/
def Covers (text : String) (es : List Entity) : Option Entity → Prop
  | none => es = []
  | some e => es ≠ [] ∧ e.grammar.text = text ∧ e.grammar.isSet = es.any (·.grammar.isSet)

theorem Covers.add (settled : Grammar.IsSettled text) {es : List Entity} {found : Option Entity}
    (h : Covers text es found) {e : Entity} (same : e.grammar.text = text) :
    Covers text (es ++ [e]) (some (found.elim e fun kept => (kept.reconcile? e).getD kept)) := by
  have some : es ++ [e] ≠ [] := by simp
  cases found with
  | none =>
    obtain rfl : es = [] := h
    exact ⟨some, same, by simp⟩
  | some kept =>
    obtain ⟨-, first, sets⟩ := h
    obtain ⟨both, set⟩ := Entity.grammar_reconcile? settled first same
    exact ⟨some, both, set.trans (by simp [sets])⟩

/-- A declaration adds a finding only if it cannot be reconciled with the one that stands. -/
theorem Registry.mem_findings_canonize {canon : Table Entity × List Finding} {family : String}
    {e : Entity} {f : Finding} : f ∈ (canonize canon family e).2 ↔ f ∈ canon.2 ∨
      ∃ kept, canon.1.find? e.name = some kept ∧ kept.reconcile? e = none ∧
        f = .familiesDisagree family kept e := by
  rw [canonize]
  cases found : canon.1.find? e.name with
  | none => simp
  | some kept => cases reconciled : kept.reconcile? e <;> simp [reconciled]

/-- What holds of the canonical declarations, the findings and the declarations of a name that
have come, if each further declaration keeps it, whether it is of that name or of another. -/
theorem Registry.foldl_canonize_induction
    {motive : Table Entity × List Finding → List Entity → Prop} (name : String)
    (as : List (String × Entity)) (start : motive (.empty, []) [])
    (add : ∀ canon es, ∀ a ∈ as, a.2.name = name → motive canon es →
      motive (canonize canon a.1 a.2) (es ++ [a.2]))
    (skip : ∀ canon es, ∀ a ∈ as, a.2.name ≠ name → motive canon es →
      motive (canonize canon a.1 a.2) es) :
    motive (as.foldl (fun canon a => canonize canon a.1 a.2) (.empty, []))
      ((as.map Prod.snd).filter (·.name == name)) := by
  -- From the end of the list: the last declaration comes when all others have come.
  induction as using List.reverseRecOn with
  | nil => exact start
  | append_singleton as a ih =>
    have before := ih (fun canon es b member => add canon es b (List.mem_append_left _ member))
      fun canon es b member => skip canon es b (List.mem_append_left _ member)
    have last : a ∈ as ++ [a] := List.mem_append_right _ List.mem_cons_self
    rw [List.foldl_append, List.foldl_cons, List.foldl_nil, List.map_append, List.filter_append]
    by_cases here : a.2.name = name
    · have added : ([a].map Prod.snd).filter (·.name == name) = [a.2] := by simp [here]
      rw [added]
      exact add _ _ a last here before
    · have skipped : ([a].map Prod.snd).filter (·.name == name) = [] := by simp [here]
      rw [skipped, List.append_nil]
      exact skip _ _ a last here before

/-- What the families declare under a name, in their order. -/
def Registry.declarations (r : Registry) (name : String) : List Entity :=
  (r.attributes.map Prod.snd).filter (·.name == name)

theorem Registry.mem_declarations_iff {r : Registry} {name : String} {e : Entity} :
    e ∈ r.declarations name ↔ ∃ family, r.attribute? family name = some e := by
  rw [declarations, List.mem_filter, List.mem_map]
  constructor
  · rintro ⟨⟨⟨family, e⟩, listed, rfl⟩, named⟩
    exact ⟨family, beq_iff_eq.mp named ▸ mem_attributes_iff.mp listed⟩
  · rintro ⟨family, found⟩
    exact ⟨⟨_, mem_attributes_of_attribute? found, rfl⟩, beq_iff_eq.mpr (name_of_attribute? found)⟩

/-- What holds of a canonical declaration and those it stands for, if each further one keeps
it, whether it is reconciled with what stands by then or reported. -/
theorem Registry.canonInduction {motive : List Entity → Option Entity → Prop} (r : Registry)
    (name : String) (start : motive [] none)
    (step : ∀ es found family e, r.attribute? family name = some e → motive es found →
      (∀ kept, found = some kept → kept.name = name ∧
        (kept.reconcile? e = none → .familiesDisagree family kept e ∈ r.canon.2)) →
      motive (es ++ [e]) (some (found.elim e fun kept => (kept.reconcile? e).getD kept))) :
    motive (r.declarations name) (r.canon.1.find? name) := by
  -- What is reported on the way is among the findings at the end.
  refine foldl_canonize_induction (motive := fun canon es =>
    canon.2 ⊆ r.canon.2 → motive es (canon.1.find? name)) name r.attributes (fun _ => start)
    (fun canon es a listed named before reported => ?_)
    (fun canon es a _ other before reported => ?_) (List.Subset.refl _)
  · have known : r.attribute? a.1 name = some a.2 := named ▸ mem_attributes_iff.mp listed
    rw [find?_canonize, if_pos named]
    refine step es _ a.1 a.2 known (before fun f old => ?_) fun kept found => ⟨?_, fun none => ?_⟩
    · exact reported (mem_findings_canonize.mpr (Or.inl old))
    · exact (Table.mem_of_find? found).2
    · exact reported (mem_findings_canonize.mpr (Or.inr ⟨kept, named.symm ▸ found, none, rfl⟩))
  · rw [find?_canonize, if_neg other]
    exact before fun f old => reported (mem_findings_canonize.mpr (Or.inl old))

/-- If every family that declares an attribute gives it one text, then so does
its canonical declaration, which takes a set if one of theirs does. -/
theorem Registry.find?_canon (settled : Grammar.IsSettled text) (r : Registry) (name : String)
    (declared : ∃ family, (r.grammar? family name).isSome = true)
    (alike : ∀ family g, r.grammar? family name = some g → g.text = text) :
    ∃ e, r.canon.1.find? name = some e ∧ e.grammar.text = text ∧
      (e.grammar.isSet = true ↔ ∃ family g, r.grammar? family name = some g ∧ g.isSet = true) := by
  have grammars : ∀ g, (∃ family, r.grammar? family name = some g) ↔
      ∃ e ∈ r.declarations name, e.grammar = g := by
    intro g
    simp only [grammar?, Option.map_eq_some_iff, mem_declarations_iff]
    exact ⟨fun ⟨family, e, found, same⟩ => ⟨e, ⟨family, found⟩, same⟩,
      fun ⟨e, ⟨family, found⟩, same⟩ => ⟨family, e, found, same⟩⟩
  have covered : Covers text (r.declarations name) (r.canon.1.find? name) := by
    refine canonInduction (motive := Covers text) r name rfl fun es found family e known h _ => ?_
    exact h.add settled (alike family e.grammar (by rw [grammar?, known]; rfl))
  cases canonical : r.canon.1.find? name with
  | none =>
    rw [canonical] at covered
    obtain ⟨family, declared⟩ := declared
    obtain ⟨g, known⟩ := Option.isSome_iff_exists.mp declared
    obtain ⟨e, member, -⟩ := (grammars g).mp ⟨family, known⟩
    rw [show r.declarations name = [] from covered] at member
    cases member
  | some e =>
    rw [canonical] at covered
    obtain ⟨-, texts, sets⟩ := covered
    refine ⟨e, rfl, texts, ?_⟩
    rw [sets, List.any_eq_true]
    constructor
    · rintro ⟨x, member, set⟩
      obtain ⟨family, known⟩ := (grammars x.grammar).mpr ⟨x, member, rfl⟩
      exact ⟨family, x.grammar, known, set⟩
    · rintro ⟨family, g, known, set⟩
      obtain ⟨x, member, rfl⟩ := (grammars g).mp ⟨family, known⟩
      exact ⟨x, member, set⟩

end Families

/-- The canonical declaration of an attribute in the registry of a snapshot, if
its first records agree on the text of its grammar. -/
theorem Model.canonical_assembled {records : Records} {name text : String}
    (settled : Grammar.IsSettled text) (plain : isQualified name = false)
    (declared : ∃ family, (records.grammar? family name).isSome = true)
    (alike : ∀ family g, records.grammar? family name = some g → g.text = text) :
    ∃ e, (assembled records).types.find? name = some e ∧ e.name = name ∧ e.grammar.text = text ∧
      (e.grammar.isSet = true ↔
        ∃ family g, records.grammar? family name = some g ∧ g.isSet = true) := by
  have filled : ∀ family, (filled records).grammar? family name = records.grammar? family name := by
    intro family
    have registered :
        (defined records).mergeAliases.registerCollections.grammar? family name =
          records.grammar? family name := by
      rw [Registry.grammar?_registerCollections, Registry.grammar?_mergeAliases,
        Registry.grammar?_congr (families_defined records),
        Registry.grammar?_ofRecords records plain]
    rw [Model.filled, Registry.grammar?_backfill _ fun g known => ?_, registered]
    rw [registered] at known
    simp [Grammar.isCollection, alike family g known, settled.other]
  have canonical := Registry.find?_canon settled (Model.filled records) name
  simp only [filled] at canonical
  obtain ⟨e, found, grammar⟩ := canonical declared alike
  rw [types_assembled]
  exact ⟨e, found, (Table.mem_of_find? found).2, grammar⟩

end PrintRegistry
