import PrintRegistry.Proofs.Alike

/-!
The order of value records. Records about one name have to stay in order; how
records about different names are mixed makes no difference to a model, except
for the order in which definitions and warnings are listed.
-/

namespace PrintRegistry

/-- The same elements, and those of one key in the same order. -/
structure Interleaved {α : Type} (key : α → String) (xs ys : List α) : Prop where
  perm : xs.Perm ys
  order : ∀ k, xs.filter (key · == k) = ys.filter (key · == k)

namespace Interleaved

variable {α : Type} {key : α → String} {x y : α} {xs ys : List α}

/-- Two neighbours of different keys can change places. -/
theorem swap (before after : List α) (other : key x ≠ key y) :
    Interleaved key (before ++ x :: y :: after) (before ++ y :: x :: after) where
  perm := (List.Perm.swap y x after).append_left before
  order k := by
    rw [List.filter_append, List.filter_append]
    by_cases first : key x = k
    · have second : ¬ key y = k := fun same => other (first.trans same.symm)
      simp [first, second]
    · by_cases second : key y = k <;> simp [first, second]

/-- The first element of one list is in the other preceded by elements of other
keys alone, and the rest of both lists is interleaved again. -/
theorem cons_cases (h : Interleaved key (x :: xs) ys) :
    ∃ before after, ys = before ++ x :: after ∧ (∀ b ∈ before, key x ≠ key b) ∧
      Interleaved key xs (before ++ after) := by
  have first := (h.order (key x)).symm
  rw [List.filter_cons_of_pos (by simp), List.filter_eq_cons_iff] at first
  obtain ⟨before, after, rfl, others, -, -⟩ := first
  refine ⟨before, after, rfl, fun b member same => others b member (by simp [same]), ?_, fun k => ?_⟩
  · exact (h.perm.trans List.perm_middle).cons_inv
  · have same := h.order k
    rw [List.filter_append, List.filter_cons, List.filter_cons] at same
    rw [List.filter_append]
    split at same
    · rename_i here
      -- No element before has the key of the first one.
      have none : before.filter (key · == k) = [] := by
        rw [List.filter_eq_nil_iff]
        intro b member sameKey
        have different : ¬ (key b == key x) = true := others b member
        simp only [beq_iff_eq] at here sameKey different
        exact different (sameKey.trans here.symm)
      rw [none] at same ⊢
      exact List.tail_eq_of_cons_eq same
    · exact same

end Interleaved

/-- Steps respect a relation, and up to it two steps of different keys can be
taken in either order. -/
structure StepsCommute {α σ : Type} (key : α → String) (step : σ → α → σ)
    (alike : σ → σ → Prop) : Prop where
  refl : ∀ s, alike s s
  trans : ∀ {s t u}, alike s t → alike t u → alike s u
  respects : ∀ {s s'} a, alike s s' → alike (step s a) (step s' a)
  comm : ∀ s {a b}, key a ≠ key b → alike (step (step s a) b) (step (step s b) a)

namespace StepsCommute

variable {α σ : Type} {key : α → String} {step : σ → α → σ} {alike : σ → σ → Prop}

theorem foldl_past (h : StepsCommute key step alike) {a : α} {before : List α}
    (others : ∀ b ∈ before, key a ≠ key b) (s : σ) :
    alike (before.foldl step (step s a)) (step (before.foldl step s) a) := by
  induction before generalizing s with
  | nil => exact h.refl _
  | cons b before ih =>
    have swapped := foldl_respects alike h.respects before (h.comm s (others b List.mem_cons_self))
    exact h.trans swapped (ih (fun c member => others c (List.mem_cons_of_mem b member)) (step s b))

/-- Runs over lists that are interleaved in two ways lead to states that are
alike. -/
theorem foldl_interleaved (h : StepsCommute key step alike) {xs ys : List α}
    (mixed : Interleaved key xs ys) {s s' : σ} (start : alike s s') :
    alike (xs.foldl step s) (ys.foldl step s') := by
  induction xs generalizing ys s s' with
  | nil =>
    rw [List.nil_perm.mp mixed.perm]
    exact start
  | cons x xs ih =>
    obtain ⟨before, after, rfl, others, rest⟩ := mixed.cons_cases
    have moved := foldl_respects alike h.respects after (h.foldl_past others s')
    have later := ih rest (h.respects x start)
    rw [List.foldl_append] at later
    rw [List.foldl_append, List.foldl_cons, List.foldl_cons]
    exact h.trans later moved

end StepsCommute

namespace Registry

theorem ingestEnum_commutes : StepsCommute EnumRecord.about ingestEnum Alike where
  refl := .refl
  trans := .trans
  respects record h := h.ingestEnum record
  comm r a b other := by
    simp only [ingestEnum_eq_enterEnum]
    exact enterEnum_comm r other

theorem ingestKeyword_commutes : StepsCommute KeywordRecord.about ingestKeyword Alike where
  refl := .refl
  trans := .trans
  respects record h := h.ingestKeyword record
  comm r a b other := by
    simp only [ingestKeyword_eq_enterKeyword]
    exact enterKeyword_comm r other

/-- Snapshots with the same records, in which the records of values are
interleaved in two ways, make registries that are alike. -/
theorem alike_ofRecords (records : Records) {enums : List EnumRecord}
    {keywords : List KeywordRecord} (mixedEnums : Interleaved EnumRecord.about records.enums enums)
    (mixedKeywords : Interleaved KeywordRecord.about records.keywords keywords) :
    Alike (ofRecords records) (ofRecords { records with enums, keywords }) := by
  have afterEnums := ingestEnum_commutes.foldl_interleaved mixedEnums (Alike.refl {})
  have afterKeywords := ingestKeyword_commutes.foldl_interleaved mixedKeywords afterEnums
  have afterAttributes := foldl_respects Alike (fun record h => Alike.ingestAttribute h record)
    records.attributes afterKeywords.supplyKeywords
  have afterStatus := foldl_respects Alike (fun record h => Alike.ingestStatus h record)
    records.statusCodes afterAttributes
  exact foldl_respects Alike (fun s h => Alike.supplyMember h s) SiblingMember.all afterStatus

end Registry

/-- Definitions that differ at most in the order in which they name the
enumerations that share their values. -/
def EnumDefinition.Alike (d d' : EnumDefinition) : Prop :=
  d.sharedBy.Perm d'.sharedBy ∧ { d with sharedBy := d'.sharedBy } = d'

/-- Definitions that differ at most in the order in which they name the keywords
that share their values. -/
def KeywordDefinition.Alike (d d' : KeywordDefinition) : Prop :=
  d.sharedBy.Perm d'.sharedBy ∧ { d with sharedBy := d'.sharedBy } = d'

/-- The same elements up to a relation, in any order. -/
def AlikeInSomeOrder {α : Type} (alike : α → α → Prop) (xs ys : List α) : Prop :=
  ∃ zs, xs.Perm zs ∧ List.Forall₂ alike zs ys

theorem AlikeInSomeOrder.filterMap {α β : Type} {alike : β → β → Prop} {f g : α → Option β}
    (same : ∀ a, Option.Rel alike (f a) (g a)) {xs ys : List α} (perm : xs.Perm ys) :
    AlikeInSomeOrder alike (xs.filterMap f) (ys.filterMap g) := by
  refine ⟨ys.filterMap f, perm.filterMap f, ?_⟩
  exact List.rel_filterMap (R := Eq) (fun a _ unchanged => unchanged ▸ same a)
    (List.forall₂_refl ys)

namespace Table.Alike

variable {t t' : Table Entity}

theorem standing (h : t.Alike t') : t.standing = t'.standing := by
  funext e
  simp only [Table.standing, h.has]

theorem sharersOf (h : t.Alike t') (name : String) : (t.sharersOf name).Perm (t'.sharersOf name) :=
  (h.perm.filter _).map _

theorem enumDefinition (h : t.Alike t') (e : Entity) :
    Option.Rel EnumDefinition.Alike (EnumDefinition.ofEntity t e).1
        (EnumDefinition.ofEntity t' e).1 ∧
      (EnumDefinition.ofEntity t e).2 = (EnumDefinition.ofEntity t' e).2 := by
  rw [EnumDefinition.ofEntity, EnumDefinition.ofEntity, h.standing]
  split
  · exact ⟨.none, rfl⟩
  · split
    · exact ⟨.none, rfl⟩
    · exact ⟨.some ⟨h.sharersOf e.name, rfl⟩, rfl⟩

end Table.Alike

namespace Registry.Alike

variable {r r' : Registry}

theorem keywordDefinition (h : r.Alike r') (e : Entity) :
    Option.Rel KeywordDefinition.Alike (KeywordDefinition.ofEntity r e).1
        (KeywordDefinition.ofEntity r' e).1 ∧
      (KeywordDefinition.ofEntity r e).2 = (KeywordDefinition.ofEntity r' e).2 := by
  have note : KeywordDefinition.note? r e = KeywordDefinition.note? r' e := by
    simp only [KeywordDefinition.note?, KeywordDefinition.family?, h.keywords.standing, h.families]
  have emitted : KeywordDefinition.isEmitted r e = KeywordDefinition.isEmitted r' e := by
    simp only [KeywordDefinition.isEmitted, h.families]
  have finding : KeywordDefinition.finding? r e = KeywordDefinition.finding? r' e := by
    simp only [KeywordDefinition.finding?, h.families]
  rw [KeywordDefinition.ofEntity, KeywordDefinition.ofEntity, h.keywords.standing, note, emitted,
    finding]
  split
  · exact ⟨.none, rfl⟩
  · refine ⟨?_, rfl⟩
    dsimp only
    split
    · exact .some ⟨h.keywords.sharersOf e.name, rfl⟩
    · exact .none

theorem noted (h : r.Alike r') : r.noted = r'.noted := by
  funext e
  simp only [Registry.noted, KeywordDefinition.note?, KeywordDefinition.family?,
    h.keywords.standing, h.families]

theorem enumDefinitions (h : r.Alike r') :
    r.enumDefinitions.1.Alike r'.enumDefinitions.1 ∧
      AlikeInSomeOrder EnumDefinition.Alike r.enumDefinitions.2 r'.enumDefinitions.2 := by
  have defined := AlikeInSomeOrder.filterMap (fun e => (h.enums.enumDefinition e).1) h.enums.perm
  have wrong : (fun e => (EnumDefinition.ofEntity r.enums e).2) =
      fun e => (EnumDefinition.ofEntity r'.enums e).2 :=
    funext fun e => (h.enums.enumDefinition e).2
  have findings := h.enums.perm.filterMap fun e => (EnumDefinition.ofEntity r.enums e).2
  nth_rewrite 2 [wrong] at findings
  simp only [Registry.enumDefinitions, List.filterMap_map]
  exact ⟨{ h with findings := h.findings.append findings }, defined⟩

theorem keywordDefinitions (h : r.Alike r') :
    r.keywordDefinitions.1.Alike r'.keywordDefinitions.1 ∧
      AlikeInSomeOrder KeywordDefinition.Alike r.keywordDefinitions.2 r'.keywordDefinitions.2 := by
  have defined := AlikeInSomeOrder.filterMap (fun e => (h.keywordDefinition e).1) h.keywords.perm
  have wrong : (fun e => (KeywordDefinition.ofEntity r e).2) =
      fun e => (KeywordDefinition.ofEntity r' e).2 :=
    funext fun e => (h.keywordDefinition e).2
  have findings := h.keywords.perm.filterMap fun e => (KeywordDefinition.ofEntity r e).2
  nth_rewrite 2 [wrong] at findings
  have keywords := h.keywords.map h.noted r.name_noted r'.name_noted
  simp only [Registry.keywordDefinitions, List.filterMap_map]
  exact ⟨{ h with keywords, findings := h.findings.append findings }, defined⟩

end Registry.Alike

namespace Model

/-- Models that differ at most in the order in which definitions, the entries
that share their values, documents and warnings are listed. Of documents, only
the names are the same. -/
structure Alike (m m' : Model) : Prop where
  types : m.types = m'.types
  collections : m.collections = m'.collections
  enumUsages : m.enumUsages = m'.enumUsages
  keyValues : m.keyValues = m'.keyValues
  enums : AlikeInSomeOrder EnumDefinition.Alike m.enums m'.enums
  keywords : AlikeInSomeOrder KeywordDefinition.Alike m.keywords m'.keywords
  specs : ∀ id, id ∈ m.specs.map Spec.id ↔ id ∈ m'.specs.map Spec.id
  warnings : m.warnings.Perm m'.warnings

/-- How the records of values about different names are mixed makes no difference
to a model but for the order in which things are listed. -/
theorem resolve_interleaved (records : Records) {enums : List EnumRecord}
    {keywords : List KeywordRecord} (mixedEnums : Interleaved EnumRecord.about records.enums enums)
    (mixedKeywords : Interleaved KeywordRecord.about records.keywords keywords) :
    (resolve records).Alike (resolve { records with enums, keywords }) := by
  have ingested := Registry.alike_ofRecords records mixedEnums mixedKeywords
  obtain ⟨checked, enumsAlike⟩ := ingested.enumDefinitions
  obtain ⟨named, keywordsAlike⟩ := checked.keywordDefinitions
  have alike : (assembled records).Alike (assembled { records with enums, keywords }) := by
    simp only [assembled, defined]
    exact named.assemble
  have listed : ∀ (t : Table Spec) id, id ∈ t.toList.map Spec.id ↔ t.has id = true :=
    fun t id => Table.has_iff.symm
  constructor
  · rw [types_resolve, types_resolve, alike.typing]
  · rw [collections_resolve, collections_resolve, alike.typing]
  · rw [enumUsages_resolve, enumUsages_resolve, alike.typing]
  · rw [keyValues_resolve, keyValues_resolve, alike.typing]
  · rw [enums_resolve, enums_resolve]
    exact enumsAlike
  · rw [keywords_resolve, keywords_resolve]
    exact keywordsAlike
  · intro id
    rw [specs_resolve, specs_resolve, listed, listed, alike.specs]
  · rw [warnings, warnings, findings_resolve, findings_resolve, alike.typing]
    exact (alike.findings.append_right _).map Finding.warning

/-- The two values of one enumeration stay in order when another one comes between
them. -/
theorem resolve_interleaved_of_sides :
    let one : EnumRecord := { about := "sides", name := some "one-sided", value := some "3" }
    let two : EnumRecord := { about := "sides", name := some "two-sided", value := some "4" }
    let none : EnumRecord := { about := "finishings", name := some "none", value := some "3" }
    let color : KeywordRecord := { about := "media-color", value := some "blue" }
    let type : KeywordRecord := { about := "media-type", value := some "paper" }
    Interleaved EnumRecord.about [one, two, none] [one, none, two] ∧
      Interleaved KeywordRecord.about [color, type] [type, color] ∧
      (resolve { enums := [one, two, none], keywords := [color, type] }).Alike
        (resolve { enums := [one, none, two], keywords := [type, color] }) := by
  intro one two none color type
  have enums : Interleaved EnumRecord.about [one, two, none] [one, none, two] :=
    Interleaved.swap [one] [] (by decide)
  have keywords : Interleaved KeywordRecord.about [color, type] [type, color] :=
    Interleaved.swap [] [] (by decide)
  exact ⟨enums, keywords, resolve_interleaved { enums := [one, two, none], keywords := [color, type] }
    enums keywords⟩

end Model

end PrintRegistry
