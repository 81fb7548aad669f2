import PrintRegistry.Grammar.Normal
import PrintRegistry.Proofs.Phrase

/-!
Scrubbing a grammar. Nothing that is corrected or left out begins or ends with a blank
or has a bar in it, so the blanks around a text make no difference, and texts with bars
between them are scrubbed one by one.
-/

namespace PrintRegistry

namespace Grammar

/-- The corrections, as what is replaced and what by. -/
def spellings : List (List Char × List Char) :=
  corrections.map fun c => (c.1.toList, c.2.toList)

/-- The tokens without meaning, to be replaced by nothing. -/
def removals : List (List Char × List Char) :=
  noise.map fun token => (token.toList, [])

theorem scrub_eq_substitute (cs : List Char) :
    scrub cs = Text.substitute removals (dropBracketed false (Text.substitute spellings cs)) := by
  rw [Text.substitute, Text.substitute, removals, spellings, List.foldl_map, List.foldl_map]
  rfl

theorem dropBracketed_append {xs : List Char} (free : '[' ∉ xs) (ys : List Char) :
    dropBracketed false (xs ++ ys) = xs ++ dropBracketed false ys := by
  induction xs with
  | nil => rfl
  | cons x xs ih =>
    have other : x ≠ '[' := fun same => free (same ▸ List.mem_cons_self)
    rw [List.cons_append, dropBracketed, if_neg fun bracket => other bracket.1,
      ih fun member => free (List.mem_cons_of_mem x member), List.cons_append]

theorem dropBracketed_unbracketed {cs : List Char} (free : '[' ∉ cs) :
    dropBracketed false cs = cs := by
  have whole := dropBracketed_append free []
  rwa [List.append_nil, dropBracketed, List.append_nil] at whole

theorem dropBracketed_append_right {ys : List Char} (unopened : '[' ∉ ys) (unclosed : ']' ∉ ys)
    (opened : Bool) {xs : List Char} (closed : opened = true → ']' ∈ xs) :
    dropBracketed opened (xs ++ ys) = dropBracketed opened xs ++ ys := by
  induction xs generalizing opened with
  | nil =>
    cases opened with
    | true => cases closed rfl
    | false => exact dropBracketed_unbracketed unopened
  | cons x xs ih =>
    cases opened with
    | true =>
      rw [List.cons_append, dropBracketed, dropBracketed]
      refine ih _ fun other => ?_
      exact (List.mem_cons.mp (closed rfl)).resolve_left (Ne.symm (bne_iff_ne.mp other))
    | false =>
      have same : (x = '[' ∧ ']' ∈ xs ++ ys) ↔ x = '[' ∧ ']' ∈ xs := by
        rw [List.mem_append, or_iff_left unclosed]
      rw [List.cons_append, dropBracketed, dropBracketed]
      by_cases bracket : x = '[' ∧ ']' ∈ xs
      · rw [if_pos bracket, if_pos (same.mpr bracket), ih true fun _ => bracket.2]
      · rw [if_neg bracket, if_neg (mt same.mp bracket), ih false (by simp), List.cons_append]

/-- The text scrubbed and without markers of a set, its words as far apart as they
were. -/
def bare (cs : List Char) : List Char :=
  Text.deleteAll setMarker.toList (scrub cs)

theorem tidy_eq_squeeze_bare (cs : List Char) : tidy cs = Text.squeeze (bare cs) := rfl

theorem isMarked_iff (cs : List Char) : isMarked cs = true ↔ setMarker.toList <:+: scrub cs :=
  Text.occurs_iff _ _

theorem isPhrase_setMarker : Text.IsPhrase setMarker.toList := by decide

end Grammar

namespace Text.Padded

variable {cs padded : List Char}

theorem dropBracketed (h : Padded cs padded) :
    Padded (Grammar.dropBracketed false cs) (Grammar.dropBracketed false padded) := by
  obtain ⟨before, after, blankBefore, blankAfter, rfl⟩ := h
  have outside : ∀ {blanks : List Char} {c : Char}, isBlank c = false →
      (∀ b ∈ blanks, isBlank b = true) → c ∉ blanks := by
    intro blanks c full blank member
    rw [blank c member] at full
    cases full
  refine ⟨before, after, blankBefore, blankAfter, ?_⟩
  rw [Grammar.dropBracketed_append_right (outside (by decide) blankAfter)
      (outside (by decide) blankAfter) false (by simp),
    Grammar.dropBracketed_append (outside (by decide) blankBefore)]

theorem scrub (h : Padded cs padded) : Padded (Grammar.scrub cs) (Grammar.scrub padded) := by
  rw [Grammar.scrub_eq_substitute, Grammar.scrub_eq_substitute]
  have corrected : Padded (Text.substitute Grammar.spellings cs)
      (Text.substitute Grammar.spellings padded) :=
    h.substitute (by decide)
  exact corrected.dropBracketed.substitute (by decide)

theorem bare (h : Padded cs padded) : Padded (Grammar.bare cs) (Grammar.bare padded) :=
  h.scrub.replaceAll Grammar.isPhrase_setMarker []

theorem tidy (h : Padded cs padded) : Grammar.tidy padded = Grammar.tidy cs := by
  rw [Grammar.tidy_eq_squeeze_bare, Grammar.tidy_eq_squeeze_bare, squeeze, h.bare.words, squeeze]

theorem isMarked (h : Padded cs padded) : Grammar.isMarked padded = Grammar.isMarked cs := by
  rw [Bool.eq_iff_iff, Grammar.isMarked_iff, Grammar.isMarked_iff]
  exact h.scrub.infix_iff Grammar.isPhrase_setMarker

end Text.Padded

namespace Grammar

section Bars

variable {xs ys : List Char}

theorem scrub_unbracketed (free : '[' ∉ xs) :
    scrub xs = Text.substitute removals (Text.substitute spellings xs) := by
  have unbracketed : '[' ∉ Text.substitute spellings xs :=
    Text.not_mem_substitute (by decide) free
  rw [scrub_eq_substitute, dropBracketed_unbracketed unbracketed]

theorem scrub_append_bar (left : '[' ∉ xs) (right : '[' ∉ ys) :
    scrub (xs ++ '|' :: ys) = scrub xs ++ '|' :: scrub ys := by
  have free : '[' ∉ xs ++ '|' :: ys := by simp [left, right]
  rw [scrub_unbracketed free, scrub_unbracketed left, scrub_unbracketed right,
    Text.substitute_append_cons (by decide), Text.substitute_append_cons (by decide)]

theorem bare_append_bar (left : '[' ∉ xs) (right : '[' ∉ ys) :
    bare (xs ++ '|' :: ys) = bare xs ++ '|' :: bare ys := by
  rw [bare, scrub_append_bar left right]
  exact Text.replaceAll_append_cons (by decide) (by decide) _ _

theorem isMarked_append_bar (left : '[' ∉ xs) (right : '[' ∉ ys) :
    isMarked (xs ++ '|' :: ys) = (isMarked xs || isMarked ys) := by
  rw [Bool.eq_iff_iff, Bool.or_eq_true, isMarked_iff, isMarked_iff, isMarked_iff,
    scrub_append_bar left right]
  exact Text.infix_append_cons_iff (by decide) _ _

theorem not_mem_bare (unbracketed : '[' ∉ xs) (free : '|' ∉ xs) : '|' ∉ bare xs := by
  intro member
  rw [bare, scrub_unbracketed unbracketed] at member
  have corrected : '|' ∉ Text.substitute spellings xs :=
    Text.not_mem_substitute (by decide) free
  have scrubbed : '|' ∉ Text.substitute removals (Text.substitute spellings xs) :=
    Text.not_mem_substitute (by decide) corrected
  exact (Text.mem_replaceAll (by decide) member).elim (by simp) scrubbed

end Bars

/-- As many parentheses are opened as closed. -/
def Balanced (cs : List Char) : Prop :=
  cs.count '(' = cs.count ')'

instance (cs : List Char) : Decidable (Balanced cs) :=
  inferInstanceAs (Decidable (_ = _))

namespace Balanced

theorem replaceAll {old new cs : List Char} (h : Balanced cs) (some : old ≠ [])
    (before : Balanced old) (after : Balanced new) : Balanced (Text.replaceAll old new cs) := by
  have kept : (Text.replaceAll old new cs).count '(' + cs.count ')' =
      (Text.replaceAll old new cs).count ')' + cs.count '(' := by
    clear h
    induction cs using Text.pieceInduction some with
    | nil => rfl
    | found rest ih =>
      rw [Balanced] at before after
      rw [Text.replaceAll_found some]
      simp only [List.count_append]
      omega
    | other c cs here ih =>
      rw [Text.replaceAll_other here]
      simp only [List.count_cons]
      omega
  rw [Balanced] at h ⊢
  omega

theorem substitute {pairs : List (List Char × List Char)}
    (balanced : ∀ p ∈ pairs, p.1 ≠ [] ∧ Balanced p.1 ∧ Balanced p.2) {cs : List Char}
    (h : Balanced cs) : Balanced (Text.substitute pairs cs) := by
  induction pairs generalizing cs with
  | nil => exact h
  | cons p pairs ih =>
    obtain ⟨some, before, after⟩ := balanced p List.mem_cons_self
    exact ih (fun q member => balanced q (List.mem_cons_of_mem p member))
      (h.replaceAll some before after)

theorem bare {cs : List Char} (h : Balanced cs) (free : '[' ∉ cs) : Balanced (bare cs) := by
  rw [Grammar.bare, scrub_unbracketed free]
  have corrected : Balanced (Text.substitute spellings cs) := h.substitute (by decide)
  have scrubbed : Balanced (Text.substitute removals (Text.substitute spellings cs)) :=
    corrected.substitute (by decide)
  exact scrubbed.replaceAll (by decide) (by decide) (by decide)

theorem of_words {xs ys : List Char} (h : Balanced xs) (same : Text.words xs = Text.words ys) :
    Balanced ys := by
  have counted : ∀ p : Char, Text.isBlank p = false → xs.count p = ys.count p := by
    intro p full
    refine Text.countP_of_words (fun c here => ?_) same
    exact beq_iff_eq.mp here ▸ full
  rw [Balanced, ← counted '(' (by decide), ← counted ')' (by decide)]
  exact h

end Balanced

end Grammar

end PrintRegistry
