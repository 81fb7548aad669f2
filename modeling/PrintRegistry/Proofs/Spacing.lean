import Mathlib.Data.List.Infix
import PrintRegistry.Proofs.Collapse
import PrintRegistry.Proofs.Normal
import PrintRegistry.Proofs.Scrubbing

/-!
Blanks in grammars. How many blanks stand between words makes no difference to a normal
form, with one exception: corrections are looked for before blanks are squeezed, and what
is to be corrected has a space in it. So a misspelling with more blanks than that is not
corrected.
-/

namespace PrintRegistry

namespace Text

/-- Every piece of the text that is the phrase up to the width of blanks is the phrase
itself. -/
def SpellsEvenly (phrase cs : List Char) : Prop :=
  ∀ piece, piece <:+: cs → IsPhrase piece → squeeze piece = phrase → piece = phrase

instance (phrase cs : List Char) : Decidable (SpellsEvenly phrase cs) :=
  decidable_of_iff (∀ t ∈ cs.tails, ∀ piece ∈ t.inits,
      IsPhrase piece → squeeze piece = phrase → piece = phrase) <| by
    constructor
    · intro each piece found
      obtain ⟨t, starts, ends⟩ := List.infix_iff_prefix_suffix.mp found
      exact each t ((List.mem_tails _ _).mpr ends) piece ((List.mem_inits _ _).mpr starts)
    · intro evenly t ends piece starts
      exact evenly piece (List.infix_iff_prefix_suffix.mpr
        ⟨t, (List.mem_inits _ _).mp starts, (List.mem_tails _ _).mp ends⟩)

theorem IsPhrase.squeeze_eq_collapse {piece : List Char} (h : IsPhrase piece) :
    squeeze piece = collapse piece := by
  obtain ⟨start, c, rfl, full⟩ := h.exists_concat
  have kept : trimStart start = start := by
    cases start with
    | nil => rfl
    | cons d ds =>
      obtain ⟨_, _, same, first⟩ := h.exists_cons
      obtain ⟨rfl, -⟩ := List.cons.inj same
      exact trimStart_cons_full first ds
  rw [squeeze_eq_trim_collapse, collapse_append_full full, trim_append_full full,
    ← collapse_trimStart, kept]
  rfl

/-- What stands before a character that is not blank, and what after it, is collapsed by
itself. -/
theorem collapse_eq_append_cons {c : Char} (full : isBlank c = false) {cs xs ys : List Char}
    (h : collapse cs = xs ++ c :: ys) :
    ∃ us vs, cs = us ++ c :: vs ∧ collapse us = xs ∧ collapse vs = ys := by
  induction cs generalizing xs with
  | nil => simp [collapse] at h
  | cons d ds ih =>
    cases blank : isBlank d with
    | true =>
      rw [collapse_cons_blank blank] at h
      cases xs with
      | nil =>
        rw [← (List.cons.inj h).1] at full
        cases full
      | cons x xs =>
        obtain ⟨rfl, rest⟩ := List.cons.inj h
        have rest : trimStart (collapse ds) = xs ++ c :: ys := rest
        have split := List.takeWhile_append_dropWhile (p := isBlank) (l := collapse ds)
        rw [← trimStart, rest, ← List.append_assoc] at split
        obtain ⟨us, vs, rfl, first, second⟩ := ih split.symm
        have kept : trimStart (collapse us) = xs := by
          rw [collapse_append_full full, trimStart_append_full full, second] at rest
          exact List.append_cancel_right rest
        exact ⟨d :: us, vs, rfl, by rw [collapse_cons_blank blank, kept], second⟩
    | false =>
      rw [collapse_cons_full blank] at h
      cases xs with
      | nil =>
        obtain ⟨rfl, rest⟩ := List.cons.inj h
        exact ⟨[], ds, rfl, rfl, rest⟩
      | cons x xs =>
        obtain ⟨rfl, rest⟩ := List.cons.inj h
        obtain ⟨us, vs, rfl, first, second⟩ := ih rest
        exact ⟨d :: us, vs, rfl, by rw [collapse_cons_full blank, first], second⟩

theorem SpellsEvenly.spells {phrase cs : List Char} (evenly : SpellsEvenly phrase cs)
    (whole : IsPhrase phrase) : Spells phrase cs := by
  intro ds ends reads
  obtain ⟨rest, same⟩ := reads
  obtain ⟨start, c, rfl, full⟩ := whole.exists_concat
  rw [List.append_assoc, List.singleton_append] at same
  obtain ⟨us, vs, rfl, first, -⟩ := collapse_eq_append_cons full same.symm
  have reads : collapse (us ++ [c]) = start ++ [c] := by
    rw [collapse_append_full full, first]
    rfl
  have piece : IsPhrase (us ++ [c]) := by
    refine ⟨by simp, ?_, by simp [full]⟩
    cases us with
    | nil => simp [full]
    | cons u us =>
      cases blank : isBlank u with
      | true =>
        rw [List.cons_append, collapse_cons_blank blank] at reads
        rw [← reads] at whole
        cases whole.2.1
      | false => simp [blank]
  have found : us ++ [c] <:+: cs := by
    have starts : us ++ [c] <+: us ++ c :: vs := ⟨vs, by simp⟩
    exact starts.isInfix.trans ends.isInfix
  have spelled := evenly _ found piece (by rw [piece.squeeze_eq_collapse, reads])
  rw [← spelled]
  exact ⟨vs, by simp⟩

section Inserted

variable {old new : List Char} {d : Char}

/-- What is found at the start of a text after a replacement, and neither holds all that
is put in nor ends within it, was there before. -/
theorem prefix_of_prefix_replaceAll (some : old ≠ []) (inserted : d ∈ new) {piece cs : List Char}
    (absent : d ∉ piece) (ends : ∀ start c, piece = start ++ [c] → c ∉ new)
    (h : piece <+: replaceAll old new cs) : piece <+: cs := by
  induction cs using pieceInduction some generalizing piece with
  | nil => exact h
  | found rest _ =>
    rw [replaceAll_found some] at h
    rcases List.prefix_or_prefix_of_prefix h (List.prefix_append new _) with within | beyond
    · rcases piece.eq_nil_or_concat with none | ⟨start, c, last⟩
      · exact none ▸ List.nil_prefix
      · rw [List.concat_eq_append] at last
        have member : c ∈ piece := last ▸ List.mem_append_right start List.mem_cons_self
        exact absurd (within.subset member) (ends start c last)
    · exact absurd (beyond.subset inserted) absent
  | other c cs here ih =>
    rw [replaceAll_other here] at h
    cases piece with
    | nil => exact List.nil_prefix
    | cons e es =>
      obtain ⟨rfl, rest⟩ := List.cons_prefix_cons.mp h
      refine List.cons_prefix_cons.mpr ⟨rfl, ih (fun member => ?_) (fun start c last => ?_) rest⟩
      · exact absent (List.mem_cons_of_mem e member)
      · exact ends (e :: start) c (congrArg (e :: ·) last)

/-- What is found in a text after a replacement, and neither holds all that is put in nor
begins or ends within it, was there before. -/
theorem infix_of_infix_replaceAll (some : old ≠ []) (inserted : d ∈ new) {piece cs : List Char}
    (absent : d ∉ piece) (begins : ∀ c rest, piece = c :: rest → c ∉ new)
    (ends : ∀ start c, piece = start ++ [c] → c ∉ new)
    (h : piece <:+: replaceAll old new cs) : piece <:+: cs := by
  cases piece with
  | nil => exact List.nil_infix
  | cons e es =>
    have first : e ∉ new := begins e es rfl
    induction cs using pieceInduction some with
    | nil => exact h
    | found rest ih =>
      have later : e :: es <:+: replaceAll old new rest := by
        rw [replaceAll_found some] at h
        rcases List.infix_append_iff.mp h with left | right | ⟨u, v, cut, left, right⟩
        · exact absurd (left.subset List.mem_cons_self) first
        · exact right
        · cases u with
          | nil => exact cut ▸ right.isInfix
          | cons f fs =>
            obtain ⟨rfl, -⟩ := List.cons.inj cut
            exact absurd (left.subset List.mem_cons_self) first
      exact (ih later).trans (List.suffix_append old rest).isInfix
    | other c cs here ih =>
      rw [replaceAll_other here] at h
      rcases List.infix_cons_iff.mp h with starts | later
      · rw [← replaceAll_other here] at starts
        exact (prefix_of_prefix_replaceAll some inserted absent ends starts).isInfix
      · exact (ih later).trans (List.suffix_cons c cs).isInfix

theorem SpellsEvenly.replaceAll {phrase cs : List Char} (evenly : SpellsEvenly phrase cs)
    (some : old ≠ []) (inserted : d ∈ new) (full : isBlank d = false) (absent : d ∉ phrase)
    {b e : Char} (begins : phrase.head? = Option.some b) (first : b ∉ new)
    (ends : phrase.getLast? = Option.some e) (last : e ∉ new) :
    SpellsEvenly phrase (replaceAll old new cs) := by
  intro piece found whole reads
  have collapsed : collapse piece = phrase := whole.squeeze_eq_collapse.symm.trans reads
  refine evenly piece (infix_of_infix_replaceAll some inserted ?_ ?_ ?_ found) whole reads
  · intro member
    rw [← mem_of_words full (words_collapse piece), collapsed] at member
    exact absent member
  · rintro c rest rfl
    obtain ⟨_, _, same, full⟩ := whole.exists_cons
    obtain ⟨rfl, -⟩ := List.cons.inj same
    rw [← collapsed, collapse_cons_full full] at begins
    exact Option.some.inj begins ▸ first
  · rintro start c rfl
    obtain ⟨_, _, same, full⟩ := whole.exists_concat
    obtain ⟨-, rfl⟩ := List.concat_inj.mp (by simpa using same)
    rw [← collapsed, collapse_append_full full, collapse, List.getLast?_concat] at ends
    exact Option.some.inj ends ▸ last

end Inserted

/-- A text with single spaces has them in every part of it that is a phrase. -/
theorem collapse_of_infix {piece cs : List Char} (even : collapse cs = cs) (found : piece <:+: cs)
    (whole : IsPhrase piece) : collapse piece = piece := by
  have suffixes : ∀ xs ys : List Char, collapse (xs ++ ys) = xs ++ ys → collapse ys = ys := by
    intro xs ys
    induction xs with
    | nil => exact id
    | cons x xs ih =>
      intro even
      refine ih ?_
      rw [List.cons_append] at even
      cases blank : isBlank x with
      | true =>
        rw [collapse_cons_blank blank] at even
        have rest := (List.cons.inj even).2
        rw [← rest, collapse_trimStart, collapse_collapse]
      | false =>
        rw [collapse_cons_full blank] at even
        exact (List.cons.inj even).2
  obtain ⟨front, back, rfl⟩ := found
  obtain ⟨start, c, rfl, full⟩ := whole.exists_concat
  have tail : collapse (start ++ c :: back) = start ++ c :: back := by
    refine suffixes front _ ?_
    simpa using even
  have last : collapse back = back := by
    refine suffixes (start ++ [c]) _ ?_
    simpa using tail
  rw [collapse_append_full full, last] at tail
  rw [collapse_append_full full, List.append_cancel_right tail]
  rfl

theorem spellsEvenly_collapse (phrase cs : List Char) : SpellsEvenly phrase (collapse cs) := by
  intro piece found whole reads
  have kept := collapse_of_infix (collapse_collapse cs) found whole
  rw [← reads, whole.squeeze_eq_collapse, kept]

end Text

namespace Grammar

theorem dropBracketed_cons_blank {b : Char} (blank : Text.isBlank b = true) (cs : List Char) :
    dropBracketed false (b :: cs) = b :: dropBracketed false cs ∧
      dropBracketed true (b :: cs) = dropBracketed true cs := by
  have other : ∀ {c : Char}, Text.isBlank c = false → b ≠ c := by
    rintro c full rfl
    rw [blank] at full
    cases full
  have closing : (b != ']') = true := bne_iff_ne.mpr (other (by decide))
  have opening : ¬ (b = '[' ∧ ']' ∈ cs) := fun bracket => other (by decide) bracket.1
  rw [dropBracketed, dropBracketed, if_neg opening, closing]
  exact ⟨rfl, rfl⟩

theorem dropBracketed_trimStart (cs : List Char) :
    dropBracketed true (Text.trimStart cs) = dropBracketed true cs := by
  induction cs with
  | nil => rfl
  | cons c cs ih =>
    cases blank : Text.isBlank c with
    | true => rw [Text.trimStart_cons_blank blank, ih, (dropBracketed_cons_blank blank cs).2]
    | false => rw [Text.trimStart_cons_full blank]

theorem collapse_dropBracketed (opened : Bool) (cs : List Char) :
    Text.collapse (dropBracketed opened (Text.collapse cs)) =
      Text.collapse (dropBracketed opened cs) := by
  induction cs generalizing opened with
  | nil => rfl
  | cons c cs ih =>
    cases blank : Text.isBlank c with
    | true =>
      cases opened with
      | true =>
        rw [Text.collapse_cons_blank blank, (dropBracketed_cons_blank (by decide) _).2,
          dropBracketed_trimStart, (dropBracketed_cons_blank blank cs).2, ih]
      | false =>
        have passes : ∀ b ds, Text.isBlank b = true →
            dropBracketed false (b :: ds) = b :: dropBracketed false ds :=
          fun _ ds blank => (dropBracketed_cons_blank blank ds).1
        exact Text.collapse_of_passes passes blank (ih false)
    | false =>
      rw [Text.collapse_cons_full blank]
      cases opened with
      | true => rw [dropBracketed, dropBracketed, ih]
      | false =>
        have closed : ']' ∈ Text.collapse cs ↔ ']' ∈ cs :=
          Text.mem_of_words (by decide) (Text.words_collapse cs)
        simp only [dropBracketed, closed]
        split
        · exact ih true
        · rw [Text.collapse_cons_full blank, Text.collapse_cons_full blank, ih]

theorem collapse_spellings {cs : List Char}
    (evenly : ∀ c ∈ corrections, Text.SpellsEvenly c.1.toList cs) :
    Text.collapse (Text.substitute spellings (Text.collapse cs)) =
      Text.collapse (Text.substitute spellings cs) := by
  have type2 : ∀ ds, Text.SpellsEvenly "type2 num".toList ds →
      Text.collapse (Text.replaceAll "type2 num".toList "type2 enum".toList (Text.collapse ds)) =
        Text.collapse (Text.replaceAll "type2 num".toList "type2 enum".toList ds) :=
    fun ds evenly => Text.collapse_replaceAll (by decide) (by decide) (evenly.spells (by decide))
  have set : ∀ ds, Text.SpellsEvenly "1set Of".toList ds →
      Text.collapse (Text.replaceAll "1set Of".toList "1setOf".toList (Text.collapse ds)) =
        Text.collapse (Text.replaceAll "1set Of".toList "1setOf".toList ds) :=
    fun ds evenly => Text.collapse_replaceAll (by decide) (by decide) (evenly.spells (by decide))
  -- The first correction makes no place for the second one.
  have kept : ∀ ds, Text.SpellsEvenly "1set Of".toList ds → Text.SpellsEvenly "1set Of".toList
      (Text.replaceAll "type2 num".toList "type2 enum".toList ds) :=
    fun ds evenly => evenly.replaceAll (d := 'y') (by decide) (by decide) (by decide) (by decide)
      (b := '1') rfl (by decide) (e := 'f') rfl (by decide)
  have first := type2 cs (evenly ("type2 num", "type2 enum") (by decide))
  have second := set _ (kept cs (evenly ("1set Of", "1setOf") (by decide)))
  have third := set _ (kept _ (Text.spellsEvenly_collapse "1set Of".toList cs))
  exact third.symm.trans ((congrArg _ (congrArg _ first)).trans second)

theorem collapse_scrub {cs : List Char}
    (evenly : ∀ c ∈ corrections, Text.SpellsEvenly c.1.toList cs) :
    Text.collapse (scrub (Text.collapse cs)) = Text.collapse (scrub cs) := by
  have brackets : Text.IgnoresWidth (dropBracketed false) := collapse_dropBracketed false
  have tokens : Text.IgnoresWidth (Text.substitute removals) := .substitute (by decide)
  rw [scrub_eq_substitute, scrub_eq_substitute]
  exact (tokens.comp brackets).congr (collapse_spellings evenly)

theorem tidy_squeeze {cs : List Char}
    (evenly : ∀ c ∈ corrections, Text.SpellsEvenly c.1.toList cs) :
    tidy (Text.squeeze cs) = tidy cs := by
  have marker : Text.IgnoresWidth (Text.deleteAll setMarker.toList) :=
    .replaceAll (by decide) (by decide) []
  have same := Text.words_of_collapse (marker.congr (collapse_scrub evenly))
  rw [← (Text.padded_squeeze cs).tidy, tidy, Text.squeeze, same, tidy, Text.squeeze]

theorem isMarked_squeeze {cs : List Char}
    (evenly : ∀ c ∈ corrections, Text.SpellsEvenly c.1.toList cs) :
    isMarked (Text.squeeze cs) = isMarked cs := by
  rw [← (Text.padded_squeeze cs).isMarked, Bool.eq_iff_iff, isMarked_iff, isMarked_iff]
  exact Text.IgnoresWidth.infix_iff (by decide) (by decide) (collapse_scrub evenly)

/-- Blanks make no difference to the normal form of a grammar in which every misspelling
is written with one space. -/
theorem normalize_squeeze {raw : String}
    (evenly : ∀ c ∈ corrections, Text.SpellsEvenly c.1.toList raw.toList) :
    (normalize raw == normalize (String.ofList (Text.squeeze raw.toList))) = true := by
  have tidied := tidy_squeeze evenly
  refine normalize_congr ?_ ?_
  · rw [String.toList_ofList, normalRound, normalRound, tidied]
  · rw [String.toList_ofList, isMarked_squeeze evenly]

/-- A set of names or keywords, with two spaces, a tab and a blank at either end. -/
theorem normalize_squeeze_of_names :
    (normalize " 1set Of  (name\t| type2 keyword) " ==
      normalize "1set Of (name | type2 keyword)") = true := by
  have evenly : ∀ c ∈ corrections,
      Text.SpellsEvenly c.1.toList " 1set Of  (name\t| type2 keyword) ".toList := by
    decide
  have squeezed : String.ofList (Text.squeeze " 1set Of  (name\t| type2 keyword) ".toList) =
      "1set Of (name | type2 keyword)" := by
    decide
  exact squeezed ▸ normalize_squeeze evenly

/-- A misspelling with two spaces is not corrected. -/
theorem normalize_not_squeeze :
    ¬ ∀ raw : String, (normalize raw == normalize (String.ofList (Text.squeeze raw.toList))) = true := by
  intro same
  have different : (normalize "type2  num" ==
      normalize (String.ofList (Text.squeeze "type2  num".toList))) = false := by
    decide
  rw [same] at different
  cases different

end Grammar

end PrintRegistry
