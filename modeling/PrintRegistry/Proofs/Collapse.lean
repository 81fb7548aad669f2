import PrintRegistry.Proofs.Phrase

/-!
Texts up to the width of their blanks. `collapse` puts one space for each run of
blanks, wherever it stands, so it can be followed through a text from one
character to the next; squeezing is this and no blanks at the ends.
-/

namespace PrintRegistry.Text

/-- The text with one space for each run of blanks. -/
def collapse : List Char → List Char
  | [] => []
  | c :: cs => if isBlank c then ' ' :: trimStart (collapse cs) else c :: collapse cs

theorem collapse_cons_blank {b : Char} (blank : isBlank b = true) (cs : List Char) :
    collapse (b :: cs) = ' ' :: trimStart (collapse cs) :=
  if_pos blank

theorem collapse_cons_full {c : Char} (full : isBlank c = false) (cs : List Char) :
    collapse (c :: cs) = c :: collapse cs :=
  if_neg (Bool.eq_false_iff.mp full)

theorem trimStart_cons_blank {b : Char} (blank : isBlank b = true) (cs : List Char) :
    trimStart (b :: cs) = trimStart cs := by
  rw [trimStart, List.dropWhile_cons_of_pos blank, trimStart]

theorem trimStart_cons_full {c : Char} (full : isBlank c = false) (cs : List Char) :
    trimStart (c :: cs) = c :: cs := by
  rw [trimStart, List.dropWhile_cons_of_neg (Bool.eq_false_iff.mp full)]

theorem trimStart_append_full {c : Char} (full : isBlank c = false) (xs ys : List Char) :
    trimStart (xs ++ c :: ys) = trimStart xs ++ c :: ys := by
  induction xs with
  | nil => exact trimStart_cons_full full ys
  | cons x xs ih =>
    cases blank : isBlank x with
    | true => rw [List.cons_append, trimStart_cons_blank blank, trimStart_cons_blank blank, ih]
    | false => rw [List.cons_append, trimStart_cons_full blank, trimStart_cons_full blank,
        List.cons_append]

theorem trimEnd_append_full {c : Char} (full : isBlank c = false) (xs ys : List Char) :
    trimEnd (xs ++ c :: ys) = xs ++ c :: trimEnd ys := by
  have turned := trimStart_append_full full ys.reverse xs.reverse
  rw [trimEnd, List.reverse_append, List.reverse_cons, List.append_assoc, List.singleton_append,
    ← trimStart, turned]
  simp [trimEnd, trimStart]

theorem trim_append_full {c : Char} (full : isBlank c = false) (xs ys : List Char) :
    trim (xs ++ c :: ys) = trimStart xs ++ c :: trimEnd ys := by
  rw [trim, trimStart_append_full full, trimEnd_append_full full]

theorem trim_of_blank {cs : List Char} (blank : ∀ c ∈ cs, isBlank c = true) : trim cs = [] := by
  rw [trim, trimStart, List.dropWhile_eq_nil_iff.mpr blank]
  rfl

theorem trimStart_trimStart (cs : List Char) : trimStart (trimStart cs) = trimStart cs :=
  List.dropWhile_idempotent isBlank cs

theorem trim_trimStart (cs : List Char) : trim (trimStart cs) = trim cs := by
  rw [trim, trimStart_trimStart, trim]

theorem blank_or_full (cs : List Char) :
    (∀ c ∈ cs, isBlank c = true) ∨ ∃ xs c ys, cs = xs ++ c :: ys ∧ isBlank c = false := by
  by_cases blank : ∀ c ∈ cs, isBlank c = true
  · exact Or.inl blank
  · push Not at blank
    obtain ⟨c, member, full⟩ := blank
    obtain ⟨xs, ys, split⟩ := List.append_of_mem member
    exact Or.inr ⟨xs, c, ys, split, Bool.eq_false_iff.mpr full⟩

theorem trim_trimEnd (cs : List Char) : trim (trimEnd cs) = trim cs := by
  rcases blank_or_full cs with blank | ⟨xs, c, ys, rfl, full⟩
  · have none : trimEnd cs = [] := List.rdropWhile_eq_nil_iff.mpr blank
    rw [none, trim_of_blank blank]
    rfl
  · have twice : trimEnd (trimEnd ys) = trimEnd ys := List.rdropWhile_idempotent isBlank ys
    rw [trimEnd_append_full full, trim_append_full full, trim_append_full full, twice]

/-- Blanks around a text without any at its ends are all that is trimmed off. -/
theorem Padded.trim_eq {cs padded : List Char} (h : Padded cs padded) (whole : IsPhrase cs) :
    Text.trim padded = cs := by
  obtain ⟨before, after, blankBefore, blankAfter, rfl⟩ := h
  have started : trimStart (before ++ cs ++ after) = cs ++ after := by
    obtain ⟨c, rest, rfl, first⟩ := whole.exists_cons
    rw [List.append_assoc, trimStart, List.dropWhile_append_of_pos blankBefore]
    exact trimStart_cons_full first _
  obtain ⟨start, c, rfl, last⟩ := whole.exists_concat
  have none : trimEnd after = [] := List.rdropWhile_eq_nil_iff.mpr blankAfter
  rw [Text.trim, started, List.append_assoc, List.singleton_append, trimEnd_append_full last, none]

theorem collapse_trimStart (cs : List Char) : collapse (trimStart cs) = trimStart (collapse cs) := by
  induction cs with
  | nil => rfl
  | cons c cs ih =>
    cases blank : isBlank c with
    | true =>
      rw [trimStart_cons_blank blank, ih, collapse_cons_blank blank,
        trimStart_cons_blank (by decide), trimStart_trimStart]
    | false =>
      rw [trimStart_cons_full blank, collapse_cons_full blank, trimStart_cons_full blank]

/-- A text keeps its words, also those that begin before it. -/
theorem words_append_collapse (start cs : List Char) :
    words (start ++ collapse cs) = words (start ++ cs) := by
  induction cs generalizing start with
  | nil => rfl
  | cons c cs ih =>
    cases blank : isBlank c with
    | true =>
      rw [collapse_cons_blank blank, words_append_blank (by decide), words_append_blank blank,
        words_trimStart]
      exact congrArg (words start ++ ·) (ih [])
    | false =>
      rw [collapse_cons_full blank, List.append_cons, ih, ← List.append_cons]

theorem words_collapse (cs : List Char) : words (collapse cs) = words cs :=
  words_append_collapse [] cs

theorem words_of_collapse {xs ys : List Char} (same : collapse xs = collapse ys) :
    words xs = words ys := by
  rw [← words_collapse xs, same, words_collapse]

theorem collapse_append_full {c : Char} (full : isBlank c = false) (xs ys : List Char) :
    collapse (xs ++ c :: ys) = collapse xs ++ c :: collapse ys := by
  induction xs with
  | nil => exact collapse_cons_full full ys
  | cons x xs ih =>
    cases blank : isBlank x with
    | true =>
      rw [List.cons_append, collapse_cons_blank blank, ih, trimStart_append_full full,
        collapse_cons_blank blank]
      rfl
    | false =>
      rw [List.cons_append, collapse_cons_full blank, ih, collapse_cons_full blank]
      rfl

theorem trimEnd_gap (cs : List Char) :
    trimEnd (' ' :: trimStart cs) = if trim cs = [] then [] else ' ' :: trim cs := by
  rcases blank_or_full cs with blank | ⟨xs, c, ys, rfl, full⟩
  · have none : trimStart cs = [] := List.dropWhile_eq_nil_iff.mpr blank
    rw [none, trim_of_blank blank]
    decide
  · rw [trim_append_full full, trimStart_append_full full, ← List.cons_append,
      trimEnd_append_full full]
    simp

theorem squeeze_gap {w : List Char} (some : w ≠ []) (full : ∀ c ∈ w, isBlank c = false) {b : Char}
    (blank : isBlank b = true) (cs : List Char) :
    squeeze (w ++ b :: cs) = w ++ if squeeze cs = [] then [] else ' ' :: squeeze cs := by
  rw [squeeze, words_append_blank blank, words_word some full, squeeze]
  cases rest : words cs with
  | nil => simp
  | cons v vs =>
    have inner : [' '].intercalate (v :: vs) ≠ [] := by
      have first : v ≠ [] := (mem_words (rest ▸ List.mem_cons_self)).1
      cases vs with
      | nil => simpa using first
      | cons u us =>
        rw [List.intercalate_cons_cons]
        simp
    rw [if_neg inner, List.singleton_append, List.intercalate_cons_cons]
    simp

theorem trim_word_append {w : List Char} (some : w ≠ []) (full : ∀ c ∈ w, isBlank c = false)
    (cs : List Char) : trim (w ++ cs) = w ++ trimEnd cs := by
  obtain ⟨start, c, rfl⟩ := (List.eq_nil_or_concat w).resolve_left some
  have last : isBlank c = false := full c (by simp [List.concat_eq_append])
  have kept : trimStart start = start := by
    cases start with
    | nil => rfl
    | cons d ds => exact trimStart_cons_full (full d (by simp)) ds
  rw [List.concat_eq_append, List.append_assoc, List.singleton_append, trim_append_full last, kept]
  simp

/-- Squeezing a text collapses it and drops the blanks at its ends. -/
theorem squeeze_append_collapse {start : List Char} (full : ∀ c ∈ start, isBlank c = false)
    (cs : List Char) : squeeze (start ++ cs) = trim (start ++ collapse cs) := by
  induction cs generalizing start with
  | nil =>
    by_cases none : start = []
    · subst none
      rfl
    · have alone : words start = [start] := words_word none full
      rw [collapse, trim_word_append none full, squeeze, List.append_nil, alone]
      simp [trimEnd]
  | cons c cs ih =>
    cases blank : isBlank c with
    | true =>
      have inner : squeeze cs = trim (collapse cs) := @ih [] (by simp)
      rw [collapse_cons_blank blank]
      by_cases none : start = []
      · subst none
        have spaced : trim (' ' :: trimStart (collapse cs)) = trim (collapse cs) := by
          rw [← trim_trimStart, trimStart_cons_blank (by decide), trim_trimStart, trim_trimStart]
        rw [List.nil_append, List.nil_append, squeeze_cons_blank blank, inner, spaced]
      · rw [squeeze_gap none full blank, inner, trim_word_append none full, trimEnd_gap]
    | false =>
      have more : ∀ d ∈ start ++ [c], isBlank d = false := by
        simpa [or_imp, forall_and, blank] using full
      rw [collapse_cons_full blank, List.append_cons, ih more, ← List.append_cons]

theorem squeeze_eq_trim_collapse (cs : List Char) : squeeze cs = trim (collapse cs) :=
  @squeeze_append_collapse [] (by simp) cs

theorem padded_squeeze (cs : List Char) : Padded (squeeze cs) (collapse cs) := by
  rw [squeeze_eq_trim_collapse]
  exact .trim (collapse cs)

section Pieces

variable {c : Char}

theorem squeeze_pieces_trimStart (full : isBlank c = false) (cs : List Char) :
    ((trimStart cs).splitOn c).map squeeze = (cs.splitOn c).map squeeze := by
  induction cs with
  | nil => rfl
  | cons d cs ih =>
    cases blank : isBlank d with
    | true => rw [trimStart_cons_blank blank, ih, squeeze_pieces_cons_blank full blank]
    | false => rw [trimStart_cons_full blank]

private theorem trim_pieces_intercalate (full : isBlank c = false) {ps : List (List Char)}
    (some : ps ≠ []) (free : ∀ p ∈ ps, c ∉ p) :
    ((trimEnd (collapse ([c].intercalate ps))).splitOn c).map trim = ps.map squeeze := by
  have absent : ∀ {p}, c ∉ p → c ∉ collapse p := fun {p} outside member =>
    outside ((mem_of_words full (words_collapse p)).mp member)
  induction ps with
  | nil => exact absurd rfl some
  | cons p ps ih =>
    have outside := absent (free p List.mem_cons_self)
    cases ps with
    | nil =>
      have inner : c ∉ trimEnd (collapse p) := fun member =>
        outside ((mem_of_words full (words_trimEnd _)).mp member)
      rw [List.intercalate_singleton, splitOn_absent inner, List.map_singleton, trim_trimEnd,
        List.map_singleton, squeeze_eq_trim_collapse]
    | cons q qs =>
      rw [List.intercalate_cons_cons, List.append_assoc, List.singleton_append,
        collapse_append_full full, trimEnd_append_full full, splitOn_append_cons,
        splitOn_absent outside, List.map_append, ih (List.cons_ne_nil q qs)
          fun r member => free r (List.mem_cons_of_mem p member),
        List.map_singleton, ← squeeze_eq_trim_collapse]
      rfl

/-- The pieces of a squeezed text are those of the text itself, squeezed. -/
theorem trim_pieces_squeeze (full : isBlank c = false) (cs : List Char) :
    ((squeeze cs).splitOn c).map trim = (cs.splitOn c).map squeeze := by
  have free : ∀ p ∈ (trimStart cs).splitOn c, c ∉ p := fun p cut member => by
    have other := not_of_mem_splitOnP cut c member
    simp at other
  have some : (trimStart cs).splitOn c ≠ [] := List.splitOnP_ne_nil _ _
  have whole := trim_pieces_intercalate full some free
  rw [List.intercalate_splitOn, collapse_trimStart, squeeze_pieces_trimStart full] at whole
  rw [squeeze_eq_trim_collapse, trim, whole]

end Pieces

section Replacing

variable {old new : List Char}

theorem collapse_append_congr (start : List Char) {xs ys : List Char}
    (same : collapse xs = collapse ys) : collapse (start ++ xs) = collapse (start ++ ys) := by
  induction start with
  | nil => exact same
  | cons c cs ih =>
    rw [List.cons_append, List.cons_append, collapse, collapse, ih]

theorem collapse_of_full {cs : List Char} (full : ∀ c ∈ cs, isBlank c = false) :
    collapse cs = cs := by
  induction cs with
  | nil => rfl
  | cons c cs ih =>
    rw [collapse_cons_full (full c List.mem_cons_self),
      ih fun d member => full d (List.mem_cons_of_mem c member)]

theorem collapse_collapse (cs : List Char) : collapse (collapse cs) = collapse cs := by
  induction cs with
  | nil => rfl
  | cons c cs ih =>
    cases blank : isBlank c with
    | true =>
      rw [collapse_cons_blank blank, collapse_cons_blank (by decide), collapse_trimStart, ih,
        trimStart_trimStart]
    | false => rw [collapse_cons_full blank, collapse_cons_full blank, ih]

theorem prefix_of_prefix_collapse {cs : List Char} (full : ∀ c ∈ old, isBlank c = false)
    (h : old <+: collapse cs) : old <+: cs := by
  induction cs generalizing old with
  | nil => exact h
  | cons c cs ih =>
    cases old with
    | nil => exact List.nil_prefix
    | cons d ds =>
      cases blank : isBlank c with
      | true =>
        rw [collapse_cons_blank blank] at h
        have same := (List.cons_prefix_cons.mp h).1
        have first := full d List.mem_cons_self
        rw [same] at first
        cases first
      | false =>
        rw [collapse_cons_full blank] at h
        obtain ⟨rfl, rest⟩ := List.cons_prefix_cons.mp h
        have later := ih (fun c member => full c (List.mem_cons_of_mem d member)) rest
        exact List.cons_prefix_cons.mpr ⟨rfl, later⟩

/-- A text in which a phrase with single spaces stands first. -/
theorem collapse_phrase_append (whole : IsPhrase old) (even : collapse old = old)
    (cs : List Char) : collapse (old ++ cs) = old ++ collapse cs := by
  obtain ⟨start, c, rfl, full⟩ := whole.exists_concat
  rw [collapse_append_full full] at even
  have kept : collapse start = start := List.append_cancel_right even
  rw [List.append_assoc, List.singleton_append, collapse_append_full full, kept]
  simp

/-- A function that passes over a blank at the start may find a run of blanks there. -/
theorem collapse_of_passes {f : List Char → List Char}
    (passes : ∀ b cs, isBlank b = true → f (b :: cs) = b :: f cs) {b : Char}
    (blank : isBlank b = true) {cs : List Char} (later : collapse (f (collapse cs)) = collapse (f cs)) :
    collapse (f (collapse (b :: cs))) = collapse (f (b :: cs)) := by
  have dropped : ∀ ds, trimStart (f (trimStart ds)) = trimStart (f ds) := by
    intro ds
    induction ds with
    | nil => rfl
    | cons d ds ih =>
      cases first : isBlank d with
      | true => rw [trimStart_cons_blank first, ih, passes d ds first, trimStart_cons_blank first]
      | false => rw [trimStart_cons_full first]
  rw [collapse_cons_blank blank, passes _ _ (by decide), passes _ _ blank,
    collapse_cons_blank (by decide), collapse_cons_blank blank, ← collapse_trimStart, dropped,
    collapse_trimStart, later]

/-- Every place of a text that reads as the phrase, up to the width of blanks, spells it
out. -/
def Spells (phrase cs : List Char) : Prop :=
  ∀ ds, ds <:+ cs → phrase <+: collapse ds → phrase <+: ds

theorem collapse_replaceAll (whole : IsPhrase old) (even : collapse old = old) {cs : List Char}
    (spelled : Spells old cs) :
    collapse (replaceAll old new (collapse cs)) = collapse (replaceAll old new cs) := by
  induction cs using pieceInduction whole.1 with
  | nil => rfl
  | found rest ih =>
    have later := ih fun ds ends => spelled ds (ends.trans (List.suffix_append old rest))
    rw [collapse_phrase_append whole even, replaceAll_found whole.1, replaceAll_found whole.1]
    exact collapse_append_congr new later
  | other c cs here ih =>
    have later := ih fun ds ends => spelled ds (ends.trans (List.suffix_cons c cs))
    cases blank : isBlank c with
    | true =>
      refine collapse_of_passes (fun b ds blank => ?_) blank later
      have single : ∀ d ∈ [b], isBlank d = true := by simpa using blank
      exact whole.replaceAll_append_left new single
    | false =>
      have absent : ¬ old <+: c :: collapse cs := by
        rw [← collapse_cons_full blank]
        exact mt (spelled _ List.suffix_rfl) here
      rw [collapse_cons_full blank, replaceAll_other absent, collapse_cons_full blank,
        replaceAll_other here, collapse_cons_full blank, later]

end Replacing

/-- What a function makes of a text does not depend on how wide the blanks are, up to the
width of blanks. -/
def IgnoresWidth (f : List Char → List Char) : Prop :=
  ∀ cs, collapse (f (collapse cs)) = collapse (f cs)

namespace IgnoresWidth

variable {f g : List Char → List Char} {xs ys : List Char}

theorem congr (h : IgnoresWidth f) (same : collapse xs = collapse ys) :
    collapse (f xs) = collapse (f ys) := by
  rw [← h xs, same, h ys]

theorem comp (second : IgnoresWidth g) (first : IgnoresWidth f) :
    IgnoresWidth fun cs => g (f cs) := by
  intro cs
  exact second.congr (first cs)

/-- A piece without blanks is found whatever the width of blanks is. -/
theorem replaceAll {old : List Char} (some : old ≠ []) (full : old.any isBlank = false)
    (new : List Char) : IgnoresWidth (replaceAll old new) := by
  have each : ∀ c ∈ old, isBlank c = false := by simpa using full
  exact fun _ => collapse_replaceAll (isPhrase_of_full some each) (collapse_of_full each)
    fun _ _ reads => prefix_of_prefix_collapse each reads

theorem substitute {pairs : List (List Char × List Char)}
    (full : ∀ p ∈ pairs, p.1 ≠ [] ∧ p.1.any isBlank = false) :
    IgnoresWidth (substitute pairs) := by
  induction pairs with
  | nil => exact collapse_collapse
  | cons p pairs ih =>
    obtain ⟨some, first⟩ := full p List.mem_cons_self
    have rest := ih fun q member => full q (List.mem_cons_of_mem p member)
    exact rest.comp (.replaceAll some first p.2)

/-- Whether a piece without blanks stands in a text does not depend on the width of
blanks. -/
theorem infix_iff {piece : List Char} (some : piece ≠ []) (full : piece.any isBlank = false)
    (same : collapse xs = collapse ys) : piece <:+: xs ↔ piece <:+: ys := by
  have seen : ∀ c, (!isBlank c) = true → isBlank c = false := by simp
  -- The piece stands in a text if the text loses something when it is taken out.
  have counted : ∀ cs : List Char, piece <:+: cs ↔
      (deleteAll piece cs).countP (!isBlank ·) < cs.countP (!isBlank ·) := by
    intro cs
    constructor
    · refine countP_replaceAll_lt [] _ ?_
      obtain ⟨c, rest, rfl⟩ := List.exists_cons_of_ne_nil some
      have first : isBlank c = false := by simp_all
      exact List.countP_pos_iff.mpr ⟨c, List.mem_cons_self, by simp [first]⟩
    · intro fewer
      by_contra absent
      rw [deleteAll, replaceAll_absent some absent] at fewer
      exact absurd fewer (Nat.lt_irrefl _)
  have taken := (IgnoresWidth.replaceAll some full []).congr same
  rw [counted, counted, countP_of_words seen (words_of_collapse same), deleteAll, deleteAll,
    countP_of_words seen (words_of_collapse taken)]

end IgnoresWidth

end PrintRegistry.Text
