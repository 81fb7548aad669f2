import Mathlib.Data.List.DropRight
import PrintRegistry.Proofs.Text

/-!
Texts with blanks around them. A piece that has no blanks at its ends is found in a
text as it is found in the text without the blanks around it, and is replaced there.
-/

namespace PrintRegistry.Text

/-- A text that has no blanks at its ends and is not empty. -/
def IsPhrase (cs : List Char) : Prop :=
  cs ≠ [] ∧ cs.head?.any isBlank = false ∧ cs.getLast?.any isBlank = false

instance (cs : List Char) : Decidable (IsPhrase cs) :=
  inferInstanceAs (Decidable (_ ∧ _ ∧ _))

/-- A text with blanks before and after it. -/
def Padded (cs padded : List Char) : Prop :=
  ∃ before after, (∀ c ∈ before, isBlank c = true) ∧ (∀ c ∈ after, isBlank c = true) ∧
    padded = before ++ cs ++ after

/-- The text with pieces replaced one after another. -/
def substitute (pairs : List (List Char × List Char)) (cs : List Char) : List Char :=
  pairs.foldl (fun t c => replaceAll c.1 c.2 t) cs

section Phrases

variable {phrase u v before after cs : List Char}

theorem IsPhrase.exists_cons (h : IsPhrase phrase) :
    ∃ c rest, phrase = c :: rest ∧ isBlank c = false := by
  obtain ⟨c, rest, rfl⟩ := List.exists_cons_of_ne_nil h.1
  exact ⟨c, rest, rfl, by simpa using h.2.1⟩

theorem IsPhrase.exists_concat (h : IsPhrase phrase) :
    ∃ start c, phrase = start ++ [c] ∧ isBlank c = false := by
  obtain ⟨start, c, rfl⟩ := (List.eq_nil_or_concat phrase).resolve_left h.1
  rw [List.concat_eq_append] at h ⊢
  exact ⟨start, c, rfl, by simpa using h.2.2⟩

theorem isPhrase_of_full (some : phrase ≠ []) (full : ∀ c ∈ phrase, isBlank c = false) :
    IsPhrase phrase := by
  refine ⟨some, ?_, ?_⟩
  · rw [← Bool.not_eq_true, Option.any_eq_true]
    rintro ⟨c, first, blank⟩
    rw [full c (List.mem_of_head? first)] at blank
    cases blank
  · rw [← Bool.not_eq_true, Option.any_eq_true]
    rintro ⟨c, last, blank⟩
    rw [full c (List.mem_of_getLast? last)] at blank
    cases blank

theorem IsPhrase.trim (h : IsPhrase phrase) : trim phrase = phrase := by
  have started : trimStart phrase = phrase := by
    obtain ⟨c, rest, rfl, full⟩ := h.exists_cons
    simp [trimStart, full]
  obtain ⟨start, c, rfl, full⟩ := h.exists_concat
  rw [Text.trim, started]
  simp [trimEnd, full]

theorem IsPhrase.not_blank_start (h : IsPhrase (u ++ v)) (some : u ≠ []) :
    ¬ ∀ c ∈ u, isBlank c = true := by
  intro blank
  obtain ⟨c, rest, rfl⟩ := List.exists_cons_of_ne_nil some
  have full : isBlank c = false := by simpa using h.2.1
  rw [blank c List.mem_cons_self] at full
  cases full

theorem IsPhrase.not_blank_end (h : IsPhrase (u ++ v)) (some : v ≠ []) :
    ¬ ∀ c ∈ v, isBlank c = true := by
  intro blank
  obtain ⟨rest, c, rfl⟩ := (List.eq_nil_or_concat v).resolve_left some
  have full : isBlank c = false := by simpa [List.concat_eq_append] using h.2.2
  rw [blank c (by simp [List.concat_eq_append])] at full
  cases full

theorem IsPhrase.not_infix_blank (h : IsPhrase phrase) (blank : ∀ c ∈ cs, isBlank c = true) :
    ¬ phrase <:+: cs := by
  intro found
  have whole : IsPhrase (phrase ++ []) := by rwa [List.append_nil]
  exact whole.not_blank_start h.1 fun c member => blank c (found.subset member)

theorem IsPhrase.infix_append_left (h : IsPhrase phrase)
    (blank : ∀ c ∈ before, isBlank c = true) : phrase <:+: before ++ cs ↔ phrase <:+: cs := by
  constructor
  · intro found
    rcases List.infix_append_iff.mp found with left | right | ⟨u, v, rfl, ends, starts⟩
    · exact absurd left (h.not_infix_blank blank)
    · exact right
    · by_cases none : u = []
      · subst none
        exact starts.isInfix
      · exact absurd (fun c member => blank c (ends.subset member)) (h.not_blank_start none)
  · intro found
    exact found.trans (List.suffix_append before cs).isInfix

theorem IsPhrase.infix_append_right (h : IsPhrase phrase)
    (blank : ∀ c ∈ after, isBlank c = true) : phrase <:+: cs ++ after ↔ phrase <:+: cs := by
  constructor
  · intro found
    rcases List.infix_append_iff.mp found with left | right | ⟨u, v, rfl, ends, starts⟩
    · exact left
    · exact absurd right (h.not_infix_blank blank)
    · by_cases none : v = []
      · subst none
        simpa using ends.isInfix
      · exact absurd (fun c member => blank c (starts.subset member)) (h.not_blank_end none)
  · intro found
    exact found.trans (List.prefix_append cs after).isInfix

theorem IsPhrase.replaceAll_append_left (h : IsPhrase phrase) (new : List Char)
    (blank : ∀ c ∈ before, isBlank c = true) :
    replaceAll phrase new (before ++ cs) = before ++ replaceAll phrase new cs := by
  rw [replaceAll_append h.1, replaceAll_absent h.1 (h.not_infix_blank blank)]
  rintro u v rfl some - ends -
  exact h.not_blank_start some fun c member => blank c (ends.subset member)

theorem IsPhrase.replaceAll_append_right (h : IsPhrase phrase) (new : List Char)
    (blank : ∀ c ∈ after, isBlank c = true) :
    replaceAll phrase new (cs ++ after) = replaceAll phrase new cs ++ after := by
  rw [replaceAll_append h.1, replaceAll_absent h.1 (h.not_infix_blank blank)]
  rintro u v rfl - some - starts
  exact h.not_blank_end some fun c member => blank c (starts.subset member)

end Phrases

namespace Padded

variable {cs padded : List Char}

theorem self (cs : List Char) : Padded cs cs :=
  ⟨[], [], by simp, by simp, by simp⟩

theorem of_all (before after : List Char) (left : before.all isBlank = true)
    (right : after.all isBlank = true) : Padded cs (before ++ cs ++ after) :=
  ⟨before, after, List.all_eq_true.mp left, List.all_eq_true.mp right, rfl⟩

theorem trim (cs : List Char) : Padded (trim cs) cs := by
  refine ⟨cs.takeWhile isBlank, (trimStart cs).rtakeWhile isBlank, ?_, ?_, ?_⟩
  · exact fun _ member => List.mem_takeWhile_imp member
  · exact fun _ member => List.mem_rtakeWhile_imp member
  · have whole : Text.trim cs ++ (trimStart cs).rtakeWhile isBlank = trimStart cs :=
      List.rdropWhile_append_rtakeWhile
    rw [List.append_assoc, whole]
    exact List.takeWhile_append_dropWhile.symm

theorem words (h : Padded cs padded) : Text.words padded = Text.words cs := by
  obtain ⟨before, after, blankBefore, blankAfter, rfl⟩ := h
  have right : Text.words (before ++ cs ++ after) = Text.words (before ++ cs) := by
    clear blankBefore
    induction after using List.reverseRecOn with
    | nil => rw [List.append_nil]
    | append_singleton after b ih =>
      rw [← List.append_assoc, words_concat_blank (blankAfter b (by simp))]
      exact ih fun c member => blankAfter c (List.mem_append_left [b] member)
  rw [right]
  clear blankAfter right
  induction before with
  | nil => rfl
  | cons b before ih =>
    rw [List.cons_append, words_cons_blank (blankBefore b List.mem_cons_self)]
    exact ih fun c member => blankBefore c (List.mem_cons_of_mem b member)

theorem infix_iff (h : Padded cs padded) {phrase : List Char} (whole : IsPhrase phrase) :
    phrase <:+: padded ↔ phrase <:+: cs := by
  obtain ⟨before, after, blankBefore, blankAfter, rfl⟩ := h
  rw [whole.infix_append_right blankAfter, whole.infix_append_left blankBefore]

theorem replaceAll (h : Padded cs padded) {old : List Char} (whole : IsPhrase old)
    (new : List Char) : Padded (replaceAll old new cs) (replaceAll old new padded) := by
  obtain ⟨before, after, blankBefore, blankAfter, rfl⟩ := h
  refine ⟨before, after, blankBefore, blankAfter, ?_⟩
  rw [whole.replaceAll_append_right new blankAfter, whole.replaceAll_append_left new blankBefore]

theorem substitute (h : Padded cs padded) {pairs : List (List Char × List Char)}
    (whole : ∀ c ∈ pairs, IsPhrase c.1) : Padded (substitute pairs cs) (substitute pairs padded) := by
  induction pairs generalizing cs padded with
  | nil => exact h
  | cons c pairs ih =>
    exact ih (h.replaceAll (whole c List.mem_cons_self) c.2)
      fun d member => whole d (List.mem_cons_of_mem c member)

end Padded

section Substituting

variable {pairs : List (List Char × List Char)} {c : Char}

/-- A text without any of the pieces stays as it is. -/
theorem substitute_absent {cs : List Char} (absent : ∀ p ∈ pairs, ¬ p.1 <:+: cs) :
    substitute pairs cs = cs := by
  induction pairs with
  | nil => rfl
  | cons p pairs ih =>
    have outside := absent p List.mem_cons_self
    have some : p.1 ≠ [] := fun none => outside (none ▸ List.nil_infix)
    have rest := ih fun q member => absent q (List.mem_cons_of_mem p member)
    rw [substitute, List.foldl_cons, replaceAll_absent some outside]
    exact rest

theorem not_mem_substitute (free : ∀ p ∈ pairs, p.1 ≠ [] ∧ c ∉ p.2) {cs : List Char}
    (absent : c ∉ cs) : c ∉ substitute pairs cs := by
  induction pairs generalizing cs with
  | nil => exact absent
  | cons p pairs ih =>
    obtain ⟨some, outside⟩ := free p List.mem_cons_self
    refine ih (fun q member => free q (List.mem_cons_of_mem p member)) fun member => ?_
    exact (mem_replaceAll some member).elim outside absent

/-- Texts with a character between them that is in none of the pieces are treated one by
one. -/
theorem substitute_append_cons (free : ∀ p ∈ pairs, p.1 ≠ [] ∧ c ∉ p.1) (xs ys : List Char) :
    substitute pairs (xs ++ c :: ys) = substitute pairs xs ++ c :: substitute pairs ys := by
  induction pairs generalizing xs ys with
  | nil => rfl
  | cons p pairs ih =>
    obtain ⟨some, outside⟩ := free p List.mem_cons_self
    have rest := ih (fun q member => free q (List.mem_cons_of_mem p member))
      (replaceAll p.1 p.2 xs) (replaceAll p.1 p.2 ys)
    rw [← replaceAll_append_cons outside some] at rest
    exact rest

end Substituting

end PrintRegistry.Text
