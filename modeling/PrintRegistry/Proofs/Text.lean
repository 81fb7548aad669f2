import Mathlib.Algebra.Order.BigOperators.Group.List
import Mathlib.Algebra.Order.Ring.Nat
import Mathlib.Data.Char
import Mathlib.Data.List.Induction
import Mathlib.Data.List.Lex
import PrintRegistry.Text.Ascending
import PrintRegistry.Text.Blank
import PrintRegistry.Text.Search

/-!
Facts about the functions on text: replacing pieces, cutting a text into words,
and sorting texts.
-/

namespace PrintRegistry.Text

/-- Neither text is an ending of the other. -/
def Apart (e f : List Char) : Prop :=
  ¬ e <:+ f ∧ ¬ f <:+ e

instance (e f : List Char) : Decidable (Apart e f) :=
  inferInstanceAs (Decidable (_ ∧ _))

theorem Apart.not_suffix {e f cs : List Char} (apart : Apart e f) (ends : f <:+ cs) :
    ¬ e <:+ cs := by
  intro other
  rcases List.suffix_or_suffix_of_suffix other ends with inside | inside
  · exact apart.1 inside
  · exact apart.2 inside

theorem dropEnding?_eq_some {ending cs start : List Char} (h : dropEnding? ending cs = some start) :
    cs = start ++ ending := by
  obtain ⟨rest, found, rfl⟩ := Option.map_eq_some_iff.mp h
  have whole : ending.reverse ++ rest = cs.reverse := List.isPrefixOf?_eq_some_iff_append_eq.mp found
  rw [← List.reverse_inj, ← whole]
  simp

theorem dropEnding?_append (start ending : List Char) :
    dropEnding? ending (start ++ ending) = some start := by
  have found : ending.reverse.isPrefixOf? (start ++ ending).reverse = some start.reverse := by
    rw [List.isPrefixOf?_eq_some_iff_append_eq, List.reverse_append]
  rw [dropEnding?, found, Option.map_some, List.reverse_reverse]

theorem withoutEnding?_append (base ending : String) :
    withoutEnding? (base ++ ending) ending = some base := by
  simp [withoutEnding?, dropEnding?_append]

theorem withoutEnding?_eq_some_iff {s ending base : String} :
    withoutEnding? s ending = some base ↔ s = base ++ ending := by
  constructor
  · intro found
    obtain ⟨start, dropped, rfl⟩ := Option.map_eq_some_iff.mp found
    rw [← String.toList_inj, String.toList_append, String.toList_ofList]
    exact dropEnding?_eq_some dropped
  · rintro rfl
    exact withoutEnding?_append base ending

/-- A string that ends otherwise does not lose an ending that neither contains nor ends the
one it has. -/
theorem withoutEnding?_append_other {other ending : String} (base : String)
    (shorter : ¬ ending.toList <:+ other.toList) (longer : ¬ other.toList <:+ ending.toList) :
    withoutEnding? (base ++ other) ending = none := by
  rw [withoutEnding?, Option.map_eq_none_iff]
  cases dropped : dropEnding? ending.toList (base ++ other).toList with
  | none => rfl
  | some start =>
    have whole : base.toList ++ other.toList = start ++ ending.toList := by
      simpa using dropEnding?_eq_some dropped
    have apart : Apart ending.toList other.toList := ⟨shorter, longer⟩
    exact absurd (List.suffix_append start ending.toList)
      (apart.not_suffix (whole ▸ List.suffix_append base.toList other.toList))

theorem occurs_iff (piece cs : List Char) : occurs piece cs = true ↔ piece <:+: cs := by
  induction cs with
  | nil => rw [occurs, List.isEmpty_iff, List.infix_nil]
  | cons c cs ih =>
    rw [occurs, Bool.or_eq_true, List.isPrefixOf_iff_prefix, ih, List.infix_cons_iff]

section Replacing

variable {old new : List Char}

theorem replaceFrom_drop (k : Nat) (cs : List Char) :
    replaceFrom old new k cs = replaceAll old new (cs.drop k) := by
  induction k generalizing cs with
  | zero => rfl
  | succ k ih =>
    cases cs with
    | nil => rfl
    | cons c cs => exact ih cs

theorem replaceAll_found (some : old ≠ []) (rest : List Char) :
    replaceAll old new (old ++ rest) = new ++ replaceAll old new rest := by
  obtain ⟨c, cs, rfl⟩ := List.exists_cons_of_ne_nil some
  have found : (c :: cs).isPrefixOf (c :: (cs ++ rest)) = true :=
    List.isPrefixOf_iff_prefix.mpr (List.prefix_append (c :: cs) rest)
  rw [replaceAll, List.cons_append, replaceFrom, if_pos found, replaceFrom_drop]
  simp

theorem replaceAll_other {c : Char} {cs : List Char} (other : ¬ old <+: c :: cs) :
    replaceAll old new (c :: cs) = c :: replaceAll old new cs := by
  rw [replaceAll, replaceFrom, if_neg (fun found => other (List.isPrefixOf_iff_prefix.mp found))]
  rfl

/-- Induction on a text as it is searched for a piece. -/
theorem pieceInduction {motive : List Char → Prop} (some : old ≠ []) (nil : motive [])
    (found : ∀ rest, motive rest → motive (old ++ rest))
    (other : ∀ c cs, ¬ old <+: c :: cs → motive cs → motive (c :: cs)) (cs : List Char) :
    motive cs := by
  match cs with
  | [] => exact nil
  | c :: cs =>
    by_cases here : old <+: c :: cs
    · obtain ⟨rest, same⟩ := here
      have shorter : rest.length < cs.length + 1 := by
        have positive := List.length_pos_of_ne_nil some
        rw [← List.length_cons (a := c), ← same, List.length_append]
        omega
      exact same ▸ found rest (pieceInduction some nil found other rest)
    · exact other c cs here (pieceInduction some nil found other cs)
termination_by cs.length
decreasing_by
  · exact shorter
  · exact Nat.lt_succ_self cs.length

/-- The new piece stands where the old one was found. -/
theorem infix_replaceAll (new : List Char) (some : old ≠ []) {cs : List Char} (h : old <:+: cs) :
    new <:+: replaceAll old new cs := by
  induction cs using pieceInduction some with
  | nil => exact absurd (List.infix_nil.mp h) some
  | found rest _ =>
    rw [replaceAll_found some]
    exact (List.prefix_append new _).isInfix
  | other c cs here ih =>
    rw [replaceAll_other here]
    exact (ih ((List.infix_cons_iff.mp h).resolve_left here)).trans (List.suffix_cons c _).isInfix

theorem replaceAll_absent (some : old ≠ []) {cs : List Char} (h : ¬ old <:+: cs) :
    replaceAll old new cs = cs := by
  induction cs using pieceInduction some with
  | nil => rfl
  | found rest _ => exact absurd (List.prefix_append old rest).isInfix h
  | other c cs here ih =>
    rw [replaceAll_other here, ih fun later => h (later.trans (List.suffix_cons c cs).isInfix)]

theorem mem_replaceAll (some : old ≠ []) {c : Char} {cs : List Char}
    (h : c ∈ replaceAll old new cs) : c ∈ new ∨ c ∈ cs := by
  induction cs using pieceInduction some with
  | nil => exact Or.inr h
  | found rest ih =>
    rw [replaceAll_found some, List.mem_append] at h
    rcases h with here | later
    · exact Or.inl here
    · exact (ih later).imp_right (List.mem_append_right old)
  | other d cs here ih =>
    rw [replaceAll_other here, List.mem_cons] at h
    rcases h with same | later
    · exact Or.inr (same ▸ List.mem_cons_self)
    · exact (ih later).imp_right (List.mem_cons_of_mem d)

/-- What is found in a text of two parts is found in the parts, unless a piece begins in
the first part and ends in the second. -/
theorem replaceAll_append (some : old ≠ []) {xs ys : List Char}
    (apart : ∀ u v, old = u ++ v → u ≠ [] → v ≠ [] → u <:+ xs → ¬ v <+: ys) :
    replaceAll old new (xs ++ ys) = replaceAll old new xs ++ replaceAll old new ys := by
  induction xs using pieceInduction some with
  | nil => rfl
  | found rest ih =>
    rw [List.append_assoc, replaceAll_found some, replaceAll_found some, List.append_assoc,
      ih fun u v cut left right ends =>
        apart u v cut left right (ends.trans (List.suffix_append old rest))]
  | other c cs here ih =>
    have absent : ¬ old <+: c :: (cs ++ ys) := by
      rintro ⟨rest, found⟩
      rw [← List.cons_append] at found
      rcases List.append_eq_append_iff.mp found with ⟨more, first, -⟩ | ⟨v, first, second⟩
      · exact here ⟨more, first.symm⟩
      · by_cases all : v = []
        · subst all
          exact here ⟨[], by simpa using first⟩
        · exact apart (c :: cs) v first (List.cons_ne_nil c cs) all List.suffix_rfl
            ⟨rest, second.symm⟩
    rw [replaceAll_other here, List.cons_append, replaceAll_other absent, List.cons_append,
      ih fun u v cut left right ends =>
        apart u v cut left right (ends.trans (List.suffix_cons c cs))]

theorem replaceAll_append_cons {c : Char} (absent : c ∉ old) (some : old ≠ [])
    (xs ys : List Char) :
    replaceAll old new (xs ++ c :: ys) = replaceAll old new xs ++ c :: replaceAll old new ys := by
  have other : ¬ old <+: c :: ys := by
    intro found
    cases old with
    | nil => exact some rfl
    | cons d ds =>
      obtain ⟨same, -⟩ := List.cons_prefix_cons.mp found
      exact absent (same ▸ List.mem_cons_self)
  rw [replaceAll_append some, replaceAll_other other]
  intro u v cut _ right _ starts
  obtain ⟨d, ds, rfl⟩ := List.exists_cons_of_ne_nil right
  obtain ⟨rfl, -⟩ := List.cons_prefix_cons.mp starts
  exact absent (cut ▸ List.mem_append_right u List.mem_cons_self)

/-- A piece without a certain character stands before that character or after it. -/
theorem infix_append_cons_iff {c : Char} {piece : List Char} (absent : c ∉ piece)
    (xs ys : List Char) : piece <:+: xs ++ c :: ys ↔ piece <:+: xs ∨ piece <:+: ys := by
  have none : ∀ v, c ∉ v → v <+: c :: ys → v = [] := by
    intro v outside starts
    cases v with
    | nil => rfl
    | cons d ds =>
      obtain ⟨rfl, -⟩ := List.cons_prefix_cons.mp starts
      exact absurd List.mem_cons_self outside
  constructor
  · intro found
    rcases List.infix_append_iff.mp found with left | right | ⟨u, v, rfl, ends, starts⟩
    · exact Or.inl left
    · rcases List.infix_cons_iff.mp right with here | later
      · obtain rfl := none piece absent here
        exact Or.inr List.nil_infix
      · exact Or.inr later
    · obtain rfl := none v (fun member => absent (List.mem_append_right u member)) starts
      exact Or.inl (by simpa using ends.isInfix)
  · rintro (left | right)
    · exact left.trans (List.prefix_append xs _).isInfix
    · exact right.trans ((List.suffix_cons c ys).trans (List.suffix_append xs _)).isInfix

theorem countP_replaceAll_le (p : Char → Bool) (some : old ≠ []) (less : new.countP p ≤ old.countP p)
    (cs : List Char) : (replaceAll old new cs).countP p ≤ cs.countP p := by
  induction cs using pieceInduction some with
  | nil => exact Nat.le_refl _
  | found rest ih =>
    rw [replaceAll_found some, List.countP_append, List.countP_append]
    exact Nat.add_le_add less ih
  | other c cs here ih =>
    rw [replaceAll_other here, List.countP_cons, List.countP_cons]
    exact Nat.add_le_add_right ih _

theorem countP_replaceAll_lt (new : List Char) (p : Char → Bool) (less : new.countP p < old.countP p)
    {cs : List Char} (h : old <:+: cs) : (replaceAll old new cs).countP p < cs.countP p := by
  have some : old ≠ [] := by
    rintro rfl
    simp at less
  induction cs using pieceInduction some with
  | nil => exact absurd (List.infix_nil.mp h) some
  | found rest _ =>
    have later := countP_replaceAll_le p some (Nat.le_of_lt less) rest
    rw [replaceAll_found some, List.countP_append, List.countP_append]
    omega
  | other c cs here ih =>
    rw [replaceAll_other here, List.countP_cons, List.countP_cons]
    exact Nat.add_lt_add_right (ih ((List.infix_cons_iff.mp h).resolve_left here)) _

/-- Leaving pieces out one after another leaves a text as it is exactly if it has
none of them; else characters that each of them has become fewer. -/
theorem countP_foldl_deleteAll (p : Char → Bool) {pieces : List (List Char)}
    (marked : ∀ piece ∈ pieces, 0 < piece.countP p) (cs : List Char) :
    (pieces.foldl (fun t piece => deleteAll piece t) cs).countP p < cs.countP p ∨
      (∀ piece ∈ pieces, ¬ piece <:+: cs) ∧
        pieces.foldl (fun t piece => deleteAll piece t) cs = cs := by
  induction pieces generalizing cs with
  | nil => exact Or.inr ⟨by simp, rfl⟩
  | cons piece pieces ih =>
    have here := marked piece List.mem_cons_self
    have later := ih (fun other member => marked other (List.mem_cons_of_mem piece member))
      (deleteAll piece cs)
    rw [List.foldl_cons]
    by_cases present : piece <:+: cs
    · have fewer := countP_replaceAll_lt [] p here present
      rw [← deleteAll] at fewer
      rcases later with less | ⟨-, same⟩
      · exact Or.inl (less.trans fewer)
      · exact Or.inl (same.symm ▸ fewer)
    · have some : piece ≠ [] := by
        rintro rfl
        simp at here
      have unchanged : deleteAll piece cs = cs := replaceAll_absent some present
      rw [unchanged] at later ⊢
      refine later.imp_right fun ⟨absent, same⟩ => ⟨fun other member => ?_, same⟩
      rcases List.mem_cons.mp member with rfl | member
      · exact present
      · exact absent other member

theorem prefix_append_cons_iff {c : Char} (absent : c ∉ old) (xs ys : List Char) :
    old <+: xs ++ c :: ys ↔ old <+: xs := by
  constructor
  · rintro ⟨rest, whole⟩
    rcases List.append_eq_append_iff.mp whole with ⟨more, same, -⟩ | ⟨more, same, after⟩
    · exact ⟨more, same.symm⟩
    · cases more with
      | nil => exact ⟨[], by simpa using same⟩
      | cons d more =>
        obtain ⟨rfl, -⟩ := List.cons.inj after
        exact absurd (by simp [same]) absent
  · exact fun found => found.trans (List.prefix_append xs _)

theorem replaceFirst_absent {cs : List Char} (absent : ¬ old <:+: cs) :
    replaceFirst old new cs = cs := by
  induction cs with
  | nil => rfl
  | cons c cs ih =>
    obtain ⟨here, later⟩ := not_or.mp fun found => absent (List.infix_cons_iff.mpr found)
    rw [replaceFirst, if_neg fun found => here (List.isPrefixOf_iff_prefix.mp found), ih later]

theorem mem_replaceFirst {c : Char} {cs : List Char} (h : c ∈ replaceFirst old new cs) :
    c ∈ new ∨ c ∈ cs := by
  induction cs with
  | nil => cases h
  | cons d cs ih =>
    rw [replaceFirst] at h
    split at h
    · exact (List.mem_append.mp h).imp_right List.mem_of_mem_drop
    · rcases List.mem_cons.mp h with rfl | later
      · exact Or.inr List.mem_cons_self
      · exact (ih later).imp_right (List.mem_cons_of_mem d)

/-- A piece without a certain character is replaced before that character if it is not
found after it. -/
theorem replaceFirst_append_cons_left {c : Char} {xs ys : List Char} (absent : c ∉ old)
    (after : ¬ old <:+: ys) :
    replaceFirst old new (xs ++ c :: ys) = replaceFirst old new xs ++ c :: ys := by
  induction xs with
  | nil =>
    apply replaceFirst_absent
    rw [infix_append_cons_iff absent]
    rintro (none | found)
    · exact after (List.infix_nil.mp none ▸ List.nil_infix)
    · exact after found
  | cons x xs ih =>
    have same := prefix_append_cons_iff absent (x :: xs) ys
    rw [List.cons_append] at same
    simp only [List.cons_append, replaceFirst, List.isPrefixOf_iff_prefix, same]
    by_cases found : old <+: x :: xs
    · rw [if_pos found, if_pos found, List.append_assoc, ← List.cons_append,
        List.drop_append_of_le_length found.length_le]
    · rw [if_neg found, if_neg found, ih, List.cons_append]

/-- A piece without a certain character is replaced after that character if it is not
found before it. -/
theorem replaceFirst_append_cons_right {c : Char} {xs ys : List Char} (absent : c ∉ old)
    (before : ¬ old <:+: xs) :
    replaceFirst old new (xs ++ c :: ys) = xs ++ c :: replaceFirst old new ys := by
  induction xs with
  | nil =>
    have here : ¬ old <+: c :: ys := by
      rw [← List.nil_append (c :: ys), prefix_append_cons_iff absent]
      exact fun found => before found.isInfix
    rw [List.nil_append, replaceFirst, if_neg fun found => here (List.isPrefixOf_iff_prefix.mp found),
      List.nil_append]
  | cons x xs ih =>
    obtain ⟨here, later⟩ := not_or.mp fun found => before (List.infix_cons_iff.mpr found)
    have same := prefix_append_cons_iff absent (x :: xs) ys
    rw [List.cons_append] at same
    rw [List.cons_append, replaceFirst,
      if_neg fun found => here (same.mp (List.isPrefixOf_iff_prefix.mp found)), ih later,
      List.cons_append]

end Replacing

section Words

theorem words_append_blank {b : Char} (blank : isBlank b = true) (xs ys : List Char) :
    words (xs ++ b :: ys) = words xs ++ words ys := by
  rw [words, List.splitOnP_append_cons xs ys blank, List.filter_append]
  rfl

theorem words_cons_blank {b : Char} (blank : isBlank b = true) (cs : List Char) :
    words (b :: cs) = words cs :=
  words_append_blank blank [] cs

theorem words_concat_blank {b : Char} (blank : isBlank b = true) (cs : List Char) :
    words (cs ++ [b]) = words cs := by
  rw [words_append_blank blank]
  exact List.append_nil _

theorem words_word {w : List Char} (some : w ≠ []) (full : ∀ c ∈ w, isBlank c = false) :
    words w = [w] := by
  rw [words, List.splitOnP_eq_singleton full]
  simp [some]

/-- No piece of a text has a character at which the text is cut. -/
theorem not_of_mem_splitOnP {p : Char → Bool} {piece cs : List Char} (h : piece ∈ cs.splitOnP p) :
    ∀ c ∈ piece, p c = false := by
  induction cs generalizing piece with
  | nil =>
    obtain rfl : piece = [] := by simpa using h
    simp
  | cons c cs ih =>
    rw [List.splitOnP_cons_eq_if_modifyHead] at h
    split at h
    · rcases List.mem_cons.mp h with rfl | later
      · simp
      · exact ih later
    · rename_i other
      obtain ⟨first, rest, cut⟩ := List.exists_cons_of_ne_nil (List.splitOnP_ne_nil p cs)
      rw [cut, List.modifyHead_cons] at h
      rcases List.mem_cons.mp h with rfl | later
      · have inFirst := ih (cut ▸ List.mem_cons_self)
        simpa [other] using inFirst
      · exact ih (cut ▸ List.mem_cons_of_mem first later)

/-- Words are not empty and have no blanks in them. -/
theorem mem_words {w cs : List Char} (h : w ∈ words cs) :
    w ≠ [] ∧ ∀ c ∈ w, isBlank c = false := by
  obtain ⟨piece, some⟩ := List.mem_filter.mp h
  exact ⟨by simpa using some, not_of_mem_splitOnP piece⟩

theorem squeeze_append {xs ys : List Char} (left : words xs ≠ []) (right : words ys ≠ []) :
    squeeze (xs ++ ' ' :: ys) = squeeze xs ++ ' ' :: squeeze ys := by
  rw [squeeze, words_append_blank (by decide), squeeze, squeeze]
  generalize words xs = vs at left ⊢
  obtain ⟨w, ws, more⟩ := List.exists_cons_of_ne_nil right
  rw [more]
  induction vs with
  | nil => exact absurd rfl left
  | cons v vs ih =>
    cases vs with
    | nil => simp [List.intercalate_cons_cons]
    | cons v' vs =>
      have rest := ih (List.cons_ne_nil v' vs)
      rw [List.cons_append, List.cons_append, List.intercalate_cons_cons,
        ← List.cons_append, rest, List.intercalate_cons_cons]
      simp

theorem words_intercalate {ws : List (List Char)}
    (full : ∀ w ∈ ws, w ≠ [] ∧ ∀ c ∈ w, isBlank c = false) : words ([' '].intercalate ws) = ws := by
  induction ws with
  | nil => rfl
  | cons w ws ih =>
    have first := full w List.mem_cons_self
    have rest := ih fun v member => full v (List.mem_cons_of_mem w member)
    cases ws with
    | nil => simpa using words_word first.1 first.2
    | cons v vs =>
      rw [List.intercalate_cons_cons, List.append_assoc, List.singleton_append,
        words_append_blank (by decide), words_word first.1 first.2, rest]
      rfl

theorem words_squeeze (cs : List Char) : words (squeeze cs) = words cs :=
  words_intercalate fun _ member => mem_words member

@[simp] theorem squeeze_squeeze (cs : List Char) : squeeze (squeeze cs) = squeeze cs := by
  rw [squeeze, words_squeeze, squeeze]

theorem squeeze_cons_blank {b : Char} (blank : isBlank b = true) (cs : List Char) :
    squeeze (b :: cs) = squeeze cs := by
  rw [squeeze, words_cons_blank blank, squeeze]

theorem squeeze_concat_blank {b : Char} (blank : isBlank b = true) (cs : List Char) :
    squeeze (cs ++ [b]) = squeeze cs := by
  rw [squeeze, words_concat_blank blank, squeeze]

theorem words_trimStart (cs : List Char) : words (trimStart cs) = words cs := by
  induction cs with
  | nil => rfl
  | cons c cs ih =>
    rw [trimStart, List.dropWhile_cons]
    split
    · rename_i blank
      rw [words_cons_blank blank]
      exact ih
    · rfl

theorem words_trimEnd (cs : List Char) : words (trimEnd cs) = words cs := by
  induction cs using List.reverseRecOn with
  | nil => rfl
  | append_singleton cs c ih =>
    rw [trimEnd, List.reverse_concat, List.dropWhile_cons]
    split
    · rename_i blank
      rw [words_concat_blank blank]
      exact ih
    · rw [List.reverse_cons, List.reverse_reverse]

theorem words_trim (cs : List Char) : words (trim cs) = words cs := by
  rw [trim, words_trimEnd, words_trimStart]

@[simp] theorem squeeze_trim (cs : List Char) : squeeze (trim cs) = squeeze cs := by
  rw [squeeze, words_trim, squeeze]

/-- The characters of a text that are not blank are those of its words. -/
theorem flatten_words (cs : List Char) : (words cs).flatten = cs.filter (!isBlank ·) := by
  have pieces : (words cs).flatten = (cs.splitOnP isBlank).flatten :=
    List.flatten_filter_ne_nil
  rw [pieces]
  clear pieces
  induction cs with
  | nil => rfl
  | cons c cs ih =>
    obtain ⟨first, rest, cut⟩ := List.exists_cons_of_ne_nil (List.splitOnP_ne_nil isBlank cs)
    rw [List.splitOnP_cons_eq_if_modifyHead]
    by_cases blank : isBlank c = true
    · simpa [blank] using ih
    · simpa [blank, cut] using ih

/-- Texts with the same words have the same characters, as often, that are not
blank. -/
theorem countP_of_words {p : Char → Bool} (full : ∀ c, p c = true → isBlank c = false)
    {xs ys : List Char} (h : words xs = words ys) : xs.countP p = ys.countP p := by
  have counted : ∀ cs : List Char, (words cs).flatten.countP p = cs.countP p := by
    intro cs
    rw [flatten_words, List.countP_filter]
    refine List.countP_congr fun c _ => ?_
    by_cases here : p c = true
    · simp [here, full c here]
    · simp [here]
  rw [← counted xs, h, counted]

theorem mem_of_words {c : Char} (full : isBlank c = false) {xs ys : List Char}
    (h : words xs = words ys) : c ∈ xs ↔ c ∈ ys := by
  have counted := countP_of_words (p := (· == c)) (fun d same => beq_iff_eq.mp same ▸ full) h
  rw [← List.count_pos_iff, ← List.count_pos_iff]
  exact iff_of_eq (congrArg (0 < ·) counted)

end Words

section Pieces

variable {c : Char}

theorem splitOn_append_cons (xs ys : List Char) :
    (xs ++ c :: ys).splitOn c = xs.splitOn c ++ ys.splitOn c :=
  List.splitOnP_append_cons xs ys (beq_self_eq_true c)

theorem splitOn_absent {cs : List Char} (absent : c ∉ cs) : cs.splitOn c = [cs] :=
  List.splitOnP_eq_singleton fun d member => by
    rw [beq_eq_false_iff_ne]
    exact fun same => absent (same ▸ member)

theorem squeeze_pieces_cons_blank (full : isBlank c = false) {b : Char} (blank : isBlank b = true)
    (cs : List Char) : ((b :: cs).splitOn c).map squeeze = (cs.splitOn c).map squeeze := by
  have other : ¬ (b == c) = true := by
    rintro same
    rw [beq_iff_eq.mp same, full] at blank
    cases blank
  obtain ⟨piece, pieces, cut⟩ := List.exists_cons_of_ne_nil (List.splitOnP_ne_nil (· == c) cs)
  rw [List.splitOn_eq_splitOnP, List.splitOnP_cons_eq_if_modifyHead, if_neg other,
    List.splitOn_eq_splitOnP, cut, List.modifyHead_cons, List.map_cons, List.map_cons,
    squeeze_cons_blank blank]

end Pieces

section Ascending

theorem sum_place_le (weight : List Char → Nat) (t : List Char) (us : List (List Char)) :
    ((place t us).map weight).sum ≤ weight t + (us.map weight).sum := by
  induction us with
  | nil => simp [place]
  | cons u us ih =>
    rw [place]
    split
    · simp
    · split
      · simp
      · simp only [List.map_cons, List.sum_cons]
        omega

theorem sum_ascending_le (weight : List Char → Nat) (ts : List (List Char)) :
    ((ascending ts).map weight).sum ≤ (ts.map weight).sum := by
  induction ts with
  | nil => exact Nat.le_refl _
  | cons t ts ih =>
    have placed := sum_place_le weight t (ascending ts)
    rw [ascending, List.foldr_cons, ← ascending, List.map_cons, List.sum_cons]
    omega

theorem sorted_place {us : List (List Char)} (h : us.Pairwise (· < ·)) (t : List Char) :
    (place t us).Pairwise (· < ·) := by
  induction us with
  | nil => simp [place]
  | cons u us ih =>
    have after := List.pairwise_cons.mp h
    rw [place]
    split
    · exact h
    · rename_i other
      split
      · rename_i less
        refine List.pairwise_cons.mpr ⟨fun v member => ?_, h⟩
        rcases List.mem_cons.mp member with rfl | later
        · exact less
        · exact less.trans (after.1 v later)
      · rename_i notLess
        have greater : u < t := lt_of_le_of_ne (not_lt.mp notLess) (Ne.symm other)
        refine List.pairwise_cons.mpr ⟨fun v member => ?_, ih after.2⟩
        rcases (mem_place _ _ us).mp member with rfl | later
        · exact greater
        · exact after.1 v later

theorem sorted_ascending (ts : List (List Char)) : (ascending ts).Pairwise (· < ·) := by
  induction ts with
  | nil => exact List.Pairwise.nil
  | cons t ts ih => exact sorted_place ih t

theorem ascending_of_sorted {ts : List (List Char)} (h : ts.Pairwise (· < ·)) :
    ascending ts = ts := by
  induction ts with
  | nil => rfl
  | cons t ts ih =>
    have after := List.pairwise_cons.mp h
    rw [ascending, List.foldr_cons, ← ascending, ih after.2]
    cases ts with
    | nil => rfl
    | cons u us =>
      have less := after.1 u List.mem_cons_self
      rw [place, if_neg (ne_of_lt less), if_pos less]

end Ascending

theorem cutFrom_ne_nil (sep : List Char) (k : Nat) (cs : List Char) : cutFrom sep k cs ≠ [] := by
  fun_induction cutFrom sep k cs with
  | case1 => exact List.cons_ne_nil _ _
  | case2 _ _ _ ih => exact ih
  | case3 => exact List.cons_ne_nil _ _
  | case4 => exact List.cons_ne_nil _ _
  | case5 => exact List.cons_ne_nil _ _

/-- The pieces of a text with the separator between them are the text. -/
theorem intercalate_cutFrom {sep : List Char} (some : sep ≠ []) (k : Nat) (cs : List Char) :
    sep.intercalate (cutFrom sep k cs) = cs.drop k := by
  fun_induction cutFrom sep k cs with
  | case1 => simp
  | case2 _ _ _ ih => exact ih
  | case3 c cs found ih =>
    obtain ⟨piece, pieces, same⟩ := List.exists_cons_of_ne_nil
      (cutFrom_ne_nil sep (sep.length - 1) cs)
    obtain ⟨rest, whole⟩ := List.isPrefixOf_iff_prefix.mp found
    obtain ⟨s, sep, rfl⟩ := List.exists_cons_of_ne_nil some
    obtain ⟨rfl, rfl⟩ := List.cons.inj whole
    rw [same, List.intercalate_cons_cons, ← same, ih]
    simp
  | case4 c cs _ none => exact absurd none (cutFrom_ne_nil sep 0 cs)
  | case5 c cs _ piece pieces same ih =>
    rw [same] at ih
    cases pieces with
    | nil =>
      rw [List.intercalate_singleton] at ih ⊢
      rw [ih, List.drop_zero, List.drop_zero]
    | cons next pieces =>
      rw [List.intercalate_cons_cons] at ih ⊢
      rw [List.cons_append, List.cons_append, ih, List.drop_zero, List.drop_zero]

theorem takeWhile_append_stop {p : Char → Bool} {word rest : List Char}
    (full : ∀ c ∈ word, p c = true) (stop : ∀ c ∈ rest.head?, p c = false) :
    (word ++ rest).takeWhile p = word := by
  rw [List.takeWhile_append_of_pos full]
  cases rest with
  | nil => rw [List.takeWhile_nil, List.append_nil]
  | cons c rest =>
    rw [List.takeWhile_cons_of_neg (Bool.eq_false_iff.mp (stop c rfl)), List.append_nil]

end PrintRegistry.Text
