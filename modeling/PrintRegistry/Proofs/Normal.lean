import PrintRegistry.Proofs.Scrubbing

/-!
What a round of normalization does. It lowers the number of certain characters,
or else it merely spaces the words evenly and sorts the alternatives. So rounds
never lead back to a text that a round changes: a text is its own normal form
exactly if one round leaves it alone. As the number of rounds is limited, normal
forms need not be of that kind.
-/

namespace PrintRegistry.Grammar

/-- The characters of which every removal in a round takes one away. -/
def isMark (c : Char) : Bool :=
  "([123".toList.contains c

def marks (cs : List Char) : Nat :=
  cs.countP isMark

theorem marks_cons (c : Char) (cs : List Char) :
    marks (c :: cs) = marks cs + if isMark c then 1 else 0 :=
  List.countP_cons

theorem marks_of_words {xs ys : List Char} (h : Text.words xs = Text.words ys) :
    marks xs = marks ys := by
  refine Text.countP_of_words (fun c marked => ?_) h
  have listed : c ∈ ['(', '[', '1', '2', '3'] := by simpa [isMark] using marked
  simp only [List.mem_cons, List.not_mem_nil, or_false] at listed
  rcases listed with rfl | rfl | rfl | rfl | rfl <;> decide

theorem marks_squeeze (cs : List Char) : marks (Text.squeeze cs) = marks cs :=
  marks_of_words (Text.words_squeeze cs)

theorem marks_trim (cs : List Char) : marks (Text.trim cs) = marks cs :=
  marks_of_words (Text.words_trim cs)

section Removal

/-- No bracket opens a qualifier. -/
def Unqualified (cs : List Char) : Prop :=
  ∀ front rest, cs = front ++ '[' :: rest → ']' ∉ rest

theorem marks_dropBracketed_le (opened : Bool) (cs : List Char) :
    marks (dropBracketed opened cs) ≤ marks cs := by
  induction cs generalizing opened with
  | nil => cases opened <;> exact Nat.le_refl _
  | cons c cs ih =>
    cases opened with
    | true =>
      rw [dropBracketed, marks_cons]
      exact (ih _).trans (Nat.le_add_right _ _)
    | false =>
      rw [dropBracketed]
      split
      · rw [marks_cons]
        exact (ih _).trans (Nat.le_add_right _ _)
      · rw [marks_cons, marks_cons]
        exact Nat.add_le_add_right (ih _) _

theorem dropBracketed_unqualified {cs : List Char} (h : Unqualified cs) :
    dropBracketed false cs = cs := by
  induction cs with
  | nil => rfl
  | cons c cs ih =>
    have other : ¬ (c = '[' ∧ ']' ∈ cs) := by
      rintro ⟨rfl, closed⟩
      exact h [] cs rfl closed
    rw [dropBracketed, if_neg other, ih]
    rintro front rest rfl
    exact h (c :: front) rest rfl

theorem dropBracketed_cases (cs : List Char) :
    marks (dropBracketed false cs) < marks cs ∨ Unqualified cs := by
  induction cs with
  | nil =>
    right
    intro front rest none
    simp at none
  | cons c cs ih =>
    rw [dropBracketed]
    split
    · rename_i bracket
      have rest := marks_dropBracketed_le true cs
      have opening : isMark c = true := bracket.1 ▸ by decide
      refine Or.inl ?_
      rw [marks_cons, if_pos opening]
      exact Nat.lt_succ_of_le rest
    · rename_i other
      rw [marks_cons, marks_cons]
      refine ih.imp (Nat.add_lt_add_right · _) fun later front rest cut closed => ?_
      cases front with
      | nil =>
        obtain ⟨rfl, rfl⟩ := List.cons.inj cut
        exact other ⟨rfl, closed⟩
      | cons d front => exact later front rest (List.cons.inj cut).2 closed

/-- A text in which nothing is corrected and nothing left out. -/
structure IsScrubbed (cs : List Char) : Prop where
  noToken : ∀ token ∈ setMarker :: noise, ¬ token.toList <:+: cs
  noSlip : ∀ c ∈ corrections, ¬ c.1.toList <:+: cs
  unqualified : Unqualified cs

namespace IsScrubbed

variable {cs : List Char}

theorem scrub (h : IsScrubbed cs) : scrub cs = cs := by
  have spelled : Text.substitute spellings cs = cs := by
    refine Text.substitute_absent fun p member => ?_
    obtain ⟨c, listed, rfl⟩ := List.mem_map.mp member
    exact h.noSlip c listed
  have tokenless : Text.substitute removals cs = cs := by
    refine Text.substitute_absent fun p member => ?_
    obtain ⟨token, listed, rfl⟩ := List.mem_map.mp member
    exact h.noToken token (List.mem_cons_of_mem _ listed)
  rw [scrub_eq_substitute, spelled, dropBracketed_unqualified h.unqualified, tokenless]

theorem bare (h : IsScrubbed cs) : bare cs = cs := by
  rw [Grammar.bare, h.scrub]
  exact Text.replaceAll_absent (by decide) (h.noToken _ List.mem_cons_self)

theorem tidy (h : IsScrubbed cs) : tidy cs = Text.squeeze cs := by
  rw [tidy_eq_squeeze_bare, h.bare]

theorem isMarked (h : IsScrubbed cs) : isMarked cs = false := by
  rw [← Bool.not_eq_true, isMarked_iff, h.scrub]
  exact h.noToken _ List.mem_cons_self

end IsScrubbed

/-- If nothing is removed from a text, nothing was corrected in it: corrections
lead to words that are removed. -/
theorem bare_cases (cs : List Char) : marks (bare cs) < marks cs ∨ IsScrubbed cs := by
  generalize first : Text.replaceAll "type2 num".toList "type2 enum".toList cs = once
  generalize second : Text.replaceAll "1set Of".toList "1setOf".toList once = corrected
  have lessOnce : marks once ≤ marks cs := by
    rw [← first]
    exact Text.countP_replaceAll_le isMark (by decide) (by decide) cs
  have lessCorrected : marks corrected ≤ marks once := by
    rw [← second]
    exact Text.countP_replaceAll_le isMark (by decide) (by decide) once
  have scrubbed : bare cs =
      ((noise ++ [setMarker]).map String.toList).foldl (fun t piece => Text.deleteAll piece t)
        (dropBracketed false corrected) := by
    rw [← second, ← first]
    rfl
  rw [scrubbed]
  have marked : ∀ piece ∈ (noise ++ [setMarker]).map String.toList, 0 < piece.countP isMark := by
    decide
  rcases dropBracketed_cases corrected with fewer | unqualified
  · refine Or.inl ?_
    rcases Text.countP_foldl_deleteAll isMark marked (dropBracketed false corrected) with
      less | ⟨-, same⟩
    · exact less.trans (fewer.trans_le (lessCorrected.trans lessOnce))
    · rw [same]
      exact fewer.trans_le (lessCorrected.trans lessOnce)
  · rw [dropBracketed_unqualified unqualified]
    rcases Text.countP_foldl_deleteAll isMark marked corrected with less | ⟨absent, -⟩
    · exact Or.inl (less.trans_le (lessCorrected.trans lessOnce))
    · have noSet : ¬ "1set Of".toList <:+: once := by
        intro slip
        have written := Text.infix_replaceAll "1setOf".toList (by decide) slip
        exact absent setMarker.toList (by decide) (second ▸ written)
      have kept : once = corrected := by
        rw [← second, Text.replaceAll_absent (by decide) noSet]
      have noEnum : ¬ "type2 num".toList <:+: cs := by
        intro slip
        have written := Text.infix_replaceAll "type2 enum".toList (by decide) slip
        rw [first, kept] at written
        exact absent "type2".toList (by decide)
          ((List.prefix_append "type2".toList " enum".toList).isInfix.trans written)
      have same : cs = corrected := by
        rw [← kept, ← first, Text.replaceAll_absent (by decide) noEnum]
      have keptFirst : cs = once := same.trans kept.symm
      refine Or.inr ⟨fun token listed => ?_, fun c listed => ?_, same ▸ unqualified⟩
      · have among : ∀ t ∈ setMarker :: noise, t.toList ∈ (noise ++ [setMarker]).map String.toList := by
          decide
        exact same ▸ absent token.toList (among token listed)
      · simp only [corrections, List.mem_cons, List.not_mem_nil, or_false] at listed
        rcases listed with rfl | rfl
        · exact noEnum
        · exact keptFirst ▸ noSet

theorem tidy_cases (cs : List Char) : marks (tidy cs) < marks cs ∨ IsScrubbed cs := by
  rw [tidy_eq_squeeze_bare, marks_squeeze]
  exact bare_cases cs

theorem marks_tidy_le (cs : List Char) : marks (tidy cs) ≤ marks cs := by
  rcases tidy_cases cs with less | scrubbed
  · exact Nat.le_of_lt less
  · rw [scrubbed.tidy, marks_squeeze]

theorem marks_unwrap? {cs inner : List Char} (h : unwrap? cs = some inner) :
    marks inner < marks cs := by
  obtain ⟨body, rfl⟩ : ∃ body, cs = '(' :: body := by
    unfold unwrap? at h
    split at h
    · exact ⟨_, rfl⟩
    · cases h
  have within : marks inner ≤ marks body := by
    simp only [unwrap?] at h
    split at h
    · cases h
      exact Nat.le_refl _
    · obtain ⟨dropped, -⟩ := Option.filter_eq_some_iff.mp h
      rw [Text.dropEnding?_eq_some dropped, marks, marks, List.countP_append]
      exact Nat.le_add_right _ _
  rw [marks_cons]
  exact Nat.lt_succ_of_le within

end Removal

/-- A step lowers the number of marks, or else it does what another function
does, which does nothing more the second time. -/
structure Lowers (step rest : List Char → List Char) : Prop where
  cases : ∀ t, marks (step t) < marks t ∨ step t = rest t
  keeps : ∀ t, marks (rest t) ≤ marks t
  stays : ∀ t, rest (rest t) = rest t

namespace Lowers

variable {step rest : List Char → List Char}

theorem settle_cases (h : Lowers step rest) (limit : Nat) (t : List Char) :
    marks (settle step (limit + 1) t) < marks t ∨ settle step (limit + 1) t = rest t := by
  induction limit generalizing t with
  | zero =>
    have once : settle step 1 t = step t := by
      rw [settle]
      split
      · rename_i same
        exact same.symm
      · rfl
    rw [once]
    exact h.cases t
  | succ limit ih =>
    rw [settle]
    split
    · rename_i same
      refine Or.inr ((h.cases t).elim (fun less => ?_) same.symm.trans)
      rw [same] at less
      exact absurd less (Nat.lt_irrefl _)
    · rcases ih (step t) with less | same
      · refine Or.inl (less.trans_le ?_)
        exact (h.cases t).elim Nat.le_of_lt (· ▸ h.keeps t)
      · rw [same]
        rcases h.cases t with less | arranged
        · exact Or.inl ((h.keeps (step t)).trans_lt less)
        · exact Or.inr (by rw [arranged, h.stays])

theorem marks_settle_le (h : Lowers step rest) (limit : Nat) (t : List Char) :
    marks (settle step limit t) ≤ marks t := by
  cases limit with
  | zero => exact Nat.le_refl _
  | succ limit => exact (h.settle_cases limit t).elim Nat.le_of_lt (· ▸ h.keeps t)

/-- Steps do not lead back to a text that a step changes. -/
theorem settle_eq_self_iff (h : Lowers step rest) (limit : Nat) (t : List Char) :
    settle step (limit + 1) t = t ↔ step t = t := by
  constructor
  · intro back
    rcases h.settle_cases limit t with less | arranged
    · rw [back] at less
      exact absurd less (Nat.lt_irrefl _)
    · rw [back] at arranged
      rcases h.cases t with less | same
      · rw [settle] at back
        split at back
        · assumption
        · have later := h.marks_settle_le limit (step t)
          rw [back] at later
          exact absurd (later.trans_lt less) (Nat.lt_irrefl _)
      · exact same.trans arranged.symm
  · intro same
    rw [settle, if_pos same]

end Lowers

/-- Without marks to remove, a round on an alternative spaces its words evenly. -/
theorem lowers_choiceRound : Lowers choiceRound Text.squeeze where
  cases cs := by
    rw [choiceRound]
    split
    · rename_i inner unwrapped
      refine Or.inl ?_
      rw [marks_trim]
      exact (marks_unwrap? unwrapped).trans_le (marks_tidy_le cs)
    · exact (tidy_cases cs).imp_right IsScrubbed.tidy
  keeps cs := (marks_squeeze cs).le
  stays := Text.squeeze_squeeze

theorem normalChoice_cases (cs : List Char) :
    marks (normalChoice cs) < marks cs ∨ normalChoice cs = Text.squeeze cs := by
  rw [normalChoice, ← marks_trim cs, ← Text.squeeze_trim cs]
  exact lowers_choiceRound.settle_cases 7 (Text.trim cs)

theorem marks_normalChoice_le (cs : List Char) : marks (normalChoice cs) ≤ marks cs :=
  (lowers_choiceRound.marks_settle_le roundLimit (Text.trim cs)).trans (marks_trim cs).le

/-- The alternation of the telling ones among the given alternatives. -/
def alternation (choices : List (List Char)) : List Char :=
  separator.toList.intercalate (Text.ascending (choices.filter isTelling))

/-- A text with its words spaced evenly and its alternatives sorted. -/
def arranged (cs : List Char) : List Char :=
  if '|' ∈ Text.squeeze cs then
    alternation (((Text.squeeze cs).splitOn '|').map Text.squeeze)
  else Text.squeeze cs

theorem marks_intercalate {gap : List Char} (free : marks gap = 0) (ts : List (List Char)) :
    marks (gap.intercalate ts) = (ts.map marks).sum := by
  induction ts with
  | nil => rfl
  | cons t ts ih =>
    cases ts with
    | nil => simp
    | cons u us =>
      rw [List.intercalate_cons_cons, marks, List.countP_append, List.countP_append, ← marks,
        ← marks, ← marks, free, ih, List.map_cons, List.sum_cons]
      rfl

theorem marks_alternation_le (choices : List (List Char)) :
    marks (alternation choices) ≤ (choices.map marks).sum := by
  have sorted := Text.sum_ascending_le marks (choices.filter isTelling)
  have kept := (List.filter_sublist (p := isTelling) (l := choices)).map marks
  rw [alternation, marks_intercalate (by decide)]
  exact sorted.trans (kept.sum_le_sum fun _ _ => Nat.zero_le _)

theorem marks_splitOn (cs : List Char) : ((cs.splitOn '|').map marks).sum = marks cs := by
  have free : marks ['|'] = 0 := by decide
  rw [← marks_intercalate free, List.intercalate_splitOn]

section Arranged

variable {ts : List (List Char)}

/-- The alternatives of an arranged alternation. -/
def Telling (ts : List (List Char)) : Prop :=
  ∀ t ∈ ts, Text.squeeze t = t ∧ '|' ∉ t ∧ isTelling t = true

theorem Telling.words_ne_nil (h : Telling ts) {t : List Char} (member : t ∈ ts) :
    Text.words t ≠ [] := by
  obtain ⟨spaced, -, telling⟩ := h t member
  intro none
  rw [Text.squeeze, none] at spaced
  subst spaced
  exact absurd telling (by decide)

theorem Telling.tail {t : List Char} (h : Telling (t :: ts)) : Telling ts :=
  fun u member => h u (List.mem_cons_of_mem t member)

theorem intercalate_separator (t u : List Char) (us : List (List Char)) :
    separator.toList.intercalate (t :: u :: us) =
      t ++ ' ' :: (['|'] ++ ' ' :: separator.toList.intercalate (u :: us)) := by
  rw [List.intercalate_cons_cons, List.append_assoc]
  rfl

theorem words_intercalate_ne_nil {t : List Char} (h : Telling (t :: ts)) :
    Text.words (separator.toList.intercalate (t :: ts)) ≠ [] := by
  have first := h.words_ne_nil List.mem_cons_self
  cases ts with
  | nil => simpa using first
  | cons u us =>
    rw [intercalate_separator, Text.words_append_blank (by decide)]
    exact List.append_ne_nil_of_left_ne_nil first _

theorem squeeze_intercalate (h : Telling ts) :
    Text.squeeze (separator.toList.intercalate ts) = separator.toList.intercalate ts := by
  induction ts with
  | nil => rfl
  | cons t ts ih =>
    have first := h t List.mem_cons_self
    cases ts with
    | nil => simpa using first.1
    | cons u us =>
      have bar : Text.words ['|'] ≠ [] := by decide
      have later := words_intercalate_ne_nil h.tail
      have tail : Text.words (['|'] ++ ' ' :: separator.toList.intercalate (u :: us)) ≠ [] := by
        rw [Text.words_append_blank (by decide)]
        exact List.append_ne_nil_of_left_ne_nil bar _
      rw [intercalate_separator, Text.squeeze_append (h.words_ne_nil List.mem_cons_self) tail,
        Text.squeeze_append bar later, ih h.tail, first.1]
      rfl

/-- The alternatives are found again in their alternation. -/
theorem choices_intercalate {t : List Char} (h : Telling (t :: ts)) :
    ((separator.toList.intercalate (t :: ts)).splitOn '|').map Text.squeeze = t :: ts := by
  induction ts generalizing t with
  | nil =>
    obtain ⟨spaced, free, -⟩ := h t List.mem_cons_self
    simp [Text.splitOn_absent free, spaced]
  | cons u us ih =>
    obtain ⟨spaced, free, -⟩ := h t List.mem_cons_self
    have beforeBar : (t ++ [' ']).splitOn '|' = [t ++ [' ']] :=
      Text.splitOn_absent (by simpa using free)
    have apart : separator.toList.intercalate (t :: u :: us) =
        (t ++ [' ']) ++ '|' :: ' ' :: separator.toList.intercalate (u :: us) := by
      rw [intercalate_separator]
      simp
    rw [apart, Text.splitOn_append_cons, beforeBar, List.map_append,
      Text.squeeze_pieces_cons_blank (by decide) (by decide), ih h.tail, List.map_singleton,
      Text.squeeze_concat_blank (by decide), spaced]
    rfl

theorem arranged_intercalate (h : Telling ts) (sorted : ts.Pairwise (· < ·)) :
    arranged (separator.toList.intercalate ts) = separator.toList.intercalate ts := by
  cases ts with
  | nil => decide
  | cons t ts =>
    have telling : (t :: ts).filter isTelling = t :: ts :=
      List.filter_eq_self.mpr fun u member => (h u member).2.2
    rw [arranged, squeeze_intercalate h, choices_intercalate h, alternation, telling,
      Text.ascending_of_sorted sorted, ite_self]

end Arranged

theorem telling_choices (cs : List Char) :
    Telling (Text.ascending (((cs.splitOn '|').map Text.squeeze).filter isTelling)) := by
  intro t member
  obtain ⟨listed, telling⟩ := List.mem_filter.mp ((Text.mem_ascending _ _).mp member)
  obtain ⟨piece, cut, rfl⟩ := List.mem_map.mp listed
  refine ⟨Text.squeeze_squeeze piece, fun bar => ?_, telling⟩
  have inPiece := (Text.mem_of_words (by decide) (Text.words_squeeze piece)).mp bar
  exact absurd (Text.not_of_mem_splitOnP cut '|' inPiece) (by decide)

theorem arranged_arranged (cs : List Char) : arranged (arranged cs) = arranged cs := by
  by_cases bar : '|' ∈ Text.squeeze cs
  · have once : arranged cs =
        alternation (((Text.squeeze cs).splitOn '|').map Text.squeeze) := if_pos bar
    rw [once, alternation]
    exact arranged_intercalate (telling_choices _) (Text.sorted_ascending _)
  · have once : arranged cs = Text.squeeze cs := if_neg bar
    rw [once, arranged, Text.squeeze_squeeze, if_neg bar]

theorem marks_arranged_le (cs : List Char) : marks (arranged cs) ≤ marks cs := by
  rw [arranged]
  split
  · have pieces := marks_alternation_le (((Text.squeeze cs).splitOn '|').map Text.squeeze)
    rw [List.map_map, Function.comp_def] at pieces
    simp only [marks_squeeze, marks_splitOn] at pieces
    exact pieces
  · exact (marks_squeeze cs).le

/-- A text from which a round removes nothing: there is nothing to scrub, no pair of
parentheses around it, and nothing to remove from its alternatives. -/
structure IsStripped (cs : List Char) : Prop where
  scrubbed : IsScrubbed cs
  unwrapped : unwrap? (Text.squeeze cs) = none
  choices : '|' ∈ Text.squeeze cs →
    ∀ t ∈ (Text.squeeze cs).splitOn '|', normalChoice t = Text.squeeze t

theorem IsStripped.normalRound {cs : List Char} (h : IsStripped cs) :
    normalRound cs = arranged cs := by
  rw [Grammar.normalRound, h.scrubbed.tidy, h.unwrapped, arranged]
  dsimp only
  split
  · rename_i bar
    rw [alternation, canonicalChoices, List.map_congr_left (h.choices bar)]
  · rfl

theorem normalRound_cases (cs : List Char) :
    marks (normalRound cs) < marks cs ∨ IsStripped cs := by
  have tidied := marks_tidy_le cs
  rw [normalRound]
  split
  · rename_i inner unwrapped
    refine Or.inl ?_
    rw [marks_trim]
    exact (marks_unwrap? unwrapped).trans_le tidied
  · rename_i unwrapped
    split
    · have joined := marks_alternation_le (((tidy cs).splitOn '|').map normalChoice)
      rw [List.map_map, Function.comp_def] at joined
      have pieces := marks_splitOn (tidy cs)
      have each : ∀ t ∈ (tidy cs).splitOn '|', marks (normalChoice t) ≤ marks t :=
        fun t _ => marks_normalChoice_le t
      by_cases spaced : ∀ t ∈ (tidy cs).splitOn '|', normalChoice t = Text.squeeze t
      · refine (tidy_cases cs).imp (fun less => ?_) fun scrubbed => ?_
        · exact joined.trans_lt ((List.sum_le_sum each).trans_lt (pieces.trans_lt less))
        · rw [scrubbed.tidy] at unwrapped spaced
          exact ⟨scrubbed, unwrapped, fun _ => spaced⟩
      · push Not at spaced
        obtain ⟨t, member, changed⟩ := spaced
        have lower := (normalChoice_cases t).resolve_right changed
        have fewer := List.sum_lt_sum _ _ each ⟨t, member, lower⟩
        exact Or.inl (joined.trans_lt (fewer.trans_le (pieces.trans_le tidied)))
    · rename_i noBar
      refine (tidy_cases cs).imp_right fun scrubbed => ?_
      rw [scrubbed.tidy] at unwrapped noBar
      exact ⟨scrubbed, unwrapped, fun bar => absurd bar noBar⟩

/-- Without marks to remove, a round spaces words evenly and sorts
alternatives. -/
theorem lowers_normalRound : Lowers normalRound arranged where
  cases cs := (normalRound_cases cs).imp_right IsStripped.normalRound
  keeps := marks_arranged_le
  stays := arranged_arranged

theorem normalRounds_eq_settle (limit : Nat) (t : List Char) (marked : Bool) :
    (normalRounds limit t marked).1 = settle normalRound limit t := by
  induction limit generalizing t marked with
  | zero => rfl
  | succ limit ih =>
    rw [normalRounds, settle]
    split
    · rfl
    · exact ih _ _

/-- A text is its own normal form exactly if one round leaves it alone. -/
theorem text_normalize_eq_self_iff (t : String) :
    (normalize t).text = t ↔ normalRound t.toList = t.toList := by
  have settled := lowers_normalRound.settle_eq_self_iff 7 t.toList
  rw [← settled, ← normalRounds_eq_settle (7 + 1) t.toList false, ← String.toList_inj]
  simp only [normalize, String.toList_ofList]
  rfl

theorem alternatives_congr {g h : Grammar} (same : g.text = h.text) :
    g.alternatives = h.alternatives := by
  rw [alternatives, alternatives, same]

/-- Texts that the first round takes to the same text, both with or both without the
marker of a set, have the same normal form. -/
theorem normalize_congr {x y : String} (round : normalRound x.toList = normalRound y.toList)
    (marked : isMarked x.toList = isMarked y.toList) : (normalize x == normalize y) = true := by
  -- One more round does nothing to a text that a round leaves alone.
  have first : ∀ cs : List Char, normalRounds roundLimit cs false =
      normalRounds 7 (normalRound cs) (isMarked cs) := by
    intro cs
    rw [roundLimit, normalRounds, Bool.false_or]
    split
    · rename_i same
      rw [same, normalRounds, if_pos same, Bool.or_self]
    · rfl
  rw [beq_iff, normalize, normalize]
  simp only [first, round, marked, and_self]

theorem withSet_beq_iff (g h : Grammar) : (g.withSet h.isSet == h) = true ↔ g.text = h.text := by
  rw [beq_iff]
  exact and_iff_left rfl

/-- Normalization of a normal form changes nothing exactly if a further round
would not have changed it: that is, if the rounds did not stop for want of
further rounds. -/
theorem normalize_normalize_iff (raw : String) :
    ((normalize (normalize raw).text).withSet (normalize raw).isSet == normalize raw) = true ∧
        (normalize (normalize raw).text).alternatives = (normalize raw).alternatives ↔
      normalRound (normalize raw).text.toList = (normalize raw).text.toList := by
  rw [← text_normalize_eq_self_iff, withSet_beq_iff]
  constructor
  · rintro ⟨again, -⟩
    exact again
  · intro again
    exact ⟨again, alternatives_congr again⟩

/-- Nine layers of parentheses are one too many to be taken off. -/
theorem normalize_not_idempotent : ¬ ∀ raw : String,
    ((normalize (normalize raw).text).withSet (normalize raw).isSet == normalize raw) = true := by
  intro idempotent
  have again := idempotent "(((((((((a)))))))))"
  have changed : ((normalize (normalize "(((((((((a)))))))))").text).withSet
      (normalize "(((((((((a)))))))))").isSet == normalize "(((((((((a)))))))))") = false := by
    decide
  rw [changed] at again
  cases again

end PrintRegistry.Grammar
