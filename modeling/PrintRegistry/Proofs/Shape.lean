import PrintRegistry.Proofs.Collapse
import PrintRegistry.Proofs.Normal

/-!
The shape of grammars that are their own normal form. Nothing that a round of
normalization removes is left in such a text, its words are one space apart, and if it
is an alternation, its alternatives are in ascending order and normal themselves. So an
alternation in normal form is known by the set of its alternatives.
-/

namespace PrintRegistry

namespace Text

theorem length_collapse_le (cs : List Char) : (collapse cs).length ≤ cs.length := by
  induction cs with
  | nil => exact Nat.le_refl _
  | cons c cs ih =>
    cases blank : isBlank c with
    | true =>
      have dropped : (trimStart (collapse cs)).length ≤ (collapse cs).length :=
        List.length_dropWhile_le isBlank _
      rw [collapse_cons_blank blank, List.length_cons, List.length_cons]
      omega
    | false =>
      rw [collapse_cons_full blank, List.length_cons, List.length_cons]
      omega

theorem length_squeeze_le (cs : List Char) : (squeeze cs).length ≤ cs.length := by
  have first : (trimStart (collapse cs)).length ≤ (collapse cs).length :=
    List.length_dropWhile_le isBlank _
  have last : (trim (collapse cs)).length ≤ (trimStart (collapse cs)).length := by
    rw [trim, trimEnd, List.length_reverse]
    exact (List.length_dropWhile_le isBlank _).trans_eq List.length_reverse
  rw [squeeze_eq_trim_collapse]
  exact last.trans (first.trans (length_collapse_le cs))

/-- No blank stands at either end of the text, and no two stand side by side. -/
structure IsTight (cs : List Char) : Prop where
  start : ∀ c rest, cs = c :: rest → isBlank c = false
  ending : ∀ front c, cs = front ++ [c] → isBlank c = false
  single : ∀ front b c back, cs = front ++ b :: c :: back → isBlank b = true → isBlank c = false

/-- A text that squeezing leaves as it is has no blank to spare: without one it would be
shorter and still be squeezed to the same text. -/
theorem isTight_of_squeeze {cs : List Char} (even : squeeze cs = cs) : IsTight cs where
  start := by
    rintro c rest rfl
    by_contra blank
    rw [Bool.not_eq_false] at blank
    have shorter := length_squeeze_le rest
    rw [← squeeze_cons_blank blank, even, List.length_cons] at shorter
    omega
  ending := by
    rintro front c rfl
    by_contra blank
    rw [Bool.not_eq_false] at blank
    have shorter := length_squeeze_le front
    rw [← squeeze_concat_blank blank, even, List.length_append, List.length_singleton] at shorter
    omega
  single := by
    rintro front b c back rfl first
    by_contra second
    rw [Bool.not_eq_false] at second
    have same : squeeze (front ++ b :: c :: back) = squeeze (front ++ b :: back) := by
      rw [squeeze, words_append_blank first, words_cons_blank second, ← words_append_blank first,
        squeeze]
    have shorter := length_squeeze_le (front ++ b :: back)
    rw [← same, even] at shorter
    simp only [List.length_append, List.length_cons] at shorter
    omega

end Text

namespace Grammar

section Cutting

variable {t : List Char} {ts : List (List Char)}

/-- Before the first bar there is no separator but the one around it. -/
theorem cutAt_append_separator (free : '|' ∉ t) (rest : List Char) :
    Text.cutAt separator.toList (t ++ (separator.toList ++ rest)) =
      t :: Text.cutAt separator.toList rest := by
  induction t with
  | nil => rfl
  | cons c t ih =>
    have later := ih fun member => free (List.mem_cons_of_mem c member)
    have other : ¬ separator.toList.isPrefixOf (c :: (t ++ (separator.toList ++ rest))) = true := by
      intro found
      obtain ⟨-, next⟩ := List.cons_prefix_cons.mp (List.isPrefixOf_iff_prefix.mp found)
      cases t with
      | nil => exact absurd (List.cons_prefix_cons.mp next).1 (by decide)
      | cons d t =>
        have bar : '|' = d := (List.cons_prefix_cons.mp next).1
        exact free (bar ▸ List.mem_cons_of_mem c List.mem_cons_self)
    rw [Text.cutAt] at later
    rw [Text.cutAt, List.cons_append, Text.cutFrom, if_neg other, later]

theorem cutAt_separator_absent (free : '|' ∉ t) : Text.cutAt separator.toList t = [t] := by
  induction t with
  | nil => rfl
  | cons c t ih =>
    have later := ih fun member => free (List.mem_cons_of_mem c member)
    have other : ¬ separator.toList.isPrefixOf (c :: t) = true := by
      intro found
      have bar : '|' ∈ separator.toList := by decide
      exact free ((List.isPrefixOf_iff_prefix.mp found).subset bar)
    rw [Text.cutAt] at later
    rw [Text.cutAt, Text.cutFrom, if_neg other, later]

theorem cutAt_intercalate (free : ∀ u ∈ t :: ts, '|' ∉ u) :
    Text.cutAt separator.toList (separator.toList.intercalate (t :: ts)) = t :: ts := by
  induction ts generalizing t with
  | nil =>
    rw [List.intercalate_singleton]
    exact cutAt_separator_absent (free t List.mem_cons_self)
  | cons u us ih =>
    rw [List.intercalate_cons_cons, List.append_assoc,
      cutAt_append_separator (free t List.mem_cons_self),
      ih fun v member => free v (List.mem_cons_of_mem t member)]

theorem several_of_bar (free : ∀ u ∈ ts, '|' ∉ u) (bar : '|' ∈ separator.toList.intercalate ts) :
    2 ≤ ts.length := by
  match ts with
  | [] => exact absurd bar (by simp)
  | [t] =>
    rw [List.intercalate_singleton] at bar
    exact absurd bar (free t List.mem_cons_self)
  | _ :: _ :: _ => simp

/-- The alternatives of a grammar whose text joins several texts without bars. -/
theorem alternatives_of_joined {g : Grammar}
    (joined : g.text.toList = separator.toList.intercalate ts)
    (several : 2 ≤ ts.length) (free : ∀ u ∈ ts, '|' ∉ u) :
    g.alternatives = ts.map String.ofList := by
  obtain ⟨t, u, us, rfl⟩ : ∃ t u us, ts = t :: u :: us := by
    match ts with
    | t :: u :: us => exact ⟨t, u, us, rfl⟩
  have found : Text.contains g.text separator = true := by
    rw [Text.contains, Text.occurs_iff, joined, List.intercalate_cons_cons, List.append_assoc]
    exact (List.prefix_append _ _).isInfix.trans (List.suffix_append t _).isInfix
  rw [alternatives, if_pos found, joined, cutAt_intercalate free]

end Cutting

section Normal

variable {cs : List Char}

theorem isStripped_of_normal (h : normalRound cs = cs) : IsStripped cs := by
  refine (normalRound_cases cs).resolve_left fun less => ?_
  rw [h] at less
  exact absurd less (Nat.lt_irrefl _)

theorem squeeze_arranged (cs : List Char) : Text.squeeze (arranged cs) = arranged cs := by
  rw [arranged]
  split
  · rw [alternation]
    exact squeeze_intercalate (telling_choices _)
  · exact Text.squeeze_squeeze cs

theorem squeeze_of_normal (h : normalRound cs = cs) : Text.squeeze cs = cs := by
  have same : arranged cs = cs := (isStripped_of_normal h).normalRound.symm.trans h
  rw [← same, squeeze_arranged]

/-- Nothing is done to the alternatives of a normal alternation but to space them evenly. -/
theorem normalChoice_of_normal (h : normalRound cs = cs) (bar : '|' ∈ cs) {t : List Char}
    (piece : t ∈ cs.splitOn '|') : normalChoice t = Text.squeeze t := by
  have choices := (isStripped_of_normal h).choices
  rw [squeeze_of_normal h] at choices
  exact choices bar t piece

theorem canonicalChoices_of_normal (h : normalRound cs = cs) (bar : '|' ∈ cs) :
    canonicalChoices cs =
      Text.ascending (((cs.splitOn '|').map Text.squeeze).filter isTelling) := by
  rw [canonicalChoices, List.map_congr_left fun t piece => normalChoice_of_normal h bar piece]

theorem telling_canonicalChoices (h : normalRound cs = cs) (bar : '|' ∈ cs) :
    Telling (canonicalChoices cs) :=
  canonicalChoices_of_normal h bar ▸ telling_choices cs

theorem intercalate_canonicalChoices (h : normalRound cs = cs) (bar : '|' ∈ cs) :
    separator.toList.intercalate (canonicalChoices cs) = cs := by
  have same : arranged cs = cs := (isStripped_of_normal h).normalRound.symm.trans h
  rw [arranged, squeeze_of_normal h, if_pos bar] at same
  rw [canonicalChoices_of_normal h bar]
  exact same

/-- An alternative of a normal alternation is normal. -/
theorem normalRound_canonicalChoices (h : normalRound cs = cs) (bar : '|' ∈ cs) {a : List Char}
    (listed : a ∈ canonicalChoices cs) : normalRound a = a := by
  have free : '|' ∉ a := (telling_canonicalChoices h bar a listed).2.1
  obtain ⟨choice, -⟩ := List.mem_filter.mp ((Text.mem_ascending _ _).mp listed)
  obtain ⟨t, piece, rfl⟩ := List.mem_map.mp choice
  have trimmed : Text.trim t = Text.squeeze t := by
    have pieces := Text.trim_pieces_squeeze (c := '|') (by decide) cs
    rw [squeeze_of_normal h] at pieces
    exact List.map_inj_left.mp pieces t piece
  have spaced := normalChoice_of_normal h bar piece
  rw [← trimmed] at spaced
  -- The pieces are trimmed before their rounds begin, and no round changes them then.
  have settled : choiceRound (Text.trim t) = Text.trim t :=
    (lowers_choiceRound.settle_eq_self_iff 7 (Text.trim t)).mp spaced
  rw [spaced] at free ⊢
  rw [choiceRound] at settled
  rw [normalRound]
  split
  · rename_i inner unwrapped
    rw [unwrapped] at settled
    exact settled
  · rename_i unwrapped
    rw [unwrapped] at settled
    rw [if_neg fun member => free (settled ▸ member)]
    exact settled

end Normal

/-- The shape of a text that is its own normal form. -/
structure IsPlain (t : String) : Prop where
  /-- There is no marker of a set and no token without meaning. -/
  noToken : ∀ token ∈ setMarker :: noise, ¬ token.toList <:+: t.toList
  /-- There is no qualifier in square brackets. -/
  noQualifier : ∀ front inside back, t.toList ≠ front ++ '[' :: (inside ++ ']' :: back)
  tight : Text.IsTight t.toList
  /-- There is no pair of parentheses around the text. -/
  unwrapped : unwrap? t.toList = none

/-- The texts are the alternatives of an alternation in normal form. -/
structure AreChoices (t : String) (choices : List String) : Prop where
  joined : separator.intercalate choices = t
  ascending : choices.Pairwise (· < ·)
  nonempty : ∀ a ∈ choices, a ≠ ""
  noBar : ∀ a ∈ choices, '|' ∉ a.toList
  telling : ∀ a ∈ choices, a ∉ universalAlternatives
  normal : ∀ a ∈ choices, (normalize a).text = a

theorem isSet_of_normal {t : String} (h : (normalize t).text = t) :
    (normalize t).isSet = false := by
  have round := (text_normalize_eq_self_iff t).mp h
  have unmarked := (isStripped_of_normal round).scrubbed.isMarked
  simp only [normalize, roundLimit, normalRounds, round, if_true, unmarked, Bool.or_self]

theorem isPlain_of_normal {t : String} (h : (normalize t).text = t) : IsPlain t := by
  have round := (text_normalize_eq_self_iff t).mp h
  have stripped := isStripped_of_normal round
  have even := squeeze_of_normal round
  refine ⟨stripped.scrubbed.noToken, fun front inside back bracket => ?_,
    Text.isTight_of_squeeze even, even ▸ stripped.unwrapped⟩
  exact stripped.scrubbed.unqualified front (inside ++ ']' :: back) bracket (by simp)

section Alternations

variable {t : String}

theorem alternatives_of_normal (h : (normalize t).text = t) (bar : '|' ∈ t.toList) :
    (normalize t).alternatives = (canonicalChoices t.toList).map String.ofList := by
  have round := (text_normalize_eq_self_iff t).mp h
  have joined := intercalate_canonicalChoices round bar
  have free : ∀ a ∈ canonicalChoices t.toList, '|' ∉ a := fun a listed =>
    (telling_canonicalChoices round bar a listed).2.1
  refine alternatives_of_joined (h.symm ▸ joined.symm) (several_of_bar free ?_) free
  rwa [joined]

theorem areChoices_of_normal (h : (normalize t).text = t) (bar : '|' ∈ t.toList) :
    AreChoices t (normalize t).alternatives := by
  have round := (text_normalize_eq_self_iff t).mp h
  have telling := telling_canonicalChoices round bar
  rw [alternatives_of_normal h bar]
  refine ⟨?_, ?_, ?_, ?_, ?_, ?_⟩
  · rw [← String.toList_inj, String.toList_intercalate, List.map_map]
    have same : String.toList ∘ String.ofList = id := funext fun _ => String.toList_ofList
    rw [same, List.map_id]
    exact intercalate_canonicalChoices round bar
  · refine List.pairwise_map.mpr ((Text.sorted_ascending _).imp fun less => ?_)
    rw [String.lt_iff, String.toList_ofList, String.toList_ofList]
    exact less
  all_goals
    intro a member
    obtain ⟨c, listed, rfl⟩ := List.mem_map.mp member
    obtain ⟨-, free, tells⟩ := telling c listed
  · rintro none
    rw [String.ofList_eq_empty_iff.mp none] at tells
    cases tells
  · rwa [String.toList_ofList]
  · intro universal
    have known : c ∈ universalAlternatives.map String.toList :=
      List.mem_map.mpr ⟨_, universal, String.toList_ofList⟩
    simp [isTelling, known] at tells
  · rw [text_normalize_eq_self_iff, String.toList_ofList]
    exact normalRound_canonicalChoices round bar listed

end Alternations

/-- The shape of normal forms. A text that is its own normal form has no marker of a set,
no token without meaning, no qualifier, no blank to spare and no parentheses around it. If
it is an alternation, it joins its alternatives, which ascend and are normal, and no other
normal alternation has the same ones. -/
theorem shape_of_normal_forms :
    (∀ t : String, (normalize t).text = t →
      (normalize t).isSet = false ∧ IsPlain t ∧
        ('|' ∈ t.toList → AreChoices t (normalize t).alternatives)) ∧
    ∀ t u : String, (normalize t).text = t → (normalize u).text = u →
      '|' ∈ t.toList → '|' ∈ u.toList →
      (∀ a, a ∈ (normalize t).alternatives ↔ a ∈ (normalize u).alternatives) → t = u := by
  refine ⟨fun t h => ⟨isSet_of_normal h, isPlain_of_normal h, areChoices_of_normal h⟩, ?_⟩
  intro t u first second firstBar secondBar same
  have left := areChoices_of_normal first firstBar
  have right := areChoices_of_normal second secondBar
  have distinct : ∀ {as : List String}, as.Pairwise (· < ·) → as.Nodup := by
    intro as sorted
    refine sorted.imp fun less equal => ?_
    exact String.lt_irrefl _ (equal ▸ less)
  have perm : (normalize t).alternatives.Perm (normalize u).alternatives :=
    (List.perm_ext_iff_of_nodup (distinct left.ascending) (distinct right.ascending)).mpr same
  have listed := perm.eq_of_pairwise
    (fun a b _ _ less greater => absurd less (String.lt_asymm greater))
    left.ascending right.ascending
  rw [← left.joined, listed, right.joined]

/-- An integer or a range, and the same written with the alternatives the other way round
and a third one that every attribute accepts. -/
theorem shape_of_normal_forms_of_ranges :
    (IsPlain "integer(0:MAX) | rangeOfInteger(0:MAX)" ∧
      AreChoices "integer(0:MAX) | rangeOfInteger(0:MAX)"
        ["integer(0:MAX)", "rangeOfInteger(0:MAX)"]) ∧
      (normalize "rangeOfInteger(0:MAX) | unknown | integer(0:MAX)").text =
        "integer(0:MAX) | rangeOfInteger(0:MAX)" := by
  have normal : (normalize "integer(0:MAX) | rangeOfInteger(0:MAX)").text =
      "integer(0:MAX) | rangeOfInteger(0:MAX)" := by
    decide
  have choices : (normalize "integer(0:MAX) | rangeOfInteger(0:MAX)").alternatives =
      ["integer(0:MAX)", "rangeOfInteger(0:MAX)"] := by
    decide
  have again : (normalize
      (normalize "rangeOfInteger(0:MAX) | unknown | integer(0:MAX)").text).alternatives =
      ["integer(0:MAX)", "rangeOfInteger(0:MAX)"] := by
    decide
  obtain ⟨-, plain, joins⟩ := shape_of_normal_forms.1 _ normal
  refine ⟨⟨plain, choices ▸ joins (by decide)⟩, ?_⟩
  refine shape_of_normal_forms.2 _ _ (by decide) normal (by decide) (by decide) ?_
  intro a
  rw [again, choices]

end Grammar

end PrintRegistry
