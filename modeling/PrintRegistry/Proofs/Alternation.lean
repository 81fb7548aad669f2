import PrintRegistry.Proofs.Collapse
import PrintRegistry.Proofs.Normal
import PrintRegistry.Proofs.Scrubbing

/-!
Alternations have one normal form. In a text of several alternatives each of them is
normalized as if it stood alone, so their order, repetitions and alternatives that every
attribute accepts make no difference.
-/

namespace PrintRegistry

namespace Text

theorem ascending_congr {ts us : List (List Char)} (same : ∀ t, t ∈ ts ↔ t ∈ us) :
    ascending ts = ascending us := by
  have distinct : ∀ vs, (ascending vs).Nodup := fun vs =>
    (sorted_ascending vs).imp fun less => ne_of_lt less
  have perm : (ascending ts).Perm (ascending us) := by
    rw [List.perm_ext_iff_of_nodup (distinct ts) (distinct us)]
    intro t
    rw [mem_ascending, mem_ascending, same]
  exact perm.eq_of_pairwise (fun t u _ _ less greater => absurd less (lt_asymm greater))
    (sorted_ascending ts) (sorted_ascending us)

end Text

namespace Grammar

theorem closesOnlyOpen_append {depth : Nat} {xs ys : List Char}
    (h : closesOnlyOpen depth (xs ++ ys) = true) : xs.count ')' ≤ depth + xs.count '(' := by
  induction xs generalizing depth with
  | nil => simp
  | cons x xs ih =>
    rw [List.cons_append] at h
    by_cases opening : x = '('
    · subst opening
      rw [closesOnlyOpen] at h
      have rest := ih h
      simp only [List.count_cons_self, List.count_cons_of_ne (show '(' ≠ ')' by decide)]
      omega
    · by_cases closing : x = ')'
      · subst closing
        cases depth with
        | zero => cases h
        | succ depth =>
          rw [closesOnlyOpen] at h
          have rest := ih h
          simp only [List.count_cons_self, List.count_cons_of_ne (show ')' ≠ '(' by decide)]
          omega
      · rw [closesOnlyOpen.eq_5 depth x _ opening (fun _ => closing) fun _ _ => closing] at h
        rw [List.count_cons_of_ne closing, List.count_cons_of_ne opening]
        exact ih h

/-- A text of several pieces with balanced parentheses is not in one pair of them. -/
theorem unwrap?_append_bar {xs ys : List Char} (left : Balanced xs) (right : Balanced ys) :
    unwrap? (xs ++ '|' :: ys) = none := by
  cases xs with
  | nil => rfl
  | cons x body =>
    by_cases opening : x = '('
    · subst opening
      -- One more parenthesis is closed after the first one than is opened there.
      have excess : body.count ')' = body.count '(' + 1 := by
        simpa [Balanced] using left.symm
      have rest : ys.count ')' = ys.count '(' := right.symm
      have partners : ¬ (body ++ '|' :: ys).count ')' ≤ (body ++ '|' :: ys).count '(' := by
        simp only [List.count_append, List.count_cons]
        simp
        omega
      rw [List.cons_append, unwrap?, if_neg partners, Option.filter_eq_none_iff]
      intro inner dropped balanced
      have whole := Text.dropEnding?_eq_some dropped
      -- What ends with a parenthesis is what comes after the bar.
      have ends : ∃ more, inner = body ++ '|' :: more := by
        rcases ys.eq_nil_or_concat with none | ⟨more, c, last⟩
        · subst none
          have same := (List.append_inj' whole rfl).2
          cases same
        · rw [last, List.concat_eq_append, ← List.cons_append, ← List.append_assoc] at whole
          exact ⟨more, ((List.append_inj' whole rfl).1).symm⟩
      obtain ⟨more, rfl⟩ := ends
      have counted := closesOnlyOpen_append balanced
      omega
    · exact unwrap?.eq_2 _ fun _ same => opening (List.cons.inj same).1

/-- What may stand as one alternative among others: no bar and no qualifier in it, and
as many parentheses closed as opened. -/
structure IsChoice (cs : List Char) : Prop where
  noBar : '|' ∉ cs
  noBracket : '[' ∉ cs
  balanced : Balanced cs

theorem IsChoice.padded {cs padded : List Char} (h : IsChoice cs) (around : Text.Padded cs padded) :
    IsChoice padded where
  noBar member := h.noBar ((Text.mem_of_words (by decide) around.words).mp member)
  noBracket member := h.noBracket ((Text.mem_of_words (by decide) around.words).mp member)
  balanced := h.balanced.of_words around.words.symm

/-- The normal form of an alternative, as it stands in that of an alternation. -/
def choiceOf (cs : List Char) : List Char :=
  settle choiceRound roundLimit (tidy cs)

section Joining

variable {ps : List (List Char)}

theorem noBracket_intercalate (choices : ∀ p ∈ ps, IsChoice p) :
    '[' ∉ ['|'].intercalate ps := by
  induction ps with
  | nil => simp
  | cons p ps ih =>
    have first := (choices p List.mem_cons_self).noBracket
    have rest := ih fun q member => choices q (List.mem_cons_of_mem p member)
    cases ps with
    | nil => simpa using first
    | cons q qs =>
      rw [List.intercalate_cons_cons]
      simpa using ⟨first, rest⟩

theorem bare_intercalate (choices : ∀ p ∈ ps, IsChoice p) :
    bare (['|'].intercalate ps) = ['|'].intercalate (ps.map bare) := by
  induction ps with
  | nil => rfl
  | cons p ps ih =>
    have later : ∀ q ∈ ps, IsChoice q := fun q member => choices q (List.mem_cons_of_mem p member)
    cases ps with
    | nil => simp
    | cons q qs =>
      rw [List.intercalate_cons_cons, List.append_assoc, List.singleton_append,
        bare_append_bar (choices p List.mem_cons_self).noBracket (noBracket_intercalate later),
        ih later]
      simp [List.intercalate_cons_cons]

theorem isMarked_intercalate (choices : ∀ p ∈ ps, IsChoice p) :
    isMarked (['|'].intercalate ps) = ps.any isMarked := by
  induction ps with
  | nil => decide
  | cons p ps ih =>
    have later : ∀ q ∈ ps, IsChoice q := fun q member => choices q (List.mem_cons_of_mem p member)
    cases ps with
    | nil => simp
    | cons q qs =>
      rw [List.intercalate_cons_cons, List.append_assoc, List.singleton_append,
        isMarked_append_bar (choices p List.mem_cons_self).noBracket (noBracket_intercalate later),
        ih later]
      simp

theorem Balanced.intercalate (balanced : ∀ p ∈ ps, Balanced p) :
    Balanced (['|'].intercalate ps) := by
  induction ps with
  | nil => rfl
  | cons p ps ih =>
    have first := balanced p List.mem_cons_self
    have rest := ih fun q member => balanced q (List.mem_cons_of_mem p member)
    cases ps with
    | nil => simpa using first
    | cons q qs =>
      rw [List.intercalate_cons_cons, Balanced]
      simp only [List.count_append]
      rw [first, rest]
      rfl

/-- The pieces of a tidied alternation are its alternatives, tidied. -/
theorem pieces_tidy (some : ps ≠ []) (choices : ∀ p ∈ ps, IsChoice p) :
    ((tidy (['|'].intercalate ps)).splitOn '|').map Text.trim = ps.map tidy := by
  have free : ∀ p ∈ ps.map bare, '|' ∉ p := by
    intro p member
    obtain ⟨q, listed, rfl⟩ := List.mem_map.mp member
    exact not_mem_bare (choices q listed).noBracket (choices q listed).noBar
  rw [tidy_eq_squeeze_bare, bare_intercalate choices, Text.trim_pieces_squeeze (by decide),
    List.splitOn_intercalate '|' free (by simpa using some), List.map_map]
  rfl

theorem balanced_pieces (some : ps ≠ []) (choices : ∀ p ∈ ps, IsChoice p) :
    ∀ q ∈ (tidy (['|'].intercalate ps)).splitOn '|', Balanced q := by
  intro q cut
  have listed : Text.trim q ∈ ps.map tidy := pieces_tidy some choices ▸ List.mem_map_of_mem cut
  obtain ⟨p, member, same⟩ := List.mem_map.mp listed
  have bare := (choices p member).balanced.bare (choices p member).noBracket
  refine bare.of_words ?_
  rw [← Text.words_trim q, ← same, tidy_eq_squeeze_bare, Text.words_squeeze]

/-- A round on an alternation normalizes its alternatives one by one. -/
theorem normalRound_intercalate (several : 2 ≤ ps.length) (choices : ∀ p ∈ ps, IsChoice p) :
    normalRound (['|'].intercalate ps) = alternation (ps.map choiceOf) := by
  have some : ps ≠ [] := by
    rintro rfl
    cases several
  have pieces := pieces_tidy some choices
  have balanced := balanced_pieces some choices
  generalize tidied : tidy (['|'].intercalate ps) = t at pieces balanced
  obtain ⟨q, r, rest, cut⟩ : ∃ q r rest, t.splitOn '|' = q :: r :: rest := by
    have length := congrArg List.length pieces
    rw [List.length_map, List.length_map] at length
    match cut : t.splitOn '|' with
    | [] =>
      rw [cut, List.length_nil] at length
      omega
    | [_] =>
      rw [cut, List.length_singleton] at length
      omega
    | q :: r :: rest => exact ⟨q, r, rest, rfl⟩
  have whole : t = q ++ '|' :: ['|'].intercalate (r :: rest) := by
    have joined : ['|'].intercalate (t.splitOn '|') = t := List.intercalate_splitOn '|'
    rw [cut, List.intercalate_cons_cons, List.append_assoc] at joined
    exact joined.symm
  have unwrapped : unwrap? t = none := by
    rw [cut] at balanced
    rw [whole]
    exact unwrap?_append_bar (balanced q List.mem_cons_self)
      (.intercalate fun p member => balanced p (List.mem_cons_of_mem q member))
  have bar : '|' ∈ t := whole ▸ List.mem_append_right q List.mem_cons_self
  have choicesOf : (t.splitOn '|').map normalChoice = ps.map choiceOf := by
    calc (t.splitOn '|').map normalChoice
        = ((t.splitOn '|').map Text.trim).map (settle choiceRound roundLimit) := by
          rw [List.map_map]
          exact List.map_congr_left fun q _ => by rw [normalChoice, Function.comp_apply]
      _ = (ps.map tidy).map (settle choiceRound roundLimit) := by rw [pieces]
      _ = ps.map choiceOf := by
          rw [List.map_map]
          exact List.map_congr_left fun p _ => by rw [choiceOf, Function.comp_apply]
  rw [normalRound, tidied, unwrapped]
  simp only [bar, if_true]
  rw [canonicalChoices, choicesOf]
  rfl

end Joining

/-- A text of the given alternatives, with bars between them and any blanks around the
bars. -/
def Joined (alternatives : List String) (text : String) : Prop :=
  ∃ padded, List.Forall₂ (fun a p => Text.Padded a.toList p) alternatives padded ∧
    text.toList = ['|'].intercalate padded

section Rearranging

variable {as : List String} {text : String}

/-- Blanks around the alternatives make no difference to what ignores them. -/
theorem map_padded {α : Type} {f : List Char → α}
    (same : ∀ cs p, Text.Padded cs p → f p = f cs) {padded : List (List Char)}
    (h : List.Forall₂ (fun a p => Text.Padded a.toList p) as padded) :
    padded.map f = as.map fun a => f a.toList := by
  induction h with
  | nil => rfl
  | cons around _ ih => rw [List.map_cons, List.map_cons, same _ _ around, ih]

theorem choices_padded {padded : List (List Char)}
    (h : List.Forall₂ (fun a p => Text.Padded a.toList p) as padded)
    (choices : ∀ a ∈ as, IsChoice a.toList) : ∀ p ∈ padded, IsChoice p := by
  induction h with
  | nil => simp
  | cons around _ ih =>
    intro p member
    rcases List.mem_cons.mp member with rfl | later
    · exact (choices _ List.mem_cons_self).padded around
    · exact ih (fun a listed => choices a (List.mem_cons_of_mem _ listed)) p later

theorem Joined.normalRound (h : Joined as text) (several : 2 ≤ as.length)
    (choices : ∀ a ∈ as, IsChoice a.toList) :
    normalRound text.toList = alternation (as.map fun a => choiceOf a.toList) := by
  obtain ⟨padded, around, same⟩ := h
  have alike : ∀ cs p, Text.Padded cs p → choiceOf p = choiceOf cs := fun cs p h => by
    rw [choiceOf, h.tidy, choiceOf]
  rw [same, normalRound_intercalate (around.length_eq ▸ several) (choices_padded around choices),
    map_padded alike around]

theorem Joined.isMarked (h : Joined as text) (choices : ∀ a ∈ as, IsChoice a.toList) :
    isMarked text.toList = as.any fun a => isMarked a.toList := by
  obtain ⟨padded, around, same⟩ := h
  have alike := map_padded (fun _ _ h => h.isMarked) around
  have some := congrArg (fun marked => marked.any id) alike
  rw [List.any_map, List.any_map] at some
  rw [same, isMarked_intercalate (choices_padded around choices)]
  exact some

/-- Alternations are canonical. A text of at least two alternatives has the same normal
form as any text of the same alternatives in another order, with repetitions and with
alternatives that every attribute accepts. -/
theorem alternations_canonical {first second extra : List String} {x y : String}
    (several : 2 ≤ first.length) (choices : ∀ a ∈ first, IsChoice a.toList)
    (rearranged : second.Perm (first ++ extra))
    (known : ∀ a ∈ extra, a ∈ first ∨ a ∈ universalAlternatives)
    (left : Joined first x) (right : Joined second y) :
    (normalize x == normalize y) = true ∧
      (normalize x).alternatives = (normalize y).alternatives := by
  have universal : ∀ a ∈ universalAlternatives, '|' ∉ a.toList ∧ '[' ∉ a.toList ∧
      Balanced a.toList ∧ isTelling (choiceOf a.toList) = false ∧
      Grammar.isMarked a.toList = false := by
    decide
  have members : ∀ a, a ∈ second ↔ a ∈ first ∨ a ∈ extra := fun a => by
    rw [rearranged.mem_iff, List.mem_append]
  have severalMore : 2 ≤ second.length := by
    rw [rearranged.length_eq, List.length_append]
    exact several.trans (Nat.le_add_right _ _)
  have choicesMore : ∀ a ∈ second, IsChoice a.toList := by
    intro a member
    rcases (members a).mp member with listed | added
    · exact choices a listed
    · rcases known a added with listed | accepted
      · exact choices a listed
      · obtain ⟨noBar, noBracket, balanced, -⟩ := universal a accepted
        exact ⟨noBar, noBracket, balanced⟩
  have round : Grammar.normalRound x.toList = Grammar.normalRound y.toList := by
    rw [left.normalRound several choices, right.normalRound severalMore choicesMore, alternation,
      alternation]
    refine congrArg _ (Text.ascending_congr fun t => ?_)
    simp only [List.mem_filter, List.mem_map]
    constructor
    · rintro ⟨⟨a, listed, rfl⟩, telling⟩
      exact ⟨⟨a, (members a).mpr (Or.inl listed), rfl⟩, telling⟩
    · rintro ⟨⟨a, member, rfl⟩, telling⟩
      refine ⟨⟨a, ?_, rfl⟩, telling⟩
      rcases (members a).mp member with listed | added
      · exact listed
      · refine (known a added).resolve_right fun accepted => ?_
        rw [(universal a accepted).2.2.2.1] at telling
        cases telling
  have marked : Grammar.isMarked x.toList = Grammar.isMarked y.toList := by
    rw [left.isMarked choices, right.isMarked choicesMore, Bool.eq_iff_iff, List.any_eq_true,
      List.any_eq_true]
    constructor
    · rintro ⟨a, listed, marked⟩
      exact ⟨a, (members a).mpr (Or.inl listed), marked⟩
    · rintro ⟨a, member, marked⟩
      refine ⟨a, ?_, marked⟩
      rcases (members a).mp member with listed | added
      · exact listed
      · refine (known a added).resolve_right fun accepted => ?_
        rw [(universal a accepted).2.2.2.2] at marked
        cases marked
  have same := normalize_congr round marked
  exact ⟨same, alternatives_congr ((beq_iff _ _).mp same).1⟩

/-- Keywords or a set of names, once with each alternative and once with one of them
twice and `no-value`. -/
theorem alternations_canonical_of_keyword_names :
    (normalize "type2 keyword | 1setOf (name(MAX))" ==
      normalize "no-value|1setOf (name(MAX))\t|  type2 keyword |1setOf (name(MAX))") = true := by
  have choices : ∀ a ∈ ["type2 keyword", "1setOf (name(MAX))"], IsChoice a.toList := by
    intro a member
    have each : ∀ a ∈ ["type2 keyword", "1setOf (name(MAX))"],
        '|' ∉ a.toList ∧ '[' ∉ a.toList ∧ Balanced a.toList := by decide
    obtain ⟨noBar, noBracket, balanced⟩ := each a member
    exact ⟨noBar, noBracket, balanced⟩
  have plain : Joined ["type2 keyword", "1setOf (name(MAX))"]
      "type2 keyword | 1setOf (name(MAX))" :=
    ⟨_, .cons (.of_all [] [' '] rfl rfl) (.cons (.of_all [' '] [] rfl rfl) .nil), by decide⟩
  have rearranged : Joined
      ["no-value", "1setOf (name(MAX))", "type2 keyword", "1setOf (name(MAX))"]
      "no-value|1setOf (name(MAX))\t|  type2 keyword |1setOf (name(MAX))" :=
    ⟨_, .cons (.self _) (.cons (.of_all [] ['\t'] rfl rfl)
      (.cons (.of_all [' ', ' '] [' '] rfl rfl) (.cons (.self _) .nil))), by decide⟩
  have same := alternations_canonical (by decide) choices
    (show List.Perm _ (_ ++ ["1setOf (name(MAX))", "no-value"]) by decide) (by decide) plain
    rearranged
  exact same.1

end Rearranging

end Grammar

end PrintRegistry
