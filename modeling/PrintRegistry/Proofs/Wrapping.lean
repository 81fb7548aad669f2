import PrintRegistry.Proofs.Template
import PrintRegistry.Proofs.Text
import PrintRegistry.Reference.Phrase

/-!
Phrases in their wrappers. Whatever stands around a phrase is taken away, and a phrase that
no slip ends is changed in one way only: where it has the one slip that is corrected
anywhere. What is left is held against the stock phrases.
-/

namespace PrintRegistry.Reference

open Text (Piece Template Apart)

/-- What stands around a phrase: an opening bracket, an article and a closing bracket, each
of which may be absent. -/
structure Wrapper where
  bracket : String
  article : String
  closing : String
  opened : bracket ∈ ["", "<", "< "]
  introduced : article ∈ ["", "any ", "Any ", "all ", "All "]
  closed : closing ∈ ["", ">", " >"]

namespace Wrapper

def wrap (w : Wrapper) (phrase : String) : String :=
  w.bracket ++ w.article ++ phrase ++ w.closing

def hasArticle (w : Wrapper) : Bool :=
  w.article != ""

end Wrapper

/-- A text that can be told from what is before it: it does not begin with a space, and
without an article it begins with a quotation mark or as the wording for shared members
does. -/
def Begins (article : Bool) (cs : List Char) : Prop :=
  ∃ c rest, cs = c :: rest ∧ c ≠ ' ' ∧ (article = false → c = '"' ∨ c = 'M')

/-- A text that can be told from what is after it. -/
def Ends (cs : List Char) : Prop :=
  cs.getLast?.any (fun c => c != ' ' && c != '>') = true

instance (cs : List Char) : Decidable (Ends cs) :=
  inferInstanceAs (Decidable (_ = _))

section Unwrapping

variable {article bracket closing : String} {c : Char} {cs : List Char}

theorem first?_article (introduced : article ∈ ["", "any ", "Any ", "all ", "All "])
    (solid : c ≠ ' ') (bare : article = "" → c = '"' ∨ c = 'M') (cs : List Char) :
    Template.first? some [.choice ["any", "Any", "all", "All", ""], .optional " "]
        (article.toList ++ c :: cs) = some ([], c :: cs) ∧
      ∃ d ds, article.toList ++ c :: cs = d :: ds ∧ d ≠ '<' ∧ d ≠ ' ' := by
  simp only [List.mem_cons, List.not_mem_nil, or_false] at introduced
  rcases introduced with rfl | rfl | rfl | rfl | rfl
  · constructor
    · rcases bare rfl with rfl | rfl <;> simp [Template.first?, Piece.optional, List.isPrefixOf?]
    · rcases bare rfl with rfl | rfl <;> simp
  all_goals
    constructor
    · simp [Template.first?, Piece.optional, List.isPrefixOf?]
    · simp

theorem withoutOpening_eq (opened : bracket ∈ ["", "<", "< "])
    (introduced : article ∈ ["", "any ", "Any ", "all ", "All "])
    (solid : c ≠ ' ') (bare : article = "" → c = '"' ∨ c = 'M') :
    withoutOpening (bracket.toList ++ (article.toList ++ c :: cs)) = c :: cs := by
  obtain ⟨read, d, ds, starts, other, full⟩ := first?_article introduced solid bare cs
  have noSpace : ¬ (" " : String).toList <+: d :: ds := by simp [full.symm]
  have noBracket : ¬ ("<" : String).toList <+: d :: ds := by simp [other.symm]
  have spaceless : Template.first? some [.optional " ", .choice ["any", "Any", "all", "All", ""],
      .optional " "] (d :: ds) = some ([], c :: cs) := by
    rw [Template.first?_optional_absent noSpace, ← starts, read]
  have spaced : Template.first? some [.optional " ", .choice ["any", "Any", "all", "All", ""],
      .optional " "] (' ' :: d :: ds) = some ([], c :: cs) :=
    Template.first?_optional_present (starts ▸ read)
  rw [starts, withoutOpening]
  suffices opening.readBeginning? (bracket.toList ++ d :: ds) = some ([], c :: cs) by rw [this]; rfl
  simp only [List.mem_cons, List.not_mem_nil, or_false] at opened
  rcases opened with rfl | rfl | rfl
  · exact (Template.first?_optional_absent noBracket).trans spaceless
  · exact Template.first?_optional_present spaceless
  · exact Template.first?_optional_present spaced

theorem withoutClosing_eq (closed : closing ∈ ["", ">", " >"]) (solid : c ≠ ' ') (last : c ≠ '>') :
    withoutClosing (cs ++ [c] ++ closing.toList) = cs ++ [c] := by
  simp only [List.mem_cons, List.not_mem_nil, or_false] at closed
  rcases closed with rfl | rfl | rfl
  · have same : ("" : String).toList = [] := rfl
    rw [same, List.append_nil, withoutClosing, List.reverse_concat]
    split <;> simp_all
  · have same : (">" : String).toList = ['>'] := rfl
    rw [same, withoutClosing, List.reverse_concat, List.reverse_concat]
    split <;> simp_all
  · simp [withoutClosing]

theorem Ends.of_suffix {e : List Char} (h : Ends e) (ends : e <:+ cs) : Ends cs := by
  obtain ⟨start, rfl⟩ := ends
  cases last : e.getLast? with
  | none => simp [Ends, last] at h
  | some c => simpa [Ends, last, List.getLast?_append] using h

theorem cleanPhrase_wrap (w : Wrapper) {phrase : String}
    (begins : Begins w.hasArticle phrase.toList) (ends : Ends phrase.toList) :
    cleanPhrase (w.wrap phrase) = corrections.foldl Correction.apply phrase.toList := by
  obtain ⟨c, rest, starts, solid, bare⟩ := begins
  have plain : w.article = "" → c = '"' ∨ c = 'M' := by
    intro none
    exact bare (by simp [Wrapper.hasArticle, none])
  have opened : withoutOpening (w.wrap phrase).toList = phrase.toList ++ w.closing.toList := by
    have text : (w.wrap phrase).toList =
        w.bracket.toList ++ (w.article.toList ++ c :: (rest ++ w.closing.toList)) := by
      simp [Wrapper.wrap, String.toList_append, starts]
    rw [text, withoutOpening_eq w.opened w.introduced solid plain, starts, List.cons_append]
  rw [Ends, Option.any_eq_true] at ends
  obtain ⟨d, last, kept⟩ := ends
  obtain ⟨start, whole⟩ := List.getLast?_eq_some_iff.mp last
  obtain ⟨full, other⟩ : d ≠ ' ' ∧ d ≠ '>' := by simpa using kept
  rw [cleanPhrase, opened, whole, withoutClosing_eq w.closed full other]

end Unwrapping

section Correcting

variable {cs xs ys e : List Char} {c : Char}

/-- A text without the slip that is corrected anywhere. -/
def IsSpelt (cs : List Char) : Prop :=
  ¬ "job-default-output-until".toList <:+: cs

instance (cs : List Char) : Decidable (IsSpelt cs) :=
  inferInstanceAs (Decidable (¬ _))

/-- The text with that slip corrected. -/
def respelt (cs : List Char) : List Char :=
  Text.replaceFirst "job-default-output-until".toList "job-delay-output-until".toList cs

theorem respelt_eq (spelt : IsSpelt cs) : respelt cs = cs :=
  Text.replaceFirst_absent spelt

theorem isSpelt_of_notMem (absent : 'j' ∉ cs) : IsSpelt cs :=
  fun slip => absent (slip.subset (by decide))

theorem not_mem_slip (other : isNameChar c = false) : c ∉ "job-default-output-until".toList := by
  have small : ∀ d ∈ "job-default-output-until".toList, isNameChar d = true :=
    List.all_eq_true.mp rfl
  intro listed
  rw [small c listed] at other
  cases other

/-- The slip has no other characters than names, so it stands on one side of any other
character. -/
theorem isSpelt_append_cons (other : isNameChar c = false) (xs ys : List Char) :
    IsSpelt (xs ++ c :: ys) ↔ IsSpelt xs ∧ IsSpelt ys := by
  rw [IsSpelt, Text.infix_append_cons_iff (not_mem_slip other), not_or]
  rfl

theorem respelt_append_cons_left (other : isNameChar c = false) (xs : List Char)
    (spelt : IsSpelt ys) :
    respelt (xs ++ c :: ys) = respelt xs ++ c :: ys :=
  Text.replaceFirst_append_cons_left (not_mem_slip other) spelt

theorem respelt_append_cons_right (other : isNameChar c = false) (spelt : IsSpelt xs)
    (ys : List Char) :
    respelt (xs ++ c :: ys) = xs ++ c :: respelt ys :=
  Text.replaceFirst_append_cons_right (not_mem_slip other) spelt

theorem isSpelt_cons (other : isNameChar c = false) : IsSpelt (c :: ys) ↔ IsSpelt ys :=
  (isSpelt_append_cons other [] ys).trans (and_iff_right (by decide))

theorem respelt_cons (other : isNameChar c = false) : respelt (c :: ys) = c :: respelt ys :=
  respelt_append_cons_right other (by decide : IsSpelt []) ys

theorem not_mem_respelt (other : isNameChar c = false) (absent : c ∉ cs) : c ∉ respelt cs := by
  have small : ∀ d ∈ "job-delay-output-until".toList, isNameChar d = true :=
    List.all_eq_true.mp rfl
  intro listed
  rcases Text.mem_replaceFirst listed with new | old
  · rw [small c new] at other
    cases other
  · exact absent old

/-- The endings that are slips. -/
def wrongEndings : List String :=
  corrections.filterMap fun
    | .ending wrong _ => some wrong
    | .first _ _ => none

theorem apply_ending {wrong right : String} (other : ¬ wrong.toList <:+ cs) :
    (Correction.ending wrong right).apply cs = cs := by
  cases dropped : Text.dropEnding? wrong.toList cs with
  | none => rw [Correction.apply, dropped]
  | some start => exact absurd ⟨start, (Text.dropEnding?_eq_some dropped).symm⟩ other

theorem corrected_eq (before : ∀ wrong ∈ wrongEndings, ¬ wrong.toList <:+ cs)
    (after : ∀ wrong ∈ wrongEndings, ¬ wrong.toList <:+ respelt cs) :
    corrections.foldl Correction.apply cs = respelt cs := by
  simp only [wrongEndings, corrections, List.filterMap_cons, List.filterMap_nil,
    List.forall_mem_cons] at before after
  obtain ⟨color, -⟩ := before
  obtain ⟨-, media, sheets, back, front, -⟩ := after
  have anywhere : (Correction.first "job-default-output-until" "job-delay-output-until").apply cs =
      respelt cs := rfl
  simp only [corrections, List.foldl_cons, List.foldl_nil, apply_ending color, anywhere,
    apply_ending media, apply_ending sheets, apply_ending back, apply_ending front]

/-- A wrapped phrase is held against the stock phrases as it is, but for one slip. -/
theorem ofPhrase?_wrap (w : Wrapper) {phrase : String} (begins : Begins w.hasArticle phrase.toList)
    (ends : Ends phrase.toList) (before : ∀ wrong ∈ wrongEndings, ¬ wrong.toList <:+ phrase.toList)
    (after : ∀ wrong ∈ wrongEndings, ¬ wrong.toList <:+ respelt phrase.toList)
    (other : ∀ p ∈ mediaPhrases, p.toList ≠ respelt phrase.toList) :
    ofPhrase? (w.wrap phrase) = stockPhrases.findSome? (·.read? (respelt phrase.toList)) := by
  have unlike : String.ofList (respelt phrase.toList) ∉ mediaPhrases := fun listed =>
    other _ listed String.toList_ofList
  rw [ofPhrase?, cleanPhrase_wrap w begins ends, corrected_eq before after]
  exact if_neg unlike

/-- An ending that is no slip and that no phrase for media has. -/
def IsSound (e : List Char) : Prop :=
  Ends e ∧ (∀ wrong ∈ wrongEndings, Apart wrong.toList e) ∧ ∀ p ∈ mediaPhrases, ¬ e <:+ p.toList

instance (e : List Char) : Decidable (IsSound e) :=
  inferInstanceAs (Decidable (_ ∧ _))

theorem ofPhrase?_wrap_of_ending (w : Wrapper) {phrase : String}
    (begins : Begins w.hasArticle phrase.toList) (sound : IsSound e) (ends : e <:+ phrase.toList)
    (still : e <:+ respelt phrase.toList) :
    ofPhrase? (w.wrap phrase) = stockPhrases.findSome? (·.read? (respelt phrase.toList)) := by
  obtain ⟨last, apart, unlike⟩ := sound
  apply ofPhrase?_wrap w begins (last.of_suffix ends)
  · exact fun wrong listed => (apart wrong listed).not_suffix ends
  · exact fun wrong listed => (apart wrong listed).not_suffix still
  · intro p listed same
    exact unlike p listed (same ▸ still)

end Correcting

end PrintRegistry.Reference
