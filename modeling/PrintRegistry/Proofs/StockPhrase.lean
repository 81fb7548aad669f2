import PrintRegistry.Proofs.Template
import PrintRegistry.Proofs.Text
import PrintRegistry.Reference.Phrase

/-!
The stock phrases. A text is not read by a stock phrase if it ends otherwise, begins
otherwise, or has more spaces and capitals than there is room for; and each stock phrase
reads the texts that it is meant for.
-/

namespace PrintRegistry.Reference

open Text (Piece Template)
open Text.Template (Fills)

section Refuting

variable {p : StockPhrase} {cs e : List Char}

theorem read?_eq_none (whole : p.anywhere = false)
    (none : ∀ filled, ¬ Fills p.template filled cs) : p.read? cs = Option.none := by
  rw [StockPhrase.read?, whole]
  cases read : p.template.readWhole? cs with
  | none => simp
  | some filled => exact absurd (Text.Template.fills_of_readWhole? read) (none filled)

/-- A text with another ending is not read. -/
theorem read?_of_ending {ps : List StockPhrase} (ends : e <:+ cs)
    (apart : ∀ p ∈ ps, p.anywhere = false ∧ ∀ o ∈ p.template.endings, Text.Apart o.toList e) :
    ∀ p ∈ ps, p.read? cs = none := by
  intro p listed
  apply read?_eq_none (apart p listed).1
  intro filled fills
  obtain ⟨o, last, other⟩ := fills.ending
  exact ((apart p listed).2 o last).not_suffix ends other

/-- A text with another beginning is not read. -/
theorem read?_of_beginning {o : String} {t : Template} (whole : p.anywhere = false)
    (shape : p.template = .fixed o :: t) (other : ¬ o.toList <+: cs) : p.read? cs = none := by
  apply read?_eq_none whole
  rw [shape]
  rintro filled (_ | ⟨listed, inner⟩)
  obtain rfl := List.mem_singleton.mp listed
  exact other (List.prefix_append ..)

/-- Whether a character stands neither in names nor around them. -/
def isForeign (c : Char) : Bool :=
  !isNameChar c && c != '"'

/-- A text with more spaces and capitals is not read. -/
theorem read?_of_foreign {more : List Piece} (whole : p.anywhere = false)
    (shape : p.template = looselyQuoted nameBlank ++ more)
    (choices : ∀ least fits, .blank least fits ∉ more) (ends : e <:+ cs)
    (many : p.template.most isForeign < e.countP isForeign) : p.read? cs = none := by
  have out : p.template.keepsOut isForeign := by
    intro least fits member c fit
    rw [shape] at member
    have same : fits = isNameChar := by
      have blank : least = 1 ∧ fits = isNameChar := by
        simpa [looselyQuoted, Piece.optional, nameBlank, choices] using member
      exact blank.2
    rw [isForeign, ← same, fit]
    rfl
  apply read?_eq_none whole
  intro filled fills
  have fewer := fills.countP_le out
  have within : e.countP isForeign ≤ cs.countP isForeign := ends.countP_le
  omega

theorem keywordValues_template : keywordValues.template = looselyQuoted nameBlank ++
    [.optional " keyword", .choice [" values", " value", " names", " name"]] := rfl

theorem attributeKeywordName_template : attributeKeywordName.template =
    looselyQuoted nameBlank ++ [.fixed " attribute keyword name"] := rfl

/-- The first stock phrase has room for two spaces, and the second for three. -/
theorem read?_keywordValues_of_foreign (ends : e <:+ cs) (many : 2 < e.countP isForeign) :
    keywordValues.read? cs = none := by
  have room : keywordValues.template.most isForeign = 2 := by decide
  exact read?_of_foreign rfl keywordValues_template (by simp [Piece.optional]) ends (room ▸ many)

theorem read?_attributeKeywordName_of_foreign (many : 3 < cs.countP isForeign) :
    attributeKeywordName.read? cs = none := by
  have room : attributeKeywordName.template.most isForeign = 3 := by decide
  exact read?_of_foreign rfl attributeKeywordName_template (by simp [Piece.fixed]) List.suffix_rfl
    (room ▸ many)

/-- A phrase about an attribute is read by none of the stock phrases that end otherwise. -/
theorem read?_of_attribute (ends : " attribute".toList <:+ cs) :
    ∀ p ∈ [keywordValues, attributeKeywordName, familyKeywordName, memberAttributeName, quotedName],
      p.read? cs = none := by
  have apart : ∀ p ∈ [keywordValues, attributeKeywordName, familyKeywordName,
      memberAttributeName, quotedName], p.anywhere = false ∧
        ∀ o ∈ p.template.endings, Text.Apart o.toList " attribute".toList := by decide
  exact read?_of_ending ends apart

end Refuting

section Reading

variable {p : StockPhrase} {name tail cs : List Char} {quote : String}

theorem read?_of_first? (filled : List (List Char)) (whole : p.anywhere = false)
    (h : p.template.first? Template.atEnd cs = some (filled, ())) :
    p.read? cs = p.refer (filled.map String.ofList) := by
  rw [StockPhrase.read?, whole, if_neg Bool.false_ne_true, Template.readWhole?_eq_some h]
  rfl

theorem first?_nameBlank {more : Template} {c : Char} {filled : List (List Char)}
    (some : name ≠ []) (small : ∀ c ∈ name, isNameChar c = true) (other : isNameChar c = false)
    (left : more.first? Template.atEnd (c :: tail) = Option.some (filled, ())) :
    Template.first? Template.atEnd (nameBlank :: more) (name ++ c :: tail) =
      Option.some (name :: filled, ()) := by
  rw [nameBlank, Template.first?,
    Text.longestRun?_append_cons (List.length_pos_of_ne_nil some) small other left]
  rfl

/-- A name is read that is quoted or not. -/
theorem read?_named {more : Template} (whole : p.anywhere = false)
    (shape : p.template = looselyQuoted nameBlank ++ more) (quoted : quote = "" ∨ quote = "\"")
    (some : name ≠ []) (small : ∀ c ∈ name, isNameChar c = true)
    (spaced : tail.head? = Option.some ' ')
    (left : more.first? Template.atEnd tail = Option.some ([], ())) :
    p.read? (quote.toList ++ (name ++ (quote.toList ++ tail))) = p.refer [String.ofList name] := by
  obtain ⟨rest, rfl⟩ := List.head?_eq_some_iff.mp spaced
  apply read?_of_first? [name] whole
  rw [shape]
  rcases quoted with rfl | rfl
  · have starts : ¬ ("\"" : String).toList <+: name ++ ' ' :: rest := by
      obtain ⟨c, cs, rfl⟩ := List.exists_cons_of_ne_nil some
      have fits := small c List.mem_cons_self
      have other : '"' ≠ c := by
        rintro rfl
        cases fits
      simp [other]
    have unquoted : ¬ ("\"" : String).toList <+: ' ' :: rest := by simp
    refine (Template.first?_optional_absent starts).trans ?_
    exact first?_nameBlank some small rfl ((Template.first?_optional_absent unquoted).trans left)
  · apply Template.first?_optional_present
    exact first?_nameBlank some small rfl (Template.first?_optional_present left)

/-- The endings of phrases for the values of a name. -/
def valueEndings : List String :=
  [" values", " value", " names", " name", " keyword values", " keyword value", " keyword names",
   " keyword name"]

/-- The endings of phrases for the members of a collection. -/
def memberEndings : List String :=
  [" member attribute names", " member attribute name"]

theorem read?_keywordValues {ending : String} (quoted : quote = "" ∨ quote = "\"")
    (some : name ≠ []) (small : ∀ c ∈ name, isNameChar c = true) (ended : ending ∈ valueEndings) :
    keywordValues.read? (quote.toList ++ (name ++ (quote.toList ++ ending.toList))) =
      Option.some (.byName (String.ofList name)) := by
  have endings : ∀ e ∈ valueEndings, e.toList.head? = Option.some ' ' ∧
      Template.first? Template.atEnd [.optional " keyword",
        .choice [" values", " value", " names", " name"]] e.toList = Option.some ([], ()) := by
    decide
  obtain ⟨spaced, left⟩ := endings ending ended
  exact read?_named rfl keywordValues_template quoted some small spaced left

theorem read?_attributeKeywordName (quoted : quote = "" ∨ quote = "\"") (some : name ≠ [])
    (small : ∀ c ∈ name, isNameChar c = true) :
    attributeKeywordName.read?
        (quote.toList ++ (name ++ (quote.toList ++ " attribute keyword name".toList))) =
      Option.some (.byName (String.ofList name)) :=
  read?_named rfl attributeKeywordName_template quoted some small rfl rfl

theorem read?_memberAttributeName {ending : String} (quoted : quote = "" ∨ quote = "\"")
    (some : name ≠ []) (small : ∀ c ∈ name, isNameChar c = true) (ended : ending ∈ memberEndings) :
    memberAttributeName.read? (quote.toList ++ (name ++ (quote.toList ++ ending.toList))) =
      Option.some (.byMembers (String.ofList name)) := by
  have shape : memberAttributeName.template = looselyQuoted nameBlank ++
      [.choice [" member attribute names", " member attribute name"]] := rfl
  have endings : ∀ e ∈ memberEndings, e.toList.head? = Option.some ' ' ∧
      Template.first? Template.atEnd [.choice [" member attribute names", " member attribute name"]]
        e.toList = Option.some ([], ()) := by
    decide
  obtain ⟨spaced, left⟩ := endings ending ended
  exact read?_named rfl shape quoted some small spaced left

theorem read?_quotedName (some : name ≠ []) (small : ∀ c ∈ name, isNameChar c = true) :
    quotedName.read? ("\"".toList ++ (name ++ ['"'])) =
      Option.some (.byName (String.ofList name)) := by
  apply read?_of_first? [name] rfl
  rw [quotedName, Template.first?_fixed]
  exact first?_nameBlank some small rfl rfl

section Families

variable {family : List Char}

/-- A name and what follows it up to the last word are read in full. -/
theorem first?_nameOfFamily (some : name ≠ []) (small : ∀ c ∈ name, isNameChar c = true)
    (line : '\n' ∉ family) :
    Template.first? Template.atEnd [nameBlank, .fixed "\" ", lineBlank, .fixed " attribute"]
        (name ++ '"' :: ' ' :: (family ++ " attribute".toList)) =
      Option.some ([name, family], ()) := by
  have full : ∀ c ∈ family, (c != '\n') = true := by
    intro c listed
    rw [bne_iff_ne]
    rintro rfl
    exact line listed
  apply first?_nameBlank some small rfl
  have last : Template.first? Template.atEnd [lineBlank, .fixed " attribute"]
      (family ++ " attribute".toList) = Option.some ([family], ()) :=
    Template.first?_blank_ending (Nat.zero_le _) full rfl rfl
  exact Template.first?_fixed.trans last

theorem read?_quotedNameOfFamily (some : name ≠ []) (small : ∀ c ∈ name, isNameChar c = true)
    (line : '\n' ∉ family) :
    quotedNameOfFamily.read?
        ("\"".toList ++ (name ++ '"' :: ' ' :: (family ++ " attribute".toList))) =
      Option.some (.byName (String.ofList name)) := by
  apply read?_of_first? [name, family] rfl
  exact Template.first?_fixed.trans (first?_nameOfFamily some small line)

theorem read?_sameMembers (some : name ≠ []) (small : ∀ c ∈ name, isNameChar c = true)
    (line : '\n' ∉ family) :
    sameMembers.read? ("Member attributes are the same as the \"".toList ++
        (name ++ '"' :: ' ' :: (family ++ " attribute".toList))) =
      Option.some (.byAlias (String.ofList name) (Text.trimmed (String.ofList family))) := by
  apply read?_of_first? [name, family] rfl
  exact Template.first?_fixed.trans (first?_nameOfFamily some small line)

theorem read?_familyKeywordName (some : family ≠ [])
    (full : ∀ c ∈ family, (isTitleChar c || c == '-') = true) :
    familyKeywordName.read? (family ++ " attribute keyword name".toList) =
      Option.some (.byGroup (familyTitle (Text.trimmed (String.ofList family)))) := by
  have starts : ¬ ("\"" : String).toList <+: family ++ " attribute keyword name".toList := by
    obtain ⟨c, cs, rfl⟩ := List.exists_cons_of_ne_nil some
    have fits := full c List.mem_cons_self
    have other : '"' ≠ c := by
      rintro rfl
      cases fits
    simp [other]
  apply read?_of_first? [family] rfl
  refine (Template.first?_optional_absent starts).trans ?_
  exact Template.first?_blank_ending (List.length_pos_of_ne_nil some) full rfl rfl

theorem read?_familyAttribute (full : ∀ c ∈ family, isTitleChar c = true)
    (words : Text.contains (Text.trimmed (String.ofList family)) " " = true) (some : family ≠ []) :
    familyAttribute.read? (family ++ " attribute".toList) =
      Option.some (.byGroup (Text.trimmed (String.ofList family))) := by
  have found : familyAttribute.template.readBeginning? (family ++ " attribute".toList) =
      Option.some ([family], []) :=
    Template.first?_blank_ending (List.length_pos_of_ne_nil some) full rfl rfl
  have search := Template.search?_eq_some found
  have anywhere : familyAttribute.anywhere = true := rfl
  rw [StockPhrase.read?, anywhere, if_pos rfl, search, Option.bind_some]
  simp [familyAttribute, words]

end Families

end Reading

end PrintRegistry.Reference
