import PrintRegistry.Reference
import PrintRegistry.Text.Blank
import PrintRegistry.Text.Search
import PrintRegistry.Text.Template

/-!
Reading references from prose. Value columns of the registry say in words
where legal values are found, as in `< any "media" keyword value >`. A phrase
is taken out of its wrapper, known slips are corrected, and then it is held
against the stock phrases in order: earlier ones are more specific.
-/

namespace PrintRegistry.Reference

open Text (Piece Template)

/-- Small letters and hyphens, which names of attributes consist of. -/
def isNameChar (c : Char) : Bool :=
  ('a' ≤ c && c ≤ 'z') || c == '-'

def isTitleChar (c : Char) : Bool :=
  ('A' ≤ c && c ≤ 'Z') || ('a' ≤ c && c ≤ 'z') || c == ' '

def nameBlank : Piece := .blank 1 isNameChar

def lineBlank : Piece := .blank 0 (· != '\n')

/-- A name that may be quoted, on either side alone too. -/
def looselyQuoted (name : Piece) : Template :=
  [.optional "\"", name, .optional "\""]

/-- The opening of a phrase: a bracket and an article, with spaces. -/
def opening : Template :=
  [.optional "<", .optional " ", .choice ["any", "Any", "all", "All", ""], .optional " "]

def withoutOpening (cs : List Char) : List Char :=
  ((opening.readBeginning? cs).map Prod.snd).getD cs

/-- The text before the closing bracket and one space. -/
def withoutClosing (cs : List Char) : List Char :=
  match cs.reverse with
  | '>' :: ' ' :: rest => rest.reverse
  | '>' :: rest => rest.reverse
  | ' ' :: rest => rest.reverse
  | _ => cs

inductive Correction where
  | ending (wrong right : String)
  /-- Corrected where it stands first. -/
  | first (wrong right : String)

def Correction.apply (cs : List Char) : Correction → List Char
  | .ending wrong right =>
    match Text.dropEnding? wrong.toList cs with
    | some start => start ++ right.toList
    | none => cs
  | .first wrong right => Text.replaceFirst wrong.toList right.toList cs

def corrections : List Correction :=
  [.ending "\"media\" color name" "media-color name",
   .first "job-default-output-until" "job-delay-output-until",
   .ending " the \"media-col\"" " the \"media-col\" Job Template attribute",
   .ending " the \"separator-sheets\"" " the \"separator-sheets\" Job Template attribute",
   .ending " the \"cover-back\"" " the \"cover-back\" Job Template attribute",
   .ending " the \"cover-front\"" " the \"cover-front\" Job Template attribute"]

/-- The phrase itself: out of its wrapper and with slips corrected. -/
def cleanPhrase (phrase : String) : List Char :=
  corrections.foldl Correction.apply (withoutClosing (withoutOpening phrase.toList))

def mediaPhrases : List String :=
  ["\"media\" media or size keyword value", "\"media\" input tray keyword value",
   "media size name value"]

def shortTitles : List (String × String) :=
  [("Printer", "Printer Description")]

def familyTitle (family : String) : String :=
  (shortTitles.lookup family).getD family

/-- A stock phrase and what it refers to, given what is filled in. -/
structure StockPhrase where
  template : Template
  anywhere : Bool := false
  refer : List String → Option Reference

def StockPhrase.read? (p : StockPhrase) (cs : List Char) : Option Reference :=
  (if p.anywhere then p.template.search? cs else p.template.readWhole? cs).bind fun filled =>
    p.refer (filled.map String.ofList)

private def toName : List String → Option Reference
  | [name] => some (.byName name)
  | _ => none

/-- `"media-color" keyword values` -/
def keywordValues : StockPhrase where
  template := looselyQuoted nameBlank ++
    [.optional " keyword", .choice [" values", " value", " names", " name"]]
  refer := toName

def attributeKeywordName : StockPhrase where
  template := looselyQuoted nameBlank ++ [.fixed " attribute keyword name"]
  refer := toName

/-- `Job Template attribute keyword name` -/
def familyKeywordName : StockPhrase where
  template := looselyQuoted (.blank 1 fun c => isTitleChar c || c == '-') ++
    [.fixed " attribute keyword name"]
  refer
    | [family] => some (.byGroup (familyTitle (Text.trimmed family)))
    | _ => none

/-- `media-col member attribute name` -/
def memberAttributeName : StockPhrase where
  template := looselyQuoted nameBlank ++
    [.choice [" member attribute names", " member attribute name"]]
  refer
    | [collection] => some (.byMembers collection)
    | _ => none

def quotedName : StockPhrase where
  template := [.fixed "\"", nameBlank, .fixed "\""]
  refer := toName

/-- `"cover-back" Job Template attribute` -/
def quotedNameOfFamily : StockPhrase where
  template := [.fixed "\"", nameBlank, .fixed "\" ", lineBlank, .fixed " attribute"]
  refer
    | [name, _] => some (.byName name)
    | _ => none

/-- `Member attributes are the same as the "media-col" Job Template attribute` -/
def sameMembers : StockPhrase where
  template := [.fixed "Member attributes are the same as the \"", nameBlank, .fixed "\" ",
    lineBlank, .fixed " attribute"]
  refer
    | [collection, family] => some (.byAlias collection (some (Text.trimmed family)))
    | _ => none

/-- `Job Template attribute`, anywhere in the text. A single word is a name and
no family. -/
def familyAttribute : StockPhrase where
  template := [.blank 1 isTitleChar, .fixed " attribute"]
  anywhere := true
  refer
    | [family] =>
      if Text.contains (Text.trimmed family) " " then some (.byGroup (Text.trimmed family))
      else none
    | _ => none

/-- The stock phrases, the more specific ones first. -/
def stockPhrases : List StockPhrase :=
  [keywordValues, attributeKeywordName, familyKeywordName, memberAttributeName, quotedName,
   quotedNameOfFamily, sameMembers, familyAttribute]

def ofPhrase? (phrase : String) : Option Reference :=
  let cs := cleanPhrase phrase
  if String.ofList cs ∈ mediaPhrases then some (.byName "media")
  else stockPhrases.findSome? (·.read? cs)

/-- The wording of a value column that stands for the values of another
enumeration, as in `< any "printer-state" value >`. -/
def enumValuePhrase : StockPhrase where
  template := [.optional "<", .optional " ", .choice ["any ", "Any ", "all "]] ++
    looselyQuoted nameBlank ++
    [.optional " enum", .choice [" values", " value", " names", " name"]]
  anywhere := true
  refer := toName

def ofEnumValue? (value : String) : Option Reference :=
  enumValuePhrase.read? value.toList

def sameValuesLabel : Template :=
  [.fixed "are the same", lineBlank, .fixed "\"", nameBlank, .fixed "\""]

/-- The enumeration that a label defers to, as in
`Values are the same as "finishings"`. -/
def ofEnumLabel? (label : String) : Option String :=
  match sameValuesLabel.search? label.toList with
  | some [_, name] => some (String.ofList name)
  | _ => none

end PrintRegistry.Reference
