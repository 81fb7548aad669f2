import PrintRegistry.Grammar.Basic
import PrintRegistry.Text.Ascending
import PrintRegistry.Text.Blank

/-!
Normal forms of grammars. Registered grammars are written by hand, so one
grammar has many spellings. A round of normalization corrects known slips,
drops what carries no meaning, lifts the multiplicity marker out, and then
either takes one layer of parentheses off or puts the alternatives of an
alternation into ascending order. Rounds are repeated until the text stays as
it is, at most `roundLimit` times.
-/

namespace PrintRegistry.Grammar

def corrections : List (String × String) :=
  [("type2 num", "type2 enum"), ("1set Of", "1setOf")]

/-- Tokens without meaning for the values taken. -/
def noise : List String :=
  ["(MAX)", "type1", "type2", "type3"]

def setMarker : String := "1setOf"

/-- Alternatives that every attribute accepts. -/
def universalAlternatives : List String :=
  ["no-value", "unknown"]

/-- How often a text is normalized before it is taken as it stands. -/
def roundLimit : Nat := 8

/-- The text without its qualifiers in square brackets; the first argument
says that a qualifier is open. A bracket that is never closed stays. -/
def dropBracketed : Bool → List Char → List Char
  | _, [] => []
  | true, c :: cs => dropBracketed (c != ']') cs
  | false, c :: cs =>
    if c = '[' ∧ ']' ∈ cs then dropBracketed true cs
    else c :: dropBracketed false cs

/-- Corrections made, qualifiers and noise left out. -/
def scrub (cs : List Char) : List Char :=
  let corrected := corrections.foldl (fun t c => Text.replaceAll c.1.toList c.2.toList t) cs
  noise.foldl (fun t token => Text.deleteAll token.toList t) (dropBracketed false corrected)

def isMarked (cs : List Char) : Bool :=
  Text.occurs setMarker.toList (scrub cs)

/-- The scrubbed text without markers, its words one space apart. -/
def tidy (cs : List Char) : List Char :=
  Text.squeeze (Text.deleteAll setMarker.toList (scrub cs))

/-- Whether no parenthesis is closed that was not opened, with `depth` of them
open at the start. -/
def closesOnlyOpen : Nat → List Char → Bool
  | _, [] => true
  | depth, '(' :: cs => closesOnlyOpen (depth + 1) cs
  | 0, ')' :: _ => false
  | depth + 1, ')' :: cs => closesOnlyOpen depth cs
  | depth, _ :: cs => closesOnlyOpen depth cs

/-- The text inside one enclosing pair of parentheses. If more are opened than
closed, the first one is taken off alone: its partner is missing. -/
def unwrap? : List Char → Option (List Char)
  | '(' :: body =>
    if body.count ')' ≤ body.count '(' then some body
    else (Text.dropEnding? [')'] body).filter (closesOnlyOpen 0)
  | _ => none

def choiceRound (cs : List Char) : List Char :=
  let tidied := tidy cs
  match unwrap? tidied with
  | some inner => Text.trim inner
  | none => tidied

/-- Repeats a step until it changes nothing, at most `limit` times. -/
def settle (step : List Char → List Char) : Nat → List Char → List Char
  | 0, t => t
  | limit + 1, t =>
    let next := step t
    if next = t then t else settle step limit next

/-- One alternative in normal form. It cannot carry a multiplicity of its own,
so markers in it are dropped. -/
def normalChoice (cs : List Char) : List Char :=
  settle choiceRound roundLimit (Text.trim cs)

def isTelling (cs : List Char) : Bool :=
  !cs.isEmpty && !(universalAlternatives.map String.toList).contains cs

/-- The alternatives of an alternation in normal form, in ascending order and
without repeats. -/
def canonicalChoices (cs : List Char) : List (List Char) :=
  Text.ascending (((cs.splitOn '|').map normalChoice).filter isTelling)

def normalRound (cs : List Char) : List Char :=
  let tidied := tidy cs
  match unwrap? tidied with
  | some inner => Text.trim inner
  | none =>
    if '|' ∈ tidied then separator.toList.intercalate (canonicalChoices tidied)
    else tidied

/-- Rounds until the text stays as it is, with the multiplicity seen on the
way. -/
def normalRounds : Nat → List Char → Bool → List Char × Bool
  | 0, t, marked => (t, marked)
  | limit + 1, t, marked =>
    let next := normalRound t
    let marked := marked || isMarked t
    if next = t then (t, marked) else normalRounds limit next marked

def normalize (raw : String) : Grammar :=
  let result := normalRounds roundLimit raw.toList false
  { raw, text := String.ofList result.1, isSet := result.2 }

def wrongGrammars : List (String × String) :=
  [("input-orientation-requested", "enum")]

def correction? (name : String) : Option String :=
  wrongGrammars.lookup name

def normalizeFor (name raw : String) : Grammar :=
  match correction? name with
  | some right => { normalize right with raw }
  | none => normalize raw

/-- The grammar of a text known to be in normal form, with a multiplicity. -/
def ofText (text : String) (isSet : Bool) : Grammar :=
  let g := normalize text
  g.withSet (g.isSet || isSet)

example : (normalize "1setOf (type2 keyword | name(MAX))").text = "keyword | name" := by
  decide +kernel

end PrintRegistry.Grammar
