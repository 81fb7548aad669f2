import PrintRegistry.Text.Case
import PrintRegistry.Text.Letter

/-!
Pascal case, as in `JobState` for `job-state`: the words of a text, each with
a capital first, written without anything between them. Words end at every
character that is no letter or digit, and at the humps of camel case.
-/

namespace PrintRegistry.Text

/-- The case of the last letter of a word that has one. -/
inductive WordCase where
  | uncased
  | lower
  | upper
  deriving DecidableEq, Repr

def WordCase.after (mode : WordCase) (c : Char) : WordCase :=
  if isLowercase c then .lower else if isUppercase c then .upper else mode

/-- Cuts a run of letters and digits before each capital that follows a small
letter, and before the last of several capitals when a small letter follows.
`word` is the current word from its end, `mode` its case. -/
def humps (mode : WordCase) (word : List Char) : List Char → List (List Char)
  | [] => []
  | [c] => [(c :: word).reverse]
  | c :: d :: cs =>
    if mode.after c = .lower ∧ isUppercase d then
      (c :: word).reverse :: humps .uncased [] (d :: cs)
    else if mode = .upper ∧ isUppercase c ∧ isLowercase d then
      word.reverse :: humps .uncased [c] (d :: cs)
    else humps (mode.after c) (c :: word) (d :: cs)

/-- The rest of a word in lower case; a sigma at its end takes its final form. -/
def lowerWord : List Char → List Char
  | [] => []
  | ['Σ'] => ['ς']
  | c :: cs => lowerCase c ++ lowerWord cs

def capitalized : List Char → List Char
  | [] => []
  | c :: cs => upperCase c ++ lowerWord cs

def pascalCase (s : String) : String :=
  String.ofList
    (((s.toList.splitOnP (!isAlphanumeric ·)).flatMap (humps .uncased [])).flatMap capitalized)

end PrintRegistry.Text
