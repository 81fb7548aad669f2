/-!
White space: which characters count as blank, and the two ways text is tidied
by it. `trim` drops blanks at both ends, `words` cuts a text at every run of
blanks and keeps no empty piece.
-/

namespace PrintRegistry.Text

/-- A blank is a character with the Unicode property White_Space. -/
def isBlank (c : Char) : Bool :=
  let n := c.toNat
  (9 ≤ n && n ≤ 13) || n == 0x20 || n == 0x85 || n == 0xA0 || n == 0x1680 ||
  (0x2000 ≤ n && n ≤ 0x200A) || n == 0x2028 || n == 0x2029 || n == 0x202F ||
  n == 0x205F || n == 0x3000

def trimStart (cs : List Char) : List Char :=
  cs.dropWhile isBlank

def trimEnd (cs : List Char) : List Char :=
  (cs.reverse.dropWhile isBlank).reverse

def trim (cs : List Char) : List Char :=
  trimEnd (trimStart cs)

/-- The maximal runs of characters that are not blank, in order. -/
def words (cs : List Char) : List (List Char) :=
  (cs.splitOnP isBlank).filter (· ≠ [])

/-- The words of a text with one space between neighbours. -/
def squeeze (cs : List Char) : List Char :=
  [' '].intercalate (words cs)

def trimmed (s : String) : String :=
  String.ofList (trim s.toList)

example : isBlank '\t' = true ∧ isBlank '\u3000' = true ∧ isBlank '\u200b' = false := by decide
example : squeeze " a  b ".toList = "a b".toList := by decide
example : trimmed " a b\n" = "a b" := by decide

end PrintRegistry.Text
