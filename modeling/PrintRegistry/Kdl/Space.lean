import PrintRegistry.Text.Blank

/-!
Space in documents. Within a node, space may hold comments and continued
lines; between nodes, it may also hold line ends and comments up to a line
end. Each piece of space is taken off a text by a function that gives the rest
of the text.
-/

namespace PrintRegistry.Kdl

def isLineEnd (c : Char) : Bool :=
  let n := c.toNat
  (0x0A ≤ n && n ≤ 0x0D) || n == 0x85 || n == 0x2028 || n == 0x2029

def isSpace (c : Char) : Bool :=
  Text.isBlank c && !isLineEnd c

/-- The text after a line end. A carriage return and a line feed are one. -/
def newline? : List Char → Option (List Char)
  | '\r' :: '\n' :: cs => some cs
  | c :: cs => if isLineEnd c then some cs else none
  | [] => none

def afterLine (cs : List Char) : List Char :=
  let rest := cs.dropWhile fun c => !isLineEnd c
  (newline? rest).getD rest

/-- The text after a comment that has `depth` comments open around it. -/
def afterComment? : Nat → List Char → Option (List Char)
  | 0, '*' :: '/' :: cs => some cs
  | depth + 1, '*' :: '/' :: cs => afterComment? depth cs
  | depth, '/' :: '*' :: cs => afterComment? (depth + 1) cs
  | depth, _ :: cs => afterComment? depth cs
  | _, [] => none

/-- Takes pieces off a text as long as there are any, at most `limit`. -/
def skipUpTo (piece : List Char → Option (List Char)) : Nat → List Char → List Char
  | 0, cs => cs
  | limit + 1, cs =>
    match piece cs with
    | some rest => skipUpTo piece limit rest
    | none => cs

/-- Takes pieces of at least one character off a text as long as there are
any. -/
def skip (piece : List Char → Option (List Char)) (cs : List Char) : List Char :=
  skipUpTo piece cs.length cs

def blank? : List Char → Option (List Char)
  | '/' :: '*' :: cs => afterComment? 0 cs
  | c :: cs => if isSpace c then some cs else none
  | [] => none

/-- The end of a line with a comment before it, or the end of the text. -/
def lineEnd? : List Char → Option (List Char)
  | [] => some []
  | '/' :: '/' :: cs => some (afterLine cs)
  | cs => newline? cs

/-- A piece of space within a node. A backslash continues the line. -/
def nodeSpace? : List Char → Option (List Char)
  | '\\' :: cs => lineEnd? (skip blank? cs)
  | cs => blank? cs

def lineSpace? (cs : List Char) : Option (List Char) :=
  if cs.isEmpty then none else (nodeSpace? cs).or (lineEnd? cs)

def skipNodeSpace : List Char → List Char :=
  skip nodeSpace?

def afterNodeSpace? (cs : List Char) : Option (List Char) :=
  (nodeSpace? cs).map skipNodeSpace

def skipLineSpace : List Char → List Char :=
  skip lineSpace?

example : skipLineSpace " /* a /* b */ */ // c\r\n\\ \n d".toList = "d".toList := by decide

end PrintRegistry.Kdl
