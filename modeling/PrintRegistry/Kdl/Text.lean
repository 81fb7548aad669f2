import PrintRegistry.Kdl.Space
import PrintRegistry.Text.Digit

/-!
Texts in documents: bare words, quoted texts with escapes, and raw texts
between number signs. Quoted and raw texts may run over several lines; then
the space before the closing quotes is taken off every line. Every text has to
end where one value may end.
-/

namespace PrintRegistry.Kdl

/-- A character that a document may not hold as it is. -/
def isForbidden (c : Char) : Bool :=
  let n := c.toNat
  n ≤ 0x08 || (0x0E ≤ n && n ≤ 0x1F) || n == 0x200E || n == 0x200F ||
  (0x202A ≤ n && n ≤ 0x202E) || (0x2066 ≤ n && n ≤ 0x2069) || n == 0xFEFF

/-- Whether a text or a number may end before what follows: space, the end of a
line, the end of the document, or a mark of the format. -/
def atBoundary : List Char → Bool
  | [] => true
  | '/' :: '/' :: _ => true
  | c :: cs =>
    "=);\x7b\x7d".toList.contains c || isLineEnd c || (nodeSpace? (c :: cs)).isSome

def atBoundary? (found : α × List Char) : Option (α × List Char) :=
  if atBoundary found.2 then some found else none

/-! ### Words -/

def isWordChar (c : Char) : Bool :=
  !Text.isBlank c && !isForbidden c && !("\\/();[]\"#=\x7b\x7d".toList.contains c)

/-- Words that would be taken for values. -/
def reservedWords : List String :=
  ["true", "false", "null", "inf", "nan"]

def withoutSign : List Char → List Char
  | '+' :: cs => cs
  | '-' :: cs => cs
  | cs => cs

def beginsAsNumber (word : List Char) : Bool :=
  match withoutSign word with
  | '.' :: c :: _ => Text.isDigit c
  | c :: _ => Text.isDigit c
  | [] => false

def word? (cs : List Char) : Option (String × List Char) :=
  let word := cs.takeWhile isWordChar
  if word.isEmpty || beginsAsNumber word || reservedWords.contains (String.ofList word) then none
  else some (String.ofList word, cs.dropWhile isWordChar)

/-! ### Characters between quotes -/

structure Mark where
  char : Char
  escaped : Bool := false
  deriving DecidableEq, Repr

/-- The character of a code point, unless it is half of a surrogate pair or
too large. -/
def charOf? (n : Nat) : Option Char :=
  if h : n.isValidChar then some (Char.ofNatAux n h) else none

/-- Reads a code point in braces: one to six hexadecimal digits. -/
def codePoint? (cs : List Char) : Option (Char × List Char) :=
  match cs with
  | '\x7b' :: rest =>
    let isDigit (c : Char) : Bool := (Text.digit? 16 c).isSome
    let digits := rest.takeWhile isDigit
    match rest.dropWhile isDigit with
    | '\x7d' :: after =>
      if digits.isEmpty || 6 < digits.length then none
      else (charOf? (Text.ofDigits 16 (digits.filterMap (Text.digit? 16)))).map (·, after)
    | _ => none
  | _ => none

def simpleEscape? : Char → Option Char
  | '"' => some '"'
  | '\\' => some '\\'
  | 'b' => some '\x08'
  | 'f' => some '\x0c'
  | 'n' => some '\n'
  | 'r' => some '\r'
  | 't' => some '\t'
  | 's' => some ' '
  | _ => none

/-- Reads an escape after its backslash. A backslash before blanks stands for
nothing, and takes them with it. -/
def escape? : List Char → Option (List Mark × List Char)
  | [] => none
  | 'u' :: cs => (codePoint? cs).map fun (c, rest) => ([⟨c, true⟩], rest)
  | c :: cs =>
    match simpleEscape? c with
    | some e => some ([⟨e, true⟩], cs)
    | none => if Text.isBlank c then some ([], cs.dropWhile Text.isBlank) else none

/-- Reads the characters of a text up to its closing quotes. The fuel is to
exceed the number of characters. -/
def marks? (closing : List Char) (raw lines : Bool) :
    Nat → List Char → Option (List Mark × List Char)
  | 0, _ => none
  | fuel + 1, cs =>
    if closing.isPrefixOf cs then some ([], cs.drop closing.length)
    else
      let add (found : List Mark) (rest : List Char) : Option (List Mark × List Char) :=
        (marks? closing raw lines fuel rest).map fun (more, rest) => (found ++ more, rest)
      match newline? cs with
      | some rest => if lines then add [⟨'\n', false⟩] rest else none
      | none =>
        match cs with
        | [] => none
        | c :: rest =>
          if c = '\\' ∧ !raw then
            match escape? rest with
            | some (found, rest) => add found rest
            | none => none
          else if isForbidden c then none
          else add [⟨c, false⟩] rest

/-! ### Texts over several lines -/

def linesOf : List Mark → List (List Mark)
  | [] => [[]]
  | m :: ms =>
    if m = ⟨'\n', false⟩ then [] :: linesOf ms
    else
      match linesOf ms with
      | line :: lines => (m :: line) :: lines
      | [] => [[m]]

def isSpaceOnly (line : List Mark) : Bool :=
  line.all fun m => !m.escaped && isSpace m.char

/-- A line without the margin before it. A line of space is empty. -/
def withoutMargin? (margin line : List Mark) : Option (List Mark) :=
  if isSpaceOnly line then some [] else margin.isPrefixOf? line

/-- The text of several lines, of which the last one gives the margin. -/
def dedented? (ms : List Mark) : Option (List Char) :=
  let lines := linesOf ms
  let margin := lines.getLast?.getD []
  if isSpaceOnly margin then
    (lines.dropLast.mapM (withoutMargin? margin)).map fun texts =>
      ['\n'].intercalate (texts.map (·.map Mark.char))
  else none

/-! ### Quoted and raw texts -/

/-- A text between quotes. Between number signs a lone quote is no text: it
would look like the beginning of a text of several lines. -/
def quotedText? (raw : Bool) (cs : List Char) : Option String :=
  if raw && cs == ['"'] then none else some (String.ofList cs)

/-- Reads a text from its first quote on. As many number signs follow its
closing quotes as stood before the opening ones. -/
def quoted? (hashes : List Char) (cs : List Char) : Option (String × List Char) :=
  let raw := !hashes.isEmpty
  let oneLine (cs : List Char) : Option (String × List Char) :=
    (marks? ('"' :: hashes) raw false (cs.length + 1) cs).bind fun (ms, rest) =>
      (quotedText? raw (ms.map Mark.char)).map (·, rest)
  match cs with
  | '"' :: '"' :: '"' :: rest =>
    match newline? rest with
    | some body =>
      match marks? ('"' :: '"' :: '"' :: hashes) raw true (body.length + 1) body with
      | some (ms, rest) => ((dedented? ms).bind (quotedText? raw)).map (·, rest)
      | none => none
    | none => oneLine ('"' :: '"' :: rest)
  | '"' :: rest => oneLine rest
  | _ => none

def text? (cs : List Char) : Option (String × List Char) :=
  let found := match cs with
    | '"' :: _ => quoted? [] cs
    | '#' :: _ => quoted? (cs.takeWhile (· == '#')) (cs.dropWhile (· == '#'))
    | _ => word? cs
  found.bind atBoundary?

end PrintRegistry.Kdl
