import PrintRegistry.Json
import PrintRegistry.Text.Digit
import PrintRegistry.Text.Position

/-!
Reading a value from a text. The reader goes from left to right and never
fails: where the text stops being a value, a `cut` says why, and nothing after
it is read.
-/

namespace PrintRegistry.Json

/-- What reading comes to: a value and the text after it, or nothing after it
if the value is cut. -/
abbrev Reading := Json × Option (List Char)

def stop (fault : TextFault) (place : CutPlace) : Reading :=
  (cut fault place, none)

def skipBlanks (cs : List Char) : List Char :=
  cs.dropWhile fun c => c == ' ' || c == '\n' || c == '\t' || c == '\r'

/-- Reads the rest of a word that stands for a value. -/
def readWord (value : Json) : List Char → List Char → Reading
  | [], cs => (value, some cs)
  | _ :: _, [] => stop .truncated .literal
  | w :: ws, c :: cs => if w = c then readWord value ws cs else stop .malformed .literal

/-! ### Strings -/

/-- The UTF-16 unit written by four hexadecimal digits. A text that has less
than four bytes left is truncated, whatever they are. -/
def readUnit (cs : List Char) : Except TextFault (Nat × List Char) :=
  if Text.size (cs.take 4) < 4 then .error .truncated
  else
    match cs with
    | a :: b :: c :: d :: rest =>
      match Text.digit? 16 a, Text.digit? 16 b, Text.digit? 16 c, Text.digit? 16 d with
      | some a, some b, some c, some d => .ok (Text.ofDigits 16 [a, b, c, d], rest)
      | _, _, _, _ => .error .malformed
    | _ => .error .malformed

def isHighSurrogate (n : Nat) : Bool :=
  0xD800 ≤ n && n < 0xDC00

def isLowSurrogate (n : Nat) : Bool :=
  0xDC00 ≤ n && n < 0xE000

def ofSurrogates (high low : Nat) : Char :=
  Char.ofNat (0x10000 + (high - 0xD800) * 0x400 + (low - 0xDC00))

/-- The character of an escape other than `\u`. -/
def simpleEscape? : Char → Option Char
  | '"' => some '"'
  | '\\' => some '\\'
  | '/' => some '/'
  | 'b' => some '\x08'
  | 'f' => some '\x0c'
  | 'n' => some '\n'
  | 'r' => some '\r'
  | 't' => some '\t'
  | _ => none

/-- A string that is being read: its characters from the last one, a high
surrogate that waits for its partner, and whether some surrogate has none. -/
structure StringState where
  chars : List Char := []
  high : Option Nat := none
  lone : Bool := false

namespace StringState

def push (s : StringState) (c : Char) : StringState :=
  { s with chars := c :: s.chars }

/-- Gives up waiting for the partner of a surrogate. -/
def unpaired (s : StringState) : StringState :=
  { s with high := none, lone := s.lone || s.high.isSome }

def addUnit (s : StringState) (n : Nat) : StringState :=
  match s.high with
  | some high =>
    if isLowSurrogate n then { s with high := none }.push (ofSurrogates high n)
    else if isHighSurrogate n then { s with high := some n, lone := true }
    else s.unpaired.push (Char.ofNat n)
  | none =>
    if isHighSurrogate n then { s with high := some n }
    else if isLowSurrogate n then { s with lone := true }
    else s.push (Char.ofNat n)

/-- Where a string stops. One with a surrogate alone stopped there already, if
it is used. -/
def stopped (s : StringState) (fault : TextFault) : Json :=
  if s.lone then divided (cut .malformed .value) (cut fault .value) else cut fault .value

def text (s : StringState) : String :=
  String.ofList s.chars.reverse

end StringState

/-- Reads a string up to the quote that ends it. The fuel is to exceed the
number of characters. -/
def readStringFrom :
    Nat → StringState → List Char → StringState × Except TextFault (List Char)
  | 0, s, _ => (s, .error .truncated)
  | _ + 1, s, [] => (s, .error .truncated)
  | _ + 1, s, '"' :: cs => (s.unpaired, .ok cs)
  | _ + 1, s, ['\\'] => (s, .error .truncated)
  | fuel + 1, s, '\\' :: 'u' :: cs =>
    match readUnit cs with
    | .error fault => (s, .error fault)
    | .ok (n, rest) => readStringFrom fuel (s.addUnit n) rest
  | fuel + 1, s, '\\' :: c :: cs =>
    match simpleEscape? c with
    | none => (s.unpaired, .error .malformed)
    | some e => readStringFrom fuel (s.unpaired.push e) cs
  | fuel + 1, s, c :: cs =>
    if c.toNat < 0x20 then (s.unpaired, .error .malformed)
    else readStringFrom fuel (s.unpaired.push c) cs

def readStringValue (fuel : Nat) (cs : List Char) : Reading :=
  match readStringFrom fuel {} cs with
  | (s, .error fault) => (s.stopped fault, none)
  | (s, .ok rest) =>
    (if s.lone then divided (cut .malformed .value) (string s.text) else string s.text, some rest)

/-! ### Numbers -/

/-- Why a number ends where it does not make one. One that is used counts as
truncated if the text ends there. -/
def stopNumber : List Char → Reading
  | [] => (divided (cut .truncated .literal) (cut .malformed .literal), none)
  | _ :: _ => stop .malformed .literal

def digitsValue (cs : List Char) : Nat :=
  Text.ofDigits 10 (cs.filterMap (Text.digit? 10))

/-- Adds digits to a significand until one would make it longer than 64 bits.
The digits from that one on are left. -/
def addDigits (significand : Nat) : List Char → Nat × List Char
  | [] => (significand, [])
  | d :: ds =>
    let next := significand * 10 + (Text.digit? 10 d).getD 0
    if next < 1 <<< 64 then addDigits next ds else (significand, d :: ds)

/-- The number with 53 significant bits that is nearest to an integer; of two,
the one with an even last bit. -/
def toDouble (n : Nat) : Nat :=
  let spare := n.log2 + 1 - 53
  let unit := 1 <<< spare
  let kept := n / unit
  let rest := n % unit * 2
  let up := unit < rest || (rest == unit && kept % 2 == 1)
  (if up then kept + 1 else kept) * unit

/-- The least integer that no double-precision number stands for. -/
def doubleLimit : Nat :=
  (1 <<< 1024) - (1 <<< 970)

/-- Whether a significand times a power of ten is beyond double precision. Both
factors are taken to double precision before they are multiplied. -/
def isBeyondDouble (significand : Nat) (exponent : Int) : Bool :=
  significand != 0 && (308 < exponent ||
    (0 ≤ exponent && doubleLimit ≤ toDouble significand * toDouble (Nat.pow 10 exponent.toNat)))

/-- The digits of a number as they count for its size. -/
structure Magnitude where
  significand : Nat
  exponent : Int

namespace Magnitude

def ofWhole (digits : List Char) : Magnitude :=
  let (significand, left) := addDigits 0 digits
  ⟨significand, left.length⟩

def withFraction (m : Magnitude) (digits : List Char) : Magnitude :=
  let (significand, left) := addDigits m.significand digits
  ⟨significand, m.exponent - (digits.length - left.length : Nat)⟩

def scaled (m : Magnitude) (power : Int) : Magnitude :=
  { m with exponent := m.exponent + power }

end Magnitude

/-- A number of which all parts are read. Beyond double precision it can be
passed over but not used. -/
def numberValue (literal : List Char) (m : Magnitude) : Json :=
  let value := number (String.ofList literal)
  if isBeyondDouble m.significand m.exponent then divided (cut .malformed .literal) value
  else value

def readExponent (literal : List Char) (m : Magnitude) (cs : List Char) : Reading :=
  match cs with
  | e :: rest =>
    if e = 'e' ∨ e = 'E' then
      let (sign, rest) := match rest with
        | '+' :: more => (['+'], more)
        | '-' :: more => (['-'], more)
        | more => ([], more)
      let digits := rest.takeWhile Text.isDigit
      let after := rest.dropWhile Text.isDigit
      if digits.isEmpty then stopNumber after
      else
        let power : Int := digitsValue digits
        let m := m.scaled (if sign = ['-'] then -power else power)
        (numberValue (literal ++ e :: sign ++ digits) m, some after)
    else (numberValue literal m, some cs)
  | [] => (numberValue literal m, some [])

def readFraction (literal : List Char) (m : Magnitude) (cs : List Char) : Reading :=
  match cs with
  | '.' :: rest =>
    let digits := rest.takeWhile Text.isDigit
    let after := rest.dropWhile Text.isDigit
    if digits.isEmpty then stopNumber after
    else readExponent (literal ++ '.' :: digits) (m.withFraction digits) after
  | _ => readExponent literal m cs

/-- Reads a number after its sign. It has no leading zeros. -/
def readNumber (sign cs : List Char) : Reading :=
  let digits := cs.takeWhile Text.isDigit
  let after := cs.dropWhile Text.isDigit
  match digits with
  | [] => stopNumber after
  | '0' :: _ :: _ => stop .malformed .literal
  | _ => readFraction (sign ++ digits) (.ofWhole digits) after

/-! ### Values -/

/-- The fields of an object from the last one, as they are where it is used if
that differs: reading stops at a name with a surrogate alone. -/
abbrev UsedFields := Option (List (String × Json))

def UsedFields.afterName (u : UsedFields) (before : List (String × Json)) (s : StringState) :
    UsedFields :=
  if s.lone then u.or (some (("", cut .malformed .name) :: before)) else u

def objectOf (used : UsedFields) (fields : List (String × Json)) : Json :=
  match used with
  | none => object fields.reverse
  | some start => divided (object start.reverse) (object fields.reverse)

def cutAtName (used : UsedFields) (before : List (String × Json)) (fault : TextFault) : Reading :=
  (objectOf used (("", cut fault .name) :: before), none)

def cutAfterField (used : UsedFields) (before : List (String × Json)) (fault : TextFault) :
    Reading :=
  (objectOf used (("", cut fault .mark) :: before), none)

def cutAfterItem (before : List Json) (fault : TextFault) : Reading :=
  (array (cut fault .mark :: before).reverse, none)

mutual

/-- Reads a value. The fuel is to exceed twice the number of characters. -/
def readValue : Nat → List Char → Reading
  | 0, _ => stop .truncated .value
  | fuel + 1, cs =>
    match skipBlanks cs with
    | [] => stop .truncated .value
    | 'n' :: rest => readWord null "ull".toList rest
    | 't' :: rest => readWord (bool true) "rue".toList rest
    | 'f' :: rest => readWord (bool false) "alse".toList rest
    | '"' :: rest => readStringValue (fuel + 1) rest
    | '-' :: rest => readNumber ['-'] rest
    | '[' :: rest =>
      match skipBlanks rest with
      | [] => cutAfterItem [] .truncated
      | ']' :: after => (array [], some after)
      | rest => readItems fuel [] rest
    | '\x7b' :: rest =>
      match skipBlanks rest with
      | '\x7d' :: after => (object [], some after)
      | rest => readFields fuel [] none rest
    | c :: rest => if Text.isDigit c then readNumber [] (c :: rest) else stop .malformed .value

/-- Reads the items of an array from the next one on; `before` holds those
before it, from the last one. -/
def readItems : Nat → List Json → List Char → Reading
  | 0, before, _ => (array (cut .truncated .value :: before).reverse, none)
  | fuel + 1, before, cs =>
    match readValue fuel cs with
    | (item, none) => (array (item :: before).reverse, none)
    | (item, some rest) =>
      match skipBlanks rest with
      | [] => cutAfterItem (item :: before) .truncated
      | ']' :: after => (array (item :: before).reverse, some after)
      | ',' :: more => readItems fuel (item :: before) more
      | _ => cutAfterItem (item :: before) .malformed

/-- Reads the fields of an object from the next name on; `before` holds those
before it, from the last one. -/
def readFields : Nat → List (String × Json) → UsedFields → List Char → Reading
  | 0, before, used, _ => cutAtName used before .truncated
  | fuel + 1, before, used, cs =>
    match skipBlanks cs with
    | [] => cutAtName used before .truncated
    | '"' :: rest =>
      let (s, outcome) := readStringFrom (fuel + 1) {} rest
      let used := used.afterName before s
      match outcome with
      | .error fault => cutAtName used before fault
      | .ok rest =>
        match skipBlanks rest with
        | [] => (objectOf used ((s.text, cut .truncated .colon) :: before), none)
        | ':' :: rest =>
          match readValue fuel rest with
          | (value, none) => (objectOf used ((s.text, value) :: before), none)
          | (value, some rest) =>
            let before := (s.text, value) :: before
            match skipBlanks rest with
            | [] => cutAfterField used before .truncated
            | '\x7d' :: after => (objectOf used before, some after)
            | ',' :: more => readFields fuel before used more
            | _ => cutAfterField used before .malformed
        | _ => (objectOf used ((s.text, cut .malformed .colon) :: before), none)
    | _ => cutAtName used before .malformed

end

/-- Reads a text that is to hold one value. What stands after the value is
left over. -/
def ofText (s : String) : Reading :=
  let cs := s.toList
  readValue (2 * cs.length + 1) cs

end PrintRegistry.Json
