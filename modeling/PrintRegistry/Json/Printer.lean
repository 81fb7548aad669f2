import PrintRegistry.Json

/-!
The text of a value, one item or field on a line and nested ones two spaces
further in. Characters beyond ASCII are written as they are.
-/

namespace PrintRegistry.Json

/-- A control character without an escape of its own. -/
def controlEscape (n : Nat) : List Char :=
  let digits := Nat.toDigits 16 n
  "\\u".toList ++ List.replicate (4 - digits.length) '0' ++ digits

def escapedChar (c : Char) : List Char :=
  match c with
  | '"' => ['\\', '"']
  | '\\' => ['\\', '\\']
  | '\x08' => ['\\', 'b']
  | '\x0c' => ['\\', 'f']
  | '\n' => ['\\', 'n']
  | '\r' => ['\\', 'r']
  | '\t' => ['\\', 't']
  | c => if c.toNat < 0x20 then controlEscape c.toNat else [c]

def quotedText (s : String) : String :=
  String.ofList ('"' :: s.toList.flatMap escapedChar ++ ['"'])

def indent (depth : Nat) : String :=
  String.ofList (List.replicate (2 * depth) ' ')

mutual

/-- Writes a value that starts at a depth after the text `out`. A cut leaves no
text. -/
def writeAt (depth : Nat) (out : String) : Json → String
  | null => out ++ "null"
  | bool b => out ++ if b then "true" else "false"
  | number literal => out ++ literal
  | string text => out ++ quotedText text
  | array [] => out ++ "[]"
  | array (item :: items) =>
    writeItems depth (writeAt (depth + 1) (out ++ "[\n" ++ indent (depth + 1)) item) items
  | object [] => out ++ "\x7b\x7d"
  | object ((name, value) :: fields) =>
    writeFields depth
      (writeAt (depth + 1) (out ++ "\x7b\n" ++ indent (depth + 1) ++ quotedText name ++ ": ") value)
      fields
  | divided used _ => writeAt depth out used
  | cut .. => out

/-- Writes the items after the first and the end of an array at a depth. -/
def writeItems (depth : Nat) (out : String) : List Json → String
  | [] => out ++ "\n" ++ indent depth ++ "]"
  | item :: items =>
    writeItems depth (writeAt (depth + 1) (out ++ ",\n" ++ indent (depth + 1)) item) items

def writeFields (depth : Nat) (out : String) : List (String × Json) → String
  | [] => out ++ "\n" ++ indent depth ++ "\x7d"
  | (name, value) :: fields =>
    writeFields depth
      (writeAt (depth + 1) (out ++ ",\n" ++ indent (depth + 1) ++ quotedText name ++ ": ") value)
      fields

end

def pretty (j : Json) : String :=
  writeAt 0 "" j

end PrintRegistry.Json
