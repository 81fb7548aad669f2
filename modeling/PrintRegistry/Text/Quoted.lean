import PrintRegistry.Text.Printable

/-!
Quoted text: a text between double quotes, in which quotes, backslashes and
everything that does not show are written as escapes. A character without an
escape of its own is written by its code point, as in `\u{1b}`.
-/

namespace PrintRegistry.Text

/-- A code point in hexadecimal, between the marks of an escape. -/
def codePointEscape (n : Nat) : List Char :=
  "\\u\x7b".toList ++ Nat.toDigits 16 n ++ "\x7d".toList

def quotedChar (c : Char) : List Char :=
  match c with
  | '\x00' => ['\\', '0']
  | '\t' => ['\\', 't']
  | '\n' => ['\\', 'n']
  | '\r' => ['\\', 'r']
  | '"' => ['\\', '"']
  | '\\' => ['\\', '\\']
  | c => if isPrintable c then [c] else codePointEscape c.toNat

def quoted (s : String) : String :=
  String.ofList ('"' :: s.toList.flatMap quotedChar ++ ['"'])

end PrintRegistry.Text
