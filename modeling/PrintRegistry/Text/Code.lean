import PrintRegistry.Text.Blank
import PrintRegistry.Text.Digit

/-!
Codes of enumerations: integers of 64 bits, written in decimal or, after `0x`,
in hexadecimal. Both may carry a sign, the hexadecimal one after the `0x`.
-/

namespace PrintRegistry.Text

/-- The number written by digits, if `acc` is the number written before them. -/
def digitsFrom? (radix acc : Nat) : List Char → Option Nat
  | [] => some acc
  | c :: cs => (digit? radix c).bind fun d => digitsFrom? radix (acc * radix + d) cs

def magnitude? (radix : Nat) (cs : List Char) : Option Nat :=
  if cs.isEmpty then none else digitsFrom? radix 0 cs

def signed? (radix : Nat) : List Char → Option Int
  | '-' :: cs => (magnitude? radix cs).map fun n => -(n : Int)
  | '+' :: cs => (magnitude? radix cs).map Int.ofNat
  | cs => (magnitude? radix cs).map Int.ofNat

def fits64 (n : Int) : Bool :=
  decide (-9223372036854775808 ≤ n) && decide (n ≤ 9223372036854775807)

/-- The code a text stands for, and whether it is written in hexadecimal.
Blanks around it do not count. -/
def code? (s : String) : Option (Int × Bool) :=
  let read (radix : Nat) (cs : List Char) : Option Int := (signed? radix cs).filter fits64
  match trim s.toList with
  | '0' :: 'x' :: cs => (read 16 cs).map (·, true)
  | '0' :: 'X' :: cs => (read 16 cs).map (·, true)
  | cs => (read 10 cs).map (·, false)

example : code? " 0x0400 " = some (1024, true) ∧ code? "-3" = some (-3, false) := by decide
example : code? "9223372036854775808" = none ∧
    code? "0x-8000000000000000" = some (-9223372036854775808, true) := by
  decide

end PrintRegistry.Text
