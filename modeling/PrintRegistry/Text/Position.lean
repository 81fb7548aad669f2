/-!
Places in a text. A place is reported by its line and its column, both counted
from one and the column in bytes. `offset?` turns them into the number of bytes
before the place. Offsets are words of 64 bits, so there are columns whose
offset has no room in a word. The carry is lost then, or the program stops if
it is built to check its sums.
-/

namespace PrintRegistry.Text

/-- The number of bytes of a text in UTF-8. -/
def size (cs : List Char) : Nat :=
  cs.foldl (fun bytes c => bytes + c.utf8Size) 0

/-- The number of bytes of the first lines of a text. The end of a line counts
as part of it. -/
def linesSize : Nat → List Char → Nat
  | 0, _ => 0
  | _ + 1, [] => 0
  | count + 1, c :: cs => c.utf8Size + linesSize (if c = '\n' then count else count + 1) cs

/-- The number of bytes before a place, if the text is long enough for it.
Column zero is taken for column one; there is no line zero. -/
def offset? (cs : List Char) (line column : Nat) : Option Nat :=
  match line with
  | 0 => none
  | before + 1 =>
    let offset := (linesSize before cs).toUInt64 + (column - 1).toUInt64
    if offset.toNat ≤ size cs then some offset.toNat else none

def exceedsWord (cs : List Char) (line column : Nat) : Bool :=
  match line with
  | 0 => false
  | before + 1 => UInt64.size ≤ linesSize before cs + (column - 1)

structure Span where
  offset : Nat
  length : Nat
  deriving DecidableEq, Repr

/-- The byte at a place. -/
def spanAt? (cs : List Char) (line column : Nat) : Option Span :=
  (offset? cs line column).map fun offset => ⟨offset, 1⟩

inductive Stop where
  | overflow
  deriving DecidableEq, Repr

/-- The byte at a place, in a program that checks its sums or does not. -/
def spanIn (checked : Bool) (cs : List Char) (line column : Nat) : Except Stop (Option Span) :=
  if checked && exceedsWord cs line column then .error .overflow
  else .ok (spanAt? cs line column)

example : offset? "é\nab".toList 2 2 = some 4 ∧ offset? "ab".toList 0 1 = none := by decide

end PrintRegistry.Text
