/-!
Character properties as tables of code points in ascending order. A row of a
table stands for a run of code points, either all of them or every other one.
-/

namespace PrintRegistry.Text

def inRanges (n : Nat) : List (Nat × Nat) → Bool
  | [] => false
  | (first, last) :: rows => if n < first then false else n ≤ last || inRanges n rows

/-- Whether a code point lies on one of the ascending runs, each given by its
ends and the distance between neighbours. -/
def onRuns (n : Nat) : List (Nat × Nat × Nat) → Bool
  | [] => false
  | (first, last, step) :: rows =>
    if n < first then false
    else (n ≤ last && (n - first) % step == 0) || onRuns n rows

/-- The image of a code point under a table of runs that are moved as a whole,
each given by its ends, the distance between neighbours and the image of its
first code point. -/
def moved? (n : Nat) : List (Nat × Nat × Nat × Nat) → Option Nat
  | [] => none
  | (first, last, step, image) :: rows =>
    if n < first then none
    else if n ≤ last ∧ (n - first) % step = 0 then some (image + (n - first))
    else moved? n rows

end PrintRegistry.Text
