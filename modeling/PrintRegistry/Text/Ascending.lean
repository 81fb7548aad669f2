/-!
Sets of texts as strictly ascending lists. `ascending` sorts by code points
and keeps one of equal texts, so lists with the same members give the same
list.
-/

namespace PrintRegistry.Text

/-- Puts a text in its place in an ascending list, unless it is there already. -/
def place (t : List Char) : List (List Char) → List (List Char)
  | [] => [t]
  | u :: us =>
    if t = u then u :: us
    else if t < u then t :: u :: us
    else u :: place t us

def ascending (ts : List (List Char)) : List (List Char) :=
  ts.foldr place []

@[simp] theorem mem_place (t u : List Char) (us : List (List Char)) :
    t ∈ place u us ↔ t = u ∨ t ∈ us := by
  induction us with
  | nil => simp [place]
  | cons v vs ih =>
    unfold place
    split
    · rename_i h
      subst h
      simp
    · split
      · simp
      · simp only [List.mem_cons, ih]
        grind

@[simp] theorem mem_ascending (t : List Char) (ts : List (List Char)) :
    t ∈ ascending ts ↔ t ∈ ts := by
  induction ts with
  | nil => simp [ascending]
  | cons u us ih =>
    rw [ascending, List.foldr_cons, ← ascending, mem_place, ih, List.mem_cons]

end PrintRegistry.Text
