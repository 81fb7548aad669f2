/-!
Tables of named things. A table keeps its entries in the order in which their
names were first put in, and holds at most one entry of a name. The functions
in the namespace `Named` work on plain lists, for entries that hold entries of
their own kind; `Table` adds the proof that names are distinct.
-/

namespace PrintRegistry

class Named (α : Type) where
  nameOf : α → String

export Named (nameOf)

/-- A text is its own name, so a table of texts is a set in order of first
mention. -/
instance : Named String := ⟨id⟩

namespace Named

variable {α : Type} [Named α]

def names (xs : List α) : List String :=
  xs.map nameOf

def find? (xs : List α) (name : String) : Option α :=
  xs.find? fun a => nameOf a == name

def has (xs : List α) (name : String) : Bool :=
  (find? xs name).isSome

/-- Puts an entry in the place of the one of its name, or at the end. -/
def put : List α → α → List α
  | [], a => [a]
  | b :: bs, a => if nameOf b = nameOf a then a :: bs else b :: put bs a

/-- Puts an entry at the end unless there is one of its name. -/
def putNew (xs : List α) (a : α) : List α :=
  if has xs (nameOf a) then xs else xs ++ [a]

def putAll (xs as : List α) : List α :=
  as.foldl put xs

/-- Two lists have entries of the same names that are pairwise alike, in any
order. -/
def agree (alike : α → α → Bool) (xs ys : List α) : Bool :=
  xs.length == ys.length && xs.all fun x =>
    match find? ys (nameOf x) with
    | some y => alike x y
    | none => false

theorem names_put (xs : List α) (a : α) :
    names (put xs a) = if nameOf a ∈ names xs then names xs else names xs ++ [nameOf a] := by
  induction xs with
  | nil => simp [put, names]
  | cons b bs ih =>
    simp only [names] at ih
    simp only [put, names, List.map_cons, List.mem_cons]
    by_cases h : nameOf b = nameOf a
    · simp [h]
    · have hne : nameOf a ≠ nameOf b := Ne.symm h
      by_cases hm : nameOf a ∈ bs.map nameOf
      · simp only [h, hne, hm, ih, List.map_cons, false_or, if_true, if_false]
      · simp only [h, hne, hm, ih, List.map_cons, false_or, if_false, List.cons_append]

theorem nodup_names_put {xs : List α} (h : (names xs).Nodup) (a : α) :
    (names (put xs a)).Nodup := by
  rw [names_put]
  split
  · exact h
  · rename_i hn
    rw [List.nodup_append]
    refine ⟨h, (List.pairwise_singleton _ _), fun b hb c hc hbc => hn ?_⟩
    rw [List.mem_singleton] at hc
    exact hc ▸ hbc ▸ hb

end Named

/-- Entries of distinct names, in order of first mention. -/
structure Table (α : Type) [Named α] where
  toList : List α
  distinct : (Named.names toList).Nodup

namespace Table

variable {α : Type} [Named α]

def empty : Table α :=
  ⟨[], List.nodup_nil⟩

instance : Inhabited (Table α) := ⟨empty⟩

def names (t : Table α) : List String :=
  Named.names t.toList

def isEmpty (t : Table α) : Bool :=
  t.toList.isEmpty

def find? (t : Table α) (name : String) : Option α :=
  Named.find? t.toList name

def has (t : Table α) (name : String) : Bool :=
  Named.has t.toList name

def put (t : Table α) (a : α) : Table α :=
  ⟨Named.put t.toList a, Named.nodup_names_put t.distinct a⟩

/-- The table of the given entries; a later entry takes the place of an earlier
one of its name. -/
def ofList (as : List α) : Table α :=
  as.foldl put empty

/-- Changes the entry of a name, if there is one. The change keeps the name. -/
def adjust (t : Table α) (name : String) (change : α → α) : Table α :=
  match t.find? name with
  | some a => t.put (change a)
  | none => t

/-- Changes the entry of a name, which is put in as `fresh` first if it is
missing. The change keeps the name. -/
def upsert (t : Table α) (fresh : α) (change : α → α) : Table α :=
  t.put (change ((t.find? (nameOf fresh)).getD fresh))

def map (t : Table α) (change : α → α) (keeps : ∀ a, nameOf (change a) = nameOf a) :
    Table α :=
  ⟨t.toList.map change, by
    have h : Named.names (t.toList.map change) = Named.names t.toList := by
      simp [Named.names, Function.comp_def, keeps]
    exact h ▸ t.distinct⟩

def erase (t : Table α) (name : String) : Table α :=
  ⟨t.toList.filter (nameOf · != name),
    t.distinct.sublist (List.filter_sublist.map nameOf)⟩

end Table

end PrintRegistry
