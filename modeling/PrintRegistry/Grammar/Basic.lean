import PrintRegistry.Text.Search

/-!
The grammar of an attribute: which values it takes, in the notation of the
registry, such as `1setOf (type2 keyword | name(MAX))`. A grammar keeps the
text as registered beside its normal form, in which the multiplicity marker
`1setOf` has become the flag `isSet`.
-/

namespace PrintRegistry

/-- A grammar as registered, its normal form, and whether it takes a set of
values. -/
structure Grammar where
  raw : String
  text : String
  isSet : Bool
  deriving Repr

namespace Grammar

def separator : String := " | "

/-- The alternatives of an alternation; a grammar with a single choice has
none. -/
def alternatives (g : Grammar) : List String :=
  if Text.contains g.text separator then
    (Text.cutAt separator.toList g.text.toList).map String.ofList
  else []

def isEmpty (g : Grammar) : Bool :=
  g.text == ""

def isCollection (g : Grammar) : Bool :=
  g.text == "collection"

def withSet (g : Grammar) (isSet : Bool) : Grammar :=
  { g with isSet }

/-- Two grammars agree when they take the same values, however they were
spelled. -/
instance : BEq Grammar where
  beq g h := g.text == h.text && g.isSet == h.isSet

theorem beq_iff (g h : Grammar) : (g == h) = true ↔ g.text = h.text ∧ g.isSet = h.isSet := by
  simp [BEq.beq]

end Grammar

end PrintRegistry
