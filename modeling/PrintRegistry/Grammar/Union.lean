import PrintRegistry.Grammar.Normal

/-!
Grammars that two families may give one attribute without contradicting each
other, and the grammar that covers both.
-/

namespace PrintRegistry.Grammar

/-- A disagreement that has a common grammar. -/
inductive Union where
  | pair (first second cover : String)
  /-- A bounded form such as `uri(45)` is covered by its base. -/
  | bounded (base : String)
  deriving DecidableEq, Repr

def unions : List Union :=
  [.pair "name" "keyword | name" "keyword | name", .bounded "uri", .bounded "integer"]

def isBoundedForm (base text : String) : Bool :=
  match Text.withoutStart? text base with
  | some bound => Text.startsWith bound "("
  | none => false

def Union.cover? (u : Union) (a b : String) : Option String :=
  match u with
  | .pair first second cover =>
    if (a = first ∧ b = second) ∨ (a = second ∧ b = first) then some cover else none
  | .bounded base =>
    if (a = base ∧ isBoundedForm base b) ∨ (b = base ∧ isBoundedForm base a) then some base
    else none

/-- The grammar that covers two grammars that do not agree. A grammar for one
value and the same grammar for a set are covered by the set. -/
def unify (a b : Grammar) : Option Grammar :=
  if a == b then none
  else
    let text := if a.text = b.text then some a.text else unions.findSome? (·.cover? a.text b.text)
    text.map (ofText · (a.isSet || b.isSet))

end PrintRegistry.Grammar
