import PrintRegistry.Entity.Agreement
import PrintRegistry.Grammar.Union
import PrintRegistry.Registry

/-!
One declaration for each attribute name. Several families may declare an
attribute of one name; where their declarations can be reconciled, the first
one stands for all, with a grammar that covers them and the documents of all.
-/

namespace PrintRegistry

/-- A declaration that stands for two, if they can be reconciled. Two
collections can, whatever their members. -/
def Entity.reconcile? (kept other : Entity) : Option Entity :=
  if kept.grammar.isCollection && other.grammar.isCollection then
    some (kept.citingAll other.specs)
  else
    match Grammar.unify kept.grammar other.grammar with
    | some grammar => some { kept.citingAll other.specs with grammar }
    | none => if kept.sameDeclaration other then some (kept.citingAll other.specs) else none

namespace Registry

def canonize (canon : Table Entity × List Finding) (family : String) (e : Entity) :
    Table Entity × List Finding :=
  match canon.1.find? e.name with
  | none => (canon.1.put e, canon.2)
  | some kept =>
    match kept.reconcile? e with
    | some both => (canon.1.put both, canon.2)
    | none => (canon.1, canon.2 ++ [.familiesDisagree family kept e])

def canon (r : Registry) : Table Entity × List Finding :=
  r.attributes.foldl (fun canon (family, e) => canonize canon family e) (.empty, [])

/-- Reduces declarations to one for each name. -/
def unifyFamilies (r : Registry) : Registry :=
  { r with types := r.canon.1, findings := r.findings ++ r.canon.2 }

end Registry

end PrintRegistry
