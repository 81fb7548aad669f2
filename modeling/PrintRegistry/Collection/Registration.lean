import PrintRegistry.Entity.Agreement
import PrintRegistry.Registry

/-!
Registering collections. Every attribute with members defines a collection of
its name. The first definition of a name is registered; it counts as emitted
if every member at any depth has a grammar.
-/

namespace PrintRegistry

namespace Entity

mutual

/-- The first member at any depth that has no grammar. -/
def bareMember? : Entity → Option Entity
  | { members, .. } => bareIn? members

def bareIn? : List Entity → Option Entity
  | [] => none
  | m :: ms => if m.grammar.isEmpty then some m else (bareMember? m).or (bareIn? ms)

end

end Entity

namespace Registry

/-- Registers a collection and says whether it is now emitted. If its name is
registered already, the earlier definition stays, with a finding if it has
other members. -/
def registerCollection (r : Registry) (c : Entity) : Registry × Bool :=
  match r.collections.find? c.name with
  | some kept => (if kept.sameMembers c then r else r.report (.membersConflict kept c), false)
  | none =>
    match c.bareMember? with
    | some member =>
      ({ r with collections := r.collections.put { c with emitted := false } }.report
        (.memberWithoutGrammar c.name member), false)
    | none => ({ r with collections := r.collections.put { c with emitted := true } }, true)

/-- Registers an attribute of a family, and marks it if it is emitted. -/
def registerAttribute (r : Registry) (family : String) (c : Entity) : Registry :=
  match r.registerCollection c with
  | (r, true) => r.adjustAttribute family c.name fun e => { e with emitted := true }
  | (r, false) => r

def registerCollections (r : Registry) : Registry :=
  (r.attributes.filter fun (_, e) => e.isCollection).foldl
    (fun r (family, c) => r.registerAttribute family c) r

end Registry

end PrintRegistry
