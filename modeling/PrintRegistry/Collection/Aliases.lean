import PrintRegistry.Entity.Agreement
import PrintRegistry.Registry

/-!
Merging aliases. A collection attribute that says its members are those of
another collection may list members of its own all the same. These are moved
to the collection meant, so that it has them all.
-/

namespace PrintRegistry

structure AliasMerge where
  family : String
  name : String
  targetFamily : String
  target : String
  deriving DecidableEq, Repr

namespace AliasMerge

def ofAttribute? (family : String) (e : Entity) : Option AliasMerge :=
  match e.reference with
  | some (.byAlias target targetFamily) =>
    if e.isCollection && target != e.name then
      some ⟨family, e.name, targetFamily.getD family, target⟩
    else none
  | _ => none

/-- Moves a member into a collection. One that the collection declares already
is dropped, with a finding if it is declared differently. -/
def moveMember (collection : String) (moved : List Entity × List Finding) (m : Entity) :
    List Entity × List Finding :=
  match Named.find? moved.1 m.name with
  | some kept =>
    if kept.sameDeclaration m then moved
    else (moved.1, moved.2 ++ [.memberConflict collection kept m])
  | none => (Named.put moved.1 m, moved.2)

def moveMembers (collection : String) (members incoming : List Entity) :
    List Entity × List Finding :=
  incoming.foldl (moveMember collection) (members, [])

end AliasMerge

namespace Registry

def aliasMerges (r : Registry) : List AliasMerge :=
  r.attributes.filterMap fun (family, e) => AliasMerge.ofAttribute? family e

/-- Makes a merge. If the collection meant is missing, members stay where they
are. -/
def mergeAlias (r : Registry) (m : AliasMerge) : Registry :=
  match r.attribute? m.targetFamily m.target with
  | none => r.report (.missingAlias m.name m.target m.targetFamily)
  | some target =>
    match r.attribute? m.family m.name with
    | none => r
    | some source =>
      let (members, findings) := AliasMerge.moveMembers m.target target.members source.members
      let r := r.adjustAttribute m.family m.name fun e => { e with members := [] }
      let r := r.adjustAttribute m.targetFamily m.target fun e => { e with members }
      { r with findings := r.findings ++ findings }

def mergeAliases (r : Registry) : Registry :=
  r.aliasMerges.foldl mergeAlias r

end Registry

end PrintRegistry
