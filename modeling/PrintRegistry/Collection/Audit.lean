import PrintRegistry.Collection
import PrintRegistry.Registry

/-!
The audit: every collection that an attribute or a member points at has to be
registered and emitted. A miss is reported once, with the first entity that
points there.
-/

namespace PrintRegistry

/-- An entity that takes its members from a registered collection. -/
structure CollectionPointer where
  target : String
  pointer : Entity

instance : Named CollectionPointer := ⟨CollectionPointer.target⟩

namespace Entity

/-- The entity as a pointer, if it has the grammar of a collection and no
members, and the collection meant is modelled. -/
def asPointer? (e : Entity) : Option CollectionPointer :=
  if e.grammar.isCollection && !e.isCollection && !(untypedCollections.contains e.collectionName)
  then some ⟨e.collectionName, e⟩
  else none

mutual

def pointers : Entity → List CollectionPointer
  | e@{ members, .. } => e.asPointer?.toList ++ pointersIn members

def pointersIn : List Entity → List CollectionPointer
  | [] => []
  | m :: ms => pointers m ++ pointersIn ms

end

end Entity

namespace Registry

/-- The first pointer at each collection that is pointed at. -/
def pointers (r : Registry) : List CollectionPointer :=
  (r.attributes.flatMap fun (_, e) => e.pointers).foldl Named.putNew []

def pointerFinding? (r : Registry) (p : CollectionPointer) : Option Finding :=
  match r.collections.find? p.target with
  | none => some (.collectionMissing p.target p.pointer)
  | some c => if c.emitted then none else some (.collectionNotEmitted p.target p.pointer)

/-- Reports every collection that is pointed at and not there. -/
def audit (r : Registry) : Registry :=
  { r with findings := r.findings ++ r.pointers.filterMap r.pointerFinding? }

end Registry

end PrintRegistry
