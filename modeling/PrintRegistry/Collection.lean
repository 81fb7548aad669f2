import PrintRegistry.Entity

/-!
The collections that entities take their members from.
-/

namespace PrintRegistry

/-- Collections with too many members to be modelled. -/
def untypedCollections : List String :=
  ["destination-attributes", "preferred-attributes"]

/-- The collection that an entity takes its members from: its alias, or else
the one of its own name. -/
def Entity.collectionName (e : Entity) : String :=
  e.alias?.getD e.name

end PrintRegistry
