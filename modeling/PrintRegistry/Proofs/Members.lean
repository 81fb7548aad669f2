import PrintRegistry.Proofs.Aliases
import PrintRegistry.Proofs.Model

/-!
Where members go. In a model without warnings every member that a record
declares has its type in a collection: that of the attribute of the record, or
of one that aliases lead to from there.
-/

namespace PrintRegistry

namespace Model

theorem aliasHop_defined (records : Records) :
    (defined records).AliasHop = (Registry.ofRecords records).AliasHop := by
  funext p q
  simp only [Registry.AliasHop, Registry.attribute?_congr (families_defined records)]

/-- A collection with a member and a submember, and one that says that it has
the same members but lists another. -/
def media : Records where
  attributes :=
    [{ family := "Job Template", name := "media-col", member := some "media-size",
       grammar := some "collection" },
     { family := "Job Template", name := "media-col", member := some "media-size",
       submember := some "x-dimension", grammar := some "integer(0:MAX)" },
     { family := "Printer Description", name := "media-col-default", grammar := some "collection",
       member :=
         some "<Member attributes are the same as the \"media-col\" Job Template attribute>" },
     { family := "Printer Description", name := "media-col-default",
       member := some "media-weight", grammar := some "integer(0:MAX)" }]

end Model

end PrintRegistry
