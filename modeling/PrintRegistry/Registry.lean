import PrintRegistry.Finding
import PrintRegistry.Lookup

/-!
The registry: all tables that a run builds from records, and the findings made
on the way.
-/

namespace PrintRegistry

/-- The attributes of a family such as `Job Template`. -/
structure Family where
  title : String
  attributes : Table Entity

instance : Named Family := ⟨Family.title⟩

structure Registry where
  /-- The documents cited, each with the place given by its first citation. -/
  specs : Table Spec := .empty
  enums : Table Entity := .empty
  keywords : Table Entity := .empty
  families : Table Family := .empty
  collections : Table Entity := .empty
  /-- One declaration for each attribute name, over all families. -/
  types : Table Entity := .empty
  findings : List Finding := []

namespace Registry

def report (r : Registry) (f : Finding) : Registry :=
  { r with findings := r.findings ++ [f] }

def reportAny (r : Registry) : Option Finding → Registry
  | some f => r.report f
  | none => r

def family? (r : Registry) (title : String) : Option (Table Entity) :=
  (r.families.find? title).map Family.attributes

def attribute? (r : Registry) (family name : String) : Option Entity :=
  (r.family? family).bind (·.find? name)

/-- Changes the attributes of a family, which is put in without any first if it
is missing. -/
def alterFamily (r : Registry) (title : String) (change : Table Entity → Table Entity) :
    Registry :=
  { r with
    families := r.families.upsert ⟨title, .empty⟩ fun f =>
      { f with attributes := change f.attributes } }

/-- Changes an attribute that is there. The change keeps its name. -/
def adjustAttribute (r : Registry) (family name : String) (change : Entity → Entity) : Registry :=
  { r with
    families := r.families.adjust family fun f =>
      { f with attributes := f.attributes.adjust name change } }

def attributes (r : Registry) : List (String × Entity) :=
  r.families.toList.flatMap fun f => f.attributes.toList.map (f.title, ·)

/-- The keyword table, with registered collections known. -/
def keywordScope (r : Registry) : Scope :=
  ⟨r.keywords, r.collections.has⟩

def enumScope (r : Registry) : Scope :=
  ⟨r.enums, r.collections.has⟩

end Registry

end PrintRegistry
