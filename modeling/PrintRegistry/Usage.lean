import PrintRegistry.Descriptor

/-!
Where types are used. While descriptors are made, two indexes are kept: the
places that use each enumeration, and the attributes that are blocks of keys
and values.
-/

namespace PrintRegistry

inductive Site where
  | top
  /-- A collection, given by the names on the way to it. -/
  | inside (path : String)
  deriving DecidableEq, Repr

namespace Site

def path : Site → String
  | top => "types"
  | inside path => path

def usage (s : Site) (name : String) : String :=
  s.path ++ "." ++ name

def child : Site → String → Site
  | top, name => inside name
  | inside path, name => inside (path ++ "." ++ name)

end Site

/-- The places that use an enumeration, in order and without repeats. -/
structure EnumUsage where
  enum : String
  places : List String
  deriving DecidableEq, Repr

instance : Named EnumUsage := ⟨EnumUsage.enum⟩

structure Usages where
  /-- Enumerations in ascending order. -/
  enums : List EnumUsage := []
  keyValues : List Descriptor := []

namespace Usages

/-- Adds a place to the uses of an enumeration, in an ascending list. -/
def addPlace (enum place : String) : List EnumUsage → List EnumUsage
  | [] => [⟨enum, [place]⟩]
  | u :: us =>
    if enum = u.enum then { u with places := Named.put u.places place } :: us
    else if enum < u.enum then ⟨enum, [place]⟩ :: u :: us
    else u :: addPlace enum place us

def record (u : Usages) (site : Site) (d : Descriptor) : Usages :=
  match d.kind, d.underlying with
  | .enumeration, some enum => { u with enums := addPlace enum (site.usage d.name) u.enums }
  | .keyValue, _ => { u with keyValues := Named.put u.keyValues d }
  | _, _ => u

end Usages

end PrintRegistry
