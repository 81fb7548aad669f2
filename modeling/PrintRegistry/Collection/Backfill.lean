import PrintRegistry.Registry

/-!
Attributes with the grammar of a collection but without members. The naming
conventions of the registry tell for most of them which collection they share;
the others are dropped.
-/

namespace PrintRegistry

/-- What becomes of a collection attribute without members. -/
inductive Backfill where
  | registered
  | sharing (target : String)
  | kept
  /-- It is dropped, with a finding unless it is known to be obsolete. -/
  | dropped (obsolete : Bool)
  deriving DecidableEq, Repr

namespace Backfill

/-- Beginnings of names that share the members of one collection. -/
def sharedStarts : List (String × String) :=
  [("materials-col-", "materials-col"), ("finishings-col-", "finishings-col")]

def untyped : List String := ["preferred-attributes"]

def obsolete : List String := ["document-overrides-actual"]

def registered? (collections : Table Entity) (name : String) : Option String :=
  if collections.has name then some name else none

/-- The conventions for the collection meant by a name, in the order in which
they are tried. -/
def conventions (collections : Table Entity) : List (String → Option String) :=
  [fun name => (Text.withoutEnding? name "-actual").bind (registered? collections),
   fun name => (Text.withoutEnding? name "-default").bind (registered? collections),
   fun name =>
    if Text.contains name "-completed-" then
      registered? collections (Text.replaced name "-completed-" "-")
    else none,
   fun name => (sharedStarts.find? fun (start, _) => Text.startsWith name start).map Prod.snd]

def ofName (collections : Table Entity) (name : String) : Backfill :=
  if collections.has name then registered
  else
    match (conventions collections).findSome? (· name) with
    | some target => sharing target
    | none =>
      if name ∈ untyped then kept
      else dropped (name ∈ obsolete)

end Backfill

namespace Entity

/-- Whether an attribute has the grammar of a collection, but neither members
nor a collection to share them with. -/
def isMemberless (e : Entity) : Bool :=
  e.grammar.isCollection && !e.isCollection && e.alias?.isNone

end Entity

namespace Registry

def backfillAttribute (r : Registry) (family name : String) : Backfill → Registry
  | .registered | .kept => r
  | .sharing target =>
    r.adjustAttribute family name fun e => { e with reference := some (.byAlias target none) }
  | .dropped obsolete =>
    match r.attribute? family name with
    | none => r
    | some e =>
      let r := { r with
        families := r.families.adjust family fun f =>
          { f with attributes := f.attributes.erase name } }
      if obsolete then r else r.report (.membersMissing e)

/-- Finds a collection for every attribute that lacks members, or drops it. -/
def backfill (r : Registry) : Registry :=
  (r.attributes.filter fun (_, e) => e.isMemberless).foldl
    (fun r' (family, e) => r'.backfillAttribute family e.name (.ofName r.collections e.name)) r

end Registry

end PrintRegistry
