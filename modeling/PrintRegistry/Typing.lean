import PrintRegistry.Usage

/-!
Typing a registry: descriptors for all emitted collections and all canonical
attributes. A collection is typed as a whole or not at all; one with a member
that has no type is left out, and leaves no trace in the indexes.
-/

namespace PrintRegistry

structure CollectionDefinition where
  name : String
  specs : List String
  members : List Descriptor

/-- The outcome of typing: the types of a list of entities with the indexes
kept, or the first entity that has no type. -/
abbrev Typed := Except Entity (List Descriptor × Usages)

mutual

/-- The type of an entity at a place, with those of its members. -/
def Entity.type (r : Registry) (site : Site) (u : Usages) :
    Entity → Except Entity (Descriptor × Usages)
  | e@{ members, .. } =>
    match Descriptor.ofEntity? r e with
    | none => .error e
    | some d =>
      match typeMembers r (site.child e.name) (u.record site d) members with
      | .error missing => .error missing
      | .ok (types, u) => .ok ({ d with members := types }, u)

def typeMembers (r : Registry) (site : Site) (u : Usages) : List Entity → Typed
  | [] => .ok ([], u)
  | m :: ms =>
    match Entity.type r site u m with
    | .error missing => .error missing
    | .ok (d, u) =>
      match typeMembers r site u ms with
      | .error missing => .error missing
      | .ok (ds, u) => .ok (d :: ds, u)

end

structure Typing where
  collections : List CollectionDefinition := []
  /-- The types of attributes, in ascending order of names. -/
  types : List Descriptor := []
  usages : Usages := {}
  findings : List Finding := []

namespace Typing

/-- Adds a collection, or the finding that one of its members has no type. -/
def addCollection (r : Registry) (t : Typing) (c : Entity) : Typing :=
  match typeMembers r (Site.top.child c.name) t.usages c.members with
  | .ok (members, usages) =>
    { t with collections := t.collections ++ [⟨c.name, c.specs, members⟩], usages }
  | .error member => { t with findings := t.findings ++ [.untypedMember c.name member] }

def addAttribute (r : Registry) (t : Typing) (e : Entity) : Typing :=
  match Descriptor.ofEntity? r e with
  | some d => { t with types := t.types ++ [d], usages := t.usages.record .top d }
  | none => { t with findings := t.findings ++ [.untypedAttribute e] }

/-- The canonical attributes in ascending order of names. -/
def attributesInOrder (r : Registry) : List Entity :=
  r.types.toList.mergeSort fun a b => a.name ≤ b.name

def ofRegistry (r : Registry) : Typing :=
  let collections := (r.collections.toList.filter Entity.emitted).foldl (addCollection r) {}
  (attributesInOrder r).foldl (addAttribute r) collections

end Typing

end PrintRegistry
