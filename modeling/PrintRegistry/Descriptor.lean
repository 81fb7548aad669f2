import PrintRegistry.Inference

/-!
Type descriptors: how an attribute or a member of a collection is represented
in a model.
-/

namespace PrintRegistry

structure Descriptor where
  name : String
  kind : TypeKind
  isSet : Bool
  /-- The enumeration, keyword or collection that the type is bound to. -/
  underlying : Option String := none
  note : Option String := none
  grammar : String
  specs : List String
  /-- The types of members declared with the attribute itself. -/
  members : List Descriptor := []
  deriving Repr

instance : Named Descriptor := ⟨Descriptor.name⟩

namespace Descriptor

/-- The descriptor of an entity of which something was inferred. Members are
left out. -/
def ofInference (e : Entity) (i : Inference) : Descriptor where
  name := e.name
  kind := i.kind
  isSet := e.grammar.isSet
  underlying := i.underlying
  note := i.note
  grammar := e.grammar.text
  specs := e.specs

def ofEntity? (r : Registry) (e : Entity) : Option Descriptor :=
  (Inference.ofEntity? r e).map (ofInference e)

end Descriptor

end PrintRegistry
