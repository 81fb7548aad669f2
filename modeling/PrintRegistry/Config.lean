import PrintRegistry.Failure
import PrintRegistry.Kdl.Reader

/-!
The configuration of a run. A configuration is a document of three kinds of
nodes; the first entry of a node gives its value, and of two nodes of a name
the later one counts.
-/

namespace PrintRegistry

structure Config where
  input : Option String := none
  output : Option String := none
  denyWarnings : Bool := false
  deriving DecidableEq, Repr

namespace Config

/-- The value of a node that takes a text. -/
def textOf (node : Kdl.Node) : Except ConfigFault String :=
  match node.entries.head?.map Kdl.Entry.value with
  | some (.string text) => .ok text
  | _ => .error (.stringExpected node.name)

/-- The value of a node that switches something on. -/
def switchOf (node : Kdl.Node) : Except ConfigFault Bool :=
  match node.entries.head?.map Kdl.Entry.value with
  | none => .ok true
  | some (.bool b) => .ok b
  | some _ => .error (.booleanExpected node.name)

def withNode (c : Config) (node : Kdl.Node) : Except ConfigFault Config :=
  match node.name with
  | "input" => (textOf node).map fun path => { c with input := some path }
  | "output" => (textOf node).map fun path => { c with output := some path }
  | "deny-warnings" => (switchOf node).map fun b => { c with denyWarnings := b }
  | name => .error (.unknownNode name)

def ofText (text : String) : Except ConfigFault Config :=
  match Kdl.ofText? text with
  | some nodes => nodes.foldlM withNode {}
  | none => .error .malformed

def load (path : String) (place : Place) : Except Failure Config :=
  match place with
  | .missing _ => .error (.config (.notFound path))
  | place =>
    match place.text with
    | .error fault => .error (.file fault)
    | .ok text => (ofText text).mapError .config

end Config

end PrintRegistry
