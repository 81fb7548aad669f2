/-!
Documents of the format in which configurations are written: nodes with a
name, entries after the name, and nodes of their own. Type annotations say
nothing to a configuration and are not kept.
-/

namespace PrintRegistry.Kdl

inductive Value where
  | null
  | bool (b : Bool)
  | string (text : String)
  /-- A number, of which the value is not asked for. -/
  | number
  deriving DecidableEq, Repr

/-- An argument, or a property if it has a key. -/
structure Entry where
  key : Option String := none
  value : Value
  deriving DecidableEq, Repr

structure Node where
  name : String
  entries : List Entry := []
  children : List Node := []
  deriving Repr

end PrintRegistry.Kdl
