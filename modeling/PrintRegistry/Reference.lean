/-!
References between registry entries. A reference holds names only; what it
refers to is found in the tables when it is needed.
-/

namespace PrintRegistry

/-- What an entry says about where its values or members are. -/
inductive Reference where
  | byName (name : String)
  | byGroup (family : String)
  | byMembers (collection : String)
  /-- The members of another collection, which is in the given family, or else
  in the family of the entry itself. -/
  | byAlias (collection : String) (family : Option String)
  deriving DecidableEq, Repr

namespace Reference

def target? : Reference → Option String
  | byName name => some name
  | _ => none

def alias? : Reference → Option String
  | byAlias collection _ => some collection
  | _ => none

end Reference

end PrintRegistry
