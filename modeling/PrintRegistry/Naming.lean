import PrintRegistry.Text.Pascal
import PrintRegistry.Text.Search

/-!
The names under which resolved definitions are emitted, and the type names by
which notes refer to them.
-/

namespace PrintRegistry.Naming

/-- Words in `s` that are no plurals. -/
def nonplurals : List String :=
  ["sides", "status", "print-supports", "details", "which-jobs"]

def singular (name : String) : String :=
  if nonplurals.any (Text.endsWith name) then name
  else (Text.withoutEnding? name "s").getD name

/-- The name of an enumeration: `-supported` and `-requested` attributes share
the enumeration of the attribute they are about. -/
def enumName (name : String) : String :=
  singular (((Text.withoutEnding? name "-supported").or
    (Text.withoutEnding? name "-requested")).getD name)

def keywordName (name : String) : String :=
  singular name

/-- The type name by which notes refer to a definition. -/
def typeName (name : String) : String :=
  Text.pascalCase name

def groupName (family : String) : String :=
  Text.pascalCase family ++ "Group"

end PrintRegistry.Naming
