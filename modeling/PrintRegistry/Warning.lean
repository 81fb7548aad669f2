/-!
Warnings: irregularities that do not stop a run. The entry concerned is left
out, or its first definition is kept, and the warning is reported.
-/

namespace PrintRegistry

inductive WarningKind where
  | unreadable
  | unresolved
  | conflict
  /-- A collection with neither members nor an alias. -/
  | memberless
  | untyped
  /-- An enumeration without values or a member without a grammar. -/
  | emptyDefinition
  deriving DecidableEq, Repr

namespace WarningKind

def all : List WarningKind :=
  [unreadable, unresolved, conflict, memberless, untyped, emptyDefinition]

def words : WarningKind → List String
  | unreadable => ["unparseable", "grammar"]
  | unresolved => ["unresolved", "reference"]
  | conflict => ["collection", "conflict"]
  | memberless => ["missing", "collection", "members"]
  | untyped => ["no", "type", "mapping"]
  | emptyDefinition => ["empty", "definition"]

def label (k : WarningKind) : String :=
  String.intercalate "-" k.words

def ofLabel? (s : String) : Option WarningKind :=
  all.find? (·.label == s)

end WarningKind

/-- A warning, with the offending value laid out as its subject. -/
structure Warning where
  kind : WarningKind
  message : String
  subject : Option String := none
  deriving DecidableEq, Repr

namespace Warning

def count (ws : List Warning) (kind : WarningKind) : Nat :=
  ws.countP (·.kind == kind)

end Warning

end PrintRegistry
