import PrintRegistry.Collection
import PrintRegistry.Naming
import PrintRegistry.Registry
import PrintRegistry.Text.Digit
import PrintRegistry.TypeKind

/-!
Inference of type kinds from grammars. Rules are tried in order, and the first
that gives a kind decides. A rule for enumerations that cannot find the values
meant gives none, and the rules after it are tried.
-/

namespace PrintRegistry

structure Inference where
  kind : TypeKind
  /-- The enumeration, keyword or collection that the type is bound to. -/
  underlying : Option String := none
  note : Option String := none
  deriving DecidableEq, Repr

namespace Inference

/-- Names under which the values of some attributes are looked up: their values
are among those of another keyword. -/
def lookupNames : List (String × String) :=
  [("media-key", "media"), ("media-key-supported", "media"), ("media-size-name", "media")]

def lookupName (name : String) : String :=
  (lookupNames.lookup name).getD name

/-- Attributes whose grammar is documented wrongly: the documented grammar and
the right one. -/
def wrongGrammars : List (String × String × String) :=
  [("job-collation-type-actual", "keyword", "enum")]

def grammarText (e : Entity) : String :=
  let isDocumented (entry : String × String × String) : Bool :=
    entry.1 == e.name && entry.2.1 == e.grammar.text
  match wrongGrammars.find? isDocumented with
  | some (_, _, right) => right
  | none => e.grammar.text

/-- Attributes that are opaque blocks of keys and values. -/
def keyValueNames : List String :=
  ["document-metadata", "printer-alert", "printer-finisher", "printer-finisher-supplies",
   "printer-input-tray", "printer-output-tray", "printer-supply"]

inductive Condition where
  | grammar (text : String)
  /-- The grammar is this text, or this text with a size in parentheses. -/
  | sized (base : String)
  /-- The grammar is this text, or this text with limits in parentheses. -/
  | limited (base : String)
  /-- The grammar is a choice between two texts, either of them with limits in
  parentheses or without. -/
  | limitedChoice (first second : String)
  | names (names : List String)
  deriving DecidableEq, Repr

/-- The characters of limits such as `1:MAX`. -/
def isLimitChar (c : Char) : Bool :=
  Text.isDigit c || "MINAX:-".toList.contains c

/-- Whether a text is empty or in parentheses, with characters of a class and
at least `least` of them inside. -/
def isBound (least : Nat) (fits : Char → Bool) (cs : List Char) : Bool :=
  match cs with
  | [] => true
  | '(' :: rest =>
    rest.getLast? == some ')' && rest.dropLast.all fits && least ≤ rest.dropLast.length
  | _ => false

def isBounded (base : String) (least : Nat) (fits : Char → Bool) (cs : List Char) : Bool :=
  match base.toList.isPrefixOf? cs with
  | some bound => isBound least fits bound
  | none => false

namespace Condition

def fits (text : String) : Condition → Bool
  | grammar expected => text == expected
  | sized base => isBounded base 1 Text.isDigit text.toList
  | limited base => isBounded base 0 isLimitChar text.toList
  | limitedChoice first second =>
    match Text.cutAt Grammar.separator.toList text.toList with
    | [a, b] => isBounded first 0 isLimitChar a && isBounded second 0 isLimitChar b
    | _ => false
  | names _ => false

def holds (name text : String) : Condition → Bool
  | names known => known.contains name
  | c => c.fits text

end Condition

def membersNote (collection : String) : String :=
  s!"May contain any keyword from [{Naming.typeName collection}.Name]."

def keywordTypeName (e : Entity) : String :=
  Naming.typeName (Naming.singular e.name)

def plain (kind : TypeKind) : Inference :=
  { kind }

def keywordOrName (r : Registry) (e : Entity) : Inference :=
  match r.keywordScope.resolve (lookupName e.name) with
  | some (.members collection) =>
    { kind := .keywordOrName, underlying := some collection, note := some (membersNote collection) }
  | some (.entity keyword) =>
    { kind := .keywordOrName
      underlying := some keyword.name
      note := some s!"May contain any keyword from [{keywordTypeName keyword}] or a name." }
  | none => plain .keywordOrName

/-- A keyword. One whose values are not found is left without a type of its
own. -/
def keyword (r : Registry) (e : Entity) : Inference :=
  match r.keywordScope.resolve (lookupName e.name) with
  | some (.members collection) =>
    { kind := .keyword, underlying := some collection, note := some (membersNote collection) }
  | some (.entity keyword) =>
    if !keyword.values.isEmpty then
      { kind := .keyword
        underlying := some keyword.name
        note := some s!"May contain any keyword from [{keywordTypeName keyword}]." }
    else
      { kind := .keyword
        underlying := if keyword.mayBeEmpty then some keyword.name else none
        note := keyword.note }
  | none => plain .keyword

def enumeration? (r : Registry) (e : Entity) : Option Inference :=
  match r.enumScope.resolve (lookupName e.name) with
  | some (.entity target) => some { kind := .enumeration, underlying := some target.name }
  | _ => none

def collection (e : Entity) : Inference :=
  if untypedCollections.contains e.collectionName then plain .untypedCollection
  else { kind := .collection, underlying := some e.collectionName }

structure Rule where
  condition : Condition
  infer : Registry → Entity → Option Inference

def Rule.plain (condition : Condition) (kind : TypeKind) : Rule :=
  ⟨condition, fun _ _ => some (Inference.plain kind)⟩

/-- The rules, in the order in which they are tried. Blocks of keys and values
are registered as octet strings, so their names are looked at first. -/
def rules : List Rule :=
  [⟨.grammar "keyword | name", fun r e => some (keywordOrName r e)⟩,
   ⟨.grammar "keyword", fun r e => some (keyword r e)⟩,
   ⟨.grammar "enum", enumeration?⟩,
   .plain (.names keyValueNames) .keyValue,
   .plain (.sized "uri") .uri,
   .plain (.limited "rangeOfInteger") .intRange,
   .plain (.limitedChoice "integer" "rangeOfInteger") .intOrIntRange,
   .plain (.limited "integer") .integer,
   .plain (.grammar "boolean") .boolean,
   .plain (.grammar "charset") .charset,
   .plain (.grammar "mimeMediaType") .mimeMediaType,
   .plain (.grammar "naturalLanguage") .naturalLanguage,
   .plain (.grammar "uriScheme") .uriScheme,
   .plain (.grammar "resolution") .resolution,
   ⟨.grammar "collection", fun _ e => some (collection e)⟩,
   .plain (.grammar "dateTime") .dateTime,
   .plain (.sized "name") .name,
   .plain (.sized "text") .text,
   .plain (.sized "octetString") .octetString]

def byRules (table : List Rule) (r : Registry) (e : Entity) : Option Inference :=
  table.findSome? fun rule =>
    if rule.condition.holds e.name (grammarText e) then rule.infer r e else none

def ofEntity? (r : Registry) (e : Entity) : Option Inference :=
  byRules rules r e

end Inference

end PrintRegistry
