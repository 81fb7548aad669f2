import PrintRegistry.Grammar.Normal
import PrintRegistry.Reference.Phrase
import PrintRegistry.Registry
import PrintRegistry.Text.Code

/-!
Ingestion of records. The first record of a name makes an entity, and later
ones add values, documents or members to it. What a record does to its entity
does not hang on the rest of the registry: `enter` says it, together with the
finding it makes, if any.
-/

namespace PrintRegistry

/-- Whether a label or a name carries a qualifier such as `(deprecated)`. -/
def isQualified (s : String) : Bool :=
  ((s.toList.dropWhile (· != '(')).contains ')')

def Entity.fresh (name : String) (grammar : Option String) : Entity where
  name
  grammar := Grammar.normalizeFor name (grammar.getD "")

def Entity.citingAny (e : Entity) : Option String → Entity
  | some spec => e.citing spec
  | none => e

/-- Enumerations whose names begin so share the values of another one. -/
def sharedEnums : List (String × String) :=
  [("job-finishings", "finishings")]

/-- Enumerations that are another one; their own records are ignored. -/
def replacedEnums : List (String × String) :=
  [("fetch-status-code", "status")]

def Entity.redirected (e : Entity) : Entity :=
  match sharedEnums.find? fun (start, _) => Text.startsWith e.name start with
  | some (_, target) => { e with reference := some (.byName target) }
  | none => e

def Entity.withCode (e : Entity) (label : String) (code : Int) (hexadecimal : Bool) : Entity :=
  { e with values := e.values.addCode label code, hexadecimal := e.hexadecimal || hexadecimal }

namespace EnumRecord

/-- Enters a value with a label. Qualified and reserved labels are passed over. -/
def enterCode (e : Entity) (label value : String) : Entity × Option Finding :=
  if isQualified label || Text.contains label "Reserved" then (e, none)
  else
    match Text.code? value with
    | some (code, hexadecimal) => (e.withCode label code hexadecimal, none)
    | none => (e, some (.enumCodeNotInteger e.name value))

/-- Enters a value without a label, which has to be a reference. -/
def enterReference (e : Entity) (value : String) : Entity × Option Finding :=
  match Reference.ofEnumValue? value with
  | some reference => ({ e with reference := some reference }, none)
  | none => ({ e with unreadable := true }, some (.unreadableEnumValue e.name value))

def enter (r : EnumRecord) (e : Entity) : Entity × Option Finding :=
  let deferred := r.name.bind Reference.ofEnumLabel?
  let e := match deferred with
    | some name => { e with reference := some (.byName name) }
    | none => e
  let e := e.redirected
  match replacedEnums.lookup e.name with
  | some target => ({ e with reference := some (.byName target) }, none)
  | none =>
    match deferred, r.value, r.name with
    | none, some value, some label => enterCode e label value
    | none, some value, none => enterReference e value
    | _, _, _ => (e, none)

end EnumRecord

namespace KeywordRecord

/-- Enters a value. One word is a keyword, several are a reference. -/
def enterValue (e : Entity) (value : String) : Entity × Option Finding :=
  if isQualified value then (e, none)
  else if !Text.contains value " " then ({ e with values := e.values.addWord value }, none)
  else
    match Reference.ofPhrase? value with
    | some reference => ({ e with reference := some reference }, none)
    | none => ({ e with unreadable := true }, some (.unreadableKeyword e.name value))

def enter (r : KeywordRecord) (e : Entity) : Entity × Option Finding :=
  let e := match r.keywordType with
    | some _ => { e with keywordType := r.keywordType }
    | none => e
  match r.value with
  | some value => enterValue e value
  | none => (e, none)

end KeywordRecord

namespace AttributeRecord

def extensionMarker : String := "(extension)"

def memberName (column : String) : String :=
  Text.trimmed ((Text.withoutEnding? column extensionMarker).getD column)

def freshMember (name : String) (grammar : Option String) : Entity :=
  { Entity.fresh name grammar with isMember := true }

/-- Enters the record into the member it names. Without a submember it gives
the member its grammar, in the place of an earlier one. -/
def enterMember (r : AttributeRecord) (spec : Option String) (m : Entity) :
    Entity × Option Finding :=
  let m := m.citingAny spec
  match r.submember with
  | none => ({ m with grammar := Grammar.normalizeFor m.name (r.grammar.getD "") }, none)
  | some column =>
    if Text.startsWith column "<" then
      match Reference.ofPhrase? column with
      | some reference => ({ m with reference := some reference }, none)
      | none => (m, some (.unreadableSubmember r.name m.name column))
    else (m.upsertMember (freshMember column r.grammar) (·.citingAny spec), none)

def enter (r : AttributeRecord) (spec : Option String) (e : Entity) : Entity × Option Finding :=
  let e := e.citingAny spec
  match r.member with
  | none => (e, none)
  | some column =>
    let name := memberName column
    if Text.startsWith name "<" then
      match Reference.ofPhrase? name with
      | some reference => ({ e with reference := some reference }, none)
      | none => (e, some (.unreadableMember r.name name))
    else
      let fresh := freshMember name r.grammar
      let (member, finding) := r.enterMember spec ((Named.find? e.members name).getD fresh)
      ({ e with members := Named.put e.members member }, finding)

end AttributeRecord

namespace StatusRecord

def enumName : String := "status"

def freshEnum : Entity where
  name := enumName
  grammar := Grammar.normalize "enum"
  hexadecimal := true

/-- Enters the record. Codes that are unassigned or reserved and ranges of
codes are passed over. -/
def enter (r : StatusRecord) (e : Entity) : Entity × Option Finding :=
  if r.name == "Unassigned" || Text.startsWith r.name "Reserved" || Text.contains r.value "-" then
    (e, none)
  else
    match Text.code? r.value with
    | some (code, _) => (e.withCode r.name code false, none)
    | none => (e, some (.statusCodeNotInteger r.value))

end StatusRecord

namespace Registry

/-- Notes the document cited and gives its name. The place of a document is the
one of its first citation. -/
def cite (r : Registry) : Option Citation → Registry × Option String
  | none => (r, none)
  | some citation =>
    match citation.spec? with
    | some spec =>
      (if r.specs.has spec.id then r else { r with specs := r.specs.put spec }, some spec.id)
    | none => (r.report (.unreadableCitation citation), none)

def ingestEnum (r : Registry) (record : EnumRecord) : Registry :=
  let (r, spec) := r.cite record.citation
  let found := (r.enums.find? record.about).getD (Entity.fresh record.about record.grammar)
  let (entity, finding) := record.enter (found.citingAny spec)
  { r with enums := r.enums.put entity }.reportAny finding

def ingestKeyword (r : Registry) (record : KeywordRecord) : Registry :=
  let (r, spec) := r.cite record.citation
  let found := (r.keywords.find? record.about).getD (Entity.fresh record.about record.grammar)
  let (entity, finding) := record.enter (found.citingAny spec)
  { r with keywords := r.keywords.put entity }.reportAny finding

/-- Records of attributes with a qualified name are passed over. -/
def ingestAttribute (r : Registry) (record : AttributeRecord) : Registry :=
  if isQualified record.name then r
  else
    let (r, spec) := r.cite record.citation
    let found := (r.attribute? record.family record.name).getD
      (Entity.fresh record.name record.grammar)
    let (entity, finding) := record.enter spec found
    (r.alterFamily record.family (·.put entity)).reportAny finding

def ingestStatus (r : Registry) (record : StatusRecord) : Registry :=
  let (r, spec) := r.cite record.citation
  let found := (r.enums.find? StatusRecord.enumName).getD StatusRecord.freshEnum
  let (entity, finding) := record.enter (found.citingAny spec)
  { r with enums := r.enums.put entity }.reportAny finding

end Registry

end PrintRegistry
