import PrintRegistry.Entity.Subject
import PrintRegistry.Record
import PrintRegistry.Warning

/-!
Findings: what can be irregular in a registry, each with the entries
concerned. A finding is reported as a warning; its kind, its wording and its
subject are given here and nowhere else.
-/

namespace PrintRegistry

def Citation.layout (c : Citation) : Layout :=
  let kind := match c.kind with
    | .rfc => "Rfc"
    | .uri => "Uri"
    | .other => "Other"
  .record "XRef" [("kind", .atom kind), ("data", .text c.data), ("text", .optional .text c.text)]

inductive Finding where
  /-- A citation without a name or a place. -/
  | unreadableCitation (citation : Citation)
  /-- A value without a label that is no reference. -/
  | unreadableEnumValue (enum value : String)
  | enumCodeNotInteger (enum value : String)
  | statusCodeNotInteger (value : String)
  /-- A keyword value of several words that is no reference. -/
  | unreadableKeyword (keyword value : String)
  | unreadableMember (owner member : String)
  | unreadableSubmember (owner member submember : String)
  | danglingReference (entity : Entity) (target : String)
  | enumWithoutValues (enum : String)
  | membersAndValues (keyword : Entity)
  | missingFamily (keyword : Entity) (family : String)
  | missingAlias (collection target family : String)
  | memberConflict (collection : String) (kept other : Entity)
  | membersConflict (kept other : Entity)
  | memberWithoutGrammar (collection : String) (member : Entity)
  | membersMissing (collection : Entity)
  /-- A collection that an entity points at and that is not registered. -/
  | collectionMissing (target : String) (pointer : Entity)
  /-- A collection that an entity points at and that is not emitted. -/
  | collectionNotEmitted (target : String) (pointer : Entity)
  | familiesDisagree (family : String) (kept other : Entity)
  /-- A member whose grammar no type kind fits. -/
  | untypedMember (collection : String) (member : Entity)
  | untypedAttribute (entity : Entity)

namespace Finding

def kind : Finding → WarningKind
  | unreadableCitation _ | unreadableEnumValue .. | enumCodeNotInteger .. | statusCodeNotInteger _
  | unreadableKeyword .. | unreadableMember .. | unreadableSubmember .. => .unreadable
  | danglingReference .. | membersAndValues _ | missingFamily .. | missingAlias ..
  | collectionMissing .. | collectionNotEmitted .. => .unresolved
  | memberConflict .. | membersConflict .. | familiesDisagree .. => .conflict
  | membersMissing _ => .memberless
  | untypedMember .. | untypedAttribute _ => .untyped
  | enumWithoutValues _ | memberWithoutGrammar .. => .emptyDefinition

def message : Finding → String
  | unreadableCitation citation => s!"unparseable spec reference '{citation.data}'"
  | unreadableEnumValue enum value => s!"enum {enum} has unparseable value '{value}'"
  | enumCodeNotInteger enum value => s!"enum {enum} has non-integer value {value}"
  | statusCodeNotInteger value => s!"status code has non-integer value {value}"
  | unreadableKeyword keyword value => s!"keyword {keyword} has unparseable value '{value}'"
  | unreadableMember owner member => s!"Unparseable '{owner}' member name: '{member}'"
  | unreadableSubmember owner member submember =>
    s!"Unparseable '{owner}' member '{member}' submember name '{submember}'"
  | danglingReference entity target => s!"{entity.name} has bad ref={target}"
  | enumWithoutValues enum => s!"enum {enum} has no values defined"
  | membersAndValues _ => "Cannot handle keyword with both ref and values"
  | missingFamily _ family => s!"Keyword refers to group {family} but no such group"
  | missingAlias collection target family =>
    s!"Collection {collection} has members of {target}, which is not in {family}"
  | memberConflict collection _ other =>
    s!"Collection {collection} already has different member {other.name}"
  | membersConflict _ other => s!"Collection {other.name} already exists with different members"
  | memberWithoutGrammar collection member =>
    s!"Collection {collection} member {member.name} has no syntax"
  | membersMissing collection => s!"no members found for collection {collection.name}"
  | collectionMissing target _ => s!"Collection {target} referenced but not found"
  | collectionNotEmitted target _ => s!"Collection {target} referenced but not emitted"
  | familiesDisagree family kept _ => s!"Type {kept.name} repeated with differences in {family}"
  | untypedMember collection member =>
    s!"Collection {collection} member {member.name} has no type for '{member.grammar.text}'"
  | untypedAttribute entity =>
    s!"No type for attribute {entity.name} with syntax '{entity.grammar.raw}'"

def subject? : Finding → Option String
  | unreadableCitation citation => some citation.layout.render
  | danglingReference entity _ | membersAndValues entity | missingFamily entity _
  | memberWithoutGrammar _ entity | membersMissing entity | collectionMissing _ entity
  | collectionNotEmitted _ entity | untypedMember _ entity | untypedAttribute entity =>
    some entity.subject
  | memberConflict _ kept other | membersConflict kept other | familiesDisagree _ kept other =>
    some (Entity.pairSubject kept other)
  | unreadableEnumValue .. | enumCodeNotInteger .. | statusCodeNotInteger _
  | unreadableKeyword .. | unreadableMember .. | unreadableSubmember .. | enumWithoutValues _
  | missingAlias .. => none

def warning (f : Finding) : Warning where
  kind := f.kind
  message := f.message
  subject := f.subject?

end Finding

end PrintRegistry
