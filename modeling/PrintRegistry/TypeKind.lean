/-!
The kinds of types that attributes are given.
-/

namespace PrintRegistry

inductive TypeKind where
  | keywordOrName
  | keyword
  | enumeration
  | keyValue
  | uri
  | intRange
  | intOrIntRange
  | integer
  | boolean
  | charset
  | mimeMediaType
  | naturalLanguage
  | uriScheme
  | resolution
  | collection
  | untypedCollection
  | dateTime
  | name
  | text
  | octetString
  deriving DecidableEq, Repr

namespace TypeKind

def label : TypeKind → String
  | keywordOrName => "keyword-or-name"
  | keyword => "keyword"
  | enumeration => "enumeration"
  | keyValue => "key-value"
  | uri => "uri"
  | intRange => "int-range"
  | intOrIntRange => "int-or-int-range"
  | integer => "integer"
  | boolean => "boolean"
  | charset => "charset"
  | mimeMediaType => "mime-media-type"
  | naturalLanguage => "natural-language"
  | uriScheme => "uri-scheme"
  | resolution => "resolution"
  | collection => "collection"
  | untypedCollection => "untyped-collection"
  | dateTime => "date-time"
  | name => "name"
  | text => "text"
  | octetString => "octet-string"

/-- The kinds that a choice is between. -/
def parts : TypeKind → List TypeKind
  | keywordOrName => [keyword, name]
  | intOrIntRange => [integer, intRange]
  | _ => []

end TypeKind

end PrintRegistry
