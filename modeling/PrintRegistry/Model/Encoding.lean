import PrintRegistry.Model

/-!
The resolved model as data, and as the text that is written to a file.
-/

namespace PrintRegistry

def Warning.toJson (w : Warning) : Json :=
  .object [("kind", .string w.kind.label), ("message", .string w.message),
    ("subject", (w.subject.map Json.string).getD .null)]

def EnumCode.field (c : EnumCode) : String × Json :=
  (c.label, .number (toString c.code))

def EnumDefinition.toJson (d : EnumDefinition) : Json :=
  .object [("name", .string d.name), ("full_name", .string d.fullName),
    ("values", .object (d.values.map EnumCode.field)), ("hex", .bool d.hexadecimal),
    ("specs", Json.strings d.specs), ("refs", Json.strings d.sharedBy)]

def KeywordDefinition.toJson (d : KeywordDefinition) : Json :=
  .object ([("name", .string d.name), ("full_name", .string d.fullName),
      ("values", Json.strings d.values), ("or_name", .bool d.orName)] ++
    Json.optionalField "keyword_type" .string d.keywordType ++
    Json.optionalField "doc_note" .string d.note ++
    [("specs", Json.strings d.specs), ("refs", Json.strings d.sharedBy)])

namespace Descriptor

mutual

def toJson : Descriptor → Json
  | d@{ members, .. } =>
    .object ([("name", .string d.name), ("kind", .string d.kind.label),
        ("is_set", .bool d.isSet)] ++
      Json.optionalField "underlying" .string d.underlying ++
      Json.listField "secondary" (fun k => .string k.label) d.kind.parts ++
      Json.optionalField "doc_note" .string d.note ++
      [("syntax", .string d.grammar), ("specs", Json.strings d.specs)] ++
      (match membersJson members with
        | [] => []
        | items => [("members", .array items)]))

def membersJson : List Descriptor → List Json
  | [] => []
  | m :: ms => toJson m :: membersJson ms

end

/-- The descriptor as a field of its name. -/
def field (d : Descriptor) : String × Json :=
  (d.name, d.toJson)

end Descriptor

def CollectionDefinition.toJson (d : CollectionDefinition) : Json :=
  .object [("name", .string d.name), ("specs", Json.strings d.specs),
    ("members", .array (d.members.map Descriptor.toJson))]

/-- The places that use an enumeration as a field of its name. -/
def EnumUsage.field (u : EnumUsage) : String × Json :=
  (u.enum, Json.strings u.places)

namespace Model

def toJson (m : Model) : Json :=
  .object (Json.optionalField "updated" .string m.updated ++
    [("specs", .object (m.specs.map fun s => (s.id, .string s.uri))),
     ("enums", .array (m.enums.map EnumDefinition.toJson)),
     ("keywords", .array (m.keywords.map KeywordDefinition.toJson)),
     ("collections", .array (m.collections.map CollectionDefinition.toJson)),
     ("types", .array (m.types.map Descriptor.toJson)),
     ("enum_usages", .object (m.enumUsages.map EnumUsage.field)),
     ("key_values", .object (m.keyValues.map Descriptor.field)),
     ("warnings", .array (m.warnings.map Warning.toJson))])

def text (m : Model) : String :=
  m.toJson.pretty

end Model

end PrintRegistry
