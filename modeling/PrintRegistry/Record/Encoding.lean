import PrintRegistry.Json
import PrintRegistry.Record

/-!
Records as data. Fields that are absent are left out.
-/

namespace PrintRegistry

def CitationKind.label : CitationKind → String
  | rfc => "rfc"
  | uri => "uri"
  | other => "other"

def Citation.toJson (c : Citation) : Json :=
  .object (("type", .string c.kind.label) :: ("data", .string c.data) ::
    Json.optionalField "text" .string c.text)

def EnumRecord.toJson (r : EnumRecord) : Json :=
  .object (("attribute", .string r.about) ::
    (Json.optionalField "name" .string r.name ++ Json.optionalField "value" .string r.value ++
      Json.optionalField "syntax" .string r.grammar ++
      Json.optionalField "xref" Citation.toJson r.citation))

def KeywordRecord.toJson (r : KeywordRecord) : Json :=
  .object (("attribute", .string r.about) ::
    (Json.optionalField "value" .string r.value ++
      Json.optionalField "syntax" .string r.grammar ++
      Json.optionalField "type" .string r.keywordType ++
      Json.optionalField "xref" Citation.toJson r.citation))

def AttributeRecord.toJson (r : AttributeRecord) : Json :=
  .object (("collection", .string r.family) :: ("name", .string r.name) ::
    (Json.optionalField "member_attribute" .string r.member ++
      Json.optionalField "sub_member_attribute" .string r.submember ++
      Json.optionalField "syntax" .string r.grammar ++
      Json.optionalField "xref" Citation.toJson r.citation))

def StatusRecord.toJson (r : StatusRecord) : Json :=
  .object (("name", .string r.name) :: ("value", .string r.value) ::
    Json.optionalField "xref" Citation.toJson r.citation)

def Records.toJson (r : Records) : Json :=
  .object (Json.optionalField "updated" .string r.updated ++
    [("enums", .array (r.enums.map EnumRecord.toJson)),
     ("keywords", .array (r.keywords.map KeywordRecord.toJson)),
     ("attributes", .array (r.attributes.map AttributeRecord.toJson)),
     ("status_codes", .array (r.statusCodes.map StatusRecord.toJson))])

end PrintRegistry
