import PrintRegistry.Json.Reader
import PrintRegistry.Record
import PrintRegistry.Record.Shape

/-!
Records from data, and snapshots from the text of a record file.
-/

namespace PrintRegistry

namespace CitationKind

def ofName : String → CitationKind
  | "rfc" => rfc
  | "uri" => uri
  | _ => other

/-- Reads a kind: its name, or an object with its name as the only field and
null as the value. Nothing else is looked at beyond its first character. -/
def ofJson : Json → Decoded CitationKind
  | .string name => .ok (ofName name)
  | .object fields => ofFields fields
  | .divided used _ => ofJson used
  | .cut _ .literal => .error (.text .malformed)
  | .cut fault _ => .error (.text fault)
  | _ => .error (.text .malformed)
where
  ofFields : List (String × Json) → Decoded CitationKind
    | [] => .error (.text .malformed)
    | [(name, .null)] => .ok (ofName name)
    | (_, .null) :: (_, .cut fault .mark) :: _ => .error (.text fault)
    | (_, .null) :: _ => .error (.text .malformed)
    | (_, value) :: _ => .error ((value.fault?.map .text).getD .mismatched)

end CitationKind

def Citation.shape : RecordShape where
  fields := [.of ["type"] CitationKind.ofJson, .of ["data"] Json.asText,
    .of ["text"] (Json.asOptional Json.asText)]

def Citation.ofJson (j : Json) : Decoded Citation := do
  let slots ← shape.slots j
  return {
    kind := ← slots.required 0 CitationKind.ofJson
    data := ← slots.required 1 Json.asText
    text := ← slots.optional 2 Json.asText }

def FieldShape.optionalText (names : List String) : FieldShape :=
  .of names (Json.asOptional Json.asText)

def FieldShape.citation : FieldShape :=
  .of ["xref"] (Json.asOptional Citation.ofJson)

def EnumRecord.shape : RecordShape where
  fields := [.of ["attribute", "family"] Json.asText, .optionalText ["name"],
    .optionalText ["value"], .optionalText ["syntax"], .citation]

def EnumRecord.ofJson (j : Json) : Decoded EnumRecord := do
  let slots ← shape.slots j
  return {
    about := ← slots.required 0 Json.asText
    name := ← slots.optional 1 Json.asText
    value := ← slots.optional 2 Json.asText
    grammar := ← slots.optional 3 Json.asText
    citation := ← slots.optional 4 Citation.ofJson }

def KeywordRecord.shape : RecordShape where
  fields := [.of ["attribute", "family"] Json.asText, .optionalText ["value"],
    .optionalText ["syntax"], .optionalText ["type"], .citation]

def KeywordRecord.ofJson (j : Json) : Decoded KeywordRecord := do
  let slots ← shape.slots j
  return {
    about := ← slots.required 0 Json.asText
    value := ← slots.optional 1 Json.asText
    grammar := ← slots.optional 2 Json.asText
    keywordType := ← slots.optional 3 Json.asText
    citation := ← slots.optional 4 Citation.ofJson }

def AttributeRecord.shape : RecordShape where
  fields := [.of ["collection", "family"] Json.asText, .of ["name"] Json.asText,
    .optionalText ["member_attribute", "member"],
    .optionalText ["sub_member_attribute", "submember", "sub-member_attribute"],
    .optionalText ["syntax"], .citation]

def AttributeRecord.ofJson (j : Json) : Decoded AttributeRecord := do
  let slots ← shape.slots j
  return {
    family := ← slots.required 0 Json.asText
    name := ← slots.required 1 Json.asText
    member := ← slots.optional 2 Json.asText
    submember := ← slots.optional 3 Json.asText
    grammar := ← slots.optional 4 Json.asText
    citation := ← slots.optional 5 Citation.ofJson }

def StatusRecord.shape : RecordShape where
  fields := [.of ["name"] Json.asText, .of ["value"] Json.asText, .citation]

def StatusRecord.ofJson (j : Json) : Decoded StatusRecord := do
  let slots ← shape.slots j
  return {
    name := ← slots.required 0 Json.asText
    value := ← slots.required 1 Json.asText
    citation := ← slots.optional 2 Citation.ofJson }

namespace Records

def shape : RecordShape where
  fields := [.optionalText ["updated"], .of ["enums"] (Json.asList EnumRecord.ofJson),
    .of ["keywords"] (Json.asList KeywordRecord.ofJson),
    .of ["attributes"] (Json.asList AttributeRecord.ofJson),
    .of ["status_codes"] (Json.asList StatusRecord.ofJson)]
  mayBeShort := true

def ofJson (j : Json) : Decoded Records := do
  let slots ← shape.slots j
  return {
    updated := ← slots.optional 0 Json.asText
    enums := ← slots.list 1 EnumRecord.ofJson
    keywords := ← slots.list 2 KeywordRecord.ofJson
    attributes := ← slots.list 3 AttributeRecord.ofJson
    statusCodes := ← slots.list 4 StatusRecord.ofJson }

/-- Reads the text of a record file. After the value only blanks may stand. -/
def ofText (text : String) : Decoded Records := do
  let (value, rest) := Json.ofText text
  let records ← ofJson value
  if (Json.skipBlanks (rest.getD [])).isEmpty then return records
  else .error (.text .malformed)

end Records

end PrintRegistry
