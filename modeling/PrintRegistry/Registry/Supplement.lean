import PrintRegistry.Registry.Ingestion

/-!
What the registry documents elsewhere than in its listings: keywords missing
from the keyword listing, and members that only a sibling collection lists.
-/

namespace PrintRegistry

/-- A keyword missing from the listing. -/
structure SupplementaryKeyword where
  name : String
  spec : String
  grammar : String
  words : List String := []
  mayBeEmpty : Bool := false
  /-- The collection whose member names are the legal values. -/
  membersOf : Option String := none

namespace SupplementaryKeyword

def all : List SupplementaryKeyword :=
  [{ name := "printer-kind", spec := "PWG5100.16", grammar := "keyword",
     words := ["disc", "document", "envelope", "label", "large-format", "photo", "postcard",
       "receipt", "roll"] },
   { name := "preset-name", spec := "IPPPRESET", grammar := "keyword | name",
     mayBeEmpty := true },
   { name := "destination-mandatory-access-attributes", spec := "PWG5100.17",
     grammar := "keyword", membersOf := some "destination-accesses" },
   { name := "printer-settable-attributes-supported", spec := "RFC3380", grammar := "keyword",
     words := ["none"] },
   { name := "job-settable-attributes-supported", spec := "RFC3380", grammar := "keyword",
     words := ["none"] }]

def entity (k : SupplementaryKeyword) : Entity where
  name := k.name
  grammar := Grammar.normalize k.grammar
  specs := [k.spec]
  values := k.words.foldl Values.addWord .unlisted
  reference := k.membersOf.map .byMembers
  mayBeEmpty := k.mayBeEmpty

end SupplementaryKeyword

/-- A member that a collection lacks and a sibling in its family lists. -/
structure SiblingMember where
  family : String
  collection : String
  member : String
  sibling : String

namespace SiblingMember

def all : List SiblingMember :=
  [⟨"Job Template", "finishings-col", "media-size", "media-col"⟩]

end SiblingMember

namespace Registry

def supplyKeywords (r : Registry) : Registry :=
  { r with keywords := (SupplementaryKeyword.all.map (·.entity)).foldl .put r.keywords }

def supplyMember (r : Registry) (s : SiblingMember) : Registry :=
  match (r.attribute? s.family s.sibling).bind fun e => Named.find? e.members s.member with
  | some member =>
    r.adjustAttribute s.family s.collection fun e =>
      { e with members := Named.put e.members member }
  | none => r

def supplyMembers (r : Registry) : Registry :=
  SiblingMember.all.foldl supplyMember r

/-- The registry of a snapshot. Later steps rely on the tables that earlier
ones have filled, so the order is fixed. -/
def ofRecords (records : Records) : Registry :=
  let r : Registry := {}
  let r := records.enums.foldl ingestEnum r
  let r := records.keywords.foldl ingestKeyword r
  let r := r.supplyKeywords
  let r := records.attributes.foldl ingestAttribute r
  let r := records.statusCodes.foldl ingestStatus r
  r.supplyMembers

end Registry

end PrintRegistry
