import PrintRegistry.Table
import PrintRegistry.Text.Blank

/-!
The records of a registry snapshot: one for each value of an enumeration or a
keyword, each attribute or member of an attribute, and each status code. A
record cites the document that defines it.
-/

namespace PrintRegistry

/-- A document that defines registry entries, known by its short name. -/
structure Spec where
  id : String
  uri : String
  deriving DecidableEq, Repr

instance : Named Spec := ⟨Spec.id⟩

inductive CitationKind where
  | rfc
  | uri
  | other
  deriving DecidableEq, Repr

structure Citation where
  kind : CitationKind
  data : String
  text : Option String := none
  deriving DecidableEq, Repr

namespace Citation

def rfcBase : String := "http://www.iana.org/go/"

/-- The cited document, if the citation gives both a name and a place. An RFC
is named by the citation itself; a document elsewhere needs a text. -/
def spec? (c : Citation) : Option Spec :=
  let named (id uri : String) : Option Spec :=
    if id.isEmpty || uri.isEmpty then none else some ⟨Text.trimmed id, uri⟩
  match c.kind with
  | .rfc => named c.data (rfcBase ++ c.data)
  | .uri => c.text.bind fun text => named text c.data
  | .other => none

end Citation

structure EnumRecord where
  /-- The name of the attribute. -/
  about : String
  /-- The label of the value, or prose that defers to another enumeration. -/
  name : Option String := none
  value : Option String := none
  grammar : Option String := none
  citation : Option Citation := none
  deriving DecidableEq, Repr

structure KeywordRecord where
  about : String
  value : Option String := none
  grammar : Option String := none
  keywordType : Option String := none
  citation : Option Citation := none
  deriving DecidableEq, Repr

/-- An attribute, a member of a collection, or a member of such a member. -/
structure AttributeRecord where
  family : String
  name : String
  member : Option String := none
  submember : Option String := none
  grammar : Option String := none
  citation : Option Citation := none
  deriving DecidableEq, Repr

structure StatusRecord where
  name : String
  value : String
  citation : Option Citation := none
  deriving DecidableEq, Repr

structure Records where
  updated : Option String := none
  enums : List EnumRecord := []
  keywords : List KeywordRecord := []
  attributes : List AttributeRecord := []
  statusCodes : List StatusRecord := []
  deriving DecidableEq, Repr

namespace Records

/-- The records of two snapshots, with the first date there is. -/
def merge (a b : Records) : Records where
  updated := a.updated.or b.updated
  enums := a.enums ++ b.enums
  keywords := a.keywords ++ b.keywords
  attributes := a.attributes ++ b.attributes
  statusCodes := a.statusCodes ++ b.statusCodes

def size (r : Records) : Nat :=
  r.enums.length + r.keywords.length + r.attributes.length + r.statusCodes.length

end Records

end PrintRegistry
