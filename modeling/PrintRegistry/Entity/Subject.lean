import PrintRegistry.Entity
import PrintRegistry.Layout

/-!
How entities are shown as the subject of a warning.
-/

namespace PrintRegistry

def Grammar.layout (g : Grammar) : Layout :=
  .record "Syntax" [("raw", .text g.raw), ("text", .text g.text), ("is_set", .flag g.isSet),
    ("alternatives", .list (g.alternatives.map .text))]

def Reference.layout : Reference → Layout
  | byName name => .record "ByName" [("name", .text name)]
  | byGroup family => .record "ByGroup" [("family", .text family)]
  | byMembers collection => .record "ByMembers" [("collection", .text collection)]
  | byAlias collection family =>
    .record "ByCollectionAlias" [("collection", .text collection),
      ("family", .optional .text family)]

def Values.layout : Values → Layout
  | unlisted => .atom "None"
  | codes entries =>
    .wrapped "Enumerated"
      (.braced (entries.map fun e => .labelled (Text.quoted e.label) (.atom (toString e.code))))
  | words entries => .wrapped "Keywords" (.braced (entries.map .text))

namespace Entity

mutual

def layout : Entity → Layout
  | e@{ members, .. } =>
    .record "NamedEntity" [("name", .text e.name), ("syntax", e.grammar.layout),
      ("specs", .braced (e.specs.map .text)), ("values", e.values.layout),
      ("reference", .optional Reference.layout e.reference),
      ("members", .braced (memberLayouts members)), ("bad", .flag e.unreadable),
      ("hex", .flag e.hexadecimal), ("inner", .flag e.isMember),
      ("empty_ok", .flag e.mayBeEmpty), ("keyword_type", .optional .text e.keywordType),
      ("doc_note", .optional .text e.note), ("emitted", .flag e.emitted)]

def memberLayouts : List Entity → List Layout
  | [] => []
  | m :: ms => .labelled (Text.quoted m.name) (layout m) :: memberLayouts ms

end

/-- The entity as the subject of a warning. -/
def subject (e : Entity) : String :=
  e.layout.render

/-- Two entities that disagree as the subject of a warning. -/
def pairSubject (a b : Entity) : String :=
  (Layout.list [a.layout, b.layout]).render

end Entity

end PrintRegistry
