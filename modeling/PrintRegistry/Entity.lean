import PrintRegistry.Grammar.Basic
import PrintRegistry.Reference
import PrintRegistry.Table

/-!
The entries of the registry. Enumerations, keywords and attributes have one
shape: an entity with a name, a grammar, the values it lists and the members
it has as a collection. Members are entities too, at most one of a name.
-/

namespace PrintRegistry

structure EnumCode where
  label : String
  code : Int
  deriving DecidableEq, Repr

instance : Named EnumCode := ⟨EnumCode.label⟩

inductive Values where
  | unlisted
  /-- Labels with codes, in order of first mention. -/
  | codes (entries : List EnumCode)
  | words (entries : List String)
  deriving DecidableEq, Repr

namespace Values

/-- The codes listed; none if words are listed. -/
def asCodes : Values → List EnumCode
  | codes entries => entries
  | _ => []

def asWords : Values → List String
  | words entries => entries
  | _ => []

/-- Lists a code for a label, in the place of an earlier code of that label.
Words listed before are given up. -/
def addCode (v : Values) (label : String) (code : Int) : Values :=
  codes (Named.put v.asCodes ⟨label, code⟩)

/-- Lists a word once. Codes listed before are given up. -/
def addWord (v : Values) (word : String) : Values :=
  words (Named.put v.asWords word)

def isEmpty : Values → Bool
  | unlisted => true
  | codes entries => entries.isEmpty
  | words entries => entries.isEmpty

def agree : Values → Values → Bool
  | unlisted, unlisted => true
  | codes xs, codes ys => Named.agree (·.code == ·.code) xs ys
  | words xs, words ys => Named.agree (fun _ _ => true) xs ys
  | _, _ => false

end Values

/-- An enumeration, a keyword, an attribute or a member of a collection. -/
structure Entity where
  name : String
  grammar : Grammar
  /-- The documents that define the entity, in order of citation. -/
  specs : List String := []
  values : Values := .unlisted
  reference : Option Reference := none
  members : List Entity := []
  /-- The prose about its values could not be read. -/
  unreadable : Bool := false
  hexadecimal : Bool := false
  isMember : Bool := false
  /-- It is emitted even if it lists no values. -/
  mayBeEmpty : Bool := false
  /-- The registration type of a keyword, such as `type2`. -/
  keywordType : Option String := none
  /-- Prose about legal values that are not listed. -/
  note : Option String := none
  /-- It has been registered as a complete collection. -/
  emitted : Bool := false
  deriving Repr

instance : Named Entity := ⟨Entity.name⟩

namespace Entity

def isCollection (e : Entity) : Bool :=
  !e.members.isEmpty

/-- The entry whose values the entity shares. -/
def target? (e : Entity) : Option String :=
  e.reference.bind Reference.target?

def alias? (e : Entity) : Option String :=
  e.reference.bind Reference.alias?

def citing (e : Entity) (spec : String) : Entity :=
  { e with specs := Named.put e.specs spec }

def citingAll (e : Entity) (specs : List String) : Entity :=
  { e with specs := Named.putAll e.specs specs }

/-- Changes a member, which is put in as `fresh` first if it is missing. The
change keeps the name. -/
def upsertMember (e : Entity) (fresh : Entity) (change : Entity → Entity) : Entity :=
  { e with
    members := Named.put e.members (change ((Named.find? e.members fresh.name).getD fresh)) }

end Entity

end PrintRegistry
