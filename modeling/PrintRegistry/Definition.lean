import PrintRegistry.Naming
import PrintRegistry.Registry

/-!
Definitions: the enumerations and keywords that a resolved model emits. An
entry is emitted if it stands on its own, that is, if it can be read and does
not share another entry's values, and if there is something to emit.
-/

namespace PrintRegistry

structure EnumDefinition where
  name : String
  /-- The name of the attribute. -/
  fullName : String
  values : List EnumCode
  hexadecimal : Bool
  specs : List String
  /-- The enumerations that share these values. -/
  sharedBy : List String

structure KeywordDefinition where
  name : String
  fullName : String
  values : List String
  /-- Whether the attribute takes a name instead. -/
  orName : Bool
  keywordType : Option String
  note : Option String
  specs : List String
  sharedBy : List String

def Table.sharersOf (t : Table Entity) (name : String) : List String :=
  (t.toList.filter fun e => e.target? == some name).map Entity.name

/-- What is wrong with the reference of an entry, and whether the entry stands
on its own. -/
def Table.standing (t : Table Entity) (e : Entity) : Option Finding × Bool :=
  if e.unreadable then (none, false)
  else
    match e.target? with
    | some target => (if t.has target then none else some (.danglingReference e target), false)
    | none => (none, true)

namespace EnumDefinition

/-- The definition of an entry of the enumeration table, if it is emitted, and
the finding made about it. -/
def ofEntity (t : Table Entity) (e : Entity) : Option EnumDefinition × Option Finding :=
  match t.standing e with
  | (finding, false) => (none, finding)
  | (_, true) =>
    if e.values.asCodes.isEmpty then (none, some (.enumWithoutValues e.name))
    else
      (some {
        name := Naming.enumName e.name
        fullName := e.name
        values := e.values.asCodes
        hexadecimal := e.hexadecimal
        specs := e.specs
        sharedBy := t.sharersOf e.name }, none)

end EnumDefinition

namespace KeywordDefinition

def familyNote (e : Entity) (family : String) : String :=
  let also := if e.values.asWords.isEmpty then "" else " also"
  s!"Legal values{also} include all attribute names found in [{Naming.groupName family}]."

/-- The family whose attribute names an entry takes, if it stands on its own
and the family exists. -/
def family? (r : Registry) (e : Entity) : Option String :=
  match e.reference with
  | some (.byGroup family) =>
    if (r.keywords.standing e).2 && r.families.has family then some family else none
  | _ => none

def note? (r : Registry) (e : Entity) : Option String :=
  (family? r e).map (familyNote e)

def finding? (r : Registry) (e : Entity) : Option Finding :=
  match e.reference with
  | some (.byMembers _) => if e.values.asWords.isEmpty then none else some (.membersAndValues e)
  | some (.byGroup family) => if r.families.has family then none else some (.missingFamily e family)
  | _ => none

/-- Whether an entry that stands on its own is emitted: it is no list of member
names, takes attribute names of existing families only, and lists values or
need not. -/
def isEmitted (r : Registry) (e : Entity) : Bool :=
  (match e.reference with
    | some (.byMembers _) => false
    | some (.byGroup family) => r.families.has family
    | _ => true) &&
  (!e.values.asWords.isEmpty || e.mayBeEmpty)

/-- The definition of an entry of the keyword table, if it is emitted, and the
finding made about it. -/
def ofEntity (r : Registry) (e : Entity) : Option KeywordDefinition × Option Finding :=
  match r.keywords.standing e with
  | (finding, false) => (none, finding)
  | (_, true) =>
    let definition : KeywordDefinition := {
      name := Naming.keywordName e.name
      fullName := e.name
      values := e.values.asWords
      orName := Text.contains e.grammar.text "name"
      keywordType := e.keywordType
      note := note? r e
      specs := e.specs
      sharedBy := r.keywords.sharersOf e.name }
    (if isEmitted r e then some definition else none, finding? r e)

end KeywordDefinition

namespace Registry

def enumDefinitions (r : Registry) : Registry × List EnumDefinition :=
  let checked := r.enums.toList.map (EnumDefinition.ofEntity r.enums)
  ({ r with findings := r.findings ++ checked.filterMap Prod.snd }, checked.filterMap Prod.fst)

def noted (r : Registry) (e : Entity) : Entity :=
  match KeywordDefinition.note? r e with
  | some note => { e with note }
  | none => e

theorem name_noted (r : Registry) (e : Entity) : (r.noted e).name = e.name := by
  unfold noted
  split <;> rfl

/-- The keywords that are emitted. Findings are added to the registry, and
notes to the entries they are about. -/
def keywordDefinitions (r : Registry) : Registry × List KeywordDefinition :=
  let checked := r.keywords.toList.map (KeywordDefinition.ofEntity r)
  ({ r with
      keywords := r.keywords.map r.noted r.name_noted
      findings := r.findings ++ checked.filterMap Prod.snd },
    checked.filterMap Prod.fst)

end Registry

end PrintRegistry
