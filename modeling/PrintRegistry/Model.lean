import PrintRegistry.Collection.Assembly
import PrintRegistry.Definition
import PrintRegistry.Json.Printer
import PrintRegistry.Registry.Supplement
import PrintRegistry.Typing

/-!
The resolved model: everything that one run makes of the records of a
snapshot. A run never fails; what is irregular is reported as a warning.
-/

namespace PrintRegistry

structure Model where
  updated : Option String
  specs : List Spec
  enums : List EnumDefinition
  keywords : List KeywordDefinition
  collections : List CollectionDefinition
  /-- The types of attributes, in ascending order of names. -/
  types : List Descriptor
  /-- The places that use each enumeration, in ascending order of names. -/
  enumUsages : List EnumUsage
  keyValues : List Descriptor
  findings : List Finding

namespace Model

def resolve (records : Records) : Model :=
  let (r, enums) := (Registry.ofRecords records).enumDefinitions
  let (r, keywords) := r.keywordDefinitions
  let r := r.assemble
  let typing := Typing.ofRegistry r
  { updated := records.updated
    specs := r.specs.toList
    enums
    keywords
    collections := typing.collections
    types := typing.types
    enumUsages := typing.usages.enums
    keyValues := typing.usages.keyValues
    findings := r.findings ++ typing.findings }

def warnings (m : Model) : List Warning :=
  m.findings.map Finding.warning

def type? (m : Model) (name : String) : Option Descriptor :=
  Named.find? m.types name

def enum? (m : Model) (fullName : String) : Option EnumDefinition :=
  m.enums.find? (·.fullName == fullName)

def keyword? (m : Model) (fullName : String) : Option KeywordDefinition :=
  m.keywords.find? (·.fullName == fullName)

def collection? (m : Model) (name : String) : Option CollectionDefinition :=
  m.collections.find? (·.name == name)

end Model

end PrintRegistry
