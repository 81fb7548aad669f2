import PrintRegistry.Collection
import PrintRegistry.Collection.Aliases
import PrintRegistry.Collection.Assembly
import PrintRegistry.Collection.Audit
import PrintRegistry.Collection.Backfill
import PrintRegistry.Collection.Canonical
import PrintRegistry.Collection.Registration
import PrintRegistry.CommandLine
import PrintRegistry.Config
import PrintRegistry.Corpus
import PrintRegistry.Definition
import PrintRegistry.Descriptor
import PrintRegistry.Diagnostic
import PrintRegistry.Entity
import PrintRegistry.Entity.Agreement
import PrintRegistry.Entity.Subject
import PrintRegistry.Failure
import PrintRegistry.Files
import PrintRegistry.Files.Tree
import PrintRegistry.Finding
import PrintRegistry.Grammar.Basic
import PrintRegistry.Grammar.Normal
import PrintRegistry.Grammar.Union
import PrintRegistry.Inference
import PrintRegistry.Json
import PrintRegistry.Json.Printer
import PrintRegistry.Json.Reader
import PrintRegistry.Kdl
import PrintRegistry.Kdl.Reader
import PrintRegistry.Kdl.Space
import PrintRegistry.Kdl.Text
import PrintRegistry.Layout
import PrintRegistry.Lookup
import PrintRegistry.Main
import PrintRegistry.Model
import PrintRegistry.Model.Encoding
import PrintRegistry.Naming
import PrintRegistry.Proofs.Agreement
import PrintRegistry.Proofs.Aliases
import PrintRegistry.Proofs.Alike
import PrintRegistry.Proofs.Alternation
import PrintRegistry.Proofs.Assembly
import PrintRegistry.Proofs.Attributes
import PrintRegistry.Proofs.Audit
import PrintRegistry.Proofs.Backfill
import PrintRegistry.Proofs.Bindings
import PrintRegistry.Proofs.Canonical
import PrintRegistry.Proofs.Chains
import PrintRegistry.Proofs.CitationOrder
import PrintRegistry.Proofs.Citations
import PrintRegistry.Proofs.Codes
import PrintRegistry.Proofs.Collapse
import PrintRegistry.Proofs.Conservation
import PrintRegistry.Proofs.Coverage
import PrintRegistry.Proofs.Definition
import PrintRegistry.Proofs.Documents
import PrintRegistry.Proofs.Endings
import PrintRegistry.Proofs.Entity
import PrintRegistry.Proofs.Exhaustion
import PrintRegistry.Proofs.FamilyOrder
import PrintRegistry.Proofs.FirstDefinition
import PrintRegistry.Proofs.GrammarSource
import PrintRegistry.Proofs.Inference
import PrintRegistry.Proofs.Ingestion
import PrintRegistry.Proofs.Interleaving
import PrintRegistry.Proofs.Loading
import PrintRegistry.Proofs.Locality
import PrintRegistry.Proofs.Lookup
import PrintRegistry.Proofs.Matching
import PrintRegistry.Proofs.MemberSource
import PrintRegistry.Proofs.Members
import PrintRegistry.Proofs.Merging
import PrintRegistry.Proofs.Model
import PrintRegistry.Proofs.Naming
import PrintRegistry.Proofs.Normal
import PrintRegistry.Proofs.Plain
import PrintRegistry.Proofs.Position
import PrintRegistry.Proofs.RecordText
import PrintRegistry.Proofs.RecordedNames
import PrintRegistry.Proofs.Redirects
import PrintRegistry.Proofs.References
import PrintRegistry.Proofs.Registration
import PrintRegistry.Proofs.Registry
import PrintRegistry.Proofs.Restating
import PrintRegistry.Proofs.Rules
import PrintRegistry.Proofs.Scrubbing
import PrintRegistry.Proofs.Shape
import PrintRegistry.Proofs.Sharing
import PrintRegistry.Proofs.Spacing
import PrintRegistry.Proofs.StockPhrase
import PrintRegistry.Proofs.Table
import PrintRegistry.Proofs.Template
import PrintRegistry.Proofs.Text
import PrintRegistry.Proofs.Typing
import PrintRegistry.Proofs.Union
import PrintRegistry.Proofs.Values
import PrintRegistry.Proofs.Walk
import PrintRegistry.Proofs.Widening
import PrintRegistry.Proofs.Wording
import PrintRegistry.Proofs.Wrapping
import PrintRegistry.Record
import PrintRegistry.Record.Decoding
import PrintRegistry.Record.Encoding
import PrintRegistry.Record.Shape
import PrintRegistry.Reference
import PrintRegistry.Reference.Phrase
import PrintRegistry.Registry
import PrintRegistry.Registry.Ingestion
import PrintRegistry.Registry.Supplement
import PrintRegistry.Run
import PrintRegistry.Table
import PrintRegistry.Text.Ascending
import PrintRegistry.Text.Blank
import PrintRegistry.Text.Case
import PrintRegistry.Text.Code
import PrintRegistry.Text.Digit
import PrintRegistry.Text.Letter
import PrintRegistry.Text.Pascal
import PrintRegistry.Text.Position
import PrintRegistry.Text.Printable
import PrintRegistry.Text.Quoted
import PrintRegistry.Text.Ranges
import PrintRegistry.Text.Search
import PrintRegistry.Text.Template
import PrintRegistry.TypeKind
import PrintRegistry.Typing
import PrintRegistry.Usage
import PrintRegistry.Warning
