import SchemaLang.Command.Folder
import SchemaLang.Main
import SchemaLang.Source.Events
import SchemaLang.Proofs.Text.Position
import SchemaLang.Proofs.Text.Quoted
import SchemaLang.Proofs.Number.Exact
import SchemaLang.Proofs.Number.Shortest
import SchemaLang.Proofs.Number.Digits
import SchemaLang.Proofs.Token.Choice
import SchemaLang.Proofs.Token.Boundary
import SchemaLang.Proofs.Token.Blanks
import SchemaLang.Proofs.Token.Segments
import SchemaLang.Proofs.Token.Scopes
import SchemaLang.Proofs.Tree.Phrase
import SchemaLang.Proofs.Tree.Written
import SchemaLang.Proofs.Tree.Reading
import SchemaLang.Proofs.Tree.Rules
import SchemaLang.Proofs.Tree.Refusals
import SchemaLang.Proofs.Tree.Acceptance
import SchemaLang.Proofs.Tree.Moved
import SchemaLang.Proofs.Json.Numeral
import SchemaLang.Proofs.Json.Layout
import SchemaLang.Proofs.Json.Reread
import SchemaLang.Proofs.Json.Record
import SchemaLang.Proofs.Definition.RoundTrip
import SchemaLang.Proofs.Resolve.Reference
import SchemaLang.Proofs.Resolve.Order
import SchemaLang.Proofs.Source.Accepted
import SchemaLang.Proofs.Source.FieldPlace
import SchemaLang.Proofs.Source.Placement
import SchemaLang.Proofs.Source.Contents
import SchemaLang.Proofs.Source.Blanks
import SchemaLang.Proofs.Source.Concatenation
import SchemaLang.Proofs.Source.ReservedWords
import SchemaLang.Proofs.Source.Interchange
import SchemaLang.Proofs.Source.Coverage
import SchemaLang.Proofs.Json.Readable
import SchemaLang.Proofs.Definition.Decoded
import SchemaLang.Proofs.Tree.EarlyStop
import SchemaLang.Proofs.Code.File
import SchemaLang.Proofs.Source.Names
import SchemaLang.Proofs.Code.References
import SchemaLang.Proofs.Code.TypeNames
import SchemaLang.Proofs.Resolve.Extension
import SchemaLang.Proofs.Resolve.Cycle
import SchemaLang.Proofs.Resolve.Nesting
import SchemaLang.Proofs.Resolve.Stability
import SchemaLang.Proofs.Source.Places
import SchemaLang.Proofs.Command.Folder
import SchemaLang.Proofs.Command.Run
import SchemaLang.Proofs.Number.Whole
import SchemaLang.Proofs.Token.Insertion
import SchemaLang.Proofs.Source.Insertion
import SchemaLang.Proofs.Source.ArraySizes
import SchemaLang.Proofs.Resolve.Outline
import SchemaLang.Proofs.Code.Representable
import SchemaLang.Proofs.Code.FieldContext
import SchemaLang.Proofs.Source.IntegerDefaults
import SchemaLang.Proofs.Code.Admission
import SchemaLang.Proofs.Code.Values
import SchemaLang.Proofs.Code.Defaults
import SchemaLang.Proofs.Source.Fields
import SchemaLang.Proofs.Source.DeclaredSizes
import SchemaLang.Proofs.Text.OneLine
import SchemaLang.Proofs.Code.TraitLines
import SchemaLang.Proofs.Source.TraitLines
import SchemaLang.Proofs.Token.Longest
import SchemaLang.Proofs.Source.Segmentation
import SchemaLang.Proofs.Source.Offsets
import SchemaLang.Proofs.Code.Identifiers
import SchemaLang.Proofs.Source.UnsupportedOptions
import SchemaLang.Proofs.Number.Value
import SchemaLang.Proofs.Resolve.Width
import SchemaLang.Proofs.Number.Nearest
import SchemaLang.Proofs.Number.Written
import SchemaLang.Proofs.Source.Numbers
import SchemaLang.Proofs.Json.Grammar
import SchemaLang.Proofs.Json.Rearranged
import SchemaLang.Proofs.Definition.Rearranged
import SchemaLang.Proofs.Resolve.FirstUse
import SchemaLang.Proofs.Token.Relabeling
