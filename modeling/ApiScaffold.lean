import ApiScaffold.Artifact
import ApiScaffold.Artifact.Report
import ApiScaffold.Client.Code
import ApiScaffold.Client.Literal
import ApiScaffold.Client.Route
import ApiScaffold.Client.Template
import ApiScaffold.Command.Request
import ApiScaffold.Command.Run
import ApiScaffold.Command.Switch
import ApiScaffold.Command.Usage
import ApiScaffold.Config.Source
import ApiScaffold.Disk
import ApiScaffold.Document.Format
import ApiScaffold.Document.Operation
import ApiScaffold.Document.Schema
import ApiScaffold.Document.Source
import ApiScaffold.Document.Type
import ApiScaffold.Json.Printer
import ApiScaffold.Json.Reader
import ApiScaffold.Main
import ApiScaffold.Name.Pascal
import ApiScaffold.Name.Unique
import ApiScaffold.Number.Notation
import ApiScaffold.Number.Numeral
import ApiScaffold.Number.Shortest
import ApiScaffold.Proofs.Artifact.Layout
import ApiScaffold.Proofs.Artifact.Order
import ApiScaffold.Proofs.Artifact.Tries
import ApiScaffold.Proofs.Client.Accesses
import ApiScaffold.Proofs.Client.Addresses
import ApiScaffold.Proofs.Client.Bindings
import ApiScaffold.Proofs.Client.CodeReading
import ApiScaffold.Proofs.Client.CommentLines
import ApiScaffold.Proofs.Client.Comments
import ApiScaffold.Proofs.Client.Declarations
import ApiScaffold.Proofs.Client.ExportedNames
import ApiScaffold.Proofs.Client.Exports
import ApiScaffold.Proofs.Client.Expressions
import ApiScaffold.Proofs.Client.Fields
import ApiScaffold.Proofs.Client.HookReading
import ApiScaffold.Proofs.Client.HookScope
import ApiScaffold.Proofs.Client.Identifiers
import ApiScaffold.Proofs.Client.Imports
import ApiScaffold.Proofs.Client.Interfaces
import ApiScaffold.Proofs.Client.Literals
import ApiScaffold.Proofs.Client.Mentions
import ApiScaffold.Proofs.Client.PropertyKeys
import ApiScaffold.Proofs.Client.QueryKeys
import ApiScaffold.Proofs.Client.Reading
import ApiScaffold.Proofs.Client.Results
import ApiScaffold.Proofs.Client.TemplateParts
import ApiScaffold.Proofs.Command.Conclusion
import ApiScaffold.Proofs.Command.Foreseen
import ApiScaffold.Proofs.Command.Generation
import ApiScaffold.Proofs.Command.Stages
import ApiScaffold.Proofs.DataType.Depth
import ApiScaffold.Proofs.DataType.Mentions
import ApiScaffold.Proofs.DataType.Nesting
import ApiScaffold.Proofs.Disk.Naming
import ApiScaffold.Proofs.Document.Acceptance
import ApiScaffold.Proofs.Document.BodyTypes
import ApiScaffold.Proofs.Document.Chains
import ApiScaffold.Proofs.Document.ClientNames
import ApiScaffold.Proofs.Document.Correspondence.Tables
import ApiScaffold.Proofs.Document.Escaped
import ApiScaffold.Proofs.Document.Expansion
import ApiScaffold.Proofs.Document.Flattening
import ApiScaffold.Proofs.Document.MediaTypes
import ApiScaffold.Proofs.Document.Members
import ApiScaffold.Proofs.Document.Merging
import ApiScaffold.Proofs.Document.NamesApart
import ApiScaffold.Proofs.Document.Order
import ApiScaffold.Proofs.Document.Pointer
import ApiScaffold.Proofs.Document.Reach
import ApiScaffold.Proofs.Document.Rearrangement
import ApiScaffold.Proofs.Document.Relocation
import ApiScaffold.Proofs.Document.ResponseChoice
import ApiScaffold.Proofs.Document.Results
import ApiScaffold.Proofs.Document.Specification
import ApiScaffold.Proofs.Document.Successes
import ApiScaffold.Proofs.Document.TableChoice
import ApiScaffold.Proofs.Name.Calls
import ApiScaffold.Proofs.Name.Cleaned
import ApiScaffold.Proofs.Name.Letters
import ApiScaffold.Proofs.Name.Words
import ApiScaffold.Proofs.Spec.Distinct
import ApiScaffold.Proofs.Spec.InlineBodies
import ApiScaffold.Proofs.Spec.Restored
import ApiScaffold.Proofs.Sql.Acceptance
import ApiScaffold.Proofs.Sql.Arguments
import ApiScaffold.Proofs.Sql.Building
import ApiScaffold.Proofs.Sql.Comments
import ApiScaffold.Proofs.Sql.Construction
import ApiScaffold.Proofs.Sql.DollarQuotes
import ApiScaffold.Proofs.Sql.FilterColumns
import ApiScaffold.Proofs.Sql.FunctionLines
import ApiScaffold.Proofs.Sql.FunctionReading
import ApiScaffold.Proofs.Sql.Letters
import ApiScaffold.Proofs.Sql.Lexicon
import ApiScaffold.Proofs.Sql.Objects
import ApiScaffold.Proofs.Sql.Returning
import ApiScaffold.Proofs.Sql.Soundness
import ApiScaffold.Proofs.Sql.TableReading
import ApiScaffold.Proofs.Sql.TableStatement
import ApiScaffold.Proofs.Text.Infix
import ApiScaffold.Proofs.Text.Lexemes
import ApiScaffold.Spec.Basic
import ApiScaffold.Spec.Collision
import ApiScaffold.Spec.Dump
import ApiScaffold.Spec.Validation
import ApiScaffold.Sql.Schema
import ApiScaffold.Sql.Validation
import ApiScaffold.Text.Blank
import ApiScaffold.Text.Case
import ApiScaffold.Text.Digit
import ApiScaffold.Text.Lines
import ApiScaffold.Text.Quoted
import ApiScaffold.Text.Replace
import ApiScaffold.Text.Similarity
import ApiScaffold.Text.Utf8
import ApiScaffold.Tree
import ApiScaffold.Yaml.Node.Reader
import ApiScaffold.Yaml.Scalar
import ApiScaffold.Yaml.Token.Block
import ApiScaffold.Yaml.Token.Property
import ApiScaffold.Yaml.Token.Quoted
import ApiScaffold.Yaml.Token.Stream
import ApiScaffold.Yaml.Value
import ApiScaffold.Proofs.Document.JsonText
