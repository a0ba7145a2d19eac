import ServiceKit.Check.Collector
import ServiceKit.Check.FieldTag
import ServiceKit.Check.Record
import ServiceKit.Check.Rule
import ServiceKit.Check.SnakeCase
import ServiceKit.Check.Value
import ServiceKit.Cli.Flags
import ServiceKit.Cli.Run
import ServiceKit.Config.Assignments
import ServiceKit.Config.Decode
import ServiceKit.Config.Files
import ServiceKit.Config.KeyVariants
import ServiceKit.Config.Loader
import ServiceKit.Config.Reference
import ServiceKit.Config.Service
import ServiceKit.Config.SettingsFile
import ServiceKit.Config.Tree
import ServiceKit.Config.VariableFile
import ServiceKit.Environment
import ServiceKit.Fallback
import ServiceKit.Fault.Basic
import ServiceKit.Fault.Session
import ServiceKit.Fault.Store
import ServiceKit.Json.Literal
import ServiceKit.Json.Parse
import ServiceKit.Json.Reader
import ServiceKit.Json.Shape
import ServiceKit.Json.Value
import ServiceKit.Json.Writer
import ServiceKit.Log.Config
import ServiceKit.Log.Console
import ServiceKit.Log.Labelled
import ServiceKit.Log.Level
import ServiceKit.Log.Logger
import ServiceKit.Log.Record
import ServiceKit.Log.Shared
import ServiceKit.Main
import ServiceKit.Number.Binary64
import ServiceKit.Number.Digits
import ServiceKit.Number.Layout
import ServiceKit.Number.Numeral
import ServiceKit.Number.Reading
import ServiceKit.Number.Shortest
import ServiceKit.Proofs.Check.Clauses
import ServiceKit.Proofs.Check.Collecting
import ServiceKit.Proofs.Check.Forms
import ServiceKit.Proofs.Check.Paths
import ServiceKit.Proofs.Check.Records
import ServiceKit.Proofs.Cli.Arguments
import ServiceKit.Proofs.Cli.Failing
import ServiceKit.Proofs.Cli.Input
import ServiceKit.Proofs.Cli.Isolation
import ServiceKit.Proofs.Cli.Labels
import ServiceKit.Proofs.Cli.Parsing
import ServiceKit.Proofs.Config.Appending
import ServiceKit.Proofs.Config.Binding
import ServiceKit.Proofs.Config.Completion
import ServiceKit.Proofs.Config.Fields
import ServiceKit.Proofs.Config.KeyVariants
import ServiceKit.Proofs.Config.Keys
import ServiceKit.Proofs.Config.Labelling
import ServiceKit.Proofs.Config.Listing
import ServiceKit.Proofs.Config.Loading
import ServiceKit.Proofs.Config.MergeOrder
import ServiceKit.Proofs.Config.Merging
import ServiceKit.Proofs.Config.Precedence
import ServiceKit.Proofs.Config.References
import ServiceKit.Proofs.Config.Relevance
import ServiceKit.Proofs.Config.Repetition
import ServiceKit.Proofs.Config.SettingsFile
import ServiceKit.Proofs.Config.Spellings
import ServiceKit.Proofs.Config.Tree
import ServiceKit.Proofs.Config.Unrelated
import ServiceKit.Proofs.Fault.Documents
import ServiceKit.Proofs.Fault.Sharing
import ServiceKit.Proofs.Fault.Trees
import ServiceKit.Proofs.Json.Acceptance
import ServiceKit.Proofs.Json.Canonical
import ServiceKit.Proofs.Json.Grammar
import ServiceKit.Proofs.Json.Integers
import ServiceKit.Proofs.Json.Outcomes
import ServiceKit.Proofs.Json.Reading
import ServiceKit.Proofs.Json.RoundTrip
import ServiceKit.Proofs.Json.Strings
import ServiceKit.Proofs.Json.Tokens
import ServiceKit.Proofs.Json.Values
import ServiceKit.Proofs.Json.Writing
import ServiceKit.Proofs.Keyed
import ServiceKit.Proofs.Log.Colours
import ServiceKit.Proofs.Log.Events
import ServiceKit.Proofs.Log.Intact
import ServiceKit.Proofs.Log.Levels
import ServiceKit.Proofs.Log.Lines
import ServiceKit.Proofs.Log.Shown
import ServiceKit.Proofs.Number.Reading
import ServiceKit.Proofs.Number.Written
import ServiceKit.Proofs.Text.Case
import ServiceKit.Proofs.Text.Formatting
import ServiceKit.Proofs.Text.Pieces
import ServiceKit.Proofs.Text.SnakeCase
import ServiceKit.Proofs.Text.Utf8
import ServiceKit.Proofs.Version
import ServiceKit.Setting.Basic
import ServiceKit.Setting.Defect
import ServiceKit.Storage
import ServiceKit.Text.Base64
import ServiceKit.Text.Basic
import ServiceKit.Text.Case
import ServiceKit.Text.CaseTable
import ServiceKit.Text.Encoded
import ServiceKit.Text.Format
import ServiceKit.Text.Glyph
import ServiceKit.Text.Keyed
import ServiceKit.Text.Printable
import ServiceKit.Text.Quoted
import ServiceKit.Text.Route
import ServiceKit.Text.Space
import ServiceKit.Timestamp
import ServiceKit.Version
import ServiceKit.Yaml.Comment
import ServiceKit.Yaml.Cursor
import ServiceKit.Yaml.Decode
import ServiceKit.Yaml.Lexer
import ServiceKit.Yaml.Node
import ServiceKit.Yaml.Plain
import ServiceKit.Yaml.Property
import ServiceKit.Yaml.Scalar
import ServiceKit.Yaml.Source
import ServiceKit.Yaml.Token
