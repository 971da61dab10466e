import SchemaCompiler.CommandLine.Arguments
import SchemaCompiler.CommandLine.Files
import SchemaCompiler.CommandLine.Run
import SchemaCompiler.Compiler
import SchemaCompiler.Diagnostic.Basic
import SchemaCompiler.Diagnostic.Report
import SchemaCompiler.Expr.Basic
import SchemaCompiler.Expr.Collapse
import SchemaCompiler.Expr.Name
import SchemaCompiler.Expr.OfSchema
import SchemaCompiler.Expr.RegexLiteral
import SchemaCompiler.Expr.Render
import SchemaCompiler.Json.Document
import SchemaCompiler.Json.Entries
import SchemaCompiler.Json.Node
import SchemaCompiler.Json.Number
import SchemaCompiler.Json.Numeral
import SchemaCompiler.Json.Quoted
import SchemaCompiler.Json.Value
import SchemaCompiler.Main
import SchemaCompiler.Number.Double
import SchemaCompiler.Number.Power
import SchemaCompiler.Number.Shortest
import SchemaCompiler.Pattern.Basic
import SchemaCompiler.Pattern.Property
import SchemaCompiler.Pattern.Reader
import SchemaCompiler.Pattern.Understood
import SchemaCompiler.Proofs.CommandLine.Answers
import SchemaCompiler.Proofs.CommandLine.Effects
import SchemaCompiler.Proofs.CommandLine.Trees
import SchemaCompiler.Proofs.Expr.Acceptance
import SchemaCompiler.Proofs.Expr.Branches
import SchemaCompiler.Proofs.Expr.CleanNames
import SchemaCompiler.Proofs.Expr.CollapseSteps
import SchemaCompiler.Proofs.Expr.ExportNames
import SchemaCompiler.Proofs.Expr.FirstKeywords
import SchemaCompiler.Proofs.Expr.Interpretation
import SchemaCompiler.Proofs.Expr.ModuleSpecifiers
import SchemaCompiler.Proofs.Expr.NormalForms
import SchemaCompiler.Proofs.Expr.ObjectKeys
import SchemaCompiler.Proofs.Expr.RegexClosing
import SchemaCompiler.Proofs.Expr.RegexLexing
import SchemaCompiler.Proofs.Expr.RegexUnits
import SchemaCompiler.Proofs.Expr.Signatures
import SchemaCompiler.Proofs.Expr.SinglePass
import SchemaCompiler.Proofs.Expr.Sizes
import SchemaCompiler.Proofs.Expr.Surplus
import SchemaCompiler.Proofs.Expr.Translation
import SchemaCompiler.Proofs.Expr.Unambiguity
import SchemaCompiler.Proofs.Json.ByteReader
import SchemaCompiler.Proofs.Json.ByteReading
import SchemaCompiler.Proofs.Json.ByteScanning
import SchemaCompiler.Proofs.Json.Derivations
import SchemaCompiler.Proofs.Json.Documents
import SchemaCompiler.Proofs.Json.Entries
import SchemaCompiler.Proofs.Json.Failures
import SchemaCompiler.Proofs.Json.Grammar
import SchemaCompiler.Proofs.Json.Layouts
import SchemaCompiler.Proofs.Json.NumberTokens
import SchemaCompiler.Proofs.Json.Numerals
import SchemaCompiler.Proofs.Json.Readers
import SchemaCompiler.Proofs.Json.Relocation
import SchemaCompiler.Proofs.Json.Scaling
import SchemaCompiler.Proofs.Json.Slices
import SchemaCompiler.Proofs.Json.Spans
import SchemaCompiler.Proofs.Json.Strings
import SchemaCompiler.Proofs.Json.ViablePrefixes
import SchemaCompiler.Proofs.Json.Writing
import SchemaCompiler.Proofs.Number.Rounding
import SchemaCompiler.Proofs.Schema.Counts
import SchemaCompiler.Proofs.Schema.Faithfulness
import SchemaCompiler.Proofs.Schema.Invariants
import SchemaCompiler.Proofs.Schema.Members
import SchemaCompiler.Proofs.Schema.Nested
import SchemaCompiler.Proofs.Schema.Parts
import SchemaCompiler.Proofs.Schema.Places
import SchemaCompiler.Proofs.Schema.Readings
import SchemaCompiler.Proofs.Schema.Refusals
import SchemaCompiler.Proofs.Schema.ReportedColumns
import SchemaCompiler.Proofs.Schema.Retelling
import SchemaCompiler.Proofs.Schema.Severity
import SchemaCompiler.Proofs.Schema.Sinks
import SchemaCompiler.Proofs.Schema.SourceOrder
import SchemaCompiler.Proofs.Schema.UnknownMembers
import SchemaCompiler.Proofs.Schema.Validity
import SchemaCompiler.Proofs.Schema.WellFormedness
import SchemaCompiler.Proofs.Settings.Overrides
import SchemaCompiler.Proofs.Settings.Records
import SchemaCompiler.Proofs.Settings.Spots
import SchemaCompiler.Proofs.Settings.Wholeness
import SchemaCompiler.Proofs.Text.IdentifierTable
import SchemaCompiler.Proofs.Text.Identifiers
import SchemaCompiler.Proofs.Text.PositionOrder
import SchemaCompiler.Proofs.Text.Positions
import SchemaCompiler.Proofs.Text.Runs
import SchemaCompiler.Proofs.Text.TabulatedIdentifiers
import SchemaCompiler.Proofs.Text.Utf8
import SchemaCompiler.Schema.Basic
import SchemaCompiler.Schema.Engines
import SchemaCompiler.Schema.Finding
import SchemaCompiler.Schema.OfNode
import SchemaCompiler.Schema.Payload
import SchemaCompiler.Schema.Vocabulary
import SchemaCompiler.Settings.Basic
import SchemaCompiler.Settings.Error
import SchemaCompiler.Settings.Reader
import SchemaCompiler.StandardPlatform
import SchemaCompiler.Text.Alphabet
import SchemaCompiler.Text.Ascii
import SchemaCompiler.Text.CaseTable
import SchemaCompiler.Text.HiddenTable
import SchemaCompiler.Text.LetterTable
import SchemaCompiler.Text.Letters
import SchemaCompiler.Text.Shown
import SchemaCompiler.Text.Span
import SchemaCompiler.Uri.Address
import SchemaCompiler.Uri.Host
import SchemaCompiler.Uri.Punycode
import SchemaCompiler.Uri.Reference
