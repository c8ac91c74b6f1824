import WrapLint.Command.Check
import WrapLint.Command.Init
import WrapLint.Command.Outcome
import WrapLint.Command.Styles
import WrapLint.Command.Validate
import WrapLint.CommandLine.Basic
import WrapLint.CommandLine.Parser
import WrapLint.Decimal
import WrapLint.Files.Disk
import WrapLint.Files.Path
import WrapLint.Files.Scan
import WrapLint.Hexadecimal
import WrapLint.Json.Basic
import WrapLint.Json.Printer
import WrapLint.Json.Reader
import WrapLint.Json.Token
import WrapLint.Line
import WrapLint.LineMap
import WrapLint.Lint.AttributesWrapper
import WrapLint.Lint.Basic
import WrapLint.Log
import WrapLint.Main
import WrapLint.Problem
import WrapLint.Program
import WrapLint.Proofs.Command.Check
import WrapLint.Proofs.Command.Init
import WrapLint.Proofs.Command.Paths
import WrapLint.Proofs.Command.StyleOverride
import WrapLint.Proofs.Command.Validate
import WrapLint.Proofs.Command.Verdict
import WrapLint.Proofs.CommandLine.Given
import WrapLint.Proofs.CommandLine.GlobalOptions
import WrapLint.Proofs.CommandLine.Level
import WrapLint.Proofs.CommandLine.Meaning
import WrapLint.Proofs.CommandLine.Placement
import WrapLint.Proofs.Decimal
import WrapLint.Proofs.Entries
import WrapLint.Proofs.Files.ByteOrder
import WrapLint.Proofs.Files.Scan
import WrapLint.Proofs.Files.WorkingDirectory
import WrapLint.Proofs.Files.Writing
import WrapLint.Proofs.Json.Literals
import WrapLint.Proofs.Json.RoundTrip
import WrapLint.Proofs.Json.Soundness
import WrapLint.Proofs.Line.Extension
import WrapLint.Proofs.Line.Matching
import WrapLint.Proofs.Line.Pattern
import WrapLint.Proofs.Line.Selector
import WrapLint.Proofs.Line.Styles
import WrapLint.Proofs.LineMap
import WrapLint.Proofs.Lint.Anchors
import WrapLint.Proofs.Lint.ExtraNodes
import WrapLint.Proofs.Lint.Joining
import WrapLint.Proofs.Lint.Merging
import WrapLint.Proofs.Lint.Reference
import WrapLint.Proofs.Lint.ScanStates
import WrapLint.Proofs.Lint.SpanningWrapper
import WrapLint.Proofs.Lint.StylePartition
import WrapLint.Proofs.Lint.TreePass
import WrapLint.Proofs.Lint.TreeShape
import WrapLint.Proofs.Registry
import WrapLint.Proofs.Registry.Decision
import WrapLint.Proofs.Report.Colours
import WrapLint.Proofs.Report.Listing
import WrapLint.Proofs.Report.TextForm
import WrapLint.Proofs.Settings.Assignments
import WrapLint.Proofs.Settings.Initial
import WrapLint.Proofs.Settings.Loader
import WrapLint.Proofs.Settings.OptionValues
import WrapLint.Proofs.Settings.Override
import WrapLint.Proofs.Settings.Shape
import WrapLint.Proofs.Template.Faults
import WrapLint.Proofs.Template.Interchange
import WrapLint.Proofs.Template.Joining
import WrapLint.Proofs.Template.LineEndings
import WrapLint.Proofs.Template.Lines
import WrapLint.Proofs.Template.Members
import WrapLint.Proofs.Template.Preorder
import WrapLint.Proofs.Template.Rearranging
import WrapLint.Proofs.Template.Replacing
import WrapLint.Proofs.Template.Roles
import WrapLint.Proofs.Template.Walk
import WrapLint.Proofs.Toml.Statements
import WrapLint.Proofs.Traversal
import WrapLint.Registry
import WrapLint.Report.Basic
import WrapLint.Report.Data
import WrapLint.Report.Text
import WrapLint.Settings.Basic
import WrapLint.Settings.Decode
import WrapLint.Settings.Loader
import WrapLint.SourceLines
import WrapLint.Style
import WrapLint.Template.Document
import WrapLint.Template.Interchange
import WrapLint.Template.Node
import WrapLint.Template.Walk
import WrapLint.Toml.Quoted
import WrapLint.Toml.Reader
import WrapLint.Toml.Scalar
import WrapLint.Toml.Tree
import WrapLint.Toml.Value
