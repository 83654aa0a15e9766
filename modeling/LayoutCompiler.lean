import LayoutCompiler.Arrangement
import LayoutCompiler.Color
import LayoutCompiler.CommandLine.Arguments
import LayoutCompiler.CommandLine.Program
import LayoutCompiler.CommandLine.Report
import LayoutCompiler.Config.Basic
import LayoutCompiler.Config.Printer
import LayoutCompiler.Config.Reader
import LayoutCompiler.Conversion
import LayoutCompiler.Document.Basic
import LayoutCompiler.Document.Build
import LayoutCompiler.Document.Codec
import LayoutCompiler.Document.Options
import LayoutCompiler.Document.Writer
import LayoutCompiler.Event
import LayoutCompiler.Files.Disk
import LayoutCompiler.Files.Error
import LayoutCompiler.Files.Path
import LayoutCompiler.Files.Workspace
import LayoutCompiler.Json.Failure
import LayoutCompiler.Json.Ignored
import LayoutCompiler.Json.Numeral
import LayoutCompiler.Json.Printer
import LayoutCompiler.Json.Reader
import LayoutCompiler.Json.Record
import LayoutCompiler.Json.Text
import LayoutCompiler.Main
import LayoutCompiler.Number.Binary
import LayoutCompiler.Number.Decimal
import LayoutCompiler.Number.Literal
import LayoutCompiler.Number.Single
import LayoutCompiler.Preview.Loop
import LayoutCompiler.Preview.Session
import LayoutCompiler.Screen.Basic
import LayoutCompiler.Screen.Defaults
import LayoutCompiler.Screen.Resolve
import LayoutCompiler.Text.Blank
import LayoutCompiler.Text.Hexadecimal
import LayoutCompiler.Text.Lines
import LayoutCompiler.Text.Quoted
import LayoutCompiler.Text.Terminal
import LayoutCompiler.Text.Utf8
import LayoutCompiler.Text.Visible
import LayoutCompiler.Widget.Basic
import LayoutCompiler.Widget.Render
import LayoutCompiler.Proofs.Document.RoundTrip
import LayoutCompiler.Proofs.Outcome
import LayoutCompiler.Proofs.Screen.Traversal
import LayoutCompiler.Proofs.Document.Recording
import LayoutCompiler.Proofs.Document.Operations
import LayoutCompiler.Proofs.Screen.Colors
import LayoutCompiler.Proofs.Screen.Pruning
import LayoutCompiler.Proofs.Document.Flattening
import LayoutCompiler.Proofs.Widget.Content
import LayoutCompiler.Proofs.Content
import LayoutCompiler.Proofs.Preview.History
import LayoutCompiler.Proofs.Preview.Interleaving
import LayoutCompiler.Proofs.Document.Calls
import LayoutCompiler.Proofs.Document.Nesting
import LayoutCompiler.Proofs.Document.Numbering
import LayoutCompiler.Proofs.Document.References
import LayoutCompiler.Proofs.Document.Extension
import LayoutCompiler.Proofs.Document.Spelling
import LayoutCompiler.Proofs.Document.Truncation
import LayoutCompiler.Proofs.Document.Unmatched
import LayoutCompiler.Proofs.Document.Injectivity
import LayoutCompiler.Proofs.Json.Tokens
import LayoutCompiler.Proofs.Json.ReadBack
import LayoutCompiler.Proofs.Json.Nesting
import LayoutCompiler.Proofs.Json.Results
import LayoutCompiler.Proofs.Config.RoundTrip
import LayoutCompiler.Proofs.Json.Value
import LayoutCompiler.Proofs.Json.Ignored
import LayoutCompiler.Proofs.Json.Spelled
import LayoutCompiler.Proofs.Json.Settled
import LayoutCompiler.Proofs.Json.Members
import LayoutCompiler.Proofs.Config.Changes
import LayoutCompiler.Proofs.Widget.Placement
import LayoutCompiler.Proofs.Document.Placement
import LayoutCompiler.Proofs.Document.ModifierOrder
import LayoutCompiler.Proofs.Document.FillWidth
import LayoutCompiler.Proofs.Files.Path
import LayoutCompiler.Proofs.Files.Storing
import LayoutCompiler.Proofs.Files.Walking
import LayoutCompiler.Proofs.Files.Disk
import LayoutCompiler.Proofs.Files.Directories
import LayoutCompiler.Proofs.Conversion.Layouts
import LayoutCompiler.Proofs.Conversion.Directory
import LayoutCompiler.Proofs.Conversion.File
import LayoutCompiler.Proofs.Text.Blank
import LayoutCompiler.Proofs.Text.Hexadecimal
import LayoutCompiler.Proofs.Color
import LayoutCompiler.Proofs.Preview.Windows
import LayoutCompiler.Proofs.Preview.Schedule
import LayoutCompiler.Proofs.Document.Size
import LayoutCompiler.Proofs.Document.Tracing
import LayoutCompiler.Proofs.Document.Consumption
import LayoutCompiler.Proofs.Files.Writing
import LayoutCompiler.Proofs.Files.Extension
import LayoutCompiler.Proofs.Conversion.Effects
import LayoutCompiler.Proofs.Conversion.DefaultOutput
