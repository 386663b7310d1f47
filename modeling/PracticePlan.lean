import PracticePlan.Archive.Basic
import PracticePlan.Archive.Store
import PracticePlan.Arguments.Basic
import PracticePlan.Arguments.Positional
import PracticePlan.Catalog.Basic
import PracticePlan.Catalog.Feature
import PracticePlan.Catalog.Settings
import PracticePlan.Command.Config
import PracticePlan.Command.Invocation
import PracticePlan.Command.Run
import PracticePlan.Duration
import PracticePlan.Files.Basic
import PracticePlan.Files.Folder
import PracticePlan.Files.Name
import PracticePlan.Json.Basic
import PracticePlan.Json.Number
import PracticePlan.Json.PassOver
import PracticePlan.Json.Printer
import PracticePlan.Json.Reader
import PracticePlan.Json.Shape
import PracticePlan.Json.Token
import PracticePlan.Main
import PracticePlan.Named
import PracticePlan.Nesting
import PracticePlan.Notation.Basic
import PracticePlan.Notation.Convert
import PracticePlan.Notation.Format
import PracticePlan.Notation.Item
import PracticePlan.Notation.Line
import PracticePlan.Notation.Literal
import PracticePlan.Notation.Resolve
import PracticePlan.Number.Binary64
import PracticePlan.Number.Shortest
import PracticePlan.Number.Text
import PracticePlan.Number.Word
import PracticePlan.Plan.Basic
import PracticePlan.Plan.Row
import PracticePlan.Printout
import PracticePlan.Registry.Basic
import PracticePlan.Schema.Basic
import PracticePlan.Schema.Json
import PracticePlan.Settings.Basic
import PracticePlan.Settings.Metronome
import PracticePlan.Text.Blank
import PracticePlan.Text.Numeral
import PracticePlan.Text.Pieces
import PracticePlan.Text.Quoted
import PracticePlan.Text.Unshown
import PracticePlan.Timeline.Basic
import PracticePlan.Timeline.Build
import PracticePlan.Proofs.Text.Cutting
import PracticePlan.Proofs.Line.Written
import PracticePlan.Proofs.Line.Reread
import PracticePlan.Proofs.Line.Naming
import PracticePlan.Proofs.Line.Fields
import PracticePlan.Proofs.Line.RoundTrip
import PracticePlan.Proofs.Json.Scalar
import PracticePlan.Proofs.Json.ReadBack
import PracticePlan.Proofs.Json.Parsed
import PracticePlan.Proofs.Item.RoundTrip
import PracticePlan.Proofs.Catalog.Settings
import PracticePlan.Proofs.Item.Reading
import PracticePlan.Proofs.Given
import PracticePlan.Proofs.Catalog.Lines
import PracticePlan.Proofs.Timeline.Build
import PracticePlan.Proofs.Catalog.Items
import PracticePlan.Proofs.Item.Stated
import PracticePlan.Proofs.Convert
import PracticePlan.Proofs.Number.Rounding
import PracticePlan.Proofs.Number.Shortest
import PracticePlan.Proofs.Number.Digits
import PracticePlan.Proofs.Number.ReadBack
import PracticePlan.Proofs.Arguments.Number
import PracticePlan.Proofs.Arguments.Slots
import PracticePlan.Proofs.Arguments.Values
import PracticePlan.Proofs.Arguments.ReadBack
import PracticePlan.Proofs.Arguments.Labels
import PracticePlan.Proofs.Plan.Front
import PracticePlan.Proofs.Timeline.Fault
import PracticePlan.Proofs.Timeline.FirstError
import PracticePlan.Proofs.Arguments.Selection
import PracticePlan.Proofs.Arguments.Places
import PracticePlan.Proofs.Arguments.Toggles
import PracticePlan.Proofs.Schema.Unambiguous
import PracticePlan.Proofs.Catalog.Makers
import PracticePlan.Proofs.Catalog.Features
import PracticePlan.Proofs.Text.Pattern
import PracticePlan.Proofs.Line.Parts
import PracticePlan.Proofs.Line.Patterns
import PracticePlan.Proofs.Line.Grammar
import PracticePlan.Proofs.Catalog.Documents
import PracticePlan.Proofs.Archive.Map
import PracticePlan.Proofs.Archive.Desk
import PracticePlan.Proofs.Command.Frame
import PracticePlan.Proofs.Command.Build
import PracticePlan.Proofs.Command.Session
import PracticePlan.Proofs.Registry.Entries
import PracticePlan.Proofs.Registry.History
import PracticePlan.Proofs.Duration.Clock
import PracticePlan.Proofs.Duration.Reading
import PracticePlan.Proofs.Duration.Writing
import PracticePlan.Proofs.Nesting.Indents
import PracticePlan.Proofs.Catalog.Changes
import PracticePlan.Proofs.Nesting.Around
import PracticePlan.Proofs.Catalog.Blocks
import PracticePlan.Proofs.Catalog.Literal
import PracticePlan.Proofs.Report.Gathering
import PracticePlan.Proofs.Line.Independence
import PracticePlan.Proofs.Item.Settings
import PracticePlan.Proofs.Item.Independence
import PracticePlan.Proofs.Plan.Moves
import PracticePlan.Proofs.Plan.Edits
import PracticePlan.Proofs.Nesting.Sections
import PracticePlan.Proofs.Timeline.Reordering
