import BandedReport.Amount.Chinese
import BandedReport.Amount.Fixed
import BandedReport.Amount.Pattern
import BandedReport.Calendar.Date
import BandedReport.Calendar.Text
import BandedReport.Calendar.Timestamp
import BandedReport.Canvas.Alignment
import BandedReport.Canvas.Band
import BandedReport.Canvas.Boundary
import BandedReport.Canvas.Clipboard
import BandedReport.Canvas.Control
import BandedReport.Canvas.Document
import BandedReport.Canvas.Marquee
import BandedReport.Canvas.Movement
import BandedReport.Canvas.Rect
import BandedReport.Canvas.Selection
import BandedReport.Canvas.Stacking
import BandedReport.Color
import BandedReport.Command.Arguments
import BandedReport.Command.Help
import BandedReport.Command.Interface
import BandedReport.Command.Run
import BandedReport.Coordinate
import BandedReport.Csv.Fields
import BandedReport.Csv.Reader
import BandedReport.Csv.Writer
import BandedReport.DataField
import BandedReport.DataFile
import BandedReport.Decimal.Basic
import BandedReport.Decimal.Binary
import BandedReport.Decimal.Rounding
import BandedReport.Decimal.Shortest
import BandedReport.Decimal.Text
import BandedReport.Design
import BandedReport.Design.Document
import BandedReport.Extremum
import BandedReport.Formula.Builtin
import BandedReport.Formula.Context
import BandedReport.Formula.Delimiters
import BandedReport.Formula.Dependencies
import BandedReport.Formula.Error
import BandedReport.Formula.Evaluation
import BandedReport.Formula.Expr
import BandedReport.Formula.Functions.Aggregate
import BandedReport.Formula.Functions.Argument
import BandedReport.Formula.Functions.Calendar
import BandedReport.Formula.Functions.Finance
import BandedReport.Formula.Functions.Format
import BandedReport.Formula.Functions.Logic
import BandedReport.Formula.Functions.Math
import BandedReport.Formula.Functions.Text
import BandedReport.Formula.Parser
import BandedReport.Formula.Printer
import BandedReport.Formula.Registry
import BandedReport.Formula.Scan
import BandedReport.Formula.Token
import BandedReport.Formula.Validation
import BandedReport.Json.Decode
import BandedReport.Json.Number
import BandedReport.Json.Reader
import BandedReport.Json.Value
import BandedReport.Json.Writer
import BandedReport.Main
import BandedReport.Print.Counted
import BandedReport.Print.Document
import BandedReport.Print.Paging
import BandedReport.Print.Pass
import BandedReport.Print.Report
import BandedReport.Print.Session
import BandedReport.Print.Value
import BandedReport.Proofs.Amount.Chinese
import BandedReport.Proofs.Amount.Currency
import BandedReport.Proofs.Amount.Fixed
import BandedReport.Proofs.Amount.Pattern
import BandedReport.Proofs.Amount.Percent
import BandedReport.Proofs.Amount.Printed
import BandedReport.Proofs.Calendar.Reading
import BandedReport.Proofs.Canvas.Alignment
import BandedReport.Proofs.Canvas.Boundaries
import BandedReport.Proofs.Canvas.Conservation
import BandedReport.Proofs.Canvas.Distribution
import BandedReport.Proofs.Canvas.Documents
import BandedReport.Proofs.Canvas.Editing
import BandedReport.Proofs.Canvas.EqualSizes
import BandedReport.Proofs.Canvas.Exact
import BandedReport.Proofs.Canvas.Floors
import BandedReport.Proofs.Canvas.Identifiers
import BandedReport.Proofs.Canvas.Locality
import BandedReport.Proofs.Canvas.Marquee
import BandedReport.Proofs.Canvas.PaintOrder
import BandedReport.Proofs.Canvas.Pasting
import BandedReport.Proofs.Canvas.Relocation
import BandedReport.Proofs.Canvas.Resizing
import BandedReport.Proofs.Canvas.Revision
import BandedReport.Proofs.Canvas.Saveable
import BandedReport.Proofs.Canvas.Stacks
import BandedReport.Proofs.Color
import BandedReport.Proofs.Color.Grammar
import BandedReport.Proofs.Color.Spelling
import BandedReport.Proofs.Counterparts
import BandedReport.Proofs.Csv.Columns
import BandedReport.Proofs.Csv.Encoding
import BandedReport.Proofs.Csv.RoundTrip
import BandedReport.Proofs.Csv.Splitting
import BandedReport.Proofs.Decimal.Arithmetic
import BandedReport.Proofs.Decimal.Extent
import BandedReport.Proofs.Decimal.Finite
import BandedReport.Proofs.Decimal.FixedPlaces
import BandedReport.Proofs.Decimal.Nearest
import BandedReport.Proofs.Decimal.Numerals
import BandedReport.Proofs.Decimal.Order
import BandedReport.Proofs.Decimal.Rounding
import BandedReport.Proofs.Decimal.Shortest
import BandedReport.Proofs.Decimal.Sign
import BandedReport.Proofs.Decimal.Sums
import BandedReport.Proofs.Decimal.Unsigned
import BandedReport.Proofs.Design.Refusal
import BandedReport.Proofs.Design.RoundTrip
import BandedReport.Proofs.Formula.Aggregation
import BandedReport.Proofs.Formula.Calls
import BandedReport.Proofs.Formula.Dates
import BandedReport.Proofs.Formula.Finiteness
import BandedReport.Proofs.Formula.FunctionErrors
import BandedReport.Proofs.Formula.Grammar
import BandedReport.Proofs.Formula.Neighbours
import BandedReport.Proofs.Formula.Noninterference
import BandedReport.Proofs.Formula.Parsing
import BandedReport.Proofs.Formula.Positions
import BandedReport.Proofs.Formula.References
import BandedReport.Proofs.Formula.Reparsing
import BandedReport.Proofs.Formula.Reprinting
import BandedReport.Proofs.Formula.Safety
import BandedReport.Proofs.Formula.Scanning
import BandedReport.Proofs.Formula.Slots
import BandedReport.Proofs.Formula.Spans
import BandedReport.Proofs.Formula.Steps
import BandedReport.Proofs.Formula.Substrings
import BandedReport.Proofs.Formula.Tree
import BandedReport.Proofs.Formula.Validity
import BandedReport.Proofs.Formula.Writing
import BandedReport.Proofs.Json.Missing
import BandedReport.Proofs.Json.Records
import BandedReport.Proofs.Json.RoundTrip
import BandedReport.Proofs.Json.Scalars
import BandedReport.Proofs.Outcome
import BandedReport.Proofs.Print.Accounting
import BandedReport.Proofs.Print.Caching
import BandedReport.Proofs.Print.Conservation
import BandedReport.Proofs.Print.Failures
import BandedReport.Proofs.Print.HeightPages
import BandedReport.Proofs.Print.Isolation
import BandedReport.Proofs.Print.Pages
import BandedReport.Proofs.Print.Relocation
import BandedReport.Proofs.Print.Sessions
import BandedReport.Proofs.Print.Settings
import BandedReport.Proofs.Print.Stacking
import BandedReport.Proofs.Print.Totals
import BandedReport.Proofs.Sorting
import BandedReport.Proofs.Trimming
import BandedReport.Record
import BandedReport.Record.Document
import BandedReport.Scalar
import BandedReport.Text.Blank
import BandedReport.Text.CharClass
import BandedReport.Text.Hex
import BandedReport.Text.LetterCase
