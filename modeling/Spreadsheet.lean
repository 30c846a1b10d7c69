import Spreadsheet.Builtin.Logical
import Spreadsheet.Builtin.Numeric
import Spreadsheet.Builtin.Table
import Spreadsheet.Builtin.Temporal
import Spreadsheet.Builtin.Textual
import Spreadsheet.Calendar.Civil
import Spreadsheet.Calendar.Moment
import Spreadsheet.Calendar.Pattern
import Spreadsheet.Calendar.Stamp
import Spreadsheet.CommandLine.Options
import Spreadsheet.CommandLine.Run
import Spreadsheet.Dependency.Graph
import Spreadsheet.Dependency.Order
import Spreadsheet.Evaluation.Basic
import Spreadsheet.Evaluation.Conversion
import Spreadsheet.Evaluation.Source
import Spreadsheet.File
import Spreadsheet.Formula.Basic
import Spreadsheet.Formula.Expr
import Spreadsheet.Formula.Fault
import Spreadsheet.Formula.Reading
import Spreadsheet.Formula.Token
import Spreadsheet.Function.Argument
import Spreadsheet.Function.Basic
import Spreadsheet.Function.Parameter
import Spreadsheet.Function.Registry
import Spreadsheet.Grid.Edit
import Spreadsheet.Grid.Place
import Spreadsheet.Grid.Position
import Spreadsheet.Grid.Reference
import Spreadsheet.Grid.Region
import Spreadsheet.Grid.Span
import Spreadsheet.Main
import Spreadsheet.Number.Magnitude
import Spreadsheet.Number.Numeral
import Spreadsheet.Number.Text
import Spreadsheet.Proofs.Builtin.Dating
import Spreadsheet.Proofs.Builtin.Finite
import Spreadsheet.Proofs.Builtin.Receiving
import Spreadsheet.Proofs.Builtin.Table
import Spreadsheet.Proofs.Calendar.Counting
import Spreadsheet.Proofs.Calendar.Existing
import Spreadsheet.Proofs.Calendar.Printing
import Spreadsheet.Proofs.CommandLine
import Spreadsheet.Proofs.Dependency.Cycle
import Spreadsheet.Proofs.Dependency.Edges
import Spreadsheet.Proofs.Dependency.Mirroring
import Spreadsheet.Proofs.Dependency.Order
import Spreadsheet.Proofs.Dependency.Reach
import Spreadsheet.Proofs.Dependency.Returning
import Spreadsheet.Proofs.Dependency.Sorting
import Spreadsheet.Proofs.Evaluation.Aliases
import Spreadsheet.Proofs.Evaluation.Finite
import Spreadsheet.Proofs.Evaluation.Frame
import Spreadsheet.Proofs.Evaluation.Mirroring
import Spreadsheet.Proofs.Evaluation.Receiving
import Spreadsheet.Proofs.Evaluation.Settled
import Spreadsheet.Proofs.Evaluation.Strict
import Spreadsheet.Proofs.Formula.Completeness
import Spreadsheet.Proofs.Formula.Ending
import Spreadsheet.Proofs.Formula.Grammar
import Spreadsheet.Proofs.Formula.Lexing
import Spreadsheet.Proofs.Formula.Literals
import Spreadsheet.Proofs.Formula.Naming
import Spreadsheet.Proofs.Formula.Printing
import Spreadsheet.Proofs.Formula.Recognition
import Spreadsheet.Proofs.Formula.Referring
import Spreadsheet.Proofs.Formula.Rereading
import Spreadsheet.Proofs.Formula.Revising
import Spreadsheet.Proofs.Formula.Settling
import Spreadsheet.Proofs.Formula.Slicing
import Spreadsheet.Proofs.Formula.Soundness
import Spreadsheet.Proofs.Formula.Spelling
import Spreadsheet.Proofs.Formula.Words
import Spreadsheet.Proofs.Function.Registering
import Spreadsheet.Proofs.Grid.Addressing
import Spreadsheet.Proofs.Grid.Carrying
import Spreadsheet.Proofs.Grid.Combining
import Spreadsheet.Proofs.Grid.Composing
import Spreadsheet.Proofs.Grid.Cutting
import Spreadsheet.Proofs.Grid.Denoting
import Spreadsheet.Proofs.Grid.Exchanging
import Spreadsheet.Proofs.Grid.Following
import Spreadsheet.Proofs.Grid.Moving
import Spreadsheet.Proofs.Grid.Naming
import Spreadsheet.Proofs.Grid.Representing
import Spreadsheet.Proofs.Grid.Revising
import Spreadsheet.Proofs.Grid.Shifting
import Spreadsheet.Proofs.Grid.Undoing
import Spreadsheet.Proofs.Number.Finite
import Spreadsheet.Proofs.Number.Ordering
import Spreadsheet.Proofs.Number.Stored
import Spreadsheet.Proofs.Number.Unsigned
import Spreadsheet.Proofs.Number.Whole
import Spreadsheet.Proofs.Script.Loading
import Spreadsheet.Proofs.Script.Reading
import Spreadsheet.Proofs.Script.Running
import Spreadsheet.Proofs.Sheet.Acyclicity
import Spreadsheet.Proofs.Sheet.Affected
import Spreadsheet.Proofs.Sheet.Agreement
import Spreadsheet.Proofs.Sheet.Batching
import Spreadsheet.Proofs.Sheet.Calculation
import Spreadsheet.Proofs.Sheet.Circularity
import Spreadsheet.Proofs.Sheet.Completeness
import Spreadsheet.Proofs.Sheet.Copying
import Spreadsheet.Proofs.Sheet.Determined
import Spreadsheet.Proofs.Sheet.Failing
import Spreadsheet.Proofs.Sheet.Finite
import Spreadsheet.Proofs.Sheet.Granularity
import Spreadsheet.Proofs.Sheet.Holding
import Spreadsheet.Proofs.Sheet.Keeping
import Spreadsheet.Proofs.Sheet.Linking
import Spreadsheet.Proofs.Sheet.Locality
import Spreadsheet.Proofs.Sheet.Naming
import Spreadsheet.Proofs.Sheet.Operation
import Spreadsheet.Proofs.Sheet.Orderly
import Spreadsheet.Proofs.Sheet.Reading
import Spreadsheet.Proofs.Sheet.Rejection
import Spreadsheet.Proofs.Sheet.Reshaping
import Spreadsheet.Proofs.Sheet.Retyping
import Spreadsheet.Proofs.Sheet.Scheduling
import Spreadsheet.Proofs.Sheet.Sound
import Spreadsheet.Proofs.Sheet.Staging
import Spreadsheet.Proofs.Sheet.Strays
import Spreadsheet.Proofs.Sheet.Tracking
import Spreadsheet.Proofs.Sheet.Trial
import Spreadsheet.Proofs.Sheet.Undoing
import Spreadsheet.Proofs.Sheet.Upkeep
import Spreadsheet.Proofs.Sheet.Wiring
import Spreadsheet.Proofs.Store.Cells
import Spreadsheet.Proofs.Store.Extent
import Spreadsheet.Proofs.Store.Joining
import Spreadsheet.Proofs.Store.Layout
import Spreadsheet.Proofs.Store.Listing
import Spreadsheet.Proofs.Store.Marking
import Spreadsheet.Proofs.Store.Queries
import Spreadsheet.Proofs.Store.Travelling
import Spreadsheet.Proofs.Text.Casing
import Spreadsheet.Proofs.Text.Slicing
import Spreadsheet.Proofs.Text.Trimming
import Spreadsheet.Proofs.Value.Ordering
import Spreadsheet.Proofs.Workbook
import Spreadsheet.Script.Run
import Spreadsheet.Script.Statement
import Spreadsheet.Settings
import Spreadsheet.Settings.Document
import Spreadsheet.Settings.Loading
import Spreadsheet.Sheet.Basic
import Spreadsheet.Sheet.Calculation
import Spreadsheet.Sheet.Cell
import Spreadsheet.Sheet.Editing
import Spreadsheet.Sheet.Format
import Spreadsheet.Sheet.Links
import Spreadsheet.Sheet.Refusal
import Spreadsheet.Sheet.Vertex
import Spreadsheet.Store.Line
import Spreadsheet.Store.Matrix
import Spreadsheet.Store.Tagging
import Spreadsheet.Text.Blank
import Spreadsheet.Text.Case
import Spreadsheet.Text.Escaped
import Spreadsheet.Text.Letter
import Spreadsheet.Text.Quoted
import Spreadsheet.Value.Basic
import Spreadsheet.Value.Coercion
import Spreadsheet.Value.Entry
import Spreadsheet.Value.Order
import Spreadsheet.Workbook
