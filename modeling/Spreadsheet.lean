import Spreadsheet.Main
import Spreadsheet.Proofs.Formula.Denotation
import Spreadsheet.Proofs.Formula.Validity
import Spreadsheet.Proofs.Formula.Evaluation
import Spreadsheet.Proofs.Sheet.Dependency
import Spreadsheet.Proofs.Sheet.Meaning
import Spreadsheet.Proofs.Sheet.Soundness
import Spreadsheet.Proofs.Sheet.Walk
import Spreadsheet.Proofs.Sheet.Coherence
import Spreadsheet.Proofs.Formula.Nesting
import Spreadsheet.Proofs.Sheet.History
import Spreadsheet.Proofs.Sheet.Restart
import Spreadsheet.Proofs.Sheet.Scan
import Spreadsheet.Proofs.Editor.Recompute
import Spreadsheet.Proofs.Sheet.Paste
import Spreadsheet.Proofs.Editor.Operation
import Spreadsheet.Proofs.Editor.View
import Spreadsheet.Proofs.Formula.RowNumber
import Spreadsheet.Proofs.Formula.Shift
import Spreadsheet.Proofs.Sheet.Brief
import Spreadsheet.Proofs.Editor.Run
import Spreadsheet.Proofs.Debounce
import Spreadsheet.Proofs.Formula.Safety
import Spreadsheet.Proofs.Formula.Parsing
import Spreadsheet.Proofs.Formula.Notation
import Spreadsheet.Proofs.Formula.Lexing
import Spreadsheet.Proofs.Formula.Layout
import Spreadsheet.Proofs.Formula.Relabel
import Spreadsheet.Proofs.Formula.Rewriting
import Spreadsheet.Proofs.Editor.Frame
import Spreadsheet.Proofs.Editor.Atomicity
import Spreadsheet.Proofs.Editor.Order
import Spreadsheet.Proofs.Editor.Scope
import Spreadsheet.Proofs.Formula.Longest
import Spreadsheet.Proofs.Formula.Viability
import Spreadsheet.Proofs.CalcState
import Spreadsheet.Proofs.Decimal
import Spreadsheet.Proofs.Sheet.Overlay
import Spreadsheet.Proofs.Editor.Provenance
import Spreadsheet.Proofs.Formula.Cutting
import Spreadsheet.Proofs.Formula.Leaves
import Spreadsheet.Proofs.Formula.Agreement
import Spreadsheet.Proofs.Formula.Diagnosis
import Spreadsheet.Proofs.Formula.Composition
import Spreadsheet.Proofs.Formula.Naming
import Spreadsheet.Proofs.Editor.Failure
import Spreadsheet.Proofs.Formula.Search
import Spreadsheet.Proofs.Formula.Context
import Spreadsheet.Proofs.Formula.Occurrence
import Spreadsheet.Proofs.Sheet.Locality
import Spreadsheet.Proofs.Sheet.Extraction
import Spreadsheet.Proofs.Double
import Spreadsheet.Proofs.Sheet.Containment
import Spreadsheet.Proofs.Formula.Lockstep
import Spreadsheet.Proofs.Formula.Placement
import Spreadsheet.Proofs.Formula.Literal
import Spreadsheet.Proofs.Sheet.Literal
import Spreadsheet.Proofs.Sheet.Unreadable
import Spreadsheet.Proofs.Sheet.Chain
import Spreadsheet.Proofs.Sheet.Extent
import Spreadsheet.Proofs.Formula.Expansion
import Spreadsheet.Proofs.Clipboard
import Spreadsheet.Proofs.Sheet.Block
import Spreadsheet.Proofs.Editor.Copy
import Spreadsheet.Proofs.Blank
import Spreadsheet.Proofs.Formula.Spacing
import Spreadsheet.Proofs.Sheet.Respelling
import Spreadsheet.Proofs.Editor.Normalization
import Spreadsheet.Proofs.Sheet.Writing
import Spreadsheet.Proofs.Formula.Dependence
import Spreadsheet.Proofs.Sheet.Aside
import Spreadsheet.Proofs.Editor.Telling
import Spreadsheet.Proofs.Editor.Reports
import Spreadsheet.Proofs.Decimal.Rounding
import Spreadsheet.Proofs.Decimal.Packing
import Spreadsheet.Proofs.Decimal.Scientific
import Spreadsheet.Proofs.Decimal.Shortest
import Spreadsheet.Proofs.Decimal.Reading
import Spreadsheet.Proofs.Decimal.Whole
import Spreadsheet.Proofs.Sheet.Retyping
import Spreadsheet.Proofs.Journal.Truncation
import Spreadsheet.Proofs.Text.Units
import Spreadsheet.Proofs.Json.Number
import Spreadsheet.Proofs.Json.Writing
import Spreadsheet.Proofs.Json.Lexing
import Spreadsheet.Proofs.Json.RoundTrip
import Spreadsheet.Proofs.Text.Lines
import Spreadsheet.Proofs.Journal.Reading
import Spreadsheet.Proofs.Journal.Recent
import Spreadsheet.Proofs.Sheet.Tracking
import Spreadsheet.Proofs.Sheet.Tour
import Spreadsheet.Proofs.Sheet.Progress
import Spreadsheet.Proofs.Formula.Wording
import Spreadsheet.Proofs.Journal.Length
import Spreadsheet.Proofs.Editor.Message
