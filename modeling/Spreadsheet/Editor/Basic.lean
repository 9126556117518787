import Spreadsheet.Clipboard
import Spreadsheet.Debounce
import Spreadsheet.Journal.Event
import Spreadsheet.Settings

/-!
# The editor

An editor keeps a sheet together with what its user sees of it: a buffer with the text of every
cell, the cell being edited, which shows its own text, and the cell last copied. Every change of
the sheet asks for a recompute, which shows all cells anew.

* `Editor`; `Editor.empty`: a new one;
* `Action`: an operation on an editor, which may be refused (`Editor.Failure`);
* `Editor.recompute`: all cells shown anew; a recompute that fails leaves the buffer as it was.
-/

namespace Spreadsheet

open Journal (Event)

/-- A sheet and what its user sees of it. -/
structure Editor where
  settings : Settings
  sheet : Sheet
  /-- When the next recompute is. -/
  timer : Debounce
  /-- What the cells show. -/
  buffer : Grid
  /-- The cell being edited. -/
  active? : Option Cell := none
  /-- The cell last copied. -/
  origin? : Option Cell := none
  /-- The failing cells at the last recompute that went through. -/
  reported : List (Cell × String) := []
  /-- Who is told what recomputes show. -/
  observe : Observer := Observer.silent
  /-- What recomputes showed since this was last looked at. -/
  shown : List (Cell × String) := []
  /-- The events since this was last looked at. -/
  events : List Event := []

namespace Editor

/-- A new editor with an empty grid. -/
def empty (settings : Settings) (clocked : Bool) : Editor where
  settings := settings
  sheet := .empty settings.size
  timer := { delay? := settings.delay |> Settings.wholeDelay?, clocked }
  buffer := .empty settings.size

/-- Why an operation is refused. -/
inductive Failure where
  /-- The grid has no such cell or cannot have such a size. -/
  | refused (e : Grid.Refusal)
  /-- A text names no cell. -/
  | address (e : Address.Failure)
  /-- A row number in a formula is too long. -/
  | tooLong (e : Decimal.TooLong)
  /-- The buffer has no such row, or has no such column when it is read. -/
  | noEntry
  /-- A row of the buffer has no such column to be written. -/
  | noColumn

/-- The wording of a failure. -/
def Failure.message : Failure → String
  | refused e => e.message
  | address e => e.message
  | tooLong e => e.message
  | noEntry => "list index out of range"
  | noColumn => "list assignment index out of range"

/-- The kind of a failure, as a fault. -/
def Failure.kind : Failure → String
  | refused _ | address _ | tooLong _ => Fault.valueKind
  | noEntry | noColumn => "IndexError"

/-- An operation on an editor; what it did before it is refused stays. -/
abbrev Action := ExceptT Failure (StateM Editor)

/-- Tell of an event. -/
def emit (e : Event) : Action Unit := modify fun ed => { ed with events := ed.events ++ [e] }

/-- Refuse a cell that is not in the grid. -/
def requireCell (c : Cell) : Action Unit := do
  let ed ← get
  if c ∈ ed.sheet.size then return () else throw (.refused (.outside c ed.sheet.size))

/-- A grid of texts with one text written, if there is a place for it. -/
def writeText (g : Grid) (c : Cell) (text : String) : Except Failure Grid :=
  if h : c ∈ g.size then .ok (g.set c text h)
  else .error (if c.row < g.size.rows then .noColumn else .noEntry)

/-- Show a text in a cell. -/
def showText (c : Cell) (text : String) : Action Unit := do
  let buffer ← MonadExcept.ofExcept (writeText (← get).buffer c text)
  modify fun ed => { ed with buffer }

/-! ## Recomputing -/

/-- The buffer of a sheet after a scan of all cells but the active one. -/
def bufferOf (sheet : Sheet) (active? : Option Cell) (shown : List (Cell × String)) : Grid :=
  let table := Std.HashMap.ofList shown
  .ofFn sheet.size fun c => if active? = some c then sheet.text c else table.getD c ""

/-- The event of a cell that cannot be evaluated. -/
def failureEvent (sheet : Sheet) (c : Cell) (message : String) : Event where
  level := .warning
  type := .formulaError
  message := message
  context := [("addr", .string ((Address.text c).toOption.getD "")),
    ("formula", .string (sheet.text c))]
  code? := some Journal.formulaParseError

/-- Tell of the failing cells that have not been told of, and remember all failing cells. -/
def reportFailures (ed : Editor) : Editor :=
  let current := ed.sheet.failures
  let news := current.filter fun (c, message) => ed.reported.lookup c != some message
  { ed with
    reported := current
    events := ed.events ++ news.map fun (c, message) => failureEvent ed.sheet c message }

/-- Show all cells anew. If that fails, what is on display stays. -/
def recompute (ed : Editor) : Except Fault Unit × Editor :=
  match ed.active?.map fun c => writeText (.empty ed.sheet.size) c "" with
  | some (.error e) => (.error ⟨e.kind, e.message⟩, ed)
  | _ =>
    let (scan, sheet) := ed.sheet.invalidate.scan Formula.roomLimit ed.observe ed.active?
    let ed := { ed with sheet, shown := ed.shown ++ scan.shown }
    match scan.fault? with
    | some fault => (.error fault, ed)
    | none => (.ok (), reportFailures { ed with buffer := bufferOf sheet ed.active? scan.shown })

/-- The event of a recompute. -/
def recomputeEvent (runs : Nat) : Except Fault Unit → Event
  | .ok () =>
    { level := .info, type := .recalcCompleted, message := "Recalc completed",
      context := [("runs", .int runs)] }
  | .error fault =>
    { level := .error, type := .recalcFailed, message := "Recalc error: " ++ fault.message,
      context := [("exception", .string fault.kind)], code? := some Journal.recalcException }

/-- Ask something of the timer, and run the recompute if it is due. -/
def request (r : Debounce.Request) : Action Unit := do
  let (timer, due) := (← get).timer.request r
  modify fun ed => { ed with timer }
  if due then
    let (outcome, ed) := (← get).recompute
    let timer := ed.timer.finish outcome
    set { ed with timer }
    emit (recomputeEvent timer.runs outcome)

end Editor

end Spreadsheet
