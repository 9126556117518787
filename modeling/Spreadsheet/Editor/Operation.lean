import Spreadsheet.Editor.Basic

/-!
# What users do

The operations of the editor: starting and ending the edit of a cell, typing, the clipboard, and
changes of the extent of the grid. Each of them that changes the sheet asks for a recompute.

* `beginEdit`, `edit`, `endEdit`; `copy`, `cut`, `paste`;
* `addRow`, `addColumn`, `removeRow`, `removeColumn`, `resize`, `load`, `loadValues`, `reset`;
* `view`, `displayText`: what is on display, after a pending recompute.
-/

namespace Spreadsheet.Editor

open Journal (Event)

/-- Put a text into a cell of the sheet. -/
def store (c : Cell) (text : String) : Action Unit := do
  let sheet ← MonadExcept.ofExcept (((← get).sheet.set c text).mapError .refused)
  modify fun ed => { ed with sheet }

/-- The name of a cell. -/
def nameOf (c : Cell) : Action String :=
  MonadExcept.ofExcept ((Address.text c).mapError .tooLong)

/-! ## Editing -/

/-- Stop editing. The text of the active cell is brought into its stored form, which is the
answer; there is none without an active cell in the grid. -/
def endEdit : Action (Option String) := do
  match (← get).active? with
  | none => return none
  | some c =>
    modify fun ed => { ed with active? := none }
    let sheet := (← get).sheet
    if c ∈ sheet.size then
      let text := CellText.normalize (sheet.text c)
      if text ≠ sheet.text c then store c text
      request .schedule
      return some text
    else return none

/-- Start editing a cell, which then shows its own text, the answer. -/
def beginEdit (c : Cell) : Action String := do
  requireCell c
  let active? := (← get).active?
  if active?.isSome && active? != some c then let _ ← endEdit
  modify fun ed => { ed with active? := some c }
  let text := (← get).sheet.text c
  showText c text
  return text

/-- Put a typed text into a cell. The active cell shows it as it is. -/
def edit (c : Cell) (text : String) : Action Unit := do
  store c text
  if (← get).active? == some c then showText c text
  request .schedule

/-! ## The clipboard -/

/-- Copy a cell: its text is the answer, and its place is remembered. -/
def copy (c : Cell) : Action String := do
  requireCell c
  modify fun ed => { ed with origin? := some c }
  return (← get).sheet.text c

/-- Copy a cell and empty it. -/
def cut (c : Cell) : Action String := do
  let text ← copy c
  store c ""
  request .schedule
  return text

/-- The event of a pasted block. -/
def pasteEvent (name : String) (origin? : Option String) (written : Nat) : Event where
  level := .info
  type := .pasteApplied
  message := "Pasted " ++ toString written ++ " cell(s) at " ++ name
  context := [("addr", .string name), ("origin", Journal.ofText? origin?),
    ("cells", .int written)]

/-- Paste a block of cells with its first one at a given place, shifted by the way from the cell
last copied. The number of cells written is the answer. -/
def paste (c : Cell) (text : String) : Action Nat := do
  requireCell c
  let ed ← get
  let (written, sheet) := ed.sheet.paste c text ed.origin?
  modify fun ed => { ed with sheet }
  let written ← MonadExcept.ofExcept (written.mapError .tooLong)
  modify fun ed => { ed with origin? := none }
  emit (pasteEvent (← nameOf c) (← ed.origin?.mapM nameOf) written)
  request .schedule
  return written

/-! ## The extent of the grid -/

/-- The fields that tell the extent of a grid. -/
def sizeFields (s : Size) : List (String × Json) := [("rows", .int s.rows), ("cols", .int s.cols)]

/-- A cell, if a size has it. -/
def keepWithin (s : Size) (c? : Option Cell) : Option Cell := c?.filter fun c => decide (c ∈ s)

/-- The sheet has another extent; the operation is named. -/
def restructure (name : String) (sheet : Sheet) : Action Unit := do
  modify fun ed =>
    { ed with
      sheet
      active? := keepWithin sheet.size ed.active?
      origin? := keepWithin sheet.size ed.origin?
      buffer := ed.buffer.resize sheet.size }
  emit {
    level := .info, type := .gridChanged, message := "Grid " ++ name,
    context := ("op", .string name) :: sizeFields sheet.size }
  request .schedule

/-- Add a row at the end. -/
def addRow : Action Unit := do restructure "add_row" (← get).sheet.addRow

/-- Add a column at the end. -/
def addColumn : Action Unit := do restructure "add_column" (← get).sheet.addColumn

/-- Remove the last row, unless it is the only one. -/
def removeRow : Action Unit := do restructure "remove_row" (← get).sheet.removeRow

/-- Remove the last column, unless it is the only one. -/
def removeColumn : Action Unit := do restructure "remove_column" (← get).sheet.removeColumn

/-- Give the grid another size. -/
def resize (rows cols : Int) : Action Unit := do
  restructure "resize" (← MonadExcept.ofExcept (((← get).sheet.resize rows cols).mapError .refused))

/-- Start again with another sheet. -/
def replaceSheet (event : Event) (sheet : Sheet) : Action Unit := do
  modify fun ed =>
    { ed with sheet, active? := none, origin? := none, buffer := ed.buffer.resize sheet.size }
  emit { event with context := sizeFields sheet.size }
  request .schedule

/-- Replace all texts. -/
def load (rows : List (List String)) : Action Unit :=
  replaceSheet { level := .info, type := .gridLoaded, message := "Grid loaded" } (.ofRows rows)

/-- Replace all texts by what values are in cells, unless one of them cannot be written. -/
def loadValues (rows : List (List Value)) : Action Unit := do
  load (← MonadExcept.ofExcept ((rows.mapM (List.mapM Value.cellText?)).mapError .tooLong))

/-- Empty the grid and give it the size in the settings. -/
def reset : Action Unit := do
  replaceSheet { level := .info, type := .gridReset, message := "Grid reset" }
    (.empty (← get).settings.size)

/-! ## Looking -/

/-- What the user sees. -/
structure View where
  size : Size
  cells : List (List String)
  /-- The cells that cannot be evaluated, with their names. -/
  errors : List (String × Cell × String)
  active? : Option String
  state : CalcState
  lastError? : Option String

/-- What the user sees once a pending recompute has been run. -/
def view : Action View := do
  request .flush
  let ed ← get
  return {
    size := ed.sheet.size
    cells := ed.buffer.rows
    errors := ← ed.sheet.failures.mapM fun (c, message) => do return (← nameOf c, c, message)
    active? := ← ed.active?.mapM nameOf
    state := ed.timer.state
    lastError? := ed.timer.lastError? }

/-- What a cell shows once a pending recompute has been run. -/
def displayText (c : Cell) : Action String := do
  request .flush
  requireCell c
  let ed ← get
  if c ∈ ed.buffer.size then return ed.buffer.text c else throw .noEntry

/-- The cell of the grid that an address names. -/
def cellAt (address : String) : Action Cell := do
  let c ← MonadExcept.ofExcept ((Address.read address).mapError .address)
  requireCell c
  return c

end Spreadsheet.Editor
