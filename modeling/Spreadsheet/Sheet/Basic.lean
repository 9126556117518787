import Spreadsheet.Sheet.Display

/-!
# Sheets

A sheet is a grid together with what is known about its formulas. Every change of the grid makes
the values unknown again; why a formula could not be evaluated is remembered until its cell holds a
value or another kind of text, or is gone.

* `Sheet`; `Sheet.set` and the operations on its extent;
* `Sheet.run`: evaluate on a sheet;
* `Sheet.failures`: the cells that could not be evaluated, row by row.
-/

namespace Spreadsheet

/-- A grid and what is known about its formulas. -/
structure Sheet where
  grid : Grid
  results : Results := {}

namespace Sheet

/-- The extent of a sheet by default. -/
def defaultSize : Size := ⟨30, 12, by decide, by decide⟩

/-- An empty sheet. -/
def empty (s : Size) : Sheet := ⟨.empty s, {}⟩

/-- The extent of a sheet. -/
def size (s : Sheet) : Size := s.grid.size

/-- The text of a cell; cells outside are empty. -/
def text (s : Sheet) (c : Cell) : String := s.grid.text c

/-! ## Reading -/

/-- Evaluate on a sheet; what becomes known stays even if that fails. -/
def run {α : Type} (s : Sheet) (x : Grid → Evaluation α) : Except Formula.Failure α × Sheet :=
  let (answer, results) := (x s.grid).run s.results
  (answer, { s with results })

/-- Show every cell of a sheet but one, row by row. -/
def scan (s : Sheet) (room : Nat) (observe : Observer) (skipped : Option Cell) : Scan × Sheet :=
  let (scan, results) := (s.grid.scan room observe (s.size.without skipped)).run s.results
  (scan, { s with results })

/-- Forget the values of all formulas. -/
def invalidate (s : Sheet) : Sheet := { s with results := s.results.invalidate }

/-- Why a cell could not be evaluated. -/
def failure? (s : Sheet) (c : Cell) : Option String :=
  (s.results.failures[c]?).map Formula.Failure.message

/-- The cells that could not be evaluated and the reasons, row by row. -/
def failures (s : Sheet) : List (Cell × String) :=
  if s.results.failures.isEmpty then []
  else s.size.toList.filterMap fun c => (s.failure? c).map (c, ·)

/-! ## Writing -/

/-- A sheet with the text of one of its cells replaced. -/
def put (s : Sheet) (c : Cell) (text : String) (h : c ∈ s.size) : Sheet :=
  let results := if CellText.isFormula text then s.results else s.results.succeed c
  ⟨s.grid.set c text h, results.invalidate⟩

/-- A sheet with the text of one cell replaced, if the cell is on it. -/
def set (s : Sheet) (c : Cell) (text : String) : Except Grid.Refusal Sheet :=
  if h : c ∈ s.size then .ok (s.put c text h) else .error (.outside c s.size)

/-- A sheet on another grid that has the same texts wherever both have a cell. -/
def regrid (s : Sheet) (g : Grid) : Sheet :=
  ⟨g, { memo := ∅, failures := s.results.failures.filter fun c _ => decide (c ∈ g.size) }⟩

/-- A sheet with one more row. -/
def addRow (s : Sheet) : Sheet := s.regrid s.grid.addRow

/-- A sheet with one more column. -/
def addColumn (s : Sheet) : Sheet := s.regrid s.grid.addColumn

/-- A sheet without its last row, unless that is its only one. -/
def removeRow (s : Sheet) : Sheet := if 1 < s.size.rows then s.regrid s.grid.removeRow else s

/-- A sheet without its last column, unless that is its only one. -/
def removeColumn (s : Sheet) : Sheet :=
  if 1 < s.size.cols then s.regrid s.grid.removeColumn else s

/-- A sheet of another extent: what lies outside is dropped, new cells are empty. -/
def resize (s : Sheet) (rows cols : Int) : Except Grid.Refusal Sheet := do
  return s.regrid (s.grid.resize (← Grid.checkSize rows cols))

/-- A sheet of rows of texts; short rows are filled up with empty cells. -/
def ofRows (rows : List (List String)) : Sheet := ⟨.ofRows rows, {}⟩

end Sheet

end Spreadsheet
