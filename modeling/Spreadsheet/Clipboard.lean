import Spreadsheet.Formula.Shift
import Spreadsheet.Sheet.Basic

/-!
# Blocks of cells on the clipboard

A block of cells travels as text: a line for every row, tabs between the cells of a row. One line
end after the last row is left out, and carriage returns mean nothing.

* `Clipboard.rows`: the block that a text holds;
* `Sheet.paste`: a block written into a sheet; formulas are shifted if it is known where they were
  copied from, and cells beyond the edge are dropped.
-/

namespace Spreadsheet

namespace Clipboard

/-- A text without one line end behind it. -/
def dropLineEnd (cs : List Char) : List Char :=
  if cs.getLast? = some '\n' then cs.dropLast else cs

/-- The rows of cells that a text holds. -/
def rows (text : String) : List (List String) :=
  ((dropLineEnd (text.toList.filter (· != '\r'))).splitOn '\n').map fun row =>
    (row.splitOn '\t').map String.ofList

/-- The cells of a block with its first one at a given place, row by row. -/
def cells (corner : Cell) (block : List (List String)) : List (Cell × String) :=
  block.zipIdx.flatMap fun (row, i) =>
    row.zipIdx.map fun (text, j) => (⟨corner.row + (i : Nat), corner.col + (j : Nat)⟩, text)

end Clipboard

namespace Sheet

/-- Write texts into those of the given cells that are on the sheet, one after another, and count
them. If a text cannot be shifted, the ones before it have been written. -/
def write (d? : Option Offset) : List (Cell × String) → ExceptT Decimal.TooLong (StateM Sheet) Nat
  | [] => return 0
  | (c, text) :: rest => do
    let s ← get
    if h : c ∈ s.size then
      let text ← match d? with
        | none => pure text
        | some d => MonadExcept.ofExcept (Formula.translate d text)
      modify fun _ => s.put c text h
      return (← write d? rest) + 1
    else write d? rest

/-- Paste a block with its first cell at a given place. Formulas are shifted by the way from the
cell where the block was copied, if that is known. An empty text is no block. -/
def paste (s : Sheet) (corner : Cell) (text : String) (origin? : Option Cell) :
    Except Decimal.TooLong Nat × Sheet :=
  if text.isEmpty then (.ok 0, s)
  else
    (write (origin?.map (·.offset corner)) (Clipboard.cells corner (Clipboard.rows text))).run s

end Sheet

end Spreadsheet
