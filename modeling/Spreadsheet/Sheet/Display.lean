import Spreadsheet.Sheet.Evaluation

/-!
# What cells show

A cell shows its text, or the result of its formula: a number, the code of an error, or `ERR` if the
formula cannot be evaluated.

* `Grid.display`: one cell;
* `Fault`, `Observer`: what can stop a scan from outside;
* `Grid.scan`: cell after cell, up to the first one that cannot be shown.
-/

namespace Spreadsheet

open Formula (CellValue)

/-- What a cell shows in place of a value that it does not have. -/
def failedText : String := "ERR"

/-- What a value looks like. -/
def Formula.CellValue.display : CellValue → String
  | .text s => s
  | .result (.ok x) => Formula.display x
  | .result (.error code) => code.text
  | .failed => failedText

/-- What a cell shows. -/
def Grid.display (g : Grid) (room : Nat) (c : Cell) : Evaluation String :=
  if CellText.isFormula (g.text c) then CellValue.display <$> g.valueAt room c
  else return g.text c

/-! ## Scans -/

/-- Something that went wrong: its kind and its wording. -/
structure Fault where
  kind : String
  message : String
  deriving DecidableEq, Repr

/-- The kind of a fault in the value of something. -/
def Fault.valueKind : String := "ValueError"

/-- A failure to evaluate, as a fault. -/
def Formula.Failure.fault (f : Formula.Failure) : Fault := ⟨Fault.valueKind, f.message⟩

/-- Someone who is told what cells show, and who may refuse to go on. -/
abbrev Observer := Cell → String → Except Fault Unit

/-- An observer that takes everything. -/
def Observer.silent : Observer := fun _ _ => .ok ()

/-- What a scan showed, in order, and what stopped it before its end. -/
structure Scan where
  shown : List (Cell × String)
  fault? : Option Fault

/-- Show cells one after another to an observer. A cell that the observer refuses has been shown. -/
def Grid.scan (g : Grid) (room : Nat) (observe : Observer) : List Cell → StateM Results Scan
  | [] => return ⟨[], none⟩
  | c :: cs => do
    match ← (g.display room c).run with
    | .error f => return ⟨[], some f.fault⟩
    | .ok text =>
      match observe c text with
      | .error fault => return ⟨[(c, text)], some fault⟩
      | .ok () =>
        let rest ← g.scan room observe cs
        return { rest with shown := (c, text) :: rest.shown }

/-- The cells of a size but for one, row by row. -/
def Size.without (s : Size) (skipped : Option Cell) : List Cell :=
  s.toList.filter fun c => skipped != some c

end Spreadsheet
