import Spreadsheet.Text.Blank
import Spreadsheet.Decimal.Layout
import Spreadsheet.Decimal.Numeral

/-!
# Numbers in cells

A formula computes a double or an error code that is shown in its place (`Outcome`). A cell text
counts as the number it writes, blanks around it left out, and as zero if it is blank; other text is
no number. Only finite numbers pass on.

* `ErrorCode`, `Outcome`; `checked` keeps finite numbers;
* `ofText`: the number that a text counts as;
* `display`: the text of a number.
-/

namespace Spreadsheet.Formula

/-- An error that a cell has instead of a number. -/
inductive ErrorCode where
  /-- A number was needed and there was none, or none that is finite. -/
  | value
  /-- The cell depends on itself. -/
  | circular
  deriving DecidableEq, Repr

/-- What a cell with an error shows. -/
def ErrorCode.text : ErrorCode → String
  | .value => "#VALUE!"
  | .circular => "#CIRC!"

/-- A number, or the error in its place. -/
abbrev Outcome := Except ErrorCode Float

/-- A number if it is finite. -/
def checked (x : Float) : Outcome := if x.isFinite then .ok x else .error .value

/-- The number that a text counts as. -/
def ofText (s : String) : Outcome :=
  let cs := Text.trim s.toList
  if cs.isEmpty then .ok 0.0
  else match Decimal.Numeral.read? cs with
    | some n => checked n.value
    | none => .error .value

/-- Whole numbers are written out in full below this magnitude. -/
def fullBelow : Float := 1e21

/-- Whole numbers are shown without a point. -/
def wholeLayout : Decimal.Layout := { Decimal.standard with wholeMark := [] }

/-- The text of a number in a cell: whole numbers below ten to the twenty-first are written with
all their places, filled up with zeros after the shortest digits, and zero has no sign. -/
def display (x : Float) : String :=
  match Decimal.Binary.ofFloat? x with
  | none => ErrorCode.value.text
  | some b =>
    if b.isWhole && x.abs < fullBelow then
      String.ofList ((if b.negative && b.mantissa != 0 then ['-'] else [])
        ++ wholeLayout.positional (Decimal.shortest b))
    else Decimal.text x

end Spreadsheet.Formula
