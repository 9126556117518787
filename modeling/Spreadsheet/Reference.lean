import Spreadsheet.Text.Blank
import Spreadsheet.Text.Quoted
import Spreadsheet.Decimal.Integer

/-!
# References in A1 notation

A cell is named by its column in letters and its row number: `A1` is the top left one. Columns
count in bijective base 26 (`Z` is followed by `AA`), rows from one; inside the library both count
from zero. A `$` before either part of a reference pins that part when the reference is moved.

* `Cell`: a place on the unbounded plane of cells;
* `Column.index`, `Column.letters`: column letters to numbers and back;
* `Reference`: a cell with its two pins; `Reference.read?` and `Reference.text` are its notation;
* `Address.read`, `Address.text`: the notation without pins, as users type it.
-/

namespace Spreadsheet

/-- A place on the plane of cells, both parts counted from zero. A grid holds a rectangle of them
from `(0, 0)` on. -/
structure Cell where
  row : Int
  col : Int
  deriving DecidableEq, Hashable, Repr

/-! ## Columns -/

namespace Column

/-- The value of a column letter: one for `A`, either case. -/
def letterValue (c : Char) : Int := (c.toUpper.toNat : Int) - 64

/-- The column that a word of letters names. The empty word is one left of `A`. -/
def index (word : List Char) : Int := word.foldl (fun n c => 26 * n + letterValue c) 0 - 1

/-- The last letter of a column's name. -/
def lastLetter (n : Int) : Char := Char.ofNat (65 + (n % 26).toNat)

/-- The name of a column; left of `A` only the last letter counts. -/
def letters (n : Int) : List Char :=
  if 0 ≤ n / 26 - 1 then letters (n / 26 - 1) ++ [lastLetter n] else [lastLetter n]
termination_by n.toNat
decreasing_by omega

end Column

/-! ## References -/

/-- A reference to one cell; a pinned part does not move when the reference is shifted. -/
structure Reference where
  cell : Cell
  pinnedRow : Bool := false
  pinnedCol : Bool := false
  deriving DecidableEq, Repr

namespace Reference

/-- A letter that may stand in a column name. -/
def isLetter (c : Char) : Bool := ('A' ≤ c && c ≤ 'Z') || ('a' ≤ c && c ≤ 'z')

/-- Whether a text starts with the pin, and the text after it. -/
def takePin : List Char → Bool × List Char
  | '$' :: cs => (true, cs)
  | cs => (false, cs)

/-- The parts of a reference as they are written. -/
structure Parts where
  pinnedCol : Bool
  word : List Char
  pinnedRow : Bool
  digits : List Char
  deriving DecidableEq, Repr

/-- The characters of the parts. -/
def Parts.chars (p : Parts) : List Char :=
  (if p.pinnedCol then ['$'] else []) ++ p.word ++ (if p.pinnedRow then ['$'] else []) ++ p.digits

/-- The longest reference that a text starts with, in its parts. Its row number may be zero. -/
def Parts.take? (cs : List Char) : Option Parts :=
  let (pinnedCol, cs) := takePin cs
  let word := cs.takeWhile isLetter
  let (pinnedRow, cs) := takePin (cs.dropWhile isLetter)
  let digits := cs.takeWhile Char.isDigit
  if word.isEmpty || digits.isEmpty then none else some ⟨pinnedCol, word, pinnedRow, digits⟩

/-- The reference that the parts denote; none if the row number is zero. -/
def Parts.resolve? (p : Parts) : Except Decimal.TooLong (Option Reference) := do
  let number ← Decimal.readNat p.digits
  if number = 0 then return none
  return some ⟨⟨(number : Int) - 1, Column.index p.word⟩, p.pinnedRow, p.pinnedCol⟩

/-- Read a whole text as a reference; one line end after it is allowed. -/
def read? (cs : List Char) : Except Decimal.TooLong (Option Reference) :=
  match Parts.take? cs with
  | none => .ok none
  | some parts =>
    let rest := cs.drop parts.chars.length
    if rest = [] ∨ rest = ['\n'] then parts.resolve? else .ok none

/-- The notation of a reference: pins where they are, letters in upper case, the row from one. -/
def text (r : Reference) : Except Decimal.TooLong String := do
  let number ← Decimal.writeInt (r.cell.row + 1)
  let col := String.ofList (Column.letters r.cell.col)
  return (if r.pinnedCol then "$" else "") ++ col ++ (if r.pinnedRow then "$" else "") ++ number

end Reference

/-! ## Addresses -/

namespace Address

/-- Why a text names no cell. -/
inductive Failure where
  /-- It is no reference. -/
  | invalid (text : String)
  /-- Its row number is too long. -/
  | tooLong (e : Decimal.TooLong)
  deriving DecidableEq, Repr

/-- The wording of a failure. -/
def Failure.message : Failure → String
  | .invalid text => "Invalid cell address: " ++ Text.quote text
  | .tooLong e => e.message

/-- The cell that a text names; blanks around it and pins in it mean nothing. -/
def read (text : String) : Except Failure Cell :=
  match Reference.read? (Text.trim text.toList) with
  | .error e => .error (.tooLong e)
  | .ok none => .error (.invalid text)
  | .ok (some r) => .ok r.cell

/-- The name of a cell. -/
def text (c : Cell) : Except Decimal.TooLong String := Reference.text ⟨c, false, false⟩

end Address

/-! ## Examples -/

example : Column.letters 701 = ['Z', 'Z'] ∧ Column.letters 702 = ['A', 'A', 'A'] := by
  decide +kernel
example : Column.index ['a', 'B'] = 27 := by decide
example : Reference.read? ['$', 'b', '7'] = .ok (some ⟨⟨6, 1⟩, false, true⟩) := rfl
example : Reference.read? ['A', '0'] = .ok none := rfl

end Spreadsheet
