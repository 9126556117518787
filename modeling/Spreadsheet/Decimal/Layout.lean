import Spreadsheet.Decimal.Shortest

/-!
# Writing doubles

How the digits of a number are laid out: positionally while the leading digit is near the point,
with an exponent otherwise. `Layout` holds the decisions, `Layout.write` follows them, and
`standard` is the layout of this library: positional from `10 ^ -4` to below `10 ^ 16`, always with
a point, and exponents with a sign and at least two digits.

* `padLeft`: zeros in front up to a width;
* `positional`, `scientific`: the two forms of a decimal;
* `text`: the text of any double.
-/

namespace Spreadsheet.Decimal

/-- The decisions of a number format. -/
structure Layout where
  /-- The least power of ten of a leading digit that is written positionally. -/
  least : Int
  /-- The first power of ten of a leading digit that is not written positionally any more. -/
  bound : Int
  /-- What follows the digits of a whole number in positional form. -/
  wholeMark : List Char
  /-- The least number of digits of an exponent. -/
  exponentWidth : Nat

/-- Zeros in front of a text up to a width. -/
def padLeft (width : Nat) (cs : List Char) : List Char :=
  List.replicate (width - cs.length) '0' ++ cs

/-- The digits of a natural number. -/
def natDigits (n : Nat) : List Char := Nat.toDigits 10 n

/-- A decimal in positional form, with at least one digit before the point. -/
def Layout.positional (l : Layout) (s : Scaled) : List Char :=
  let ds := natDigits s.digits
  if 0 ≤ s.exponent then ds ++ List.replicate s.exponent.toNat '0' ++ l.wholeMark
  else
    let places := (-s.exponent).toNat
    let ds := padLeft (places + 1) ds
    ds.take (ds.length - places) ++ '.' :: ds.drop (ds.length - places)

/-- A decimal with one digit before the point and an exponent, given that digit's power of ten. -/
def Layout.scientific (l : Layout) (s : Scaled) (leading : Int) : List Char :=
  let mantissa := match natDigits s.digits with
    | [] => []
    | [d] => [d]
    | d :: ds => d :: '.' :: ds
  let sign := if leading < 0 then '-' else '+'
  mantissa ++ 'e' :: sign :: padLeft l.exponentWidth (natDigits leading.natAbs)

/-- A decimal in the form that its magnitude calls for. -/
def Layout.write (l : Layout) (s : Scaled) : List Char :=
  let leading := s.exponent + (natDigits s.digits).length - 1
  if s.digits = 0 || (l.least ≤ leading && leading < l.bound) then l.positional s
  else l.scientific s leading

/-- Numbers are positional from `0.0001` to below ten to the sixteenth, whole ones end in `.0`, and
exponents have a sign and two digits or more. -/
def standard : Layout := ⟨-4, 16, ['.', '0'], 2⟩

/-- The text of a double: its shortest decimal in the standard layout. -/
def text (x : Float) : String :=
  match Binary.ofFloat? x with
  | some b =>
    String.ofList ((if b.negative then ['-'] else []) ++ standard.write (shortest b))
  | none => if x.isNaN then "nan" else if x < 0 then "-inf" else "inf"

end Spreadsheet.Decimal
