import Spreadsheet.Decimal.Reading

/-!
# Decimal numerals

A numeral is a sign, digits with at most one point among or around them, and an exponent. It is how
numbers stand in texts: `-12`, `.5`, `7.`, `1.5e-7`.

* `Numeral`; `Numeral.value` is the double it denotes;
* `takeSign`, `takeExponent?`: the two ends of a numeral;
* `Numeral.read?`: a whole text as a numeral.
-/

namespace Spreadsheet.Decimal

/-- The parts of a number in a text. -/
structure Numeral where
  negative : Bool
  whole : List Char
  fraction : List Char
  exponent : Int
  deriving DecidableEq, Repr

/-- The double that a numeral denotes. -/
def Numeral.value (n : Numeral) : Float :=
  let x := ofParts n.whole n.fraction n.exponent
  if n.negative then -x else x

/-- Whether a text starts with a minus sign, and the text after its sign, if it has one. -/
def takeSign : List Char → Bool × List Char
  | '-' :: cs => (true, cs)
  | '+' :: cs => (false, cs)
  | cs => (false, cs)

/-- A whole text as an exponent: nothing, or a letter `e`, a sign and digits. -/
def readExponent? : List Char → Option Int
  | [] => some 0
  | c :: cs =>
    let (negative, ds) := takeSign cs
    if (c == 'e' || c == 'E') && !ds.isEmpty && ds.all Char.isDigit then
      some (if negative then -(ofDigits ds : Int) else ofDigits ds)
    else none

/-- A text as the digits after the point, with the text after them. -/
def takeFraction : List Char → List Char × List Char
  | '.' :: cs => (cs.takeWhile Char.isDigit, cs.dropWhile Char.isDigit)
  | cs => ([], cs)

/-- Read a whole text as a numeral; there must be a digit before or after the point. -/
def Numeral.read? (cs : List Char) : Option Numeral := do
  let (negative, cs) := takeSign cs
  let whole := cs.takeWhile Char.isDigit
  let (fraction, rest) := takeFraction (cs.dropWhile Char.isDigit)
  if whole.isEmpty && fraction.isEmpty then none
  else return ⟨negative, whole, fraction, ← readExponent? rest⟩

end Spreadsheet.Decimal
