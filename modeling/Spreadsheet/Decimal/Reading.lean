import Spreadsheet.Decimal.Integer

/-!
# Reading doubles

A decimal denotes the nearest double, with ties to even; one too large is an infinity and one too
small is zero. Powers of ten far outside the range of doubles are cut off first, so that an
exponent of any length is read at once.

* `nearest`: the double of `digits * 10 ^ exponent`;
* `ofParts`: the double of digits before and after the point and an exponent.
-/

namespace Spreadsheet.Decimal

/-- The double nearest to `digits * 10 ^ exponent`. -/
def nearest (digits : Nat) (exponent : Int) : Float :=
  let size := exponent + (Nat.toDigits 10 digits).length
  if digits = 0 then 0.0
  else if 400 < size then Float.ofScientific 1 false 400
  else if size < -400 then 0.0
  else Float.ofScientific digits (exponent < 0) exponent.natAbs

/-- The double that the digits before the point, those after it and an exponent write. -/
def ofParts (whole fraction : List Char) (exponent : Int) : Float :=
  nearest (ofDigits (whole ++ fraction)) (exponent - fraction.length)

end Spreadsheet.Decimal
