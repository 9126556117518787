import Spreadsheet.Decimal.Binary

/-!
# The shortest decimal of a double

Of all decimals that round to a double, the ones with the fewest significant digits, and of those
the nearest. For one, two, … seventeen digits the two neighbours of the number on that decimal grid
are tried: the first grid with a hit gives the number of digits, of two hits the nearer is taken,
and of two equally near ones the even one.

All arithmetic is exact: a magnitude is a fraction `num / den` of naturals.

* `Scaled`: a decimal, digits times a power of ten;
* `leadingExponent`: the power of ten just above a fraction;
* `Binary.neighbour?`: the best hit on one grid;
* `shortest`: the decimal of a magnitude that is not zero.
-/

namespace Spreadsheet.Decimal

/-- The number `digits * 10 ^ exponent`. -/
structure Scaled where
  digits : Nat
  exponent : Int
  deriving DecidableEq, Repr

/-- How many decimal digits a number has; one for zero. -/
def countDigits (n : Nat) : Nat := (Nat.toDigits 10 n).length

/-- The least `e` with `num / den < 10 ^ e`. -/
def leadingExponent (num den : Nat) : Int :=
  if den ≤ num then countDigits (num / den)
  else 1 - (countDigits ((den - 1) / num) : Int)

namespace Binary

/-- The denominator that makes quarters of the unit whole fractions. -/
def den (b : Binary) : Nat := Nat.pow 2 (2 - b.exponent).toNat

/-- The numerator factor of a quarter of the unit. -/
def factor (b : Binary) : Nat := Nat.pow 2 (b.exponent - 2).toNat

/-- Of the two multiples of `10 ^ k` around the magnitude the one that rounds back to it; of two
the nearer, of two equally near ones the even one. -/
def neighbour? (b : Binary) (k : Int) : Option Nat :=
  let scale := b.factor * Nat.pow 10 (-k).toNat
  let unit := b.den * Nat.pow 10 k.toNat
  let low := b.low * scale
  let mid := b.mid * scale
  let high := b.high * scale
  let fits (d : Nat) : Bool :=
    if b.endsIncluded then low ≤ d * unit && d * unit ≤ high
    else low < d * unit && d * unit < high
  let d := mid / unit
  if fits d then
    if fits (d + 1) then
      if 2 * mid < (2 * d + 1) * unit then some d
      else if (2 * d + 1) * unit < 2 * mid then some (d + 1)
      else if d % 2 = 0 then some d else some (d + 1)
    else some d
  else if fits (d + 1) then some (d + 1) else none

end Binary

/-- Move the zeros at the end of the digits into the exponent. -/
def Scaled.strip (s : Scaled) : Scaled :=
  if s.digits = 0 then ⟨0, 0⟩
  else if s.digits % 10 = 0 then strip ⟨s.digits / 10, s.exponent + 1⟩ else s
termination_by s.digits
decreasing_by omega

/-- The shortest decimal that rounds to a number, without its sign; no zeros at its end. -/
def shortest (b : Binary) : Scaled :=
  if b.mantissa = 0 then ⟨0, 0⟩
  else
    let e := leadingExponent (b.mid * b.factor) b.den
    let found := (List.range 17).findSome? fun (n : Nat) =>
      let k := e - (n + 1)
      (b.neighbour? k).map fun d => Scaled.mk d k
    (found.getD ⟨0, 0⟩).strip

end Spreadsheet.Decimal
