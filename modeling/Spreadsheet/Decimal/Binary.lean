/-!
# Doubles as binary fractions

A finite double is a sign and a whole number of units, a unit being a power of two. The reals that
round to it form an interval around it, given here in quarters of the unit so that its ends are
whole numbers too.

* `Binary`: sign, mantissa and exponent; `Binary.ofFloat?` reads them off the bits;
* `Binary.low`, `Binary.high`: the ends of the rounding interval; `low_lt_mid`, `mid_lt_high`;
* `Binary.isWhole`: the value is an integer.
-/

namespace Spreadsheet.Decimal

/-- The number `mantissa * 2 ^ exponent`, negated if `negative`. -/
structure Binary where
  negative : Bool
  mantissa : Nat
  exponent : Int
  deriving DecidableEq, Repr

namespace Binary

/-- The parts of a finite double; none for an infinity and for what is no number. -/
def ofFloat? (x : Float) : Option Binary :=
  let bits : Nat := x.toBits.toNat
  let fraction : Nat := bits % Nat.pow 2 52
  let power : Nat := bits / Nat.pow 2 52 % Nat.pow 2 11
  let negative := bits / Nat.pow 2 63 == 1
  if power = Nat.pow 2 11 - 1 then none
  else if power = 0 then some ⟨negative, fraction, -1074⟩
  else some ⟨negative, fraction + Nat.pow 2 52, (power : Int) - 1075⟩

/-- The double below is only half a unit away: the mantissa is the least one of its exponent, and
the exponent is not the least of all. -/
def isBoundary (b : Binary) : Bool := b.mantissa == Nat.pow 2 52 && b.exponent != -1074

/-- The magnitude in quarters of the unit. -/
def mid (b : Binary) : Nat := 4 * b.mantissa

/-- The lower end of the magnitudes that round to the number, in quarters of the unit. -/
def low (b : Binary) : Nat := 4 * b.mantissa - if b.isBoundary then 1 else 2

/-- The upper end of the magnitudes that round to the number, in quarters of the unit. -/
def high (b : Binary) : Nat := 4 * b.mantissa + 2

/-- The ends of the interval round to the number themselves: ties go to even mantissas. -/
def endsIncluded (b : Binary) : Bool := b.mantissa % 2 == 0

/-- The value is an integer. -/
def isWhole (b : Binary) : Bool :=
  b.mantissa % Nat.pow 2 (-b.exponent).toNat == 0

/-- The value without what it has behind the point. -/
def truncated (b : Binary) : Int :=
  let m : Nat := if 0 ≤ b.exponent then b.mantissa * Nat.pow 2 b.exponent.toNat
    else b.mantissa / Nat.pow 2 (-b.exponent).toNat
  if b.negative then -(m : Int) else m

theorem low_lt_mid {b : Binary} (h : 0 < b.mantissa) : b.low < b.mid := by
  unfold low mid; split <;> omega

theorem mid_lt_high (b : Binary) : b.mid < b.high := by unfold mid high; omega

end Binary

end Spreadsheet.Decimal
