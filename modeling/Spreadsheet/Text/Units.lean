/-!
# Sixteen-bit units

Characters beyond the first plane are written as two units of sixteen bits, a high and a low half.
Where escapes name units one by one, the two halves of a pair are one character. A half on its own
is none, yet it has to be kept as it is: a character of the last plane, which is left to private
use, stands for it.

* `units`: a character as units; `ofUnits`: units as characters;
* `ofHalf`, `half?`: a half on its own; `half?_ofHalf` says it is kept;
* `codePoint`: the code point of a character or of the half that it stands for.
-/

namespace Spreadsheet.Text

/-- The first half of a pair. -/
def isHigh (u : Nat) : Bool := 0xD800 ≤ u && u < 0xDC00

/-- The second half of a pair. -/
def isLow (u : Nat) : Bool := 0xDC00 ≤ u && u < 0xE000

/-- What stands for a half on its own. -/
def ofHalf (u : Nat) : Char := Char.ofNat (0x100000 + u)

/-- The half that a character stands for. -/
def half? (c : Char) : Option Nat :=
  let u := c.toNat - 0x100000
  if isHigh u || isLow u then some u else none

/-- The code point of a character, or the half that it stands for. -/
def codePoint (c : Char) : Nat := (half? c).getD c.toNat

/-- A character as sixteen-bit units. -/
def units (c : Char) : List Nat :=
  let n := codePoint c
  if n < 0x10000 then [n] else [0xD800 + (n - 0x10000) / 0x400, 0xDC00 + (n - 0x10000) % 0x400]

/-- The character of a unit on its own. -/
def ofUnit (u : Nat) : Char := if isHigh u || isLow u then ofHalf u else Char.ofNat u

/-- The character of a pair. -/
def ofPair (high low : Nat) : Char :=
  Char.ofNat (0x10000 + (high - 0xD800) * 0x400 + (low - 0xDC00))

/-- The characters that units write; code points beyond sixteen bits stand for themselves. -/
def ofUnits : List Nat → List Char
  | [] => []
  | [u] => [ofUnit u]
  | u :: v :: rest =>
    if isHigh u && isLow v then ofPair u v :: ofUnits rest else ofUnit u :: ofUnits (v :: rest)

/-! ## Small laws -/

/-- A half that is kept is found again. -/
theorem half?_ofHalf {u : Nat} (h : (isHigh u || isLow u) = true) : half? (ofHalf u) = some u := by
  have hu : 0xD800 ≤ u ∧ u < 0xE000 := by
    simp only [isHigh, isLow, Bool.or_eq_true, Bool.and_eq_true, decide_eq_true_eq] at h
    omega
  have hv : (0x100000 + u).isValidChar := by simp only [Nat.isValidChar]; omega
  have he : ofHalf u = Char.ofNatAux (0x100000 + u) hv := dif_pos hv
  have : (ofHalf u).toNat = 0x100000 + u := by rw [he]; rfl
  simp [half?, this, h]

end Spreadsheet.Text
