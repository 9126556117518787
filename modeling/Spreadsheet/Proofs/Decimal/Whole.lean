import Spreadsheet.Proofs.Decimal.Reading

/-!
# Whole numbers are shown in full

Whole numbers below ten to the twenty-first are shown as people write them: digits, the first of
which is not zero, and a minus sign in front if they are negative. Whether a double is that small is
told by its parts, the exponent first.

* `Binary.value`; `Canonical.compare_eq_lt`, `abs_lt_fullBelow`: small numbers;
* `PlainDigits`; **`display_whole`**: the text of a whole number.
-/

namespace Spreadsheet

namespace Decimal

variable {b b' : Binary}

/-! ## Sizes -/

/-- The number that a binary fraction is. -/
def Binary.value (b : Binary) : ℚ := if b.negative then -b.magnitude else b.magnitude

theorem Binary.abs_value (b : Binary) : |b.value| = b.magnitude := by
  have hnonneg : 0 ≤ b.magnitude := mul_nonneg (by positivity) (by positivity)
  unfold value
  split
  · rw [abs_neg, abs_of_nonneg hnonneg]
  · exact abs_of_nonneg hnonneg

/-- Of two doubles the one with the greater exponent is the greater one. -/
theorem Binary.Canonical.compare_eq_lt (hb : b.Canonical) (hb' : b'.Canonical)
    (h : b.magnitude < b'.magnitude) :
    (compare b.exponent b'.exponent).then (compare b.mantissa b'.mantissa) = .lt := by
  rcases lt_trichotomy b.exponent b'.exponent with hlt | heq | hgt
  · rw [compare_lt_iff_lt.2 hlt]
    rfl
  · rw [magnitude, magnitude, heq, mul_lt_mul_iff_left₀ (by positivity)] at h
    rw [compare_eq_iff_eq.2 heq, Ordering.eq_then, compare_lt_iff_lt]
    exact_mod_cast h
  · -- the greater exponent is not the least of all, so that the mantissa has all its places
    have hleast := hb'.least
    have hfull : (2 : ℚ) ^ 52 ≤ b.mantissa := by
      exact_mod_cast hb.full.resolve_right (by omega)
    have hlt : (b'.mantissa : ℚ) < 2 ^ 53 := by exact_mod_cast hb'.lt
    have hexponent : (2 : ℚ) ^ (b'.exponent + 1) ≤ 2 ^ b.exponent :=
      zpow_le_zpow_right₀ (by norm_num) (by omega)
    have hle : b'.magnitude ≤ b.magnitude :=
      calc b'.magnitude ≤ 2 ^ 53 * 2 ^ b'.exponent :=
            mul_le_mul_of_nonneg_right hlt.le (by positivity)
        _ = 2 ^ 52 * 2 ^ (b'.exponent + 1) := by rw [zpow_add_one₀ two_ne_zero]; ring
        _ ≤ b.magnitude := mul_le_mul hfull hexponent (by positivity) (by positivity)
    exact absurd h (not_lt.2 hle)

/-! ## Digits -/

/-- Digits as people write them: no zero in front. -/
structure PlainDigits (ds : List Char) : Prop where
  ne_nil : ds ≠ []
  digits : ∀ c ∈ ds, c.isDigit = true
  front : ds.head? ≠ some '0'

theorem head?_natDigits {n : Nat} (hn : n ≠ 0) : (natDigits n).head? ≠ some '0' := by
  intro hhead
  have hdrop := dropWhile_zero (isDigit_natDigits n)
  rw [ofDigits_natDigits, if_neg hn] at hdrop
  obtain ⟨ds, hds⟩ := List.head?_eq_some_iff.1 hhead
  change _ = natDigits n at hdrop
  rw [hds, List.dropWhile_cons_of_pos rfl] at hdrop
  have hlength := congrArg List.length hdrop
  have hle := (List.dropWhile_suffix (l := ds) (· == '0')).length_le
  rw [List.length_cons] at hlength
  omega

/-- The digits of a whole number that is not zero, filled up with zeros. -/
theorem plainDigits_natDigits {n : Nat} (hn : n ≠ 0) (j : Nat) :
    PlainDigits (natDigits n ++ List.replicate j '0') where
  ne_nil := List.append_ne_nil_of_left_ne_nil (natDigits_ne_nil n) _
  digits := isDigit_append (isDigit_natDigits n) (isDigit_zeros j)
  front := by
    rw [List.head?_append_of_ne_nil _ (natDigits_ne_nil n)]
    exact head?_natDigits hn

end Decimal

namespace Formula

open Decimal

variable {x : Float} {b : Binary} {n : Int}

/-! ## Whole numbers -/

/-- Numbers are shown in full below ten to the twenty-first. -/
theorem abs_lt_fullBelow (hb : Binary.ofFloat? x = some b) (hne : b.mantissa ≠ 0)
    (hlt : b.magnitude < 10 ^ 21) : x.abs < fullBelow := by
  have hparts : Binary.ofFloat? fullBelow = some ⟨false, 7629394531250000, 17⟩ := by
    decide
  have hmagnitude : (Binary.mk false 7629394531250000 17).magnitude = 10 ^ 21 := by
    rw [Binary.magnitude]
    norm_num
  obtain ⟨hc, hlarge, hunpack⟩ := (unpack_of_ofFloat? hb).resolve_left fun h => hne h.1
  obtain ⟨hfull, -, hbound⟩ := (unpack_of_ofFloat? hparts).resolve_left (by simp)
  have hcompare := hc.compare_eq_lt hfull (hmagnitude ▸ hlt)
  have hless : x.abs.toModel.unpack.lt fullBelow.toModel.unpack = true := by
    rw [hbound, unpack_abs hc hlarge hunpack]
    exact congrArg (fun o => some o == some Ordering.lt) hcompare
  exact decide_eq_true hless

/-- The sign that is shown is the sign of the number. -/
theorem sign_eq (hb : b.Canonical) (hn : b.value = n) :
    (b.negative && b.mantissa != 0) = decide (n < 0) := by
  have hpos := Binary.magnitude_pos hb.pos
  rw [Binary.value] at hn
  cases hnegative : b.negative with
  | true =>
    rw [hnegative, if_pos rfl] at hn
    have hneg : (n : ℚ) < 0 := by linarith
    have hneg' : n < 0 := by exact_mod_cast hneg
    simp [hb.pos.ne', hneg']
  | false =>
    rw [hnegative, if_neg Bool.false_ne_true] at hn
    have hnonneg : (0 : ℚ) ≤ n := by linarith
    have hnonneg' : 0 ≤ n := by exact_mod_cast hnonneg
    simp [hnonneg']

/-- **A whole number** that is not too large is shown as digits, after a minus sign if it is
negative. -/
theorem display_whole (hb : Binary.ofFloat? x = some b) (hn : b.value = n) (hlt : |n| < 10 ^ 21) :
    if n = 0 then display x = "0" else ∃ ds, PlainDigits ds ∧
      display x = String.ofList ((if n < 0 then ['-'] else []) ++ ds) := by
  have hmagnitude : b.magnitude = n.natAbs := by
    rw [← b.abs_value, hn, ← Int.cast_abs, Int.abs_eq_natAbs, Int.cast_natCast]
  by_cases hzero : b.mantissa = 0
  · have hnone : n.natAbs = 0 := by
      rw [Binary.magnitude, hzero, Nat.cast_zero, zero_mul] at hmagnitude
      exact_mod_cast hmagnitude.symm
    rw [if_pos (Int.natAbs_eq_zero.1 hnone)]
    rcases eq_zero_of_ofFloat? hb hzero with rfl | rfl
    · exact display_zero.1
    · exact display_zero.2
  · obtain ⟨hc, -⟩ := (unpack_of_ofFloat? hb).resolve_left fun h => hzero h.1
    have hne : n ≠ 0 := by
      rintro rfl
      exact (Binary.magnitude_pos hc.pos).ne' (by simpa using hmagnitude)
    have hwhole : b.isWhole = true := b.isWhole_iff.2 ⟨_, hmagnitude⟩
    have hbelow : x.abs < fullBelow := by
      refine abs_lt_fullBelow hb hzero ?_
      rw [← b.abs_value, hn]
      exact_mod_cast hlt
    obtain ⟨hdigits, -, hexponent⟩ := shortest_spec hc
    obtain ⟨j, hj⟩ := Int.eq_ofNat_of_zero_le (hexponent hwhole)
    rw [if_neg hne]
    refine ⟨_, plainDigits_natDigits hdigits j, ?_⟩
    have hmark : wholeLayout.wholeMark = [] := rfl
    unfold display
    rw [hb]
    dsimp only
    rw [if_pos (by simp [hwhole, hbelow]), sign_eq hc hn, positional_of_nonneg hj, hmark,
      List.append_nil]
    simp only [decide_eq_true_eq]

end Formula

end Spreadsheet
