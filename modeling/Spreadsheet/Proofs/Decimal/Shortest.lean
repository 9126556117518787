import Spreadsheet.Decimal.Shortest
import Spreadsheet.Proofs.Decimal.Scientific

/-!
# The shortest decimal of a double rounds to it

A decimal is tried on one grid after the other, each ten times as fine as the one before. What is
found on a grid lies in the rounding interval, and something is found with seventeen digits at the
latest, for then the grid is finer than the interval is wide. A whole number is found on the grid of
the whole numbers, if not before.

* `Scaled.magnitude`; `leadingExponent_spec`: the grid of the first digit;
* `Binary.fits`: a place on a grid; `fits_iff`: it is in the rounding interval;
* `exists_neighbour?_of_fine`: seventeen digits; `isWhole_iff`, `exists_neighbour?_of_whole`: whole
  numbers;
* **`shortest_spec`**: what is found.
-/

namespace Spreadsheet.Decimal

variable {b : Binary} {num den n d : Nat} {k e : Int} {s : Scaled}

/-- The magnitude of a decimal. -/
def Scaled.magnitude (s : Scaled) : ℚ := s.digits * 10 ^ s.exponent

/-- A power as a fraction of whole numbers. -/
theorem zpow_eq_div {x : ℚ} (hx : x ≠ 0) (e : Int) : x ^ e = x ^ e.toNat / x ^ (-e).toNat := by
  conv_lhs => rw [← Int.toNat_sub_toNat_neg e, zpow_sub₀ hx, zpow_natCast, zpow_natCast]

/-! ## The first digit -/

theorem lt_pow_countDigits (n : Nat) : n < 10 ^ countDigits n := lt_pow_length_toDigits n

theorem pow_countDigits_le (hn : 0 < n) : (10 : ℚ) ^ ((countDigits n : Int) - 1) ≤ n := by
  have hle : (10 : ℚ) ^ (countDigits n - 1) ≤ n := by exact_mod_cast pow_length_toDigits_le hn
  have hpos : 0 < countDigits n := Nat.length_toDigits_pos
  rw [← Nat.cast_one, ← Nat.cast_sub hpos, zpow_natCast]
  exact hle

/-- The power of ten just above a fraction. -/
theorem leadingExponent_spec (hnum : 0 < num) (hden : 0 < den) :
    (10 : ℚ) ^ (leadingExponent num den - 1) ≤ num / den ∧
      (num : ℚ) / den < 10 ^ leadingExponent num den := by
  have hnum' : (0 : ℚ) < num := by exact_mod_cast hnum
  have hden' : (0 : ℚ) < den := by exact_mod_cast hden
  unfold leadingExponent
  split
  · rename_i hle
    have hquotient : 0 < num / den := Nat.div_pos hle hden
    have hfloor : ((num / den : Nat) : ℚ) ≤ num / den := Nat.cast_div_le
    have hnext : (num : ℚ) / den < (num / den : Nat) + 1 := by
      rw [div_lt_iff₀ hden']
      exact_mod_cast Nat.lt_mul_of_div_lt (Nat.lt_succ_self _) hden
    have hlt : ((num / den : Nat) : ℚ) + 1 ≤ 10 ^ countDigits (num / den) := by
      exact_mod_cast lt_pow_countDigits (num / den)
    exact ⟨(pow_countDigits_le hquotient).trans hfloor, by
      rw [zpow_natCast]
      exact hnext.trans_le hlt⟩
  · rename_i hlt
    -- the fraction is less than one: its first digit is told by the inverse
    obtain ⟨q, hq⟩ : ∃ q, (den - 1) / num = q := ⟨_, rfl⟩
    have hpos : 0 < q := hq ▸ Nat.div_pos (by omega) hnum
    have hfloor : q * num < den := by
      have hle := Nat.div_mul_le_self (den - 1) num
      rw [hq] at hle
      omega
    have hnext : den ≤ (q + 1) * num := by
      have hlt := Nat.lt_mul_of_div_lt (hq.trans_lt (Nat.lt_succ_self q)) hnum
      rw [mul_comm]
      have hlt' : den - 1 < num * (q + 1) := by rwa [mul_comm] at hlt
      omega
    rw [hq]
    constructor
    · have hle : (den : ℚ) ≤ 10 ^ countDigits q * num := by
        exact_mod_cast hnext.trans (Nat.mul_le_mul_right _ (lt_pow_countDigits q))
      rw [show 1 - (countDigits q : Int) - 1 = -(countDigits q : Int) by ring, zpow_neg,
        zpow_natCast, le_div_iff₀ hden', inv_mul_le_iff₀ (by positivity)]
      exact hle
    · have hlt : (q : ℚ) * num < den := by exact_mod_cast hfloor
      have hle := pow_countDigits_le hpos
      rw [show 1 - (countDigits q : Int) = -((countDigits q : Int) - 1) by ring, zpow_neg,
        div_lt_iff₀ hden', lt_inv_mul_iff₀ (by positivity)]
      exact (mul_le_mul_of_nonneg_right hle hnum'.le).trans_lt hlt

/-! ## Places on a grid -/

namespace Binary

/-- A multiple of a power of ten lies in the rounding interval. -/
def fits (b : Binary) (k : Int) (d : Nat) : Bool :=
  let scale := b.factor * Nat.pow 10 (-k).toNat
  let unit := b.den * Nat.pow 10 k.toNat
  if b.endsIncluded then b.low * scale ≤ d * unit && d * unit ≤ b.high * scale
  else b.low * scale < d * unit && d * unit < b.high * scale

/-- The multiple of a power of ten right below a number. -/
def below (b : Binary) (k : Int) : Nat :=
  b.mid * (b.factor * Nat.pow 10 (-k).toNat) / (b.den * Nat.pow 10 k.toNat)

theorem neighbour?_eq (b : Binary) (k : Int) : b.neighbour? k =
    let mid := b.mid * (b.factor * Nat.pow 10 (-k).toNat)
    let unit := b.den * Nat.pow 10 k.toNat
    let d := b.below k
    if b.fits k d then
      if b.fits k (d + 1) then
        if 2 * mid < (2 * d + 1) * unit then some d
        else if (2 * d + 1) * unit < 2 * mid then some (d + 1)
        else if d % 2 = 0 then some d else some (d + 1)
      else some d
    else if b.fits k (d + 1) then some (d + 1) else none := rfl

/-- What is found on a grid fits. -/
theorem fits_of_neighbour? (h : b.neighbour? k = some d) : b.fits k d = true := by
  rw [neighbour?_eq] at h
  dsimp only at h
  split_ifs at h <;> obtain rfl := Option.some.inj h <;> assumption

/-- Something is found on a grid if one of the two places around the number fits. -/
theorem exists_neighbour? (h : b.fits k (b.below k) = true ∨ b.fits k (b.below k + 1) = true) :
    ∃ d, b.neighbour? k = some d := by
  rw [neighbour?_eq]
  dsimp only
  by_cases hd : b.fits k (b.below k) = true
  · rw [if_pos hd]
    split_ifs <;> exact ⟨_, rfl⟩
  · rw [if_neg hd, if_pos (h.resolve_left hd)]
    exact ⟨_, rfl⟩

theorem factor_div_den (b : Binary) : (b.factor : ℚ) / b.den = 2 ^ (b.exponent - 2) := by
  rw [factor, den, zpow_eq_div two_ne_zero, neg_sub, Nat.pow_eq, Nat.pow_eq]
  push_cast
  rfl

theorem den_pos (b : Binary) : 0 < b.den := Nat.pow_pos (by norm_num)

/-- Whole numbers are compared as the fractions are that they stand for. -/
theorem mul_div_unit (b : Binary) (k : Int) (n : Nat) :
    ((n * (b.factor * Nat.pow 10 (-k).toNat) : Nat) : ℚ) / (b.den * Nat.pow 10 k.toNat : Nat) =
      n * 2 ^ (b.exponent - 2) / 10 ^ k := by
  have hden : (b.den : ℚ) ≠ 0 := by exact_mod_cast b.den_pos.ne'
  rw [← factor_div_den, zpow_eq_div (by norm_num : (10 : ℚ) ≠ 0) k, Nat.pow_eq, Nat.pow_eq]
  push_cast
  field_simp

theorem fits_iff (b : Binary) (k : Int) (d : Nat) :
    b.fits k d = true ↔ b.Attracts (d * 10 ^ k) := by
  have hunit : (0 : ℚ) < (b.den * Nat.pow 10 k.toNat : Nat) := by
    exact_mod_cast Nat.mul_pos b.den_pos (Nat.pow_pos (by norm_num))
  have hpower : (0 : ℚ) < 10 ^ k := by positivity
  have hle (n : Nat) : n * (b.factor * Nat.pow 10 (-k).toNat) ≤ d * (b.den * Nat.pow 10 k.toNat) ↔
      (n * 2 ^ (b.exponent - 2) : ℚ) ≤ d * 10 ^ k := by
    rw [← div_le_iff₀ hpower, ← mul_div_unit, div_le_iff₀ hunit]
    exact_mod_cast Iff.rfl
  have hge (n : Nat) : d * (b.den * Nat.pow 10 k.toNat) ≤ n * (b.factor * Nat.pow 10 (-k).toNat) ↔
      (d * 10 ^ k : ℚ) ≤ n * 2 ^ (b.exponent - 2) := by
    rw [← le_div_iff₀ hpower, ← mul_div_unit, le_div_iff₀ hunit]
    exact_mod_cast Iff.rfl
  unfold fits Attracts
  dsimp only
  split
  · rw [Bool.and_eq_true, decide_eq_true_iff, decide_eq_true_iff, hle, hge]
  · rw [Bool.and_eq_true, decide_eq_true_iff, decide_eq_true_iff, ← not_le, ← not_le, ← not_le,
      ← not_le, hle, hge]

/-- A number lies between two places of a grid. -/
theorem below_spec (b : Binary) (k : Int) :
    b.below k * (10 : ℚ) ^ k ≤ b.magnitude ∧ b.magnitude < (b.below k + 1) * (10 : ℚ) ^ k := by
  have hpower : (0 : ℚ) < 10 ^ k := by positivity
  have hunit : 0 < b.den * Nat.pow 10 k.toNat :=
    Nat.mul_pos b.den_pos (Nat.pow_pos (by norm_num))
  rw [← le_div_iff₀ hpower, ← div_lt_iff₀ hpower, magnitude_eq_mid, ← mul_div_unit]
  refine ⟨Nat.cast_div_le, ?_⟩
  rw [div_lt_iff₀ (by exact_mod_cast hunit)]
  exact_mod_cast Nat.lt_mul_of_div_lt (Nat.lt_succ_self _) hunit

/-- **Seventeen digits** are enough: the grid is finer than the rounding interval is wide. -/
theorem exists_neighbour?_of_fine (hb : b.Canonical) (hk : 10 ^ 16 * (10 : ℚ) ^ k ≤ b.magnitude) :
    ∃ d, b.neighbour? k = some d := by
  apply exists_neighbour?
  rw [fits_iff, fits_iff]
  obtain ⟨hbelow, habove⟩ := b.below_spec k
  have hunit : (0 : ℚ) < 2 ^ (b.exponent - 2) := by positivity
  have hlt : (b.mantissa : ℚ) + 1 ≤ 2 ^ 53 := by exact_mod_cast hb.lt
  have hmid : b.magnitude = 4 * b.mantissa * 2 ^ (b.exponent - 2) := by
    rw [magnitude_eq_mid, mid]
    push_cast
    rfl
  have hgrid : (10 : ℚ) ^ k < 4 * 2 ^ (b.exponent - 2) := by nlinarith
  by_cases hboundary : b.isBoundary = true
  · have hfull : (b.mantissa : ℚ) = 2 ^ 52 := by
      exact_mod_cast ((isBoundary_iff b).1 hboundary).1
    have hgrid' : (10 : ℚ) ^ k < 2 * 2 ^ (b.exponent - 2) := by
      rw [hmid, hfull] at hk
      linarith
    refine .inr (attracts_of_lt ?_ ?_)
    · rw [cast_low hb.pos, if_pos hboundary, Nat.cast_add_one]
      linarith
    · rw [cast_high, Nat.cast_add_one]
      linarith
  · rcases le_or_gt (b.magnitude - b.below k * 10 ^ k) (10 ^ k / 2) with hnear | hfar
    · refine .inl (attracts_of_lt ?_ ?_)
      · rw [cast_low hb.pos, if_neg hboundary]
        linarith
      · rw [cast_high]
        linarith
    · refine .inr (attracts_of_lt ?_ ?_)
      · rw [cast_low hb.pos, if_neg hboundary, Nat.cast_add_one]
        linarith
      · rw [cast_high, Nat.cast_add_one]
        linarith

/-- A whole number is on the grid of the whole numbers. -/
theorem exists_neighbour?_of_whole (hpos : 0 < b.mantissa) {n : Nat} (hn : b.magnitude = n) :
    ∃ d, b.neighbour? 0 = some d := by
  obtain ⟨hbelow, habove⟩ := b.below_spec 0
  rw [zpow_zero, mul_one, hn] at hbelow habove
  have hle : b.below 0 ≤ n := by exact_mod_cast hbelow
  have hlt : n < b.below 0 + 1 := by exact_mod_cast habove
  obtain rfl : b.below 0 = n := by omega
  apply exists_neighbour?
  rw [fits_iff, zpow_zero, mul_one, ← hn]
  exact .inl (attracts_magnitude hpos)

/-- A number is told to be an integer if it is one. -/
theorem isWhole_iff (b : Binary) : b.isWhole = true ↔ ∃ n : Nat, b.magnitude = n := by
  have hunit : (2 : ℚ) ^ (-b.exponent).toNat ≠ 0 := by positivity
  have hmagnitude (n : Nat) : b.magnitude = n ↔
      b.mantissa * 2 ^ b.exponent.toNat = n * 2 ^ (-b.exponent).toNat := by
    rw [magnitude, zpow_eq_div two_ne_zero, ← mul_div_assoc, div_eq_iff hunit]
    exact_mod_cast Iff.rfl
  simp only [hmagnitude, isWhole, beq_iff_eq, Nat.pow_eq, ← Nat.dvd_iff_mod_eq_zero]
  constructor
  · rintro ⟨n, hn⟩
    exact ⟨n * 2 ^ b.exponent.toNat, by rw [hn]; ring⟩
  · rintro ⟨n, hn⟩
    rcases le_total 0 b.exponent with hexponent | hexponent
    · rw [Int.toNat_of_nonpos (neg_nonpos.2 hexponent)]
      exact one_dvd _
    · rw [Int.toNat_of_nonpos hexponent, pow_zero, mul_one] at hn
      exact ⟨n, by rw [hn, mul_comm]⟩

end Binary

/-! ## The search -/

theorem Scaled.strip_spec (s : Scaled) (hs : s.digits ≠ 0) :
    s.strip.digits ≠ 0 ∧ s.exponent ≤ s.strip.exponent ∧ s.strip.magnitude = s.magnitude := by
  induction s using Scaled.strip.induct with
  | case1 s hzero => exact absurd hzero hs
  | case2 s hpos htens ih =>
    rw [Scaled.strip, if_neg hpos, if_pos htens]
    obtain ⟨hdigits, hexponent, hmagnitude⟩ := ih (by dsimp only; omega)
    refine ⟨hdigits, by dsimp only at hexponent; omega, hmagnitude.trans ?_⟩
    have htenth : (s.digits : ℚ) = (s.digits / 10 : Nat) * 10 := by
      exact_mod_cast (Nat.div_mul_cancel (Nat.dvd_of_mod_eq_zero htens)).symm
    rw [Scaled.magnitude, Scaled.magnitude, htenth, zpow_add_one₀ (by norm_num)]
    ring
  | case3 s hpos hlast =>
    rw [Scaled.strip, if_neg hpos, if_neg hlast]
    exact ⟨hs, le_rfl, rfl⟩

/-- A search that finds something finds the first of all. -/
theorem findSome?_range {α : Type} {f : Nat → Option α} {N : Nat} (h : ∃ n < N, ∃ y, f n = some y) :
    ∃ n y, f n = some y ∧ (List.range N).findSome? f = some y ∧ ∀ i < n, f i = none := by
  induction N with
  | zero => obtain ⟨n, hn, -⟩ := h; exact absurd hn n.not_lt_zero
  | succ N ih =>
    rw [List.range_succ, List.findSome?_append]
    by_cases hbefore : ∃ n < N, ∃ y, f n = some y
    · obtain ⟨n, y, hy, hfound, hfirst⟩ := ih hbefore
      exact ⟨n, y, hy, by rw [hfound, Option.some_or], hfirst⟩
    · have hnone : ∀ i < N, f i = none := fun i hi => by
        by_contra hne
        obtain ⟨y, hy⟩ := Option.ne_none_iff_exists'.1 hne
        exact hbefore ⟨i, hi, y, hy⟩
      obtain ⟨n, hn, y, hy⟩ := h
      obtain rfl : n = N := by
        by_contra hne
        exact hbefore ⟨n, by omega, y, hy⟩
      refine ⟨n, y, hy, ?_, hnone⟩
      rw [List.findSome?_eq_none_iff.2 fun i hi => hnone i (List.mem_range.1 hi), Option.none_or,
        List.findSome?_singleton, hy]

/-- **What is found** is not zero and rounds to the number, and of a whole number it has nothing
behind the point. -/
theorem shortest_spec (hb : b.Canonical) : (shortest b).digits ≠ 0 ∧
    b.Attracts (shortest b).magnitude ∧ (b.isWhole = true → 0 ≤ (shortest b).exponent) := by
  obtain ⟨e, he⟩ : ∃ e, leadingExponent (b.mid * b.factor) b.den = e := ⟨_, rfl⟩
  have hfraction : ((b.mid * b.factor : Nat) : ℚ) / b.den = b.magnitude := by
    rw [b.magnitude_eq_mid, ← b.factor_div_den]
    push_cast
    ring
  have hnum : 0 < b.mid * b.factor :=
    Nat.mul_pos (Nat.mul_pos (by norm_num) hb.pos) (Nat.pow_pos (by norm_num))
  have hleading := leadingExponent_spec hnum b.den_pos
  rw [hfraction, he] at hleading
  obtain ⟨hlow, hhigh⟩ := hleading
  have hsome : ∃ n < 17, ∃ s, (b.neighbour? (e - ((n : Nat) + 1))).map
      (fun d => Scaled.mk d (e - ((n : Nat) + 1))) = some s := by
    have hfine : 10 ^ 16 * (10 : ℚ) ^ (e - ((16 : Nat) + 1)) ≤ b.magnitude := by
      refine le_trans (le_of_eq ?_) hlow
      rw [← zpow_natCast, ← zpow_add₀ (by norm_num)]
      congr 1
      push_cast
      ring
    obtain ⟨d, hd⟩ := Binary.exists_neighbour?_of_fine hb hfine
    exact ⟨16, by norm_num, _, by rw [hd]; rfl⟩
  obtain ⟨n, s, hn, hfound, hfirst⟩ := findSome?_range hsome
  obtain ⟨d, hd, rfl⟩ := Option.map_eq_some_iff.1 hn
  have hattracts : b.Attracts (d * 10 ^ (e - (n + 1))) :=
    (Binary.fits_iff ..).1 (Binary.fits_of_neighbour? hd)
  have hshortest : shortest b = (Scaled.mk d (e - (n + 1))).strip := by
    unfold shortest
    dsimp only
    rw [if_neg hb.pos.ne', he, hfound, Option.getD_some]
  have hdigits : d ≠ 0 := by
    rintro rfl
    have hpos := hattracts.pos hb.pos
    simp at hpos
  obtain ⟨hne, hle, hmagnitude⟩ := (Scaled.mk d (e - (n + 1))).strip_spec hdigits
  rw [hshortest, hmagnitude]
  refine ⟨hne, hattracts, fun hwhole => le_trans ?_ hle⟩
  -- the grid of the whole numbers has been tried before any finer one
  by_contra hneg
  dsimp only at hneg
  obtain ⟨m, hm⟩ := (Binary.isWhole_iff b).1 hwhole
  have hone : (1 : ℚ) ≤ b.magnitude := by
    have hpos := Binary.magnitude_pos hb.pos
    rw [hm] at hpos ⊢
    exact_mod_cast hpos
  have hpos : 0 < e := by
    refine (zpow_lt_zpow_iff_right₀ (by norm_num : (1 : ℚ) < 10)).1 ?_
    rw [zpow_zero]
    exact hone.trans_lt hhigh
  obtain ⟨i, hi⟩ : ∃ i : Nat, e = i + 1 := ⟨(e - 1).toNat, by omega⟩
  have hnone := hfirst i (by omega)
  obtain ⟨d', hd'⟩ := Binary.exists_neighbour?_of_whole hb.pos hm
  rw [show e - ((i : Int) + 1) = 0 by omega, hd'] at hnone
  cases hnone

end Spreadsheet.Decimal
