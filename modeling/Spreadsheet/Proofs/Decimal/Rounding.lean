import Spreadsheet.Proofs.Double

/-!
# Rounding to doubles

A product or quotient of doubles is computed as a whole number of units, together with what is known
of the part of a unit that is left. All that is done to round it is to shift it to the exponent that
its magnitude calls for, and to keep what is known of the part. So it becomes the double whose
rounding interval its exact magnitude lies in.

* `Binary.magnitude`; `Binary.Canonical`: the binary fractions that doubles are;
  `Binary.Attracts`: the rounding interval;
* `Holds`: what an approximation says of a magnitude; `Holds.shiftRight`;
* `roundedMantissa_eq`: rounding to a whole number; `placement`: the exponent that is called for;
* **`roundWithAccuracy_eq`**: rounding to a double.
-/

namespace Spreadsheet.Decimal

open Float.Model (Format UnpackedFloat totalExponent)
open Float.Model.UnpackedFloat (Accuracy ExtendedMantissa Sign roundWithAccuracy
  shiftToTargetExponent)

variable {em : ExtendedMantissa} {x v : ℚ} {m : Nat} {e : Int} {a : Accuracy}

/-! ## Intervals -/

namespace Binary

/-- The magnitude of a binary fraction. -/
def magnitude (b : Binary) : ℚ := b.mantissa * 2 ^ b.exponent

/-- A binary fraction that is not zero, as doubles are: the mantissa has all its places, unless the
exponent is the least one. -/
structure Canonical (b : Binary) : Prop where
  pos : 0 < b.mantissa
  lt : b.mantissa < 2 ^ 53
  least : -1074 ≤ b.exponent
  full : 2 ^ 52 ≤ b.mantissa ∨ b.exponent = -1074

/-- The magnitudes that round to a binary fraction. -/
def Attracts (b : Binary) (v : ℚ) : Prop :=
  if b.endsIncluded then
    b.low * (2 : ℚ) ^ (b.exponent - 2) ≤ v ∧ v ≤ b.high * (2 : ℚ) ^ (b.exponent - 2)
  else b.low * (2 : ℚ) ^ (b.exponent - 2) < v ∧ v < b.high * (2 : ℚ) ^ (b.exponent - 2)

variable {b : Binary}

theorem isBoundary_iff (b : Binary) :
    b.isBoundary = true ↔ b.mantissa = 2 ^ 52 ∧ b.exponent ≠ -1074 := by
  simp [isBoundary]

theorem magnitude_pos (hpos : 0 < b.mantissa) : 0 < b.magnitude :=
  mul_pos (by exact_mod_cast hpos) (by positivity)

theorem magnitude_eq_mid (b : Binary) : b.magnitude = b.mid * 2 ^ (b.exponent - 2) := by
  rw [magnitude, mid, zpow_sub₀ two_ne_zero]
  push_cast
  ring

theorem cast_low (hpos : 0 < b.mantissa) :
    (b.low : ℚ) = 4 * b.mantissa - if b.isBoundary then 1 else 2 := by
  rw [low, Nat.cast_sub (by split <;> omega)]
  split <;> push_cast <;> rfl

theorem cast_high (b : Binary) : (b.high : ℚ) = 4 * b.mantissa + 2 := by
  rw [high]
  push_cast
  rfl

theorem attracts_of_lt (hlow : b.low * (2 : ℚ) ^ (b.exponent - 2) < v)
    (hhigh : v < b.high * (2 : ℚ) ^ (b.exponent - 2)) : b.Attracts v := by
  unfold Attracts
  split
  · exact ⟨hlow.le, hhigh.le⟩
  · exact ⟨hlow, hhigh⟩

theorem attracts_magnitude (hpos : 0 < b.mantissa) : b.Attracts b.magnitude := by
  have hunit : (0 : ℚ) < 2 ^ (b.exponent - 2) := by positivity
  have hlow : (b.low : ℚ) < b.mid := by exact_mod_cast low_lt_mid hpos
  have hhigh : (b.mid : ℚ) < b.high := by exact_mod_cast b.mid_lt_high
  rw [magnitude_eq_mid]
  exact attracts_of_lt (mul_lt_mul_of_pos_right hlow hunit) (mul_lt_mul_of_pos_right hhigh hunit)

end Binary

/-! ## Approximations -/

/-- A number of units, of which the parts of a unit are known as far as they matter. -/
def Holds : ExtendedMantissa → ℚ → Prop
  | ⟨m, false, false⟩, x => x = m
  | ⟨m, false, true⟩, x => m < x ∧ x < m + 1 / 2
  | ⟨m, true, false⟩, x => x = m + 1 / 2
  | ⟨m, true, true⟩, x => m + 1 / 2 < x ∧ x < m + 1

theorem Holds.le (h : Holds em x) : em.mantissa ≤ x ∧ x < em.mantissa + 1 := by
  rcases em with ⟨m, _ | _, _ | _⟩ <;> simp only [Holds] at h ⊢ <;> constructor <;> linarith

/-- Half of the units, rounded down: what is left is known as before. -/
theorem Holds.shiftRightOne (h : Holds em x) : Holds em.shiftRightOne (x / 2) := by
  rcases em with ⟨m, r, s⟩
  rcases Nat.even_or_odd' m with ⟨n, rfl | rfl⟩
  · have hhalf : 2 * n / 2 = n := by omega
    have hrest : (2 * n % 2 != 0) = false := by simp
    cases r <;> cases s <;>
      simp only [Holds, ExtendedMantissa.shiftRightOne, hhalf, hrest, Bool.or_false, Bool.or_true,
        Nat.cast_mul, Nat.cast_ofNat] at h ⊢
    · linarith
    · exact ⟨by linarith, by linarith⟩
    · exact ⟨by linarith, by linarith⟩
    · exact ⟨by linarith, by linarith⟩
  · have hhalf : (2 * n + 1) / 2 = n := by omega
    have hrest : ((2 * n + 1) % 2 != 0) = true := by simp
    cases r <;> cases s <;>
      simp only [Holds, ExtendedMantissa.shiftRightOne, hhalf, hrest, Bool.or_false, Bool.or_true,
        Nat.cast_mul, Nat.cast_ofNat, Nat.cast_add, Nat.cast_one] at h ⊢
    · linarith
    · exact ⟨by linarith, by linarith⟩
    · exact ⟨by linarith, by linarith⟩
    · exact ⟨by linarith, by linarith⟩

theorem Holds.shiftRight (h : Holds em x) (n : Nat) : Holds (em >>> n) (x / 2 ^ n) := by
  induction n with
  | zero =>
    rw [pow_zero, div_one]
    exact h
  | succ n ih =>
    have hhalf := ih.shiftRightOne
    rw [div_div, ← pow_succ] at hhalf
    exact hhalf

/-- **Rounding to a whole number** finds the nearest one, and of two the even one. -/
theorem roundedMantissa_eq (h : Holds em x) {M : Nat}
    (hM : |x - M| < 1 / 2 ∨ |x - M| ≤ 1 / 2 ∧ M % 2 = 0) : em.roundedMantissa = M := by
  have hle : |x - M| ≤ 1 / 2 := hM.elim le_of_lt And.left
  obtain ⟨hlow, hhigh⟩ := abs_le.1 hle
  have hcast (n k : Nat) (hlow : (n : ℚ) < k + 1) (hhigh : (k : ℚ) < n + 1) : n = k := by
    have h1 : n < k + 1 := by exact_mod_cast hlow
    have h2 : k < n + 1 := by exact_mod_cast hhigh
    omega
  rcases em with ⟨m, _ | _, _ | _⟩ <;>
    simp only [Holds, ExtendedMantissa.roundedMantissa, ExtendedMantissa.accuracy,
      Accuracy.roundToNearestEven] at h ⊢
  · exact hcast m M (by linarith) (by linarith)
  · exact hcast m M (by linarith) (by linarith)
  · -- a tie: the nearest number is one of the two, and it is even
    subst h
    have heven : M % 2 = 0 := by
      refine (hM.resolve_left fun hlt => ?_).2
      obtain ⟨hlow', hhigh'⟩ := abs_lt.1 hlt
      have h1 : (m : ℚ) < M := by linarith
      have h2 : (M : ℚ) < m + 1 := by linarith
      have h3 : m < M := by exact_mod_cast h1
      have h4 : M < m + 1 := by exact_mod_cast h2
      omega
    have h1 : (m : ℚ) ≤ M := by linarith
    have h2 : (M : ℚ) ≤ m + 1 := by linarith
    have h3 : m ≤ M := by exact_mod_cast h1
    have h4 : M ≤ m + 1 := by exact_mod_cast h2
    omega
  · refine hcast (m + 1) M ?_ ?_ <;> push_cast <;> linarith

/-! ## Exponents -/

/-- The exponent that a magnitude calls for. -/
def placement (v : ℚ) : Int := max (Int.log 2 v - 52) (-1074)

theorem targetExponent_eq (t : Int) :
    Format.binary64.targetExponent t = max (t - 53) (-1074) := by
  simp [Format.targetExponent, Format.mantissaBits, Format.minExponent]

theorem zpow_log2_le (hm : 0 < m) (e : Int) : (2 : ℚ) ^ (totalExponent m e - 1) ≤ m * 2 ^ e := by
  have hlog : (2 : ℚ) ^ m.log2 ≤ m := by exact_mod_cast Nat.log2_self_le hm.ne'
  rw [totalExponent, show (m.log2 : Int) + 1 + e - 1 = m.log2 + e by ring,
    zpow_add₀ two_ne_zero, zpow_natCast]
  exact mul_le_mul_of_nonneg_right hlog (by positivity)

theorem lt_zpow_log2 (m : Nat) (e : Int) : (m + 1 : ℚ) * 2 ^ e ≤ 2 ^ totalExponent m e := by
  have hlog : (m : ℚ) + 1 ≤ 2 ^ (m.log2 + 1) := by exact_mod_cast Nat.lt_log2_self
  rw [totalExponent, zpow_add₀ two_ne_zero]
  exact mul_le_mul_of_nonneg_right (by exact_mod_cast hlog) (by positivity)

theorem log_eq (hv : 0 < v) (hlow : (2 : ℚ) ^ e ≤ v) (hhigh : v < 2 ^ (e + 1)) :
    Int.log 2 v = e := by
  have h1 : e ≤ Int.log 2 v := (Int.zpow_le_iff_le_log (by norm_num) hv).1 (by exact_mod_cast hlow)
  have h2 : Int.log 2 v < e + 1 :=
    (Int.lt_zpow_iff_log_lt (by norm_num) hv).1 (by exact_mod_cast hhigh)
  omega

theorem holds_ofMantissaAndAccuracy_exact (m : Nat) :
    Holds (.ofMantissaAndAccuracy m .exact) m := rfl

theorem mantissa_ofMantissaAndAccuracy (m : Nat) (a : Accuracy) :
    (ExtendedMantissa.ofMantissaAndAccuracy m a).mantissa = m := by
  rcases a with _ | _ | _ | _ <;> rfl

/-- The exponent of an approximation that is fine enough says which one its magnitude calls for. -/
theorem placement_eq (hv : 0 < v) (h : Holds (.ofMantissaAndAccuracy m a) (v / 2 ^ e))
    (hfine : e ≤ -1074 ∨ (2 : ℚ) ^ (e + 52) ≤ v) :
    Format.binary64.targetExponent (totalExponent m e) = placement v ∧ e ≤ placement v := by
  have hunit : (0 : ℚ) < 2 ^ e := by positivity
  have hle := h.le
  rw [mantissa_ofMantissaAndAccuracy, le_div_iff₀ hunit, div_lt_iff₀ hunit] at hle
  obtain ⟨hlow, hhigh⟩ := hle
  rw [targetExponent_eq, placement]
  rcases Nat.eq_zero_or_pos m with rfl | hm
  · -- less than one unit is there: the exponent is the least one
    have hlog : Int.log 2 v < e := by
      refine (Int.lt_zpow_iff_log_lt (by norm_num) hv).1 ?_
      simpa using hhigh
    have hsmall : e ≤ -1074 := by
      refine hfine.resolve_right fun hle => ?_
      have hle' := (Int.zpow_le_iff_le_log (b := 2) (by norm_num) hv).1 (by exact_mod_cast hle)
      omega
    rw [totalExponent, show Nat.log2 0 = 0 from rfl]
    omega
  · have hlog : Int.log 2 v = totalExponent m e - 1 := by
      apply log_eq hv ((zpow_log2_le hm e).trans hlow)
      rw [sub_add_cancel]
      exact hhigh.trans_le (lt_zpow_log2 m e)
    rw [hlog]
    refine ⟨by omega, ?_⟩
    rcases hfine with hsmall | hle
    · omega
    · have hle' := (Int.zpow_le_iff_le_log (b := 2) (by norm_num) hv).1 (by exact_mod_cast hle)
      omega

/-- An approximation that is fine enough is shifted to the exponent that is called for. -/
theorem shiftToTargetExponent_eq (hv : 0 < v) (h : Holds (.ofMantissaAndAccuracy m a) (v / 2 ^ e))
    (hfine : e ≤ -1074 ∨ (2 : ℚ) ^ (e + 52) ≤ v) : ∃ em,
      shiftToTargetExponent .binary64 m e a = (em, placement v) ∧
        Holds em (v / 2 ^ placement v) := by
  obtain ⟨htarget, hle⟩ := placement_eq hv h hfine
  unfold shiftToTargetExponent UnpackedFloat.shiftToExponent
  rw [htarget]
  obtain ⟨n, hn⟩ := Int.eq_ofNat_of_zero_le (sub_nonneg.2 hle)
  have hplace : placement v = e + n := by omega
  refine ⟨_, Prod.ext rfl ?_, ?_⟩
  · simp only
    omega
  · rw [hn, Int.toNat_natCast, hplace, zpow_add₀ two_ne_zero, zpow_natCast, ← div_div]
    exact h.shiftRight n

/-! ## Doubles -/

section

variable {b : Binary}

theorem Binary.Attracts.pos (h : b.Attracts v) (hpos : 0 < b.mantissa) : 0 < v := by
  have hlow : (0 : ℚ) < b.low := by
    have hone : (1 : ℚ) ≤ b.mantissa := by exact_mod_cast hpos
    rw [Binary.cast_low hpos]
    split <;> linarith
  have hpositive : (0 : ℚ) < b.low * 2 ^ (b.exponent - 2) := mul_pos hlow (by positivity)
  unfold Binary.Attracts at h
  split at h
  · exact hpositive.trans_le h.1
  · exact hpositive.trans h.1

theorem Binary.Attracts.near (h : b.Attracts v) (hpos : 0 < b.mantissa) :
    (|v / 2 ^ b.exponent - b.mantissa| < 1 / 2 ∨
      |v / 2 ^ b.exponent - b.mantissa| ≤ 1 / 2 ∧ b.mantissa % 2 = 0) ∧
    (b.isBoundary = true → b.mantissa - 1 / 4 ≤ v / 2 ^ b.exponent) := by
  have hunit : (0 : ℚ) < 2 ^ b.exponent := by positivity
  have hscale (n : Nat) : (n : ℚ) * 2 ^ (b.exponent - 2) = n / 4 * 2 ^ b.exponent := by
    rw [zpow_sub₀ two_ne_zero]
    ring
  have hweak : (b.low : ℚ) / 4 ≤ v / 2 ^ b.exponent ∧ v / 2 ^ b.exponent ≤ b.high / 4 := by
    rw [le_div_iff₀ hunit, div_le_iff₀ hunit, ← hscale, ← hscale]
    unfold Binary.Attracts at h
    split at h
    · exact h
    · exact ⟨h.1.le, h.2.le⟩
  rw [Binary.cast_low hpos, Binary.cast_high] at hweak
  refine ⟨?_, fun hboundary => ?_⟩
  · by_cases heven : b.mantissa % 2 = 0
    · refine .inr ⟨abs_le.2 ?_, heven⟩
      split at hweak <;> constructor <;> linarith
    · have hstrict : (b.low : ℚ) / 4 < v / 2 ^ b.exponent ∧ v / 2 ^ b.exponent < b.high / 4 := by
        rw [lt_div_iff₀ hunit, div_lt_iff₀ hunit, ← hscale, ← hscale]
        rw [Binary.Attracts, if_neg (by simpa [Binary.endsIncluded] using heven)] at h
        exact h
      rw [Binary.cast_low hpos, Binary.cast_high] at hstrict
      refine .inl (abs_lt.2 ?_)
      split at hstrict <;> constructor <;> linarith
  · rw [if_pos hboundary] at hweak
    linarith

/-- A magnitude that rounds to a double calls for its exponent, unless it is less than the least one
of that exponent. -/
theorem placement_of_attracts (hb : b.Canonical) (h : b.Attracts v)
    (hle : b.isBoundary = true → b.magnitude ≤ v) : placement v = b.exponent := by
  have hv := h.pos hb.pos
  have hunit : (0 : ℚ) < 2 ^ b.exponent := by positivity
  obtain ⟨hnear, -⟩ := h.near hb.pos
  obtain ⟨hlow, hhigh⟩ := abs_le.1 (hnear.elim le_of_lt And.left)
  have hlt : (b.mantissa : ℚ) + 1 ≤ 2 ^ 53 := by exact_mod_cast hb.lt
  have hupper : Int.log 2 v < b.exponent + 53 := by
    refine (Int.lt_zpow_iff_log_lt (by norm_num) hv).1 ?_
    have hv53 : v / 2 ^ b.exponent < 2 ^ 53 := by linarith
    rw [div_lt_iff₀ hunit, mul_comm] at hv53
    rw [Nat.cast_ofNat, zpow_add₀ two_ne_zero]
    exact hv53
  rw [placement]
  by_cases hleast : b.exponent = -1074
  · omega
  · have hfull := hb.full.resolve_right hleast
    have hlower : b.exponent + 52 ≤ Int.log 2 v := by
      refine (Int.zpow_le_iff_le_log (by norm_num) hv).1 ?_
      have hv52 : (2 : ℚ) ^ 52 ≤ v / 2 ^ b.exponent := by
        rcases hfull.eq_or_lt with heq | hlt
        · have hmagnitude := hle ((Binary.isBoundary_iff b).2 ⟨heq.symm, hleast⟩)
          rw [Binary.magnitude, ← heq] at hmagnitude
          rw [le_div_iff₀ hunit]
          exact_mod_cast hmagnitude
        · have hnext : (2 : ℚ) ^ 52 + 1 ≤ b.mantissa := by exact_mod_cast hlt
          linarith
      rw [le_div_iff₀ hunit, mul_comm] at hv52
      rw [Nat.cast_ofNat, zpow_add₀ two_ne_zero]
      exact hv52
    have hleast' := hb.least
    omega

/-- A double is found again where its magnitude is shifted into place. -/
theorem shiftToTargetExponent_of_magnitude (hb : b.Canonical) (hm : m * 2 ^ e = b.magnitude)
    (hfine : e ≤ -1074 ∨ (2 : ℚ) ^ (e + 52) ≤ b.magnitude) : ∃ em,
      shiftToTargetExponent .binary64 m e .exact = (em, b.exponent) ∧
        em.mantissa = b.mantissa := by
  have hunit (e : Int) : (2 : ℚ) ^ e ≠ 0 := zpow_ne_zero _ two_ne_zero
  have hholds : Holds (.ofMantissaAndAccuracy m .exact) (b.magnitude / 2 ^ e) := by
    rw [← hm, mul_div_cancel_right₀ _ (hunit e)]
    exact holds_ofMantissaAndAccuracy_exact m
  obtain ⟨em, hshift, hem⟩ := shiftToTargetExponent_eq (Binary.magnitude_pos hb.pos) hholds hfine
  rw [placement_of_attracts hb (Binary.attracts_magnitude hb.pos) fun _ => le_rfl] at hshift hem
  rw [Binary.magnitude, mul_div_cancel_right₀ _ (hunit _)] at hem
  obtain ⟨h1, h2⟩ := hem.le
  have h3 : em.mantissa ≤ b.mantissa := by exact_mod_cast h1
  have h4 : b.mantissa < em.mantissa + 1 := by exact_mod_cast h2
  exact ⟨em, hshift, by omega⟩

theorem Binary.Canonical.fine (hb : b.Canonical) :
    b.exponent ≤ -1074 ∨ (2 : ℚ) ^ (b.exponent + 52) ≤ b.magnitude := by
  rcases hb.full with hfull | hleast
  · refine .inr ?_
    have hfull' : (2 : ℚ) ^ 52 ≤ b.mantissa := by exact_mod_cast hfull
    rw [zpow_add₀ two_ne_zero, mul_comm, Binary.magnitude]
    exact mul_le_mul_of_nonneg_right (by exact_mod_cast hfull') (by positivity)
  · exact .inl hleast.le

/-- Right below the least magnitude of an exponent, mantissas have one place more behind the point,
and what is nearest to that magnitude is rounded to one place too many. -/
theorem rounded_below_boundary (hb : b.Canonical) (h : b.Attracts v)
    (hboundary : b.isBoundary = true) (hlt : v < b.magnitude)
    (hem : Holds em (v / 2 ^ placement v)) :
    placement v = b.exponent - 1 ∧ em.roundedMantissa = 2 ^ 53 := by
  have hunit : (0 : ℚ) < 2 ^ b.exponent := by positivity
  obtain ⟨hmantissa, hleast⟩ := (Binary.isBoundary_iff b).1 hboundary
  have hquarter := (h.near hb.pos).2 hboundary
  rw [Binary.magnitude] at hlt
  rw [hmantissa] at hquarter hlt
  have hx : v / 2 ^ b.exponent < 2 ^ 52 := by
    rw [div_lt_iff₀ hunit]
    exact_mod_cast hlt
  have hlog : Int.log 2 v = b.exponent + 51 := by
    apply log_eq (h.pos hb.pos)
    · have hx51 : (2 : ℚ) ^ 51 ≤ v / 2 ^ b.exponent := by
        push_cast at hquarter
        linarith
      rw [le_div_iff₀ hunit, mul_comm] at hx51
      rw [zpow_add₀ two_ne_zero]
      exact hx51
    · rw [div_lt_iff₀ hunit, mul_comm] at hx
      rw [show b.exponent + 51 + 1 = b.exponent + 52 by ring, zpow_add₀ two_ne_zero]
      exact hx
  have hplace : placement v = b.exponent - 1 := by
    have := hb.least
    rw [placement, hlog]
    omega
  refine ⟨hplace, roundedMantissa_eq hem (.inr ⟨?_, by norm_num⟩)⟩
  have hdouble : v / 2 ^ placement v = 2 * (v / 2 ^ b.exponent) := by
    rw [hplace, zpow_sub_one₀ two_ne_zero]
    field_simp
  rw [hdouble, abs_le]
  push_cast at hquarter ⊢
  constructor <;> linarith

/-- **Rounding to a double**: a magnitude of which enough is known becomes the double that attracts
it. -/
theorem roundWithAccuracy_eq (hb : b.Canonical) (h : b.Attracts v)
    (hholds : Holds (.ofMantissaAndAccuracy m a) (v / 2 ^ e))
    (hfine : e ≤ -1074 ∨ (2 : ℚ) ^ (e + 52) ≤ v) (s : Sign) :
    roundWithAccuracy .binary64 s m e a = .finite s b.mantissa b.exponent hb.pos := by
  obtain ⟨em, hshift, hem⟩ := shiftToTargetExponent_eq (h.pos hb.pos) hholds hfine
  have hrounded : (em.roundedMantissa : ℚ) * 2 ^ placement v = b.magnitude ∧
      (placement v ≤ -1074 ∨ (2 : ℚ) ^ (placement v + 52) ≤ b.magnitude) := by
    by_cases hbelow : b.isBoundary = true ∧ v < b.magnitude
    · obtain ⟨hplace, hround⟩ := rounded_below_boundary hb h hbelow.1 hbelow.2 hem
      have hmantissa := ((Binary.isBoundary_iff b).1 hbelow.1).1
      have hmagnitude : b.magnitude = 2 ^ 53 * 2 ^ (b.exponent - 1) := by
        rw [Binary.magnitude, hmantissa, zpow_sub_one₀ two_ne_zero]
        push_cast
        ring
      rw [hplace, hround, hmagnitude]
      refine ⟨by push_cast; rfl, .inr ?_⟩
      rw [zpow_add₀ two_ne_zero, mul_comm]
      exact mul_le_mul_of_nonneg_right (by norm_num) (by positivity)
    · have hle (hboundary : b.isBoundary = true) : b.magnitude ≤ v :=
        not_lt.1 fun hlt => hbelow ⟨hboundary, hlt⟩
      have hplace := placement_of_attracts hb h hle
      rw [hplace] at hem ⊢
      rw [roundedMantissa_eq hem (h.near hb.pos).1]
      exact ⟨rfl, hb.fine⟩
  obtain ⟨em', hshift', hmantissa⟩ :=
    shiftToTargetExponent_of_magnitude hb hrounded.1 hrounded.2
  unfold roundWithAccuracy
  rw [hshift]
  simp only [hshift', hmantissa]
  rw [dif_neg hb.pos.ne']

end

end Spreadsheet.Decimal
