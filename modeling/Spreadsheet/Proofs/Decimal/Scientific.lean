import Spreadsheet.Proofs.Decimal.Packing

/-!
# Decimals are read as the nearest doubles

A decimal becomes a double by multiplying or dividing its digits by a power of ten. Either way
nothing is lost before the result is rounded, so the double is the one that attracts the decimal.

* `mul_finite`, `div_finite`: products and quotients;
* `unpack_toFloat`: whole numbers with few enough digits are doubles as they are;
* `ofScientific_eq`, **`nearest_eq`**: decimals.
-/

namespace Spreadsheet.Decimal

open Float.Model (Format UnpackedFloat totalExponent)
open Float.Model.UnpackedFloat (Accuracy Sign accuracyOfFraction pack unpack)

variable {b : Binary} {m m' n d : Nat} {e e' k : Int} {s s' : Sign} {v : ℚ}

/-! ## Products and quotients -/

theorem mul_finite (hb : b.Canonical) (hm : 0 < m) (hm' : 0 < m')
    (h : b.Attracts (m * 2 ^ e * (m' * 2 ^ e'))) (hfull : 2 ^ 52 ≤ m * m') :
    UnpackedFloat.mul .binary64 (.finite s m e hm) (.finite s' m' e' hm') =
      .finite (s * s') b.mantissa b.exponent hb.pos := by
  have hunit : (2 : ℚ) ^ (e + e') ≠ 0 := zpow_ne_zero _ two_ne_zero
  have hv : (m * 2 ^ e * (m' * 2 ^ e') : ℚ) = (m * m' : Nat) * 2 ^ (e + e') := by
    rw [zpow_add₀ two_ne_zero]
    push_cast
    ring
  rw [hv] at h
  have hfull' : (2 : ℚ) ^ 52 ≤ (m * m' : Nat) := by exact_mod_cast hfull
  refine roundWithAccuracy_eq hb h ?_ (.inr ?_) _
  · rw [mul_div_cancel_right₀ _ hunit]
    exact holds_ofMantissaAndAccuracy_exact _
  · rw [zpow_add₀ two_ne_zero, mul_comm]
    exact mul_le_mul_of_nonneg_right (by exact_mod_cast hfull') (by positivity)

/-- A quotient of whole numbers is known as far as it matters from what is left over. -/
theorem holds_quotient (hd : 0 < d) (n : Nat) :
    Holds (.ofMantissaAndAccuracy (n / d) (accuracyOfFraction (n % d) d)) ((n : ℚ) / d) := by
  have hd' : (0 : ℚ) < d := by exact_mod_cast hd
  have hlt : ((n % d : Nat) : ℚ) < d := by exact_mod_cast Nat.mod_lt n hd
  have hsplit : (n : ℚ) / d = (n / d : Nat) + ((n % d : Nat) : ℚ) / d := by
    rw [div_eq_iff hd'.ne', add_mul, div_mul_cancel₀ _ hd'.ne']
    exact_mod_cast (Nat.div_add_mod' n d).symm
  rw [hsplit, accuracyOfFraction]
  split
  · rename_i hzero
    rw [hzero, Nat.cast_zero, zero_div, add_zero]
    exact holds_ofMantissaAndAccuracy_exact _
  · rename_i hpos
    have hpos' : (0 : ℚ) < (n % d : Nat) / d :=
      div_pos (by exact_mod_cast Nat.pos_of_ne_zero hpos) hd'
    have hone : ((n % d : Nat) : ℚ) / d < 1 := (div_lt_one hd').2 hlt
    rcases lt_trichotomy (2 * (n % d)) d with h | h | h
    · have hhalf : ((n % d : Nat) : ℚ) / d < 1 / 2 := by
        rw [div_lt_iff₀ hd']
        have h' : (2 : ℚ) * (n % d : Nat) < d := by exact_mod_cast h
        linarith
      rw [Nat.compare_eq_lt.2 h]
      exact ⟨by linarith, by linarith⟩
    · have hhalf : ((n % d : Nat) : ℚ) / d = 1 / 2 := by
        rw [div_eq_iff hd'.ne']
        have h' : (2 : ℚ) * (n % d : Nat) = d := by exact_mod_cast h
        linarith
      rw [Nat.compare_eq_eq.2 h, hhalf]
      rfl
    · have hhalf : 1 / 2 < ((n % d : Nat) : ℚ) / d := by
        rw [lt_div_iff₀ hd']
        have h' : (d : ℚ) < 2 * (n % d : Nat) := by exact_mod_cast h
        linarith
      rw [Nat.compare_eq_gt.2 h]
      exact ⟨by linarith, by linarith⟩

theorem div_finite (hb : b.Canonical) (hm : 0 < m) (hm' : 0 < m')
    (h : b.Attracts (m * 2 ^ e / (m' * 2 ^ e'))) :
    UnpackedFloat.div .binary64 (.finite s m e hm) (.finite s' m' e' hm') =
      .finite (s / s') b.mantissa b.exponent hb.pos := by
  have hm₁ : (0 : ℚ) < m := by exact_mod_cast hm
  have hm₂ : (0 : ℚ) < m' := by exact_mod_cast hm'
  obtain ⟨t, ht⟩ : ∃ t, min (e - e') (Format.binary64.targetExponent
      (totalExponent m e - totalExponent m' e')) = t := ⟨_, rfl⟩
  have hle : t ≤ e - e' := by omega
  obtain ⟨j, hj⟩ := Int.eq_ofNat_of_zero_le (sub_nonneg.2 hle)
  simp only [UnpackedFloat.div, UnpackedFloat.divCore, ht, hj, Int.toNat_natCast, Nat.shiftLeft_eq]
  refine roundWithAccuracy_eq hb h ?_ ?_ _
  · have hv : (m * 2 ^ e / (m' * 2 ^ e') / 2 ^ t : ℚ) = (m * 2 ^ j : Nat) / m' := by
      have he : e = t + e' + j := by omega
      rw [he, zpow_add₀ two_ne_zero, zpow_add₀ two_ne_zero, zpow_natCast]
      push_cast
      field_simp
    rw [hv]
    exact holds_quotient hm' _
  · rw [targetExponent_eq] at ht
    rcases le_or_gt t (-1074) with hsmall | hlarge
    · exact .inl hsmall
    · refine .inr ?_
      have hhigh : (m' : ℚ) * 2 ^ e' ≤ 2 ^ totalExponent m' e' :=
        (mul_le_mul_of_nonneg_right (by linarith) (by positivity)).trans (lt_zpow_log2 m' e')
      calc (2 : ℚ) ^ (t + 52) ≤ 2 ^ (totalExponent m e - 1 - totalExponent m' e') :=
            zpow_le_zpow_right₀ (by norm_num) (by omega)
        _ = 2 ^ (totalExponent m e - 1) / 2 ^ totalExponent m' e' := zpow_sub₀ two_ne_zero _ _
        _ ≤ m * 2 ^ e / (m' * 2 ^ e') :=
            div_le_div₀ (by positivity) (zpow_log2_le hm e) (by positivity) hhigh

/-! ## Operands -/

/-- **Whole numbers** with few enough digits are doubles as they are. -/
theorem unpack_toFloat (hm : 0 < m) (hlt : m < 2 ^ 53) : ∃ n e h,
    m.toUInt64.toFloat.toModel.unpack = .finite .positive n e h ∧ (n : ℚ) * 2 ^ e = m := by
  have hlog : m.log2 < 53 := (Nat.log2_lt hm.ne').2 hlt
  obtain ⟨j, hj⟩ := Nat.exists_eq_add_of_le (Nat.le_of_lt_succ hlog)
  have hlow := Nat.log2_self_le hm.ne'
  have hhigh := Nat.lt_log2_self (n := m)
  have hb : (Binary.mk false (m * 2 ^ j) (-j)).Canonical := by
    refine ⟨by positivity, ?_, ?_, .inl ?_⟩
    · calc m * 2 ^ j < 2 ^ (m.log2 + 1) * 2 ^ j :=
          Nat.mul_lt_mul_of_pos_right hhigh (by positivity)
        _ = 2 ^ 53 := by rw [← pow_add]; congr 1; omega
    · dsimp only
      omega
    · calc 2 ^ 52 = 2 ^ m.log2 * 2 ^ j := by rw [← pow_add]; congr 1
        _ ≤ m * 2 ^ j := Nat.mul_le_mul_right _ hlow
  have hmagnitude : (Binary.mk false (m * 2 ^ j) (-j)).magnitude = m := by
    rw [Binary.magnitude, zpow_neg, zpow_natCast]
    push_cast
    field_simp
  have hround : UnpackedFloat.normalize .binary64 m 0 .positive =
      .finite .positive (m * 2 ^ j) (-j) hb.pos := by
    have htarget : Format.binary64.targetExponent (totalExponent m 0) = -j := by
      rw [targetExponent_eq, totalExponent]
      omega
    have hcompare : compare (m : Int) 0 = .gt := compare_gt_iff_gt.2 (by exact_mod_cast hm)
    simp only [UnpackedFloat.normalize, hcompare, UnpackedFloat.round,
      UnpackedFloat.decreaseExponent, Int.toNat_natCast, htarget, sub_neg_eq_add, zero_add,
      Nat.shiftLeft_eq, zero_sub]
    refine roundWithAccuracy_eq hb (Binary.attracts_magnitude hb.pos) ?_ hb.fine _
    rw [Binary.magnitude, mul_div_cancel_right₀ _ (zpow_ne_zero _ two_ne_zero)]
    exact holds_ofMantissaAndAccuracy_exact _
  have hunpack := unpack_pack hb (by dsimp only; omega) .positive
  have hnat : m.toUInt64.toNat = m := Nat.mod_eq_of_lt (by omega)
  refine ⟨m * 2 ^ j, -j, hb.pos, ?_, hmagnitude⟩
  change unpack .binary64 (pack .binary64
    (UnpackedFloat.normalize .binary64 (m.toUInt64.toNat : Int) 0 .positive)) = _
  rw [hnat, hround]
  exact hunpack

/-! ## Decimals -/

section

variable (hb : b.Canonical) (hd : 0 < d) (h : b.Attracts (d * 10 ^ k))

include hd h

/-- Digits and a power of ten that are doubles. -/
theorem ofScientific_of_small (hlt : d < 2 ^ 53) (hk : k.natAbs ≤ 22) :
    Float.ofScientific d (k < 0) k.natAbs =
      .ofModel (.pack (.finite .positive b.mantissa b.exponent hb.pos)) := by
  obtain ⟨n, e, hn, hdigits, hvalue⟩ := unpack_toFloat hd hlt
  obtain ⟨n', e', hn', hpower, hfull, hvalue'⟩ :=
    unpack_powerOfTen ⟨k.natAbs, Nat.lt_succ_of_le hk⟩
  unfold Float.ofScientific
  rw [dif_pos ⟨hlt, hk⟩]
  dsimp only at hpower hvalue' ⊢
  by_cases hneg : k < 0
  · rw [if_pos (decide_eq_true hneg)]
    have hquotient : b.Attracts (n * 2 ^ e / (n' * 2 ^ e')) := by
      have hk' : k = -(k.natAbs : Int) := by omega
      rw [hk', zpow_neg, zpow_natCast, ← div_eq_mul_inv] at h
      rw [hvalue, hvalue']
      exact h
    change Float.ofModel (.pack (UnpackedFloat.div .binary64 _ _)) = _
    rw [hdigits, hpower, div_finite hb hn hn' hquotient]
    rfl
  · rw [if_neg (by simpa using hneg)]
    have hproduct : b.Attracts (n * 2 ^ e * (n' * 2 ^ e')) := by
      have hk' : k = (k.natAbs : Int) := by omega
      rw [hk', zpow_natCast] at h
      rw [hvalue, hvalue']
      exact h
    change Float.ofModel (.pack (UnpackedFloat.mul .binary64 _ _)) = _
    rw [hdigits, hpower, mul_finite hb hn hn' hproduct (by nlinarith)]
    rfl

/-- Any digits and any power of ten that is not far beyond those of doubles. -/
theorem unpackedOfScientific_eq (hhigh : k ≤ 2 ^ 11) (hlow : -(2 ^ 11 + d.log2 : Int) ≤ k) :
    UnpackedFloat.ofScientific .binary64 d k =
      .finite .positive b.mantissa b.exponent hb.pos := by
  unfold UnpackedFloat.ofScientific
  rw [dif_neg hd.ne', if_neg (by simpa using hhigh), if_neg (by simpa using hlow)]
  split
  · rename_i hk
    obtain ⟨j, rfl⟩ := Int.eq_ofNat_of_zero_le hk
    have hdigits : ((d <<< 53 : Nat) : ℚ) * 2 ^ (-(53 : Nat) : Int) = d := by
      rw [Nat.shiftLeft_eq, zpow_neg, zpow_natCast]
      push_cast
      field_simp
      norm_num
    refine mul_finite hb _ _ ?_ ?_
    · change b.Attracts ((d <<< 53 : Nat) * 2 ^ (-(53 : Nat) : Int) * ((10 ^ j : Nat) * 2 ^ (0 : Int)))
      rw [hdigits, zpow_zero, mul_one]
      exact_mod_cast h
    · have hpower : 0 < 10 ^ j := by positivity
      change 2 ^ 52 ≤ d <<< 53 * 10 ^ j
      rw [Nat.shiftLeft_eq]
      nlinarith
  · rename_i hk
    refine div_finite hb _ _ ?_
    obtain ⟨j, hj⟩ := Int.eq_ofNat_of_zero_le (show 0 ≤ -k by omega)
    have hk' : k = -(j : Int) := by omega
    rw [hk', zpow_neg, zpow_natCast, ← div_eq_mul_inv] at h
    simpa [hj] using h

theorem ofScientific_eq (hhigh : k ≤ 2 ^ 11) (hlow : -(2 ^ 11 + d.log2 : Int) ≤ k) :
    Float.ofScientific d (k < 0) k.natAbs =
      .ofModel (.pack (.finite .positive b.mantissa b.exponent hb.pos)) := by
  by_cases hsmall : d < 2 ^ 53 ∧ k.natAbs ≤ 22
  · exact ofScientific_of_small hb hd h hsmall.1 hsmall.2
  · unfold Float.ofScientific
    rw [dif_neg hsmall]
    have hk : (if decide (k < 0) = true then Int.negOfNat k.natAbs else Int.ofNat k.natAbs) = k := by
      split
      · rename_i hneg
        have hneg' := of_decide_eq_true hneg
        rw [Int.negOfNat_eq, Int.ofNat_eq_natCast]
        omega
      · rename_i hpos
        have hpos' : ¬ k < 0 := by simpa using hpos
        rw [Int.ofNat_eq_natCast]
        omega
    dsimp only
    rw [hk]
    exact congrArg (fun u => Float.ofModel (.pack u))
      (unpackedOfScientific_eq hb hd h hhigh hlow)

end

theorem lt_pow_length_toDigits (n : Nat) : n < 10 ^ (Nat.toDigits 10 n).length :=
  (Nat.length_toDigits_le_iff (by norm_num) Nat.length_toDigits_pos).1 le_rfl

theorem pow_length_toDigits_le (hn : 0 < n) : 10 ^ ((Nat.toDigits 10 n).length - 1) ≤ n := by
  rcases Nat.eq_zero_or_pos ((Nat.toDigits 10 n).length - 1) with hzero | hpos
  · rw [hzero]
    exact hn
  · by_contra hlt
    have hle := (Nat.length_toDigits_le_iff (b := 10) (by norm_num) hpos).2 (not_le.1 hlt)
    omega

/-- The magnitudes that round to a double are not far beyond those of doubles. -/
theorem Binary.Attracts.bounds (h : b.Attracts v) (hb : b.Canonical) (hlarge : b.exponent ≤ 971) :
    (10 : ℚ) ^ (-324 : Int) < v ∧ v < 10 ^ (309 : Int) := by
  have hunit : (0 : ℚ) < 2 ^ b.exponent := by positivity
  obtain ⟨hlow, hhigh⟩ := abs_le.1 ((h.near hb.pos).1.elim le_of_lt And.left)
  have hone : (1 : ℚ) ≤ b.mantissa := by exact_mod_cast hb.pos
  have hlt : (b.mantissa : ℚ) + 1 ≤ 2 ^ 53 := by exact_mod_cast hb.lt
  have hhalf : 1 / 2 ≤ v / 2 ^ b.exponent := by linarith
  have hfull : v / 2 ^ b.exponent ≤ 2 ^ 53 := by linarith
  rw [le_div_iff₀ hunit] at hhalf
  rw [div_le_iff₀ hunit] at hfull
  constructor
  · have hleast : (2 : ℚ) ^ 1075 < 10 ^ 324 := by
      exact_mod_cast (by decide +kernel : 2 ^ 1075 < 10 ^ 324)
    calc (10 : ℚ) ^ (-324 : Int) = (10 ^ 324)⁻¹ := zpow_neg _ _
      _ < (2 ^ 1075)⁻¹ := inv_strictAnti₀ (by positivity) hleast
      _ = 1 / 2 * 2 ^ (-1074 : Int) := by rw [zpow_neg, pow_succ, mul_inv, mul_comm, one_div]; rfl
      _ ≤ 1 / 2 * 2 ^ b.exponent :=
          mul_le_mul_of_nonneg_left (zpow_le_zpow_right₀ (by norm_num) hb.least) (by norm_num)
      _ ≤ v := hhalf
  · have hlargest : (2 : ℚ) ^ 53 * 2 ^ 971 < 10 ^ 309 := by
      exact_mod_cast (by decide +kernel : 2 ^ 53 * 2 ^ 971 < 10 ^ 309)
    calc v ≤ 2 ^ 53 * 2 ^ b.exponent := hfull
      _ ≤ 2 ^ 53 * 2 ^ (971 : Int) :=
          mul_le_mul_of_nonneg_left (zpow_le_zpow_right₀ (by norm_num) hlarge) (by norm_num)
      _ < 10 ^ (309 : Int) := hlargest

/-- **A decimal is read as the double that attracts it.** -/
theorem nearest_eq (hb : b.Canonical) (hlarge : b.exponent ≤ 971) (hd : 0 < d)
    (h : b.Attracts (d * 10 ^ k)) :
    nearest d k = .ofModel (.pack (.finite .positive b.mantissa b.exponent hb.pos)) := by
  obtain ⟨hlow, hhigh⟩ := h.bounds hb hlarge
  obtain ⟨l, hl⟩ : ∃ l, (Nat.toDigits 10 d).length = l + 1 :=
    Nat.exists_eq_add_one.2 Nat.length_toDigits_pos
  have hdigits : d < 10 ^ (l + 1) := hl ▸ lt_pow_length_toDigits d
  have hplaces : 10 ^ l ≤ d := by
    have hle := pow_length_toDigits_le hd
    rwa [hl, Nat.add_sub_cancel] at hle
  have hupper : k + l < 309 := by
    have hle : (10 : ℚ) ^ l ≤ d := by exact_mod_cast hplaces
    refine (zpow_lt_zpow_iff_right₀ (by norm_num : (1 : ℚ) < 10)).1 (hhigh.trans_le' ?_)
    rw [add_comm, zpow_add₀ (by norm_num), zpow_natCast]
    exact mul_le_mul_of_nonneg_right hle (by positivity)
  have hlower : -324 < k + (l + 1) := by
    have hlt : (d : ℚ) < 10 ^ (l + 1) := by exact_mod_cast hdigits
    refine (zpow_lt_zpow_iff_right₀ (by norm_num : (1 : ℚ) < 10)).1 (hlow.trans ?_)
    rw [add_comm, zpow_add₀ (by norm_num)]
    exact mul_lt_mul_of_pos_right (by exact_mod_cast hlt) (by positivity)
  have hlog : l ≤ d.log2 := by
    have hlt : 2 ^ l < 2 ^ (d.log2 + 1) :=
      (Nat.pow_le_pow_left (by norm_num) l).trans_lt (hplaces.trans_lt Nat.lt_log2_self)
    exact Nat.le_of_lt_succ ((Nat.pow_lt_pow_iff_right (by norm_num)).1 hlt)
  unfold nearest
  dsimp only
  rw [hl, if_neg hd.ne', if_neg (by push_cast; omega), if_neg (by push_cast; omega)]
  exact ofScientific_eq hb hd h (by omega) (by omega)

end Spreadsheet.Decimal
