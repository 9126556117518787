import Spreadsheet.Proofs.Decimal.Rounding

/-!
# The parts of a double

The bits of a finite double are a sign, a power and a fraction. What they stand for is read off them
in two ways, once as a binary fraction and once as an operand of arithmetic; both are the same.

* `signOf`: a sign as an operand has it; `unpack_of_power_eq_zero`, `unpack_of_power_ne_zero`: an
  operand by its bits;
* **`unpack_of_ofFloat?`**: a double as an operand; `eq_zero_of_ofFloat?`: zeros;
* **`unpack_pack`**: a double that has been packed into bits is unpacked as it was; `unpack_abs`.
-/

namespace Spreadsheet.Decimal

open Float.Model (Format UnpackedFloat)
open Float.Model.UnpackedFloat (Sign pack packComponents unpack unpackExponent unpackMantissa
  unpackSign unpackExponent_packComponents unpackMantissa_packComponents)

variable {b : Binary} {x : Float}

/-- A sign as an operand has it. -/
def signOf (negative : Bool) : Sign := if negative then .negative else .positive

section

variable (v : BitVec 64)

theorem toNat_unpackMantissa : (@unpackMantissa .binary64 v).toNat = v.toNat % 2 ^ 52 := by
  rw [UnpackedFloat.unpackMantissa_def, BitVec.extractLsb'_toNat, Nat.shiftRight_eq_div_pow,
    pow_zero, Nat.div_one]

theorem ofBitVec_unpackSign :
    Sign.ofBitVec (@unpackSign .binary64 v) = signOf (v.toNat / 2 ^ 63 == 1) := by
  have hv : v.toNat < 2 ^ 64 := v.isLt
  have hsign : (@unpackSign .binary64 v).toNat = v.toNat / 2 ^ 63 := by
    rw [UnpackedFloat.unpackSign_def, BitVec.extractLsb'_toNat, Nat.shiftRight_eq_div_pow]
    change v.toNat / 2 ^ 63 % 2 ^ 1 = _
    omega
  unfold Sign.ofBitVec signOf
  by_cases hpositive : @unpackSign .binary64 v = 0#1
  · have hzero : v.toNat / 2 ^ 63 = 0 := hsign ▸ congrArg BitVec.toNat hpositive
    rw [if_pos hpositive, hzero]
    rfl
  · have hone : v.toNat / 2 ^ 63 = 1 := by
      have hne : v.toNat / 2 ^ 63 ≠ 0 := fun hzero =>
        hpositive (BitVec.eq_of_toNat_eq (hsign.trans hzero))
      omega
    rw [if_neg hpositive, hone]
    rfl

theorem unpackExponent_eq_iff {w : BitVec 11} :
    @unpackExponent .binary64 v = w ↔ v.toNat / 2 ^ 52 % 2 ^ 11 = w.toNat := by
  rw [← toNat_unpackExponent]
  exact BitVec.toNat_inj.symm

theorem unpackMantissa_eq_zero_iff :
    @unpackMantissa .binary64 v = 0#52 ↔ v.toNat % 2 ^ 52 = 0 := by
  rw [← toNat_unpackMantissa]
  exact BitVec.toNat_inj.symm

theorem toNat_one_append (w : BitVec 52) : (1#1 ++ w).toNat = w.toNat + 2 ^ 52 := by
  have hw : w.toNat < 2 ^ 52 := w.isLt
  rw [BitVec.toNat_append, Nat.or_comm, Nat.shiftLeft_eq]
  exact Nat.or_two_pow_eq_add_of_lt hw

theorem unpack_of_power_eq_zero (hpower : v.toNat / 2 ^ 52 % 2 ^ 11 = 0) :
    (v.toNat % 2 ^ 52 = 0 ∧ unpack .binary64 v = .zero (signOf (v.toNat / 2 ^ 63 == 1))) ∨
      ∃ h : 0 < v.toNat % 2 ^ 52, unpack .binary64 v =
        .finite (signOf (v.toNat / 2 ^ 63 == 1)) (v.toNat % 2 ^ 52) (-1074) h := by
  have hleast : @unpackExponent .binary64 v = 0#11 := (unpackExponent_eq_iff v).2 hpower
  have hlargest : @unpackExponent .binary64 v ≠ -1#11 := by
    rw [hleast]
    decide
  unfold unpack
  dsimp only
  rw [if_neg hlargest, if_pos hleast, ofBitVec_unpackSign]
  by_cases hfraction : v.toNat % 2 ^ 52 = 0
  · exact .inl ⟨hfraction, dif_pos ((unpackMantissa_eq_zero_iff v).2 hfraction)⟩
  · refine .inr ⟨Nat.pos_of_ne_zero hfraction, ?_⟩
    rw [dif_neg (mt (unpackMantissa_eq_zero_iff v).1 hfraction), UnpackedFloat.finite.injEq,
      toNat_unpackMantissa, hleast]
    exact ⟨rfl, rfl, by decide⟩

theorem unpack_of_power_ne_zero (hpower : v.toNat / 2 ^ 52 % 2 ^ 11 ≠ 0)
    (hfinite : v.toNat / 2 ^ 52 % 2 ^ 11 ≠ 2 ^ 11 - 1) : unpack .binary64 v =
      .finite (signOf (v.toNat / 2 ^ 63 == 1)) (v.toNat % 2 ^ 52 + 2 ^ 52)
        ((v.toNat / 2 ^ 52 % 2 ^ 11 : Nat) - 1075) (by positivity) := by
  have hleast : @unpackExponent .binary64 v ≠ 0#11 := mt (unpackExponent_eq_iff v).1 hpower
  have hlargest : @unpackExponent .binary64 v ≠ -1#11 := mt (unpackExponent_eq_iff v).1 hfinite
  unfold unpack
  dsimp only
  rw [if_neg hlargest, if_neg hleast, ofBitVec_unpackSign, UnpackedFloat.finite.injEq,
    toNat_one_append, toNat_unpackMantissa, toNat_unpackExponent]
  exact ⟨rfl, rfl, rfl⟩

end

/-- **A double with parts** is unpacked into them, or it is a zero. -/
theorem unpack_of_ofFloat? (h : Binary.ofFloat? x = some b) :
    (b.mantissa = 0 ∧ x.toModel.unpack = .zero (signOf b.negative)) ∨
      ∃ hb : b.Canonical, b.exponent ≤ 971 ∧
        x.toModel.unpack = .finite (signOf b.negative) b.mantissa b.exponent hb.pos := by
  obtain ⟨v, hv⟩ : ∃ v, x.toBits.toBitVec = v := ⟨_, rfl⟩
  have hunpack : x.toModel.unpack = unpack .binary64 v := congrArg (unpack .binary64) hv
  have hbits : x.toBits.toNat = v.toNat := congrArg BitVec.toNat hv
  rw [hunpack]
  unfold Binary.ofFloat? at h
  simp only [hbits, Nat.pow_eq] at h
  split at h
  case isTrue => cases h
  case isFalse hfinite =>
    split at h
    case isTrue hpower =>
      obtain rfl := Option.some.inj h
      refine (unpack_of_power_eq_zero v hpower).imp id fun ⟨hpos, hfraction⟩ => ?_
      exact ⟨⟨hpos, by dsimp only; omega, le_rfl, .inr rfl⟩, by norm_num, hfraction⟩
    case isFalse hpower =>
      obtain rfl := Option.some.inj h
      refine .inr ⟨⟨by positivity, ?_, ?_, .inl ?_⟩, ?_,
        unpack_of_power_ne_zero v hpower hfinite⟩ <;> dsimp only <;> omega

/-- A double without a mantissa is one of the two zeros. -/
theorem eq_zero_of_ofFloat? (h : Binary.ofFloat? x = some b) (hzero : b.mantissa = 0) :
    x = 0.0 ∨ x = -0.0 := by
  rcases unpack_of_ofFloat? h with ⟨-, hunpack⟩ | ⟨hb, -⟩
  · rw [eq_ofModel_pack x, hunpack]
    cases b.negative with
    | false => exact .inl (by decide +kernel)
    | true => exact .inr (by decide +kernel)
  · exact absurd hzero hb.pos.ne'

/-! ## Packing -/

theorem unpackSign_packComponents (s : Sign) (power : BitVec 11) (fraction : BitVec 52) :
    unpackSign (packComponents .binary64 s power fraction) = s.toBitVec := by
  have hbit : (s.toBitVec ++ power ++ fraction).getLsbD 63 = s.toBitVec[0] := by
    rw [BitVec.getLsbD_append, if_neg (by norm_num), BitVec.getLsbD_append, if_neg (by norm_num)]
    exact BitVec.getLsbD_eq_getElem (by norm_num)
  ext i hi
  obtain rfl : i = 0 := by omega
  simp only [unpackSign, packComponents, BitVec.extractLsb, BitVec.getElem_cast,
    BitVec.getElem_extractLsb']
  exact hbit

section

variable (s : Sign) (power : BitVec 11) (fraction : BitVec 52)

theorem toNat_packComponents_power : (packComponents .binary64 s power fraction).toNat / 2 ^ 52 %
    2 ^ 11 = power.toNat := by
  rw [← toNat_unpackExponent, unpackExponent_packComponents]

theorem toNat_packComponents_fraction :
    (packComponents .binary64 s power fraction).toNat % 2 ^ 52 = fraction.toNat := by
  rw [← toNat_unpackMantissa, unpackMantissa_packComponents]

theorem signOf_packComponents :
    signOf ((packComponents .binary64 s power fraction).toNat / 2 ^ 63 == 1) = s := by
  rw [← ofBitVec_unpackSign, unpackSign_packComponents]
  cases s <;> rfl

end

/-- What is packed: the exponent and the mantissa without its first place, or the mantissa alone. -/
theorem pack_eq (hb : b.Canonical) (hlarge : b.exponent ≤ 971) (s : Sign) :
    pack .binary64 (.finite s b.mantissa b.exponent hb.pos) =
      if 2 ^ 52 ≤ b.mantissa then
        packComponents .binary64 s (BitVec.ofNat 11 (b.exponent + 1075).toNat)
          (BitVec.ofNat 52 b.mantissa)
      else packComponents .binary64 s 0#11 (BitVec.ofNat 52 b.mantissa) := by
  have hbiased : (b.exponent + Format.binary64.exponentBias + (52 : Nat)).toNat =
      (b.exponent + 1075).toNat := by
    change (b.exponent + 1023 + 52).toNat = _
    omega
  have hfull : b.mantissa.log2 + 1 = Format.binary64.mantissaBits ↔ 2 ^ 52 ≤ b.mantissa := by
    have hlt := (Nat.log2_lt hb.pos.ne').2 hb.lt
    have hle : 52 ≤ b.mantissa.log2 ↔ 2 ^ 52 ≤ b.mantissa := Nat.le_log2 hb.pos.ne'
    rw [← hle]
    change b.mantissa.log2 + 1 = 53 ↔ _
    omega
  simp only [pack, hbiased, hfull]
  exact if_neg (by norm_num; omega)

/-- **A double** that has been packed into bits is unpacked as it was. -/
theorem unpack_pack (hb : b.Canonical) (hlarge : b.exponent ≤ 971) (s : Sign) :
    unpack .binary64 (pack .binary64 (.finite s b.mantissa b.exponent hb.pos)) =
      .finite s b.mantissa b.exponent hb.pos := by
  have hleast := hb.least
  have hlt := hb.lt
  have hpos := hb.pos
  rw [pack_eq hb hlarge]
  split
  · rename_i hfull
    have hpower : (BitVec.ofNat 11 (b.exponent + 1075).toNat).toNat = (b.exponent + 1075).toNat :=
      Nat.mod_eq_of_lt (show (b.exponent + 1075).toNat < 2 ^ 11 by omega)
    have hfraction : (BitVec.ofNat 52 b.mantissa).toNat = b.mantissa - 2 ^ 52 := by
      change b.mantissa % 2 ^ 52 = _
      omega
    rw [unpack_of_power_ne_zero _ (by rw [toNat_packComponents_power]; omega)
      (by rw [toNat_packComponents_power]; omega), UnpackedFloat.finite.injEq,
      signOf_packComponents, toNat_packComponents_power, toNat_packComponents_fraction, hpower,
      hfraction]
    exact ⟨rfl, by omega, by omega⟩
  · rename_i hfull
    have hfraction : (BitVec.ofNat 52 b.mantissa).toNat = b.mantissa :=
      Nat.mod_eq_of_lt (not_le.1 hfull)
    have hexponent := hb.full.resolve_left hfull
    rcases unpack_of_power_eq_zero (packComponents .binary64 s 0#11 (BitVec.ofNat 52 b.mantissa))
      (toNat_packComponents_power ..) with ⟨hzero, -⟩ | ⟨_, hunpack⟩
    · rw [toNat_packComponents_fraction, hfraction] at hzero
      omega
    · rw [hunpack, UnpackedFloat.finite.injEq, signOf_packComponents,
        toNat_packComponents_fraction, hfraction]
      exact ⟨rfl, rfl, hexponent.symm⟩

theorem unpack_abs (hb : b.Canonical) (hlarge : b.exponent ≤ 971) {s : Sign}
    (h : x.toModel.unpack = .finite s b.mantissa b.exponent hb.pos) :
    x.abs.toModel.unpack = .finite .positive b.mantissa b.exponent hb.pos := by
  change unpack .binary64 (pack .binary64 (UnpackedFloat.abs x.toModel.unpack)) = _
  rw [h]
  exact unpack_pack hb hlarge .positive

end Spreadsheet.Decimal
