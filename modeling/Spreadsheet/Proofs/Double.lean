import Mathlib
import Spreadsheet.Decimal.Binary
import Spreadsheet.Decimal.Reading

/-!
# Doubles that are no finite numbers

A double whose exponent is the largest one is one of the two infinities or no number at all. A sign
changes nothing about that, and a decimal that is read becomes a number, if only an infinite one.

* `isFinite_iff`: the exponent of a double says whether it is finite; `ofFloat?_eq_none_iff`: a
  double that is finite has parts;
* `isNaN_ofModel_pack`: a result is no number where it was none before it was packed into bits;
* **`isFinite_neg`**, **`isInf_neg`**: signs; **`isNaN_nearest`**: decimals; `unpack_powerOfTen`;
* `isInf_iff`: the infinities; `isInf_of_not_isFinite`: there is no third kind of numbers;
* `beq_self_of_isFinite`: a finite double is equal to itself.
-/

namespace Spreadsheet.Decimal

open Float.Model (Format UnpackedFloat)
open Float.Model.UnpackedFloat (Accuracy Sign pack packedInfinity packedNaN packedZero unpack
  unpackExponent unpackExponent_packComponents unpackMantissa unpackMantissa_packComponents)

variable {u v : UnpackedFloat} {x : Float}

/-! ## Bits -/

theorem isFinite_unpack {spec : Format} (b : BitVec spec.numBits) :
    (unpack spec b).isFinite = true ↔ unpackExponent b ≠ -1#_ := by
  unfold unpack
  dsimp only
  by_cases h : unpackExponent b = -1#_
  · rw [if_pos h]
    split <;> simp [UnpackedFloat.isFinite, h]
  · rw [if_neg h]
    split
    · split <;> simp [UnpackedFloat.isFinite, h]
    · simp [UnpackedFloat.isFinite, h]

theorem isFinite_iff (x : Float) :
    x.isFinite = true ↔ @unpackExponent .binary64 x.toBits.toBitVec ≠ -1#_ :=
  isFinite_unpack _

theorem toBits_eq_pack (x : Float) : x.toBits.toBitVec = pack .binary64 x.toModel.unpack :=
  (UnpackedFloat.pack_unpack_of_valid x.toModel.valid).symm

theorem eq_ofModel_pack (x : Float) : x = .ofModel (.pack x.toModel.unpack) := by
  rw [← Float.toBits_inj, ← UInt64.toBitVec_inj]
  exact toBits_eq_pack x

/-- Only what is no number becomes the bits of no number. -/
theorem pack_eq_packedNaN_iff : pack .binary64 u = packedNaN .binary64 ↔ u = .notANumber := by
  refine ⟨fun h => ?_, fun h => by rw [h, pack]⟩
  have hexponent : unpackExponent (pack .binary64 u) = -1#_ := by
    rw [h, packedNaN, unpackExponent_packComponents]
  have hmantissa : unpackMantissa (pack .binary64 u) ≠ 0#_ := by
    rw [h, packedNaN, unpackMantissa_packComponents]
    decide
  cases u with
  | notANumber => rfl
  | infinity s =>
    rw [pack, packedInfinity, unpackMantissa_packComponents] at hmantissa
    exact absurd rfl hmantissa
  | zero s =>
    rw [pack, packedZero, unpackMantissa_packComponents] at hmantissa
    exact absurd rfl hmantissa
  | finite s m e hpos =>
    simp only [pack, packedInfinity] at hmantissa hexponent
    split at hmantissa
    · rw [unpackMantissa_packComponents] at hmantissa
      exact absurd rfl hmantissa
    · rename_i hlarge
      rw [if_neg hlarge] at hexponent
      -- the exponent of a normal number is less than the largest one, that of the others is zero
      split at hexponent
      · rw [unpackExponent_packComponents] at hexponent
        have hlargest := congrArg BitVec.toNat hexponent
        simp at hlargest
        omega
      · simp at hexponent

theorem isNaN_ofModel_pack (u : UnpackedFloat) : (Float.ofModel (.pack u)).isNaN = u.isNaN := by
  have hvalid : Format.binary64.Valid (pack .binary64 u) := UnpackedFloat.valid_pack
  have hbits := UnpackedFloat.isNaN_unpack_iff_of_valid hvalid
  rw [pack_eq_packedNaN_iff, ← UnpackedFloat.isNaN_iff] at hbits
  exact Bool.eq_iff_iff.2 hbits

theorem isInf_iff (x : Float) : x.isInf = true ↔ ∃ s, x = .ofModel (.pack (.infinity s)) := by
  constructor
  · intro h
    change x.toModel.unpack.isInf = true at h
    cases hu : x.toModel.unpack with
    | infinity s => exact ⟨s, by rw [← hu, ← eq_ofModel_pack]⟩
    | notANumber | zero | finite => rw [hu] at h; cases h
  · rintro ⟨s, rfl⟩
    cases s <;> rfl

theorem isInf_of_not_isFinite (h : x.isFinite = false) (hnumber : x.isNaN = false) :
    x.isInf = true := by
  change x.toModel.unpack.isFinite = false at h
  change x.toModel.unpack.isNaN = false at hnumber
  change x.toModel.unpack.isInf = true
  cases hu : x.toModel.unpack with
  | infinity => rfl
  | notANumber => rw [hu] at hnumber; cases hnumber
  | zero | finite => rw [hu] at h; cases h

theorem isNaN_of_isInf (h : x.isInf = true) : x.isNaN = false := by
  obtain ⟨s, rfl⟩ := (isInf_iff x).1 h
  cases s <;> rfl

theorem isNaN_of_isFinite (h : x.isFinite = true) : x.isNaN = false := by
  change x.toModel.unpack.isFinite = true at h
  change x.toModel.unpack.isNaN = false
  cases hu : x.toModel.unpack with
  | notANumber => rw [hu] at h; cases h
  | infinity | zero | finite => rfl

theorem beq_self_of_isFinite (h : x.isFinite = true) : (x == x) = true := by
  change x.toModel.unpack.isFinite = true at h
  change x.toModel.unpack.beq x.toModel.unpack = true
  cases hu : x.toModel.unpack with
  | notANumber | infinity => rw [hu] at h; cases h
  | zero => rfl
  | finite s m e hpos =>
    have hsame : (compare e e).then (compare m m) = .eq := by
      rw [compare_eq_iff_eq.2 rfl, compare_eq_iff_eq.2 rfl]
      rfl
    cases s with
    | positive => exact congrArg (fun o => some o == some Ordering.eq) hsame
    | negative => exact congrArg (fun o : Ordering => some o.swap == some Ordering.eq) hsame

theorem isFinite_of_isInf (h : x.isInf = true) : x.isFinite = false := by
  obtain ⟨s, rfl⟩ := (isInf_iff x).1 h
  cases s <;> rfl

theorem toNat_unpackExponent (v : BitVec 64) :
    (@unpackExponent .binary64 v).toNat = v.toNat / 2 ^ 52 % 2 ^ 11 := by
  rw [UnpackedFloat.unpackExponent_def, BitVec.extractLsb'_toNat, Nat.shiftRight_eq_div_pow]

/-- **A double has parts if it is finite.** -/
theorem ofFloat?_eq_none_iff (x : Float) : Binary.ofFloat? x = none ↔ x.isFinite = false := by
  have hpower : (@unpackExponent .binary64 x.toBits.toBitVec).toNat =
      x.toBits.toNat / Nat.pow 2 52 % Nat.pow 2 11 := toNat_unpackExponent x.toBits.toBitVec
  rw [← Bool.not_eq_true, isFinite_iff, not_not, ← BitVec.toNat_inj, hpower]
  unfold Binary.ofFloat?
  dsimp only
  split
  · simp_all
  · split <;> simp_all

/-! ## Signs -/

theorem unpackExponent_pack_neg {spec : Format} (u : UnpackedFloat) :
    unpackExponent (pack spec u.neg) = unpackExponent (pack spec u) := by
  cases u with
  | notANumber => rfl
  | infinity s => simp [UnpackedFloat.neg, pack, packedInfinity]
  | zero s => simp [UnpackedFloat.neg, pack, packedZero]
  | finite s m e hpos =>
    simp only [UnpackedFloat.neg, pack, packedInfinity]
    split
    · simp
    · split <;> simp

/-- **A sign does not make a number finite or infinite.** -/
theorem isFinite_neg (x : Float) : (-x).isFinite = x.isFinite := by
  rw [Bool.eq_iff_iff, isFinite_iff, isFinite_iff, toBits_eq_pack x, ← unpackExponent_pack_neg]
  rfl

theorem isNaN_neg (x : Float) : (-x).isNaN = x.isNaN := by
  refine (isNaN_ofModel_pack x.toModel.unpack.neg).trans ?_
  change _ = x.toModel.unpack.isNaN
  cases x.toModel.unpack <;> rfl

theorem isInf_neg (h : x.isInf = true) : (-x).isInf = true :=
  isInf_of_not_isFinite ((isFinite_neg x).trans (isFinite_of_isInf h))
    ((isNaN_neg x).trans (isNaN_of_isInf h))

/-! ## Reading -/

theorem isNaN_roundWithAccuracy (spec : Format) (s : Sign) (m : Nat) (e : Int) (a : Accuracy) :
    (UnpackedFloat.roundWithAccuracy spec s m e a).isNaN = false := by
  unfold UnpackedFloat.roundWithAccuracy
  dsimp only
  split <;> rfl

theorem isNaN_normalize (spec : Format) (m : Int) (e : Int) (s : Sign) :
    (UnpackedFloat.normalize spec m e s).isNaN = false := by
  unfold UnpackedFloat.normalize
  split
  · exact isNaN_roundWithAccuracy ..
  · rfl
  · exact isNaN_roundWithAccuracy ..

section

variable {s : Sign} {m : Nat} {e : Int} {h : 0 < m}

/-- What is not zero can be divided by, unless it is infinite. -/
theorem isNaN_div (hu : u.isNaN = false) (hv : v = .finite s m e h) (spec : Format) :
    (UnpackedFloat.div spec u v).isNaN = false := by
  subst hv
  cases u with
  | notANumber => cases hu
  | infinity | zero => rfl
  | finite => exact isNaN_roundWithAccuracy ..

theorem isNaN_mul (hu : u.isNaN = false) (hv : v = .finite s m e h) (spec : Format) :
    (UnpackedFloat.mul spec u v).isNaN = false := by
  subst hv
  cases u with
  | notANumber => cases hu
  | infinity | zero => rfl
  | finite => exact isNaN_roundWithAccuracy ..

end

/-- **Powers of ten** that are doubles. -/
theorem unpack_powerOfTen (k : Fin 23) : ∃ n e h,
    Float.exactlyRepresentablePowersOfTen[k.val].toModel.unpack = .finite .positive n e h ∧
      2 ^ 52 ≤ n ∧ (n : ℚ) * 2 ^ e = 10 ^ k.val := by
  have hall : ∀ k : Fin 23,
      (match Float.exactlyRepresentablePowersOfTen[k.val].toModel.unpack with
        | .finite .positive n e _ =>
          decide (2 ^ 52 ≤ n ∧ n * 2 ^ e.toNat = 10 ^ k.val * 2 ^ (-e).toNat)
        | _ => false) = true := by decide
  have hk := hall k
  split at hk
  · rename_i n e h hunpack
    obtain ⟨hfull, hvalue⟩ := of_decide_eq_true hk
    refine ⟨n, e, h, hunpack, hfull, ?_⟩
    have hvalue' : (n : ℚ) * 2 ^ e.toNat = 10 ^ k.val * 2 ^ (-e).toNat := by
      exact_mod_cast hvalue
    rw [← Int.toNat_sub_toNat_neg e, zpow_sub₀ two_ne_zero, zpow_natCast, zpow_natCast,
      ← mul_div_assoc, hvalue', mul_div_assoc, div_self (by positivity), mul_one]
  · cases hk

theorem isNaN_unpackedOfScientific (spec : Format) (m : Nat) (e : Int) :
    (UnpackedFloat.ofScientific spec m e).isNaN = false := by
  unfold UnpackedFloat.ofScientific
  split
  · rfl
  · split
    · rfl
    · split
      · rfl
      · split <;> exact isNaN_roundWithAccuracy ..

theorem isNaN_ofScientific (m : Nat) (negative : Bool) (e : Nat) :
    (Float.ofScientific m negative e).isNaN = false := by
  unfold Float.ofScientific
  split
  · rename_i hsmall
    obtain ⟨k, i, h, hpower, -⟩ := unpack_powerOfTen ⟨e, Nat.lt_succ_of_le hsmall.2⟩
    have hm : m.toUInt64.toFloat.isNaN = false :=
      (isNaN_ofModel_pack _).trans (isNaN_normalize ..)
    dsimp only
    split
    · exact (isNaN_ofModel_pack _).trans (isNaN_div hm hpower _)
    · exact (isNaN_ofModel_pack _).trans (isNaN_mul hm hpower _)
  · exact (isNaN_ofModel_pack _).trans (isNaN_unpackedOfScientific ..)

/-- **A decimal denotes a number.** -/
theorem isNaN_nearest (digits : Nat) (exponent : Int) :
    (nearest digits exponent).isNaN = false := by
  unfold nearest
  dsimp only
  split
  · decide
  · split
    · exact isNaN_ofScientific ..
    · split
      · decide
      · exact isNaN_ofScientific ..

end Spreadsheet.Decimal
