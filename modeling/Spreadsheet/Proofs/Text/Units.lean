import Mathlib.Algebra.Ring.Nat
import Mathlib.Data.List.Basic
import Spreadsheet.Text.Hex
import Spreadsheet.Text.Units

/-!
# Units are read back

Four hexadecimal digits are enough for a unit of sixteen bits. The units of a text make up the text
again, unless a high half on its own stands right in front of a low one: such a pair is one
character from then on.

* `ofHex?_hex`: digits; `exists_units`, `lt_of_mem_units`: the units of a character;
* `separate`: no halves that would become a pair; **`ofUnits_flatMap_units`**;
* `joined`: a text as it comes back from its units.
-/

namespace Spreadsheet.Text

/-! ## Digits -/

theorem hexValue?_hexDigit : ∀ d < 16, hexValue? (hexDigit d) = some d := by decide

theorem ofHex?_hex {width n : Nat} (h : n < 16 ^ width) : ofHex? (hex width n) = some n := by
  induction width generalizing n with
  | zero => rw [Nat.lt_one_iff.1 h]; rfl
  | succ width ih =>
    rw [Nat.pow_succ] at h
    have hfront : ofHex? (hex width (n / 16)) = some (n / 16) := ih (by omega)
    have hlast := hexValue?_hexDigit (n % 16) (Nat.mod_lt n (by decide))
    unfold ofHex? at hfront ⊢
    rw [hex, List.foldlM_append, hfront]
    simp only [Option.bind_eq_bind, Option.bind_some, List.foldlM_cons, List.foldlM_nil, hlast,
      Option.map_some, Option.pure_def]
    rw [Nat.div_add_mod]

/-! ## The units of a character -/

variable {c : Char} {cs : List Char}

theorem toNat_bounds (c : Char) :
    c.toNat < 0xD800 ∨ 0xDFFF < c.toNat ∧ c.toNat < 0x110000 := c.valid

theorem half?_eq_some {u : Nat} (h : half? c = some u) :
    (isHigh u || isLow u) = true ∧ 0x100000 + u = c.toNat := by
  unfold half? at h
  simp only [Option.ite_none_right_eq_some, Option.some.injEq] at h
  obtain ⟨hhalf, rfl⟩ := h
  refine ⟨hhalf, ?_⟩
  simp only [isHigh, isLow, Bool.or_eq_true, Bool.and_eq_true, decide_eq_true_eq] at hhalf
  omega

theorem codePoint_lt (c : Char) : codePoint c < 0x110000 := by
  have := toNat_bounds c
  cases h : half? c with
  | some u =>
    have := (half?_eq_some h).2
    rw [codePoint, h, Option.getD_some]
    omega
  | none =>
    rw [codePoint, h, Option.getD_none]
    omega

/-- A character is that of its code point, be it one or a half. -/
theorem ofUnit_codePoint (c : Char) : ofUnit (codePoint c) = c := by
  cases h : half? c with
  | some u =>
    obtain ⟨hhalf, hcode⟩ := half?_eq_some h
    rw [codePoint, h, Option.getD_some, ofUnit, if_pos hhalf, ofHalf, hcode, Char.ofNat_toNat]
  | none =>
    have hwhole : ¬ (isHigh c.toNat || isLow c.toNat) = true := by
      have := toNat_bounds c
      simp only [isHigh, isLow, Bool.or_eq_true, Bool.and_eq_true, decide_eq_true_eq]
      omega
    rw [codePoint, h, Option.getD_none, ofUnit, if_neg hwhole, Char.ofNat_toNat]

theorem units_of_lt (h : codePoint c < 0x10000) : units c = [codePoint c] := by
  simp only [units, if_pos h]

theorem units_of_le (h : c ≤ '~') : units c = [c.toNat] := by
  have hlow : c.toNat ≤ 126 := UInt32.le_iff_toNat_le.1 h
  have hcode : codePoint c = c.toNat := by
    cases hhalf : half? c with
    | some u =>
      have := (half?_eq_some hhalf).2
      omega
    | none => rw [codePoint, hhalf, Option.getD_none]
  rw [units_of_lt (by omega), hcode]

/-- A character beyond the first plane is a pair. -/
theorem exists_pair (h : 0x10000 ≤ codePoint c) : ∃ high low, units c = [high, low] ∧
    isHigh high = true ∧ isLow low = true ∧ ofPair high low = c := by
  have hlt := codePoint_lt c
  refine ⟨0xD800 + (codePoint c - 0x10000) / 0x400, 0xDC00 + (codePoint c - 0x10000) % 0x400,
    by simp only [units, if_neg (Nat.not_lt.2 h)], ?_, ?_, ?_⟩
  · simp only [isHigh, Bool.and_eq_true, decide_eq_true_eq]
    omega
  · simp only [isLow, Bool.and_eq_true, decide_eq_true_eq]
    omega
  · have hcode : 0x10000 + (0xD800 + (codePoint c - 0x10000) / 0x400 - 0xD800) * 0x400
        + (0xDC00 + (codePoint c - 0x10000) % 0x400 - 0xDC00) = codePoint c := by omega
    have hone : ¬ (isHigh (codePoint c) || isLow (codePoint c)) = true := by
      simp only [isHigh, isLow, Bool.or_eq_true, Bool.and_eq_true, decide_eq_true_eq]
      omega
    have hunit := ofUnit_codePoint c
    rw [ofUnit, if_neg hone] at hunit
    rw [ofPair, hcode, hunit]

theorem lt_of_mem_units {u : Nat} (h : u ∈ units c) : u < 16 ^ 4 := by
  rcases Nat.lt_or_ge (codePoint c) 0x10000 with hlt | hge
  · rw [units_of_lt hlt] at h
    rw [List.mem_singleton.1 h]
    exact hlt
  · obtain ⟨high, low, hunits, hhigh, hlow, -⟩ := exists_pair hge
    simp only [isHigh, isLow, Bool.and_eq_true, decide_eq_true_eq] at hhigh hlow
    simp only [hunits, List.mem_cons, List.not_mem_nil, or_false] at h
    omega

/-- The first unit of a character is a low half only if the character is one. -/
theorem isLow_of_head?_units {u : Nat} (h : u ∈ (units c).head?) (hlow : isLow u = true) :
    isLow (codePoint c) = true := by
  rcases Nat.lt_or_ge (codePoint c) 0x10000 with hlt | hge
  · rw [units_of_lt hlt] at h
    obtain rfl := Option.some.inj h
    exact hlow
  · obtain ⟨high, low, hunits, hhigh, -, -⟩ := exists_pair hge
    rw [hunits] at h
    obtain rfl := Option.some.inj h
    simp only [isHigh, isLow, Bool.and_eq_true, decide_eq_true_eq] at hhigh hlow
    omega

theorem units_ne_nil (c : Char) : units c ≠ [] := by
  unfold units
  simp only
  split <;> exact List.cons_ne_nil _ _

/-! ## The units of a text -/

/-- No high half on its own stands right in front of a low one. -/
def separate : List Char → Bool
  | c :: d :: cs => !(isHigh (codePoint c) && isLow (codePoint d)) && separate (d :: cs)
  | _ => true

theorem ofUnits_cons {u : Nat} {us : List Nat}
    (h : ∀ v ∈ us.head?, ¬ (isHigh u && isLow v) = true) :
    ofUnits (u :: us) = ofUnit u :: ofUnits us := by
  cases us with
  | nil => rfl
  | cons v us => rw [ofUnits, if_neg (h v rfl)]

/-- **A text is read back** from its units. -/
theorem ofUnits_flatMap_units (h : separate cs = true) : ofUnits (cs.flatMap units) = cs := by
  induction cs with
  | nil => rfl
  | cons c cs ih =>
    have hrest : separate cs = true := by
      cases cs with
      | nil => rfl
      | cons d cs => exact (Bool.and_eq_true_iff.1 h).2
    rw [List.flatMap_cons]
    rcases Nat.lt_or_ge (codePoint c) 0x10000 with hlt | hge
    · have hhead : ∀ v ∈ (cs.flatMap units).head?, ¬ (isHigh (codePoint c) && isLow v) = true := by
        cases cs with
        | nil => simp
        | cons d cs =>
          intro v hv hpair
          obtain ⟨hhigh, hlow⟩ := Bool.and_eq_true_iff.1 hpair
          rw [List.flatMap_cons, List.head?_append_of_ne_nil _ (units_ne_nil d)] at hv
          have hapart := (Bool.and_eq_true_iff.1 h).1
          rw [hhigh, isLow_of_head?_units hv hlow] at hapart
          cases hapart
      rw [units_of_lt hlt, List.singleton_append, ofUnits_cons hhead, ofUnit_codePoint, ih hrest]
    · obtain ⟨high, low, hunits, hhigh, hlow, hpair⟩ := exists_pair hge
      rw [hunits, List.cons_append, List.singleton_append, ofUnits, hhigh, hlow, hpair]
      exact congrArg (List.cons c) (ih hrest)

/-- A text as it comes back from its units: halves that stand side by side are one character. -/
def joined (s : String) : String := String.ofList (ofUnits (s.toList.flatMap units))

theorem joined_of_separate {s : String} (h : separate s.toList = true) : joined s = s := by
  rw [joined, ofUnits_flatMap_units h, String.ofList_toList]

end Spreadsheet.Text
