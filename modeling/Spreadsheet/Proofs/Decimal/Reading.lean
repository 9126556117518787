import Spreadsheet.Proofs.Blank
import Spreadsheet.Proofs.Decimal
import Spreadsheet.Proofs.Decimal.Shortest
import Spreadsheet.Proofs.Formula.Naming

/-!
# Numbers are read as they are shown

Whatever the layout of a decimal, reading its text gives the same decimal back, if with its digits
divided in another way between those before the point, those behind it and the power of ten. So a
double that is written with its shortest decimal is read back as it was, but for the sign of zero,
which is not shown.

* `Numeral.magnitude`; `Denotes`: a text is a numeral of a given magnitude, with a sign or without;
* `denotes_positional`, `denotes_scientific`, **`denotes_write`**: layouts;
* `Numeral.value_eq`: the double of a numeral; `ofText_ofList`: the number of its text;
* **`ofText_display`**: what is shown of a double.
-/

namespace Spreadsheet

namespace Decimal

variable {cs ds whole fraction : List Char} {s : Scaled} {n : Numeral} {b : Binary} {l : Layout}

/-! ## Digits -/

theorem ofDigits_append_zeros (ds : List Char) (n : Nat) :
    ofDigits (ds ++ List.replicate n '0') = ofDigits ds * 10 ^ n := by
  induction n with
  | zero => simp
  | succ n ih =>
    rw [List.replicate_succ', ← List.append_assoc, ofDigits_append, ih, pow_succ]
    have hzero : '0'.toNat - 48 = 0 := by decide
    rw [hzero]
    ring

theorem ofDigits_padLeft (width : Nat) (ds : List Char) :
    ofDigits (padLeft width ds) = ofDigits ds := by
  have hzeros := ofDigits_replicate_zero (width - ds.length)
  unfold ofDigits at hzeros
  rw [padLeft, ofDigits, List.foldl_append, hzeros, ofDigits]

theorem ofDigits_natDigits (n : Nat) : ofDigits (natDigits n) = n := ofDigits_toDigits n

theorem isDigit_natDigits (n : Nat) : ∀ c ∈ natDigits n, c.isDigit = true :=
  fun _ hc => Nat.isDigit_of_mem_toDigits (by decide) (by decide) hc

theorem isDigit_zeros (n : Nat) : ∀ c ∈ List.replicate n '0', c.isDigit = true :=
  fun c hc => List.eq_of_mem_replicate hc ▸ by decide

theorem isDigit_append (hcs : ∀ c ∈ cs, c.isDigit = true) (hds : ∀ c ∈ ds, c.isDigit = true) :
    ∀ c ∈ cs ++ ds, c.isDigit = true := List.forall_mem_append.2 ⟨hcs, hds⟩

/-! ## Numerals -/

/-- The magnitude of a numeral. -/
def Numeral.magnitude (n : Numeral) : ℚ :=
  ofDigits (n.whole ++ n.fraction) * 10 ^ (n.exponent - n.fraction.length)

theorem takeWhile_digits {rest : List Char} (hdigits : ∀ c ∈ cs, c.isDigit = true)
    (hrest : ∀ c ∈ rest.head?, c.isDigit = false) :
    (cs ++ rest).takeWhile Char.isDigit = cs ∧ (cs ++ rest).dropWhile Char.isDigit = rest := by
  rw [List.takeWhile_append_of_pos hdigits, List.dropWhile_append_of_pos hdigits]
  cases rest with
  | nil => exact ⟨List.append_nil cs, rfl⟩
  | cons c rest =>
    have hc := hrest c rfl
    rw [List.takeWhile_cons_of_neg (by simp [hc]), List.dropWhile_cons_of_neg (by simp [hc])]
    exact ⟨List.append_nil cs, rfl⟩

theorem takeSign_append {rest : List Char} (negative : Bool) (hne : cs ≠ [])
    (hdigits : ∀ c ∈ cs, c.isDigit = true) :
    takeSign ((if negative then ['-'] else []) ++ (cs ++ rest)) = (negative, cs ++ rest) := by
  cases negative with
  | true => rfl
  | false =>
    obtain ⟨c, cs, rfl⟩ := List.exists_cons_of_ne_nil hne
    have hc := hdigits c List.mem_cons_self
    have hminus : c ≠ '-' := by rintro rfl; cases hc
    have hplus : c ≠ '+' := by rintro rfl; cases hc
    simp [takeSign, hminus, hplus]

/-- **A text is read as a numeral** by its parts: digits, a point with digits after it or nothing,
and an exponent or nothing. -/
theorem read?_eq_some (negative : Bool) {mark rest : List Char} {k : Int} (hne : whole ≠ [])
    (hwhole : ∀ c ∈ whole, c.isDigit = true) (hfraction : ∀ c ∈ fraction, c.isDigit = true)
    (hmark : mark = [] ∧ fraction = [] ∨ mark = '.' :: fraction) (hstop : ∀ c ∈ rest.head?, c = 'e')
    (hexponent : readExponent? rest = some k) :
    Numeral.read? ((if negative then ['-'] else []) ++ (whole ++ (mark ++ rest))) =
      some ⟨negative, whole, fraction, k⟩ := by
  have hrest : ∀ c ∈ rest.head?, c.isDigit = false := fun c hc => hstop c hc ▸ rfl
  have hafter : ∀ c ∈ (mark ++ rest).head?, c.isDigit = false := by
    rcases hmark with ⟨rfl, -⟩ | rfl
    · exact hrest
    · rintro c ⟨⟩
      rfl
  have htake : takeFraction (mark ++ rest) = (fraction, rest) := by
    rcases hmark with ⟨rfl, rfl⟩ | rfl
    · cases rest with
      | nil => rfl
      | cons c rest =>
        obtain rfl := hstop c rfl
        rfl
    · obtain ⟨htake, hdrop⟩ := takeWhile_digits hfraction hrest
      simp only [List.cons_append, takeFraction, htake, hdrop]
  obtain ⟨hbefore, hbehind⟩ := takeWhile_digits hwhole hafter
  have hempty : whole.isEmpty = false := by simpa using hne
  unfold Numeral.read?
  rw [takeSign_append negative hne hwhole]
  simp only [hbefore, hbehind, htake, hempty, hexponent, Bool.false_and]
  rfl

/-- A text is a numeral of a given magnitude, without a sign or with a minus sign. -/
def Denotes (cs : List Char) (v : ℚ) : Prop := ∀ negative : Bool, ∃ n,
  Numeral.read? ((if negative then ['-'] else []) ++ cs) = some n ∧ n.negative = negative ∧
    n.magnitude = v

/-! ## Layouts -/

theorem natDigits_ne_nil (n : Nat) : natDigits n ≠ [] := Nat.toDigits_ne_nil

theorem denotes_of_parts (rest : List Char) {mark : List Char} {k : Int} {v : ℚ}
    (hcs : whole ++ (mark ++ rest) = cs) (hne : whole ≠ [])
    (hwhole : ∀ c ∈ whole, c.isDigit = true) (hfraction : ∀ c ∈ fraction, c.isDigit = true)
    (hmark : mark = [] ∧ fraction = [] ∨ mark = '.' :: fraction) (hstop : ∀ c ∈ rest.head?, c = 'e')
    (hexponent : readExponent? rest = some k)
    (hv : (ofDigits (whole ++ fraction) : ℚ) * 10 ^ (k - fraction.length) = v) : Denotes cs v :=
  fun negative => ⟨⟨negative, whole, fraction, k⟩,
    hcs ▸ read?_eq_some negative hne hwhole hfraction hmark hstop hexponent, rfl, hv⟩

theorem positional_of_nonneg {j : Nat} (h : s.exponent = j) :
    l.positional s = natDigits s.digits ++ List.replicate j '0' ++ l.wholeMark := by
  rw [Layout.positional, if_pos (h ▸ Int.natCast_nonneg j), h, Int.toNat_natCast]

/-- **Positional forms** are read back, with whatever mark whole numbers have. -/
theorem denotes_positional (hl : l.wholeMark = [] ∨ l.wholeMark = ['.', '0']) (s : Scaled) :
    Denotes (l.positional s) s.magnitude := by
  by_cases hexponent : 0 ≤ s.exponent
  · obtain ⟨j, hj⟩ := Int.eq_ofNat_of_zero_le hexponent
    have hdigits := isDigit_append (isDigit_natDigits s.digits) (isDigit_zeros j)
    have hne : natDigits s.digits ++ List.replicate j '0' ≠ [] :=
      List.append_ne_nil_of_left_ne_nil (natDigits_ne_nil _) _
    have hvalue : (ofDigits (natDigits s.digits ++ List.replicate j '0') : ℚ) = s.magnitude := by
      rw [ofDigits_append_zeros, ofDigits_natDigits, Scaled.magnitude, hj, zpow_natCast]
      push_cast
      rfl
    rw [positional_of_nonneg hj]
    rcases hl with hmark | hmark
    · refine denotes_of_parts [] (by rw [hmark]; rfl) hne hdigits (List.forall_mem_nil _)
        (.inl ⟨rfl, rfl⟩) (by simp) rfl ?_
      rw [List.append_nil, hvalue]
      simp
    · refine denotes_of_parts [] (by rw [hmark]; rfl) hne hdigits (isDigit_zeros 1) (.inr rfl)
        (by simp) rfl ?_
      rw [ofDigits_append_zeros, Nat.cast_mul, hvalue]
      simp
  · obtain ⟨j, hj⟩ := Int.eq_ofNat_of_zero_le (show 0 ≤ -s.exponent by omega)
    have hpadded : (padLeft (j + 1) (natDigits s.digits)).length - j ≠ 0 := by
      rw [padLeft, List.length_append, List.length_replicate]
      omega
    have hdigits : ∀ c ∈ padLeft (j + 1) (natDigits s.digits), c.isDigit = true :=
      isDigit_append (isDigit_zeros _) (isDigit_natDigits _)
    rw [Layout.positional, if_neg hexponent, hj, Int.toNat_natCast]
    dsimp only
    have hvalue := ofDigits_padLeft (j + 1) (natDigits s.digits)
    generalize padLeft (j + 1) (natDigits s.digits) = ds at hpadded hdigits hvalue
    refine denotes_of_parts [] (by rw [List.append_nil]) ?_
      (fun c hc => hdigits c (List.mem_of_mem_take hc))
      (fun c hc => hdigits c (List.mem_of_mem_drop hc)) (.inr rfl) (by simp) rfl ?_
    · rw [Ne, List.take_eq_nil_iff, not_or]
      refine ⟨hpadded, ?_⟩
      rintro rfl
      simp at hpadded
    · rw [List.take_append_drop, hvalue, ofDigits_natDigits, List.length_drop, Scaled.magnitude]
      congr 2
      omega

/-- An exponent is read back. -/
theorem readExponent?_append (width : Nat) (k : Int) : readExponent? ('e' ::
    (if k < 0 then '-' else '+') :: padLeft width (natDigits k.natAbs)) = some k := by
  have hdigits : (padLeft width (natDigits k.natAbs)).all Char.isDigit = true :=
    List.all_eq_true.2 (isDigit_append (isDigit_zeros _) (isDigit_natDigits _))
  have hne : (padLeft width (natDigits k.natAbs)).isEmpty = false := by
    rw [List.isEmpty_eq_false_iff]
    exact List.append_ne_nil_of_right_ne_nil _ (natDigits_ne_nil _)
  have hvalue : (ofDigits (padLeft width (natDigits k.natAbs)) : Int) = k.natAbs := by
    rw [ofDigits_padLeft, ofDigits_natDigits]
  have hsign : takeSign ((if k < 0 then '-' else '+') :: padLeft width (natDigits k.natAbs)) =
      (decide (k < 0), padLeft width (natDigits k.natAbs)) := by
    by_cases hneg : k < 0
    · rw [if_pos hneg, decide_eq_true hneg]
      rfl
    · rw [if_neg hneg, decide_eq_false hneg]
      rfl
  rw [readExponent?, hsign]
  simp only [hne, hdigits, hvalue]
  refine congrArg some ?_
  by_cases hneg : k < 0
  · rw [if_pos (decide_eq_true hneg)]
    omega
  · rw [if_neg (by simpa using hneg)]
    omega

/-- **Scientific forms** are read back. -/
theorem denotes_scientific (l : Layout) (s : Scaled) :
    Denotes (l.scientific s (s.exponent + (natDigits s.digits).length - 1)) s.magnitude := by
  have hdigits := isDigit_natDigits s.digits
  have hvalue := ofDigits_natDigits s.digits
  have hne := natDigits_ne_nil s.digits
  unfold Layout.scientific
  generalize natDigits s.digits = ds at hdigits hvalue hne
  generalize hk : s.exponent + ds.length - 1 = k
  have hexponent := readExponent?_append l.exponentWidth k
  match ds with
  | [] => exact absurd rfl hne
  | [d] =>
    refine denotes_of_parts _ rfl hne hdigits (List.forall_mem_nil _) (.inl ⟨rfl, rfl⟩)
      (by simp) hexponent ?_
    rw [List.append_nil, hvalue, Scaled.magnitude, ← hk]
    simp
  | d :: d' :: ds =>
    obtain ⟨hfirst, hrest⟩ := List.forall_mem_cons.1 hdigits
    refine denotes_of_parts _ rfl (List.cons_ne_nil d []) (List.forall_mem_singleton.2 hfirst) hrest
      (.inr rfl) (by simp) hexponent ?_
    rw [List.singleton_append, hvalue, Scaled.magnitude, ← hk]
    congr 2
    simp only [List.length_cons]
    omega

/-- **Whatever the layout of a decimal**, it is read back. -/
theorem denotes_write (hl : l.wholeMark = [] ∨ l.wholeMark = ['.', '0']) (s : Scaled) :
    Denotes (l.write s) s.magnitude := by
  unfold Layout.write
  dsimp only
  split
  · exact denotes_positional hl s
  · exact denotes_scientific l s

/-! ## Doubles -/

open Float.Model (UnpackedFloat)
open Float.Model.UnpackedFloat (pack unpack)

/-- **The double of a numeral** is the one that attracts its magnitude. -/
theorem Numeral.value_eq (hb : b.Canonical) (hlarge : b.exponent ≤ 971)
    (h : b.Attracts n.magnitude) : n.value =
      .ofModel (.pack (.finite (signOf n.negative) b.mantissa b.exponent hb.pos)) := by
  have hdigits : ofDigits (n.whole ++ n.fraction) ≠ 0 := by
    intro hzero
    have hpos := h.pos hb.pos
    rw [Numeral.magnitude, hzero, Nat.cast_zero, zero_mul] at hpos
    exact lt_irrefl _ hpos
  have hnearest := nearest_eq hb hlarge (Nat.pos_of_ne_zero hdigits) h
  unfold Numeral.value ofParts
  dsimp only
  rw [hnearest]
  cases n.negative with
  | false => rfl
  | true =>
    change Float.ofModel (.pack (UnpackedFloat.neg (unpack .binary64 (pack .binary64 _)))) = _
    rw [unpack_pack hb hlarge]
    rfl

end Decimal

namespace Formula

open Decimal

variable {cs : List Char} {n : Numeral} {x : Float} {b : Binary}

/-- A text that is a numeral counts as its double, if that is finite. -/
theorem ofText_ofList (h : Numeral.read? cs = some n) :
    ofText (String.ofList cs) = checked n.value := by
  have htrim := Text.trim_of_not_isBlank (Numeral.not_isBlank_of_read? h)
  have hne : cs.isEmpty = false := by
    cases cs with
    | nil => cases h
    | cons => rfl
  unfold ofText
  rw [String.toList_ofList, htrim]
  simp only [hne, h]
  rfl

/-- A double that is not zero is shown with its sign, and its shortest decimal in one layout or
another. -/
theorem exists_display_eq (hb : Binary.ofFloat? x = some b) (hne : b.mantissa ≠ 0) :
    ∃ cs, display x = String.ofList ((if b.negative then ['-'] else []) ++ cs) ∧
      Denotes cs (shortest b).magnitude := by
  have hsign : (b.negative && b.mantissa != 0) = b.negative := by simp [hne]
  unfold display
  rw [hb]
  dsimp only
  split
  · exact ⟨_, by rw [hsign], denotes_positional (.inl rfl) _⟩
  · refine ⟨_, ?_, denotes_write (l := standard) (.inr rfl) (shortest b)⟩
    rw [Decimal.text, hb]

theorem ofText_display_of_ne_zero (hx : x.isFinite = true) (hb : Binary.ofFloat? x = some b)
    (hne : b.mantissa ≠ 0) : ofText (display x) = .ok x := by
  obtain ⟨hc, hlarge, hunpack⟩ := (unpack_of_ofFloat? hb).resolve_left fun h => hne h.1
  obtain ⟨-, hattracts, -⟩ := shortest_spec hc
  obtain ⟨cs, hdisplay, hdenotes⟩ := exists_display_eq hb hne
  obtain ⟨n, hread, hnegative, hmagnitude⟩ := hdenotes b.negative
  have hvalue : n.value = x := by
    rw [Numeral.value_eq hc hlarge (hmagnitude ▸ hattracts), hnegative, ← hunpack,
      ← eq_ofModel_pack]
  rw [hdisplay, ofText_ofList hread, hvalue, checked, if_pos hx]

theorem display_zero : display 0.0 = "0" ∧ display (-0.0) = "0" := by
  constructor <;> decide +kernel

theorem ofText_zero : ofText "0" = .ok 0.0 := by decide

/-- **What is shown of a double** counts as that double; only a zero loses its sign. -/
theorem ofText_display (hx : x.isFinite = true) : ∃ y, ofText (display x) = .ok y ∧
    y.isFinite = true ∧ (y == x) = true ∧ (x ≠ -0.0 → y = x) := by
  cases hb : Binary.ofFloat? x with
  | none =>
    rw [(ofFloat?_eq_none_iff x).1 hb] at hx
    cases hx
  | some b =>
    by_cases hzero : b.mantissa = 0
    · refine ⟨0.0, ?_⟩
      rcases eq_zero_of_ofFloat? hb hzero with rfl | rfl
      · exact ⟨by rw [display_zero.1, ofText_zero], hx, by decide, fun _ => rfl⟩
      · exact ⟨by rw [display_zero.2, ofText_zero], by decide, by decide,
          fun h => absurd rfl h⟩
    · exact ⟨x, ofText_display_of_ne_zero hx hb hzero, hx, beq_self_of_isFinite hx, fun _ => rfl⟩

end Formula

end Spreadsheet
