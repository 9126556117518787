import Spreadsheet.Proofs.Formula.Shift

/-!
# References, written and read back

A reference is written with its column in capital letters and its row counted from one. Read back,
it is the same reference, as long as its row number is not too long.

* `Column.index_letters`, `Decimal.ofDigits_toDigits`: columns and rows;
* `Reference.written`: the parts that are written; `Reference.text_eq_written`: they are the
  notation of the reference;
* **`Reference.resolve?_written`**: reading back;
* `Stays`, `movedParts`: a written reference that is moved; **`resolve?_movedParts`**: what it then
  denotes; `shiftParts_of_stays`, `shiftParts_of_lost`: what is written for it.
-/

namespace Spreadsheet

/-! ## Columns and rows -/

namespace Column

theorem letterValue_lastLetter (n : Int) : letterValue (lastLetter n) = n % 26 + 1 := by
  have hall : ∀ k : Fin 26, letterValue (Char.ofNat (65 + k.val)) = k.val + 1 := by decide
  have hlt : (n % 26).toNat < 26 := by omega
  have hletter : letterValue (lastLetter n) = ((n % 26).toNat : Int) + 1 := hall ⟨_, hlt⟩
  omega

theorem index_append (word : List Char) (c : Char) :
    index (word ++ [c]) = 26 * (index word + 1) + letterValue c - 1 := by
  simp only [index, List.foldl_append, List.foldl_cons, List.foldl_nil]
  omega

/-- **The name of a column names it.** -/
theorem index_letters {n : Int} (h : 0 ≤ n) : index (letters n) = n := by
  fun_induction letters n with
  | case1 n hle ih =>
    rw [index_append, ih hle, letterValue_lastLetter]
    omega
  | case2 n hlt =>
    rw [← List.nil_append [lastLetter n], index_append, letterValue_lastLetter]
    simp only [index, List.foldl_nil]
    omega

end Column

theorem Decimal.ofDigits_toDigits (n : Nat) : Decimal.ofDigits (Nat.toDigits 10 n) = n :=
  Nat.ofDigitChars_toDigits (by decide) (by decide)

/-! ## References -/

namespace Reference

open Formula (Written Short letters_ne_nil isLetter_of_mem_letters length_writeInt)

/-- The row number of a reference is not too long to be written. -/
def Fits (r : Reference) : Prop := (r.cell.row + 1).natAbs < 10 ^ Decimal.maxDigits

/-- The parts of a reference as it is written anew. -/
def written (r : Reference) : Parts where
  pinnedCol := r.pinnedCol
  word := Column.letters r.cell.col
  pinnedRow := r.pinnedRow
  digits := Nat.toDigits 10 (r.cell.row + 1).toNat

variable {r : Reference}

theorem Fits.writeInt (h : r.Fits) :
    Decimal.writeInt (r.cell.row + 1) = .ok (toString (r.cell.row + 1)) := by
  unfold Fits at h
  unfold Decimal.writeInt
  rw [Nat.pow_eq, if_pos h]

/-- **The notation of a reference** is that of its parts. -/
theorem text_eq_written (hrow : 0 ≤ r.cell.row) (h : r.Fits) :
    r.text = .ok (String.ofList r.written.chars) := by
  obtain ⟨hdigits, -⟩ := length_writeInt (by omega) h.writeInt
  unfold text
  rw [h.writeInt]
  have hpin (pinned : Bool) :
      (if pinned then "$" else "").toList = if pinned then ['$'] else [] := by
    cases pinned <;> rfl
  refine congrArg Except.ok (String.toList_injective ?_)
  simp only [String.toList_append, String.toList_ofList, hdigits, written, Parts.chars, hpin]
  rfl

theorem written_written : Written r.written where
  word_ne := letters_ne_nil _
  word := isLetter_of_mem_letters _
  digits_ne := Nat.toDigits_ne_nil
  digits _ hc := Nat.isDigit_of_mem_toDigits (by decide) (by decide) hc

theorem Fits.short (hrow : 0 ≤ r.cell.row) (h : r.Fits) : Short r.written := by
  obtain ⟨hdigits, hlength⟩ := length_writeInt (by omega) h.writeInt
  rwa [hdigits] at hlength

/-- **A reference is read back as it was written.** -/
theorem resolve?_written (hrow : 0 ≤ r.cell.row) (hcol : 0 ≤ r.cell.col) (h : r.Fits) :
    r.written.resolve? = .ok (some r) := by
  have hnumber : Decimal.ofDigits r.written.digits = (r.cell.row + 1).toNat :=
    Decimal.ofDigits_toDigits _
  unfold Parts.resolve?
  rw [Decimal.readNat_of_length_le (h.short hrow), hnumber]
  have hpos : (r.cell.row + 1).toNat ≠ 0 := by omega
  have hback : ((r.cell.row + 1).toNat : Int) - 1 = r.cell.row := by omega
  simp only [bind, Except.bind, if_neg hpos, hback, written, Column.index_letters hcol]
  rfl

end Reference

/-! ## Moved references -/

/-- The cell that is a given way from another one. -/
def Cell.move (d : Offset) (c : Cell) : Cell := ⟨c.row + d.rows, c.col + d.cols⟩

theorem Reference.move?_eq_some {d : Offset} {r r' : Reference} (h : r.move? d = some r') :
    r'.pinnedRow = r.pinnedRow ∧ r'.pinnedCol = r.pinnedCol ∧
      r'.cell.row = (if r.pinnedRow then r.cell.row else r.cell.row + d.rows) ∧
      r'.cell.col = (if r.pinnedCol then r.cell.col else r.cell.col + d.cols) ∧
      0 ≤ r'.cell.row ∧ 0 ≤ r'.cell.col := by
  unfold move? at h
  simp only at h
  obtain ⟨hplane, h⟩ := Option.ite_none_left_eq_some.1 h
  obtain rfl := Option.some.inj h
  exact ⟨rfl, rfl, rfl, rfl, Int.not_lt.1 fun hrow => hplane (.inl hrow),
    Int.not_lt.1 fun hcol => hplane (.inr hcol)⟩

namespace Formula

open Reference (Parts)

variable {d : Offset} {p : Parts}

/-- No part of a written reference leaves the plane when it is moved. -/
def Stays (d : Offset) (p : Parts) : Prop :=
  ∃ r r', p.resolve? = .ok (some r) ∧ r.move? d = some r'

/-- If a written reference stays on the plane, its new row number is not too long. -/
def StaysShort (d : Offset) (p : Parts) : Prop :=
  ∀ r r', p.resolve? = .ok (some r) → r.move? d = some r' → r'.Fits

/-- A written reference that names a cell and can be written where it is moved. -/
def Movable (d : Offset) (p : Parts) : Prop := Names p ∧ StaysShort d p

/-- A written reference, moved and written anew, if it stays on the plane. -/
def movedParts (d : Offset) (p : Parts) : Parts :=
  match p.resolve? with
  | .ok (some r) => ((r.move? d).map Reference.written).getD p
  | _ => p

theorem movedParts_eq {r r' : Reference} (hr : p.resolve? = .ok (some r))
    (hmove : r.move? d = some r') : movedParts d p = r'.written := by
  rw [movedParts, hr]
  simp only [hmove, Option.map_some, Option.getD_some]

theorem Stays.written (h : Stays d p) : Written (movedParts d p) := by
  obtain ⟨r, r', hr, hmove⟩ := h
  rw [movedParts_eq hr hmove]
  exact Reference.written_written

/-- **A moved reference** denotes the moved cell. -/
theorem resolve?_movedParts (h : StaysShort d p) {r r' : Reference}
    (hr : p.resolve? = .ok (some r)) (hmove : r.move? d = some r') :
    (movedParts d p).resolve? = .ok (some r') := by
  obtain ⟨-, -, -, -, hrow, hcol⟩ := Reference.move?_eq_some hmove
  rw [movedParts_eq hr hmove]
  exact Reference.resolve?_written hrow hcol (h r r' hr hmove)

theorem Stays.names_movedParts (h : Stays d p) (hshort : StaysShort d p) :
    Names (movedParts d p) := by
  obtain ⟨r, r', hr, hmove⟩ := h
  exact ⟨r', resolve?_movedParts hshort hr hmove⟩

theorem shiftParts_of_stays (h : Stays d p) (hshort : StaysShort d p) :
    shiftParts d p = .ok (movedParts d p).chars := by
  obtain ⟨r, r', hr, hmove⟩ := h
  obtain ⟨-, -, -, -, hrow, -⟩ := Reference.move?_eq_some hmove
  have htext := Reference.text_eq_written hrow (hshort r r' hr hmove)
  unfold shiftParts
  simp only [hr, hmove, htext, bind, Except.bind, movedParts_eq hr hmove]
  exact congrArg Except.ok String.toList_ofList

theorem shiftParts_of_lost (hnames : Names p) (h : ¬ Stays d p) :
    shiftParts d p = .ok lostReference := by
  obtain ⟨r, hr⟩ := hnames
  cases hmove : r.move? d with
  | none =>
    unfold shiftParts
    simp only [hr, hmove, bind, Except.bind]
    rfl
  | some r' => exact absurd ⟨r, r', hr, hmove⟩ h

theorem target_of_resolve? {r : Reference} (hr : p.resolve? = .ok (some r)) :
    p.target = r.cell := by
  simp [Parts.target, hr]

theorem pins_of_resolve? {r : Reference} (hr : p.resolve? = .ok (some r)) :
    r.pinnedRow = p.pinnedRow ∧ r.pinnedCol = p.pinnedCol := by
  unfold Parts.resolve? at hr
  obtain ⟨number, -, hr⟩ := bind_eq_ok.1 hr
  split at hr
  · cases hr
  · cases hr
    exact ⟨rfl, rfl⟩

/-- A moved reference without pins denotes the cell that is the offset away. -/
theorem target_movedParts (h : Stays d p) (hshort : StaysShort d p) (hrow : p.pinnedRow = false)
    (hcol : p.pinnedCol = false) : (movedParts d p).target = p.target.move d := by
  obtain ⟨r, r', hr, hmove⟩ := h
  obtain ⟨hpinnedRow, hpinnedCol⟩ := pins_of_resolve? hr
  obtain ⟨-, -, hrow', hcol', -, -⟩ := Reference.move?_eq_some hmove
  rw [hpinnedRow, hrow, if_neg Bool.false_ne_true] at hrow'
  rw [hpinnedCol, hcol, if_neg Bool.false_ne_true] at hcol'
  rw [target_of_resolve? (resolve?_movedParts hshort hr hmove), target_of_resolve? hr, Cell.move,
    ← hrow', ← hcol']

end Formula

end Spreadsheet
