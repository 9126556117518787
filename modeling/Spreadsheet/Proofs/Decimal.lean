import Spreadsheet.Sheet.Display

/-!
# The text of a number

However a number is laid out, its text is made of digits and of four marks. So what a number looks
like is told apart from words.

* `Numeric`: such texts; `numeric_positional`, `numeric_scientific`: the two forms;
  `display_numeric`: what is shown;
* **`display_ne_failedText`**, `text_ne_failedText`: no number and no error code looks like a
  missing value.
-/

namespace Spreadsheet

namespace Decimal

/-- A text of digits, points, signs and marks of exponents. -/
def Numeric (cs : List Char) : Prop := ∀ c ∈ cs, c.isDigit = true ∨ c ∈ ['.', '+', '-', 'e']

variable {cs ds : List Char} {c : Char}

theorem numeric_nil : Numeric [] := fun _ hc => absurd hc List.not_mem_nil

theorem Numeric.append (h : Numeric cs) (h' : Numeric ds) : Numeric (cs ++ ds) :=
  fun c hc => (List.mem_append.1 hc).elim (h c) (h' c)

theorem Numeric.mark (h : Numeric cs) (hc : c ∈ ['.', '+', '-', 'e']) : Numeric (c :: cs) :=
  List.forall_mem_cons.2 ⟨.inr hc, h⟩

theorem Numeric.subset (h : Numeric cs) (hs : ds ⊆ cs) : Numeric ds := fun c hc => h c (hs hc)

theorem numeric_natDigits (n : Nat) : Numeric (natDigits n) :=
  fun _ hc => .inl (Nat.isDigit_of_mem_toDigits (by decide) (by decide) hc)

theorem numeric_zeros (n : Nat) : Numeric (List.replicate n '0') :=
  fun c hc => .inl (List.eq_of_mem_replicate hc ▸ by decide)

theorem numeric_padLeft (width : Nat) (h : Numeric cs) : Numeric (padLeft width cs) :=
  (numeric_zeros _).append h

theorem numeric_positional {l : Layout} (hl : Numeric l.wholeMark) (s : Scaled) :
    Numeric (l.positional s) := by
  unfold Layout.positional
  split
  · exact ((numeric_natDigits _).append (numeric_zeros _)).append hl
  · have hdigits := numeric_padLeft ((-s.exponent).toNat + 1) (numeric_natDigits s.digits)
    exact (hdigits.subset (List.take_subset _ _)).append
      ((hdigits.subset (List.drop_subset _ _)).mark (by decide))

theorem numeric_scientific (l : Layout) (s : Scaled) (leading : Int) :
    Numeric (l.scientific s leading) := by
  have hexponent := numeric_padLeft l.exponentWidth (numeric_natDigits leading.natAbs)
  have hdigits := numeric_natDigits s.digits
  unfold Layout.scientific
  refine Numeric.append ?_ ((hexponent.mark ?_).mark (by decide))
  · split
    · exact numeric_nil
    · rename_i hd
      exact hd ▸ hdigits
    · rename_i hd
      rw [hd] at hdigits
      obtain ⟨hfirst, hrest⟩ := List.forall_mem_cons.1 hdigits
      exact List.forall_mem_cons.2 ⟨hfirst, Numeric.mark hrest (by decide)⟩
  · split <;> decide

theorem numeric_write {l : Layout} (hl : Numeric l.wholeMark) (s : Scaled) :
    Numeric (l.write s) := by
  unfold Layout.write
  dsimp only
  split
  · exact numeric_positional hl s
  · exact numeric_scientific l s _

theorem numeric_sign (negative : Bool) : Numeric (if negative then ['-'] else []) := by
  split
  · exact numeric_nil.mark (by decide)
  · exact numeric_nil

theorem Numeric.ne_failedText (h : Numeric cs) : String.ofList cs ≠ failedText := by
  intro heq
  have hcs : cs = ['E', 'R', 'R'] := by
    rw [← String.toList_ofList (l := cs), heq]
    rfl
  rw [hcs] at h
  exact absurd (h 'E' List.mem_cons_self) (by decide)

end Decimal

namespace Formula

open Decimal

/-- What is shown of a number is a numeral, or the code of an error if it is none. -/
theorem display_numeric (x : Float) :
    display x = ErrorCode.value.text ∨ ∃ cs, Numeric cs ∧ display x = String.ofList cs := by
  unfold display
  rcases hb : Binary.ofFloat? x with _ | b
  · exact .inl rfl
  · simp only
    split
    · exact .inr ⟨_, (numeric_sign _).append
        (numeric_positional (l := wholeLayout) numeric_nil _), rfl⟩
    · have hmark : Numeric standard.wholeMark := fun c hc => by
        rcases List.mem_cons.1 hc with rfl | hc
        · exact .inr (by decide)
        · exact .inl (List.mem_singleton.1 hc ▸ by decide)
      refine .inr ⟨_, (numeric_sign b.negative).append (numeric_write hmark (shortest b)), ?_⟩
      rw [Decimal.text, hb]

/-- **What a number looks like is no missing value.** -/
theorem display_ne_failedText (x : Float) : display x ≠ failedText := by
  rcases display_numeric x with h | ⟨cs, hcs, h⟩
  · rw [h]
    decide
  · rw [h]
    exact hcs.ne_failedText

theorem text_ne_failedText (code : ErrorCode) : code.text ≠ failedText := by
  cases code <;> decide

end Formula

end Spreadsheet
