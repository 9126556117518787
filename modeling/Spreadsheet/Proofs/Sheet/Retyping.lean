import Spreadsheet.Proofs.Decimal.Whole
import Spreadsheet.Proofs.Sheet.Locality
import Spreadsheet.Proofs.Sheet.Scan

/-!
# What a cell shows can be typed into another one

The text of a number that a formula computes is no formula itself and has no blanks, so that it
stays as it is in the cell into which it is typed. There it counts as the number that it was the
text of.

* `not_isFormula_display`, `normalize_display`: the text as one that is typed;
* `Sheet.display_of_valueAt`: the cell that it is taken from; `Sheet.display_put`,
  `Sheet.valueAt_put`: the cell that it is put into;
* **`display_reads_back`**: numbers and their texts.
-/

namespace Spreadsheet

/-! ## Texts of numbers -/

namespace Decimal

theorem Numeric.not_isFormula {cs : List Char} (h : Numeric cs) :
    CellText.isFormula (String.ofList cs) = false := by
  unfold CellText.isFormula CellText.body?
  rw [String.toList_ofList]
  split
  · exact absurd (h '=' List.mem_cons_self) (by decide)
  · rfl

theorem Numeric.not_isBlank {cs : List Char} (h : Numeric cs) :
    ∀ c ∈ cs, Text.isBlank c = false := by
  have hmarks : ['.', '+', '-', 'e'].all (fun c => !Text.isBlank c) = true := by decide
  intro c hc
  rcases h c hc with hdigit | hmark
  · exact Bool.eq_false_iff.2 fun hblank => Formula.not_isDigit_of_isBlank hblank hdigit
  · simpa using List.all_eq_true.1 hmarks c hmark

end Decimal

namespace Formula

open Decimal

theorem not_isFormula_display (x : Float) : CellText.isFormula (display x) = false := by
  rcases display_numeric x with h | ⟨cs, hcs, h⟩
  · rw [h]
    decide
  · rw [h]
    exact hcs.not_isFormula

/-- What a number looks like stays as it is when its cell is left. -/
theorem normalize_display (x : Float) : CellText.normalize (display x) = display x := by
  rcases display_numeric x with h | ⟨cs, hcs, h⟩
  · rw [h]
    decide
  · rw [h]
    refine CellText.normalize_of_tidy (Text.tidy_of_not_isBlank ?_)
    rw [String.toList_ofList]
    exact hcs.not_isBlank

end Formula

/-! ## Cells -/

open Decimal (Binary PlainDigits)
open Formula (CellValue display_whole display_zero normalize_display not_isFormula_display ofText
  ofText_display)

variable {g : Grid} {r : Results} {c : Cell} {t : String} {room : Nat}

/-- The value of a cell without a formula is its text. -/
theorem Grid.valueAt_of_not_isFormula (h : ¬ CellText.isFormula (g.text c) = true)
    (hr : r.memo[c]? = none) (room : Nat) :
    (g.valueAt room c).run r = (.ok (.text (g.text c)), r) := by
  rw [valueAt, ExceptT.run_tryCatch_apply, cellValue_of_not_isFormula h hr]

namespace Sheet

variable {s : Sheet} {v : CellValue}

/-- A formula cell shows its value. -/
theorem display_of_valueAt (hc : CellText.isFormula (s.text c) = true)
    (hv : (s.run fun g => g.valueAt room c).1 = .ok v) :
    (s.run fun g => g.display room c).1 = .ok v.display := by
  change CellText.isFormula (s.grid.text c) = true at hc
  change ((s.grid.valueAt room c).run s.results).1 = .ok v at hv
  change ((s.grid.display room c).run s.results).1 = _
  rw [Grid.display, if_pos hc, map_eq_pure_bind, ExceptT.run_bind_apply]
  rcases hrun : (s.grid.valueAt room c).run s.results with ⟨f | w, r⟩
  · rw [hrun] at hv
    cases hv
  · rw [hrun] at hv
    obtain rfl : w = v := Except.ok.inj hv
    rfl

section

variable (hc : c ∈ s.size) (ht : CellText.isFormula t = false)

include ht

theorem not_isFormula_put : ¬ CellText.isFormula ((s.put c t hc).grid.text c) = true := by
  rw [text_put, if_pos rfl, ht]
  exact Bool.false_ne_true

/-- A text that is no formula is shown as it is typed. -/
theorem display_put (room : Nat) :
    ((s.put c t hc).run fun g => g.display room c).1 = .ok t := by
  rw [run, Grid.run_display_of_not_isFormula (not_isFormula_put hc ht), text_put, if_pos rfl]

/-- A text that is no formula is the value of its cell. -/
theorem valueAt_put (room : Nat) :
    ((s.put c t hc).run fun g => g.valueAt room c).1 = .ok (.text t) := by
  have hunknown : (s.put c t hc).results.memo[c]? = none := by simp [put, Results.invalidate]
  rw [run, Grid.valueAt_of_not_isFormula (not_isFormula_put hc ht) hunknown, text_put, if_pos rfl]

end

/-- The value of a formula that is a number. -/
theorem Coherent.valueAt_number {body : String} {n : Formula.Literal} (h : s.Coherent room)
    (hb : CellText.body? (s.grid.text c) = some body)
    (he : Formula.Expr.ofBody room body = .ok (.number n)) (hroom : 1 ≤ room) :
    (s.run fun g => g.valueAt room c).1 = .ok (.result (.ok n.value)) := by
  have hcycle : ¬ s.grid.ReachesCycle room c :=
    Grid.not_reachesCycle_of_cells hb he fun d hd => absurd hd List.not_mem_nil
  have hreadable (f : Formula.Failure) : ¬ s.grid.Overlong room c f := by
    intro hlong
    obtain ⟨d, hd, -⟩ := Grid.Overlong.exists_mem_cells hlong hb he
    exact absurd hd List.not_mem_nil
  have hfits : (Formula.Expr.number n).depth (s.grid.meaning room) ≤ room := hroom
  rw [h.valueAt_eq_meaning hreadable (CellText.isFormula_iff.2 ⟨_, hb⟩) hcycle,
    Grid.meaning_of_body? hcycle hb, Grid.verdict, Formula.verdict_of_ofBody he, if_pos hfits]
  rfl

end Sheet

/-- **Displayed numbers read back.** What is shown of a finite double counts as a finite double that
is equal to it; it is the same double unless that is the negative zero, which is shown like the
other one. A whole number below ten to the twenty-first is shown as `0` or as digits without a zero
in front, after a minus sign if it is negative. So what a formula with a number shows may be typed
into any cell of any sheet, where it stays as it is and counts as the same number. -/
theorem display_reads_back (x : Float) (hx : x.isFinite = true) :
    (∃ y, ofText (Formula.display x) = .ok y ∧ y.isFinite = true ∧ (y == x) = true ∧
      (x ≠ -0.0 → y = x)) ∧
    Formula.display (-0.0) = "0" ∧
    (∀ (b : Binary) (n : Int), Binary.ofFloat? x = some b → b.value = n → |n| < 10 ^ 21 →
      if n = 0 then Formula.display x = "0" else ∃ ds, PlainDigits ds ∧
        Formula.display x = String.ofList ((if n < 0 then ['-'] else []) ++ ds)) ∧
    ∀ (room : Nat) (s : Sheet) (c : Cell), CellText.isFormula (s.text c) = true →
      (s.run fun g => g.valueAt room c).1 = .ok (.result (.ok x)) →
      (s.run fun g => g.display room c).1 = .ok (Formula.display x) ∧
      (CellValue.result (.ok x)).number = .ok x ∧
      CellText.normalize (Formula.display x) = Formula.display x ∧
      ∀ (s' : Sheet) (c' : Cell), c' ∈ s'.size → ∃ s'' v y,
        s'.set c' (Formula.display x) = .ok s'' ∧
        (s''.run fun g => g.display room c').1 = .ok (Formula.display x) ∧
        (s''.run fun g => g.valueAt room c').1 = .ok v ∧ v.number = .ok y ∧ (y == x) = true := by
  obtain ⟨y, hy, hfinite, heq, hsame⟩ := ofText_display hx
  refine ⟨⟨y, hy, hfinite, heq, hsame⟩, display_zero.2,
    fun b n => display_whole, fun room s c hc hv => ?_⟩
  refine ⟨Sheet.display_of_valueAt hc hv, if_pos hx, normalize_display x, fun s' c' hc' => ?_⟩
  exact ⟨s'.put c' (Formula.display x) hc', .text (Formula.display x), y, dif_pos hc',
    Sheet.display_put hc' (not_isFormula_display x) room,
    Sheet.valueAt_put hc' (not_isFormula_display x) room, hy, heq⟩

/-- A formula with a whole number that its shortest digits do not fill. -/
theorem display_reads_back_padded : ∃ s : Sheet,
    s.text ⟨0, 0⟩ = "=100000000000000000000" ∧
    (∃ y, ofText (Formula.display 1e20) = .ok y ∧ y = 1e20) ∧
    (∃ ds, PlainDigits ds ∧ Formula.display 1e20 = String.ofList ds) ∧
    (s.run fun g => g.display Formula.roomLimit ⟨0, 0⟩).1 = .ok (Formula.display 1e20) ∧
    ∃ s' v y, s.set ⟨0, 0⟩ (Formula.display 1e20) = .ok s' ∧
      (s'.run fun g => g.valueAt Formula.roomLimit ⟨0, 0⟩).1 = .ok v ∧ v.number = .ok y ∧
      (y == 1e20) = true := by
  obtain ⟨s, hs⟩ : ∃ s, Sheet.ofRows [["=100000000000000000000"]] = s := ⟨_, rfl⟩
  have htext : s.text ⟨0, 0⟩ = "=100000000000000000000" := by rw [← hs]; decide +kernel
  have hb : CellText.body? (s.grid.text ⟨0, 0⟩) = some "100000000000000000000" := by
    change CellText.body? (s.text ⟨0, 0⟩) = _
    rw [htext]
    cbv
  have hformula : CellText.isFormula (s.text ⟨0, 0⟩) = true := CellText.isFormula_iff.2 ⟨_, hb⟩
  have he : Formula.Expr.ofBody Formula.roomLimit "100000000000000000000" =
      .ok (.number ⟨'1' :: List.replicate 20 '0', []⟩) := by cbv
  have hcoherent : s.Coherent Formula.roomLimit := hs ▸ Sheet.coherent_ofRows _
  have hliteral : Formula.Literal.value ⟨'1' :: List.replicate 20 '0', []⟩ = 1e20 := by
    decide +kernel
  have hvalue := hcoherent.valueAt_number hb he (by decide)
  rw [hliteral] at hvalue
  obtain ⟨⟨y, hy, -, -, hsame⟩, -, hwhole, htyped⟩ := display_reads_back 1e20 (by decide +kernel)
  obtain ⟨hdisplay, -, -, hput⟩ := htyped _ s _ hformula hvalue
  obtain ⟨s', v, y', hset, -, hread, hnumber, heq⟩ := hput s ⟨0, 0⟩ (Grid.mem_of_isFormula hformula)
  refine ⟨s, htext, ⟨y, hy, hsame (by decide +kernel)⟩, ?_, hdisplay, s', v, y', hset, hread,
    hnumber, heq⟩
  have hshown := hwhole ⟨false, 6103515625000000, 14⟩ (10 ^ 20) (by decide +kernel)
    (by norm_num [Binary.value, Binary.magnitude]) (by norm_num)
  rw [if_neg (by norm_num), if_neg (by norm_num)] at hshown
  exact hshown

end Spreadsheet
