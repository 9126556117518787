import Spreadsheet.Text.Blank

/-!
# Texts of cells

A cell holds a text as it was typed. A text that starts with `=` is a formula, the rest of it the
body, except that `=` with nothing but blanks behind it is shown as it is (`isBlankFormula`).

* `body?`: the body of a formula;
* `normalize`: what becomes of a text when its cell is left.
-/

namespace Spreadsheet.CellText

open Text (isBlank)

/-- An equals sign with at most blanks behind it. -/
def isBlankFormula (text : String) : Bool :=
  match text.toList with
  | '=' :: cs => cs.all isBlank
  | _ => false

/-- The body of a formula; other texts and blank formulas have none. -/
def body? (text : String) : Option String :=
  match text.toList with
  | '=' :: cs => if cs.all isBlank then none else some (String.ofList cs)
  | _ => none

/-- The text is evaluated. -/
def isFormula (text : String) : Bool := (body? text).isSome

/-- A text as it is stored when its cell is left: no blanks at its ends, and one space for every
run of blanks inside. Blank formulas are left alone. -/
def normalize (text : String) : String :=
  if isBlankFormula text then text
  else String.ofList (Text.trim (Text.squeeze text.toList))

/-! ## Small laws -/

theorem not_isFormula_of_isBlankFormula {text : String} (h : isBlankFormula text = true) :
    isFormula text = false := by
  unfold isBlankFormula at h
  unfold isFormula body?
  split at h <;> simp_all

/-- A body that is not blank is the body of its formula. -/
theorem body?_ofList {cs : List Char} (h : ∃ c ∈ cs, isBlank c = false) :
    body? (String.ofList ('=' :: cs)) = some (String.ofList cs) := by
  have hblank : cs.all isBlank = false := by simpa using h
  unfold body?
  rw [String.toList_ofList]
  simp only [hblank, Bool.false_eq_true, if_false]

theorem isFormula_empty : isFormula "" = false := by decide

end Spreadsheet.CellText
