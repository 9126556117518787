import Spreadsheet.Proofs.Editor.Failure
import Spreadsheet.Proofs.Formula.Occurrence
import Spreadsheet.Proofs.Sheet.Respelling

/-!
# Texts of cells that are left

When a cell is left, its text is normalized. Normalizing a text again changes nothing, the text
counts as the same number, and an accepted formula is accepted and keeps its tree, so that every
cell of the grid keeps its value.

* `CellText.normalize_formula`, `CellText.respelled_normalize`: a formula that is normalized;
* `Editor.exists_endEdit`: the sheet after an edit;
* **`Editor.normalize_keeps_meaning`**.
-/

namespace Spreadsheet

open Formula (Expr roomLimit)

/-! ## Formulas -/

namespace CellText

variable {room : Nat} {cs : List Char} {e : Expr}

theorem body?_of_ofBody (h : Expr.ofBody room (String.ofList cs) = .ok e) :
    body? (String.ofList ('=' :: cs)) = some (String.ofList cs) :=
  Expr.body?_of_parse (Expr.ofBody_eq_ok_iff.1 h).1

/-- The equals sign in front of an accepted body stays, and no formula becomes a blank one. -/
theorem normalize_formula (h : Expr.ofBody room (String.ofList cs) = .ok e) :
    normalize (String.ofList ('=' :: cs)) = String.ofList ('=' :: Formula.respaced cs) := by
  have hblank : isBlankFormula (String.ofList ('=' :: cs)) = false := by
    refine Bool.eq_false_iff.2 fun hblank => ?_
    have hnot := not_isFormula_of_isBlankFormula hblank
    rw [isFormula_iff.2 ⟨_, body?_of_ofBody h⟩] at hnot
    cases hnot
  have hequals : Text.isBlank '=' = false := by decide
  rw [normalize, hblank, if_neg Bool.false_ne_true, String.toList_ofList,
    Text.squeeze_cons_of_not hequals, Text.trim_eq, Text.trimLeft_cons_of_not hequals,
    Text.trimRight_cons_of_not hequals, Formula.respaced]

/-- **A formula that is normalized is read alike.** -/
theorem respelled_normalize (h : Expr.ofBody room (String.ofList cs) = .ok e) :
    Respelled (String.ofList ('=' :: cs)) (normalize (String.ofList ('=' :: cs))) := by
  have hrespelled := Formula.respelled_respaced h
  obtain ⟨e', he', -⟩ := hrespelled.ofBody_ok h
  rw [normalize_formula h]
  exact .inr ⟨_, _, body?_of_ofBody h, body?_of_ofBody he', hrespelled⟩

end CellText

/-! ## Ending an edit -/

namespace Editor

variable {watch : Observer} {ed : Editor} {c : Cell}

/-- Ending an edit gets through, and the active cell then has its normalized text. -/
theorem exists_endEdit (h : ed.Valid watch) (hactive : ed.active? = some c) :
    ∃ answer ed' hc, endEdit.run ed = (.ok answer, ed') ∧ ed'.Valid watch ∧
      ed'.sheet.grid = ed.sheet.grid.set c (CellText.normalize (ed.sheet.text c)) hc := by
  obtain ⟨answer, ed', hrun, hkeeps⟩ := (endEdit_meets h).exists_ok
  refine ⟨answer, ed', h.active hactive, hrun, hkeeps.valid, ?_⟩
  have hdocument := hkeeps.document
  have hc : c ∈ ed.document.grid.size := h.active hactive
  rw [Document.leave_of_active (by exact hactive), Document.put, dif_pos hc] at hdocument
  exact congrArg Document.grid hdocument

/-- **Normalizing keeps what a text means.** It is normalized once and for all; unless it is a blank
formula, there are no blanks at its ends and single spaces inside; and it counts as the same number,
or as none. A formula whose body is accepted stays one, and its body keeps its tree, but for the
places of tokens. So when the edit of a cell with such a formula ends, no other cell changes, and
every cell is evaluated as before, in whatever state; nor does it matter what had been known until
then, if the cell reaches neither a cycle nor a row number that cannot be read. -/
theorem normalize_keeps_meaning (text : String) :
    CellText.normalize (CellText.normalize text) = CellText.normalize text ∧
    (CellText.isBlankFormula text = false → Text.Tidy (CellText.normalize text).toList) ∧
    Formula.ofText (CellText.normalize text) = Formula.ofText text ∧
    ∀ (room : Nat) (cs : List Char) (e : Expr), text = String.ofList ('=' :: cs) →
      Expr.ofBody room (String.ofList cs) = .ok e →
      (∃ cs' e', CellText.normalize text = String.ofList ('=' :: cs') ∧
        Expr.ofBody room (String.ofList cs') = .ok e' ∧ e'.unplaced = e.unplaced) ∧
      ∀ (settings : Settings) (clocked : Bool) (observe : Observer) (ops : List Operation)
        (ed : Editor) (c : Cell), (start settings clocked observe).after ops = ed →
        ed.active? = some c → ed.sheet.text c = text →
        ∃ answer ed' hc, endEdit.run ed = (.ok answer, ed') ∧
          ed'.sheet.grid = ed.sheet.grid.set c (CellText.normalize text) hc ∧
          (∀ room d, ed'.sheet.grid.valueAt room d = ed.sheet.grid.valueAt room d) ∧
          ∀ d, ¬ ed.sheet.grid.ReachesCycle roomLimit d →
            (∀ f, ¬ ed.sheet.grid.Overlong roomLimit d f) →
            (ed'.sheet.run fun g => g.valueAt roomLimit d).1 =
              (ed.sheet.run fun g => g.valueAt roomLimit d).1 := by
  refine ⟨CellText.normalize_normalize text, CellText.tidy_normalize, Formula.ofText_normalize text,
    ?_⟩
  rintro room cs e rfl he
  constructor
  · obtain ⟨e', he', htree⟩ := (Formula.respelled_respaced he).ofBody_ok he
    exact ⟨_, e', CellText.normalize_formula he, he', htree⟩
  · intro settings clocked observe ops ed c hed hactive htext
    have hvalid := valid_of_after hed
    obtain ⟨answer, ed', hc, hrun, hvalid', hgrid⟩ := exists_endEdit hvalid hactive
    rw [htext] at hgrid
    have htext' : ed.sheet.grid.text c = String.ofList ('=' :: cs) := htext
    have hrespelled : ed.sheet.grid.Respelled ed'.sheet.grid := by
      rw [hgrid]
      refine Grid.respelled_set hc ?_
      rw [htext']
      exact CellText.respelled_normalize he
    exact ⟨answer, ed', hc, hrun, hgrid, hrespelled.valueAt_eq, fun d hcycle hreadable =>
      hvalid.sheet.valueAt_eq_of_respelled hvalid'.sheet hrespelled hreadable hcycle⟩

/-- A formula that was typed on two lines. -/
theorem normalize_two_lines : ∃ ed answer ed',
    (start twoCells true .silent).after [.beginEdit ⟨0, 1⟩, .edit ⟨0, 1⟩ "= 1 +\n\tA1  "] = ed ∧
    endEdit.run ed = (.ok answer, ed') ∧ ed'.sheet.text ⟨0, 1⟩ = "= 1 + A1" ∧
    ∀ room d, ed'.sheet.grid.valueAt room d = ed.sheet.grid.valueAt room d := by
  obtain ⟨ed, hed, hactive, htext⟩ : ∃ ed, (start twoCells true .silent).after
      [.beginEdit ⟨0, 1⟩, .edit ⟨0, 1⟩ "= 1 +\n\tA1  "] = ed ∧ ed.active? = some ⟨0, 1⟩ ∧
      ed.sheet.text ⟨0, 1⟩ = "= 1 +\n\tA1  " := ⟨_, rfl, rfl, rfl⟩
  have hchars : "= 1 +\n\tA1  " = String.ofList ('=' :: " 1 +\n\tA1  ".toList) := by
    decide +kernel
  obtain ⟨e, he⟩ : ∃ e, Expr.ofBody 100 " 1 +\n\tA1  " = .ok e := ⟨_, by cbv⟩
  obtain ⟨-, -, -, hformula⟩ := normalize_keeps_meaning "= 1 +\n\tA1  "
  obtain ⟨-, hend⟩ := hformula 100 _ e hchars (by rwa [String.ofList_toList])
  obtain ⟨answer, ed', hc, hrun, hgrid, hvalue, -⟩ := hend _ _ _ _ ed ⟨0, 1⟩ hed hactive htext
  refine ⟨ed, answer, ed', hed, hrun, ?_, hvalue⟩
  rw [Sheet.text, hgrid, Grid.text_set, if_pos rfl]
  decide +kernel

end Editor

end Spreadsheet
