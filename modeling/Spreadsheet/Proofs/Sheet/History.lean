import Mathlib
import Spreadsheet.Proofs.Formula.Nesting
import Spreadsheet.Proofs.Sheet.Coherence

/-!
# Histories of a sheet

A sheet is changed and read in any order. Whatever was read before, and however far the readings
came, a formula cell has the value that the texts of the sheet give to it.

* `Sheet.Command`, `Sheet.perform`, `Sheet.after`: changes and readings, one after another;
* `coherent_after`: what is known is right at any time;
* **`valueAt_after_eq_meaning`**: the value of a cell that reaches no cycle;
* **`valueAt_after_circular`**: a number, or a circular reference, says whether a cycle is reached.
-/

namespace Spreadsheet.Sheet

open Formula (CellValue Failure)

/-- What can be asked of a sheet. -/
inductive Command where
  | set (c : Cell) (text : String)
  | resize (rows cols : Int)
  | addRow
  | addColumn
  | removeRow
  | removeColumn
  | load (rows : List (List String))
  | reset (rows cols : Int)
  | invalidate
  | value (c : Cell)
  | display (c : Cell)

/-- A command that reads cells and changes none. -/
def Command.IsReading : Command → Prop
  | .value _ | .display _ | .invalidate => True
  | _ => False

/-- A sheet after a command. One that is refused changes nothing; a reading that fails leaves what
became known. -/
def perform (room : Nat) (s : Sheet) : Command → Sheet
  | .set c text => (s.set c text).toOption.getD s
  | .resize rows cols => (s.resize rows cols).toOption.getD s
  | .addRow => s.addRow
  | .addColumn => s.addColumn
  | .removeRow => s.removeRow
  | .removeColumn => s.removeColumn
  | .load rows => .ofRows rows
  | .reset rows cols => ((Grid.checkSize rows cols).map Sheet.empty).toOption.getD s
  | .invalidate => s.invalidate
  | .value c => (s.run fun g => g.valueAt room c).2
  | .display c => (s.run fun g => g.display room c).2

/-- A sheet after commands, one after another. -/
def after (room : Nat) (s : Sheet) (history : List Command) : Sheet :=
  history.foldl (perform room) s

variable {room : Nat} {s : Sheet} {c : Cell}

theorem perform_set (room : Nat) {text : String} (hc : c ∈ s.size) :
    s.perform room (.set c text) = s.put c text hc := by
  simp only [perform, Sheet.set, dif_pos hc]
  rfl

theorem text_perform_set (hc : c ∈ s.size) (text : String) (d : Cell) :
    (s.perform room (.set c text)).grid.text d = if d = c then text else s.grid.text d := by
  rw [perform_set room hc, text_put]

theorem Coherent.perform (h : s.Coherent room) (command : Command) :
    (s.perform room command).Coherent room := by
  cases command with
  | set c text =>
    by_cases hc : c ∈ s.size
    · rw [perform_set room hc]
      exact h.put text hc
    · simp only [Sheet.perform, Sheet.set, dif_neg hc]
      exact h
  | resize rows cols =>
    simp only [Sheet.perform, Sheet.resize]
    cases Grid.checkSize rows cols with
    | error _ => exact h
    | ok size => exact h.regrid_resize size
  | addRow => exact h.addRow
  | addColumn => exact h.addColumn
  | removeRow => exact h.removeRow
  | removeColumn => exact h.removeColumn
  | load rows => exact coherent_ofRows rows
  | reset rows cols =>
    simp only [Sheet.perform]
    cases Grid.checkSize rows cols with
    | error _ => exact h
    | ok size => exact coherent_empty size
  | invalidate => exact h.invalidate
  | value c => exact h.run_valueAt c
  | display c => exact h.run_display c

/-- **What is known is right at any time.** -/
theorem Coherent.after (h : s.Coherent room) (history : List Command) :
    (s.after room history).Coherent room := by
  induction history generalizing s with
  | nil => exact h
  | cons command history ih => exact ih (h.perform command)

theorem short_put (h : s.grid.Short) {text : String} (ht : CellText.Short text) (hc : c ∈ s.size) :
    (s.put c text hc).grid.Short := by
  intro d
  rw [text_put]
  split
  · exact ht
  · exact h d

theorem short_text_nested (n : Nat) :
    CellText.Short (String.ofList ('=' :: Formula.nested n)) := by
  intro body e hb he
  rw [Formula.body?_nested] at hb
  rw [← Option.some.inj hb, Formula.parse_nested] at he
  rw [← Except.ok.inj he]
  exact Formula.short_nested n

/-- A formula of nested calls is accepted if there is a level for each of them, and has no value if
there are not two. -/
theorem Coherent.valueAt_put_nested (h : s.Coherent room) (hshort : s.grid.Short) {n : Nat}
    (hn : n < room) (hn' : room ≤ 2 * n) (hc : c ∈ s.size) :
    ¬ (s.put c (String.ofList ('=' :: Formula.nested n)) hc).grid.ReachesCycle room c ∧
      ((s.put c (String.ofList ('=' :: Formula.nested n)) hc).run fun g => g.valueAt room c).1 =
        .ok .failed := by
  generalize hs : s.put c (String.ofList ('=' :: Formula.nested n)) hc = s'
  have he := Formula.ofBody_nested hn
  have hb : CellText.body? (s'.grid.text c) = some (String.ofList (Formula.nested n)) := by
    rw [← hs, text_put, if_pos rfl, Formula.body?_nested]
  have hcycle : ¬ s'.grid.ReachesCycle room c :=
    Grid.not_reachesCycle_of_cells hb he (by simp [Formula.cells_nested])
  have hshort' : s'.grid.Short := hs ▸ short_put hshort (short_text_nested n) hc
  have h' : s'.Coherent room := hs ▸ h.put _ hc
  refine ⟨hcycle, ?_⟩
  rw [h'.valueAt_eq_meaning (fun _ => hshort'.not_overlong) (CellText.isFormula_iff.2 ⟨_, hb⟩)
    hcycle, Grid.meaning_of_body? hcycle hb, Grid.verdict, Formula.verdict_of_ofBody he,
    Formula.depth_nested, if_neg (by omega)]
  rfl

/-- **Numbers and circular references after any history.** A cell that reaches a cycle has an error
or no value; one that reaches none is no circular reference. -/
theorem valueAt_after_circular {g : Grid} {history : List Command}
    (hs : (Sheet.mk g {}).after room history = s) (hshort : s.grid.Short)
    (hc : CellText.isFormula (s.text c) = true) :
    ∃ v, (s.run fun g => g.valueAt room c).1 = .ok v ∧
      (s.grid.ReachesCycle room c → v = .failed ∨ ∃ code, v = .result (.error code)) ∧
      (¬ s.grid.ReachesCycle room c → v ≠ .result (.error .circular)) := by
  have h : s.Coherent room := hs ▸ coherent_of_failures_eq_empty.after history
  obtain ⟨v, hv, hright⟩ := h.valueAt_right hshort hc
  refine ⟨v, hv, hright.of_reachesCycle, fun hcycle hcirc => ?_⟩
  have hne := Grid.meaning_ne_circular hcycle
  rw [← hright.eq_meaning hcycle, hcirc] at hne
  exact hne rfl

/-- Two cells that refer to each other, the other one being read before. -/
theorem valueAt_after_loop : ∃ s, (Sheet.mk (.ofRows [["=B1", "=A1"]]) {}).after Formula.roomLimit
      [.value ⟨0, 1⟩] = s ∧ s.grid.ReachesCycle Formula.roomLimit ⟨0, 0⟩ ∧
    ∃ v, (s.run fun g => g.valueAt Formula.roomLimit ⟨0, 0⟩).1 = .ok v ∧
      (v = .failed ∨ ∃ code, v = .result (.error code)) := by
  have he : Formula.Expr.ofBody Formula.roomLimit "A1" =
      .ok (.cell ⟨false, ['A'], false, ['1']⟩ 0) := by cbv
  have he' : Formula.Expr.ofBody Formula.roomLimit "B1" =
      .ok (.cell ⟨false, ['B'], false, ['1']⟩ 0) := by cbv
  generalize hs : (Sheet.mk (.ofRows [["=B1", "=A1"]]) {}).after Formula.roomLimit
    [.value ⟨0, 1⟩] = s
  have hg : s.grid = .ofRows [["=B1", "=A1"]] := by
    rw [← hs, after, List.foldl_cons, List.foldl_nil, perform, grid_run]
  have hcycle : s.grid.ReachesCycle Formula.roomLimit ⟨0, 0⟩ := by
    rw [hg]
    refine Grid.reachesCycle_of_transGen (.tail (.single (b := ⟨0, 1⟩) ?_) ?_)
    · rw [Grid.dependsOn_iff (by decide +kernel) he', Formula.Expr.cells_cell]
      decide +kernel
    · rw [Grid.dependsOn_iff (by decide +kernel) he, Formula.Expr.cells_cell]
      decide +kernel
  have hshort : s.grid.Short := by rw [hg]; decide +kernel
  have hc : CellText.isFormula (s.text ⟨0, 0⟩) = true := by rw [Sheet.text, hg]; decide +kernel
  obtain ⟨v, hv, herror, -⟩ := valueAt_after_circular hs hshort hc
  exact ⟨s, rfl, hcycle, v, hv, herror hcycle⟩

end Spreadsheet.Sheet
