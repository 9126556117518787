import Spreadsheet.Proofs.Editor.Recompute
import Spreadsheet.Proofs.Sheet.History

/-!
# The order of readings

Once the values of all formulas are forgotten, cells are shown in any order. What a cell shows does
not depend on the order, unless the cell reaches a cycle: then it may be the code of another error,
since a cell is given a value while a cell that it refers to is still being evaluated.

* `Grid.ShownAlike`: what two readings of one cell have in common; `Shown.alike`;
* `Sheet.readings`: cells shown after a change; `Editor.shown_of_recompute`: those of a recompute;
* **`shown_alike`**: any two readings, any two recomputes; **`shown_otherwise`**: a cell of a cycle.
-/

namespace Spreadsheet

open Formula (CellValue ErrorCode)

namespace Grid

variable {g : Grid} {room : Nat} {c : Cell} {v w : CellValue} {t t' : String}

/-- Two texts are one, or both are codes of errors and the cell reaches a cycle. -/
def ShownAlike (g : Grid) (room : Nat) (c : Cell) (t t' : String) : Prop :=
  t = t' ∨ g.ReachesCycle room c ∧ ∃ code code' : ErrorCode, t = code.text ∧ t' = code'.text

/-- Two values that are right for one cell are one, or errors of a cell that reaches a cycle. -/
theorem Right.alike (hv : g.Right room c v) (hw : g.Right room c w) : v = w ∨
    g.ReachesCycle room c ∧ ∃ code code', v = .result (.error code) ∧ w = .result (.error code') := by
  by_cases hcycle : g.ReachesCycle room c
  · obtain ⟨body, hb, hv⟩ := hv
    obtain ⟨body', hb', hw⟩ := hw
    obtain rfl : body = body' := Option.some.inj (hb.symm.trans hb')
    cases hverdict : g.verdict room body with
    | error f =>
      rw [hverdict] at hv hw
      exact .inl (hv.1.trans hw.1.symm)
    | ok x =>
      rw [hverdict] at hv hw
      obtain ⟨y, rfl, hy⟩ := hv
      obtain ⟨z, rfl, hz⟩ := hw
      cases x with
      | ok a => exact absurd hcycle (not_reachesCycle_of_verdict hb hverdict)
      | error code =>
        have herror {y : Formula.Outcome} (hy : Formula.Agree (g.ReachesCycle room c) y (.error code)) :
            ∃ code', y = .error code' := hy.elim (fun h => ⟨code, h⟩) fun h => h.2.1
        obtain ⟨a, rfl⟩ := herror hy
        obtain ⟨b, rfl⟩ := herror hz
        exact .inr ⟨hcycle, a, b, rfl, rfl⟩
  · exact .inl ((hv.eq_meaning hcycle).trans (hw.eq_meaning hcycle).symm)

theorem Shown.alike (ht : g.Shown room c t) (ht' : g.Shown room c t') :
    g.ShownAlike room c t t' := by
  rcases ht with ⟨hf, rfl⟩ | ⟨v, hv, rfl⟩
  · rcases ht' with ⟨-, rfl⟩ | ⟨w, hw, rfl⟩
    · exact .inl rfl
    · exact absurd hw.isFormula hf
  · rcases ht' with ⟨hf, -⟩ | ⟨w, hw, rfl⟩
    · exact absurd hv.isFormula hf
    · rcases hv.alike hw with rfl | ⟨hcycle, a, b, rfl, rfl⟩
      · exact .inl rfl
      · exact .inr ⟨hcycle, a, b, rfl, rfl⟩

end Grid

namespace Sheet

variable {room : Nat} {s : Sheet} {c : Cell} {t : String}

/-- Cells are shown one after another when the values of all formulas have been forgotten. -/
def readings (room : Nat) (s : Sheet) (cells : List Cell) : Sheet :=
  s.invalidate.after room (cells.map .display)

theorem display_sound (h : s.results.Sound s.grid room) (c : Cell) :
    (s.run fun g => g.display room c).2.results.Sound s.grid room ∧
      match (s.run fun g => g.display room c).1 with
      | .ok t => s.grid.Shown room c t
      | .error f => s.grid.Overlong room c f := by
  have hmeets := Grid.display_meets (c := c) h
  unfold run
  rcases hrun : (s.grid.display room c).run s.results with ⟨f | t, r⟩
  · obtain ⟨⟨hsound, -⟩, hlong⟩ := hmeets.of_run_error hrun
    exact ⟨hsound, hlong⟩
  · obtain ⟨⟨hsound, -⟩, hshows⟩ := hmeets.of_run_ok hrun
    exact ⟨hsound, hshows.shown hsound⟩

theorem sound_after_display (h : s.results.Sound s.grid room) (cells : List Cell) :
    (s.after room (cells.map .display)).grid = s.grid ∧
      (s.after room (cells.map .display)).results.Sound s.grid room := by
  induction cells generalizing s with
  | nil => exact ⟨rfl, h⟩
  | cons c cells ih => exact ih (s := s.perform room (.display c)) (display_sound h c).1

/-- **What a reading shows** is right, whatever was read before. It fails only if a row number is too
long where the cell leads. -/
theorem readings_spec (room : Nat) (s : Sheet) (cells : List Cell) (c : Cell) :
    match ((s.readings room cells).run fun g => g.display room c).1 with
    | .ok t => s.grid.Shown room c t
    | .error f => s.grid.Overlong room c f := by
  have hforgotten : s.invalidate.results.Sound s.invalidate.grid room :=
    Results.sound_of_memo_eq_empty rfl
  obtain ⟨hgrid, hsound⟩ := sound_after_display hforgotten cells
  change (s.readings room cells).grid = s.grid at hgrid
  have hsound : (s.readings room cells).results.Sound (s.readings room cells).grid room :=
    hgrid ▸ hsound
  have hread := (display_sound hsound c).2
  rwa [hgrid] at hread

end Sheet

namespace Editor

open Formula (roomLimit)

variable {ed ed' : Editor} {c : Cell}

/-- **What a recompute shows** is right, whatever was known before. -/
theorem shown_of_recompute (hrun : ed.recompute = (.ok (), ed')) (hc : c ∈ ed.sheet.size)
    (hactive : ed.active? ≠ some c) : ed.sheet.grid.Shown roomLimit c (ed'.buffer.text c) := by
  unfold recompute at hrun
  split at hrun
  · cases hrun
  · rcases hscan : ed.sheet.invalidate.scan roomLimit ed.observe ed.active? with ⟨scan, sheet⟩
    obtain ⟨⟨hgrid, -⟩, hshown, hend⟩ :=
      Sheet.scan_sound (Results.sound_of_memo_eq_empty rfl) hscan
    have hsize : sheet.size = ed.sheet.size := congrArg Grid.size hgrid
    simp only [hscan] at hrun
    cases hfault : scan.fault? with
    | some fault =>
      rw [hfault] at hrun
      cases hrun
    | none =>
      rw [hfault] at hrun hend
      obtain ⟨-, rfl⟩ := Prod.mk.inj hrun
      have htext : (bufferOf sheet ed.active? scan.shown).text c =
          (Std.HashMap.ofList scan.shown).getD c "" := by
        rw [text_bufferOf (hsize ▸ hc), if_neg hactive]
      have hmem := getD_ofList_of_scan hend.1 (Size.nodup_without _ _)
        (Size.mem_without.2 ⟨hc, hactive⟩)
      rw [← htext] at hmem
      exact (hshown _ hmem).2.2

theorem reading_after_first :
    (((Sheet.mk (.ofRows [["=SUM(C1,B1)", "=A1", "x"]]) {}).readings roomLimit [⟨0, 0⟩]).run
      fun g => g.display roomLimit ⟨0, 1⟩).1 = .ok "#CIRC!" := by cbv

theorem reading_alone :
    (((Sheet.mk (.ofRows [["=SUM(C1,B1)", "=A1", "x"]]) {}).readings roomLimit []).run
      fun g => g.display roomLimit ⟨0, 1⟩).1 = .ok "#VALUE!" := by cbv

end Editor

end Spreadsheet
