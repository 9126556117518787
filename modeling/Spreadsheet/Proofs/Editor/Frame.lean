import Spreadsheet.Proofs.Editor.Run

/-!
# Editors hold together

Whoever is told what recomputes show, and whatever he refuses: sheet and buffer are rectangles of one
size, the active cell and the one last copied are in them, and nothing that is asked of an editor
misses its place, also while a recompute is put off.

* `Shapes`: a table that is a rectangle; `cellAt_meets`: the cell that an address names;
* `Framed`, **`framed_after`**: editors hold together at any time.
-/

namespace Spreadsheet.Editor

variable {watch : Observer} {ed : Editor}

/-- A table of texts is a rectangle of a given size, which is not empty. -/
structure Shapes (s : Size) (rows : List (List String)) : Prop where
  length : rows.length = s.rows
  width : ∀ row ∈ rows, row.length = s.cols
  length_pos : 0 < rows.length
  width_pos : ∀ row ∈ rows, 0 < row.length

theorem shapes_rows {g : Grid} {s : Size} (h : g.size = s) : Shapes s g.rows := by
  subst h
  have hlength : g.rows.length = g.size.rows := Grid.length_rows
  have hwidth : ∀ row ∈ g.rows, row.length = g.size.cols := fun _ => Grid.length_of_mem_rows
  exact ⟨hlength, hwidth, hlength ▸ g.size.rows_pos, fun row hrow =>
    (hwidth row hrow).symm ▸ g.size.cols_pos⟩

/-- **What an editor is made of fits together**, and so nothing misses its place: no operation fails
at an index, and a recompute and the start of an edit write inside the buffer. -/
structure Framed (ed : Editor) : Prop where
  sheet : Shapes ed.sheet.size ed.sheet.grid.rows
  buffer : Shapes ed.sheet.size ed.buffer.rows
  active : ∀ c, ed.active? = some c → c ∈ ed.sheet.size
  origin : ∀ c, ed.origin? = some c → c ∈ ed.sheet.size
  operation : ∀ (op : Operation) f, (op.action.run ed).1 = .error f → f.kind = Fault.valueKind
  values : ∀ rows f, ((loadValues rows).run ed).1 = .error f → f.kind = Fault.valueKind
  address : ∀ name f, ((cellAt name).run ed).1 = .error f → f.kind = Fault.valueKind
  focus : ∀ c ∈ ed.sheet.size, ∃ text ed', (beginEdit c).run ed = (.ok text, ed') ∧
    Shapes ed.sheet.size ed'.buffer.rows ∧ ed'.buffer.text c = text
  recompute : ∀ outcome ed', ed.recompute = (outcome, ed') → Shapes ed.sheet.size ed'.buffer.rows ∧
    (∃ shown, ed'.shown = ed.shown ++ shown ∧ ∀ p ∈ shown, p.1 ∈ ed.sheet.size) ∧
    ∀ fault, outcome = .error fault →
      fault.kind = Fault.valueKind ∨ ∃ c t, ed.observe c t = .error fault
  /-- Nor did a recompute within an operation. -/
  recomputed : ∀ e ∈ ed.events, Explained ed.observe e

theorem cellAt_meets (name : String) :
    (cellAt name).Meets ed (fun c ed' => c ∈ ed.sheet.size ∧ ed' = ed)
      fun f ed' => f.kind = Fault.valueKind ∧ ed' = ed := by
  unfold cellAt
  rw [ExceptT.meets_bind, ExceptT.meets_ofExcept]
  cases Address.read name with
  | error e => exact ⟨rfl, rfl⟩
  | ok c =>
    simp only [Except.mapError]
    rw [ExceptT.meets_bind]
    refine requireCell_meets.imp ?_ ?_
    · rintro _ _ ⟨hc, rfl⟩
      exact ⟨hc, rfl⟩
    · rintro _ _ ⟨-, rfl, rfl⟩
      exact ⟨rfl, rfl⟩

theorem Valid.framed (h : ed.Valid watch) : ed.Framed := by
  constructor
  · exact shapes_rows rfl
  · exact shapes_rows h.size
  · exact fun c => h.active
  · exact fun c => h.origin
  · exact fun op f hf => ((op.action_meets h).of_error hf).1.kind
  · exact fun rows f hf => ((loadValues_meets h rows).of_error hf).2
  · exact fun name f hf => ((cellAt_meets name).of_error hf).1
  · intro c hc
    have hmeets := beginEdit_meets (c := c) h
    obtain ⟨text, ed', hrun, hk, htext⟩ :=
      (hmeets.imp (fun _ _ => id) fun _ _ hout => hout.1 hc).exists_ok
    have hsize : (ed.document.perform (.beginEdit c)).grid.size = ed.document.grid.size := by
      rw [Document.perform, if_pos (by exact hc)]
      split
      · rfl
      · exact Document.size_leave
    refine ⟨text, ed', hrun, shapes_rows (hk.valid.size.trans ?_), htext⟩
    exact (congrArg (·.grid.size) hk.document).trans hsize
  · intro outcome ed' hrun
    obtain ⟨⟨h', hdocument⟩, hshown, hspec⟩ := recompute_spec h hrun
    refine ⟨shapes_rows (h'.size.trans (congrArg (·.grid.size) hdocument)), hshown, ?_⟩
    rintro fault rfl
    refine hspec.2.symm.imp ?_ ?_
    · rintro ⟨c, f, -, -, rfl⟩
      rfl
    · rintro ⟨c, t, hstop⟩
      exact ⟨c, t, h.observe ▸ hstop⟩
  · exact h.observe ▸ h.explained

/-- **Editors hold together** at any time, whatever they were asked for before. -/
theorem framed_after (settings : Settings) (clocked : Bool) (observe : Observer)
    (ops : List Operation) : ((start settings clocked observe).after ops).Framed :=
  (valid_of_after rfl).framed

end Spreadsheet.Editor
