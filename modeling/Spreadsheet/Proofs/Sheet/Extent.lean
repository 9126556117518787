import Spreadsheet.Proofs.Sheet.Chain
import Spreadsheet.Proofs.Sheet.Locality
import Spreadsheet.Proofs.Sheet.Overlay

/-!
# The extent of a sheet

Cells outside of a sheet are empty, and cells that come into it are too. What a cell shows depends
on the texts alone, wherever the borders of the sheet are.

* `Grid.ReachesCycle.of_text`: fewer texts make no cycles;
* `Sheet.Displays`, **`Sheet.Coherent.exists_displays`**: sheets with the same texts show the same;
* `Sheet.Stays`: cells that no border has passed; **`Sheet.text_after`**: the others are empty;
* **`Sheet.displays_after_moving`**: moving the borders of a sheet.
-/

namespace Spreadsheet

open Formula (roomLimit)

namespace Grid

variable {g g' : Grid} {room : Nat} {c d : Cell}

/-! ## Fewer texts -/

theorem DependsOn.of_text (h : ∀ x, CellText.isFormula (g'.text x) = true → g.text x = g'.text x)
    (hdep : g'.DependsOn room c d) : g.DependsOn room c d := by
  obtain ⟨hf, hreads⟩ := dependsOn_iff_reads.1 hdep
  have hc := h c hreads.isFormula
  unfold Reads at hreads
  rw [← hc] at hreads
  rw [← h d hf] at hf
  exact dependsOn_iff_reads.2 ⟨hf, hreads⟩

/-- Formulas that are dropped make no cycle. -/
theorem ReachesCycle.of_text
    (h : ∀ x, CellText.isFormula (g'.text x) = true → g.text x = g'.text x)
    (hcycle : g'.ReachesCycle room c) : g.ReachesCycle room c := by
  obtain ⟨d, hlead, hround⟩ := hcycle
  have hmono (x y : Cell) (hxy : g'.DependsOn room x y) : g.DependsOn room x y := hxy.of_text h
  exact ⟨d, Relation.ReflTransGen.mono hmono _ _ hlead,
    Relation.TransGen.mono hmono _ _ hround⟩

end Grid

namespace Sheet

variable {s s' : Sheet} {room : Nat} {c d : Cell} {command : Command} {history : List Command}

/-! ## The same texts -/

/-- A cell shows a text, unless a row number where it leads is too long. -/
def Displays (s : Sheet) (room : Nat) (c : Cell) (t : String) : Prop :=
  match (s.run fun g => g.display room c).1 with
  | .ok shown => shown = t
  | .error f => s.grid.Overlong room c f

theorem Coherent.displays (h : s.Coherent room) (hc : ¬ s.grid.ReachesCycle room c) :
    s.Displays room c (s.grid.meaning room c).display := by
  have hshown := h.display_shown c
  unfold Displays
  split
  · rename_i hrun
    rw [hrun] at hshown
    exact hshown.eq_display hc
  · rename_i hrun
    rw [hrun] at hshown
    exact hshown

/-- **Sheets with the same texts show the same**, whatever their extents are and whatever has been
read before. -/
theorem Coherent.exists_displays (h : s.Coherent room) (h' : s'.Coherent room)
    (htext : ∀ d, s'.text d = s.text d) (hc : ¬ s.grid.ReachesCycle room c) :
    ∃ t, s.Displays room c t ∧ s'.Displays room c t := by
  have halike : Grid.Alike room (fun _ => True) s.grid s'.grid :=
    ⟨fun _ => htext _, fun _ _ => trivial⟩
  have hdisplays := h'.displays (halike.not_reachesCycle trivial hc)
  rw [halike.meaning_eq trivial hc] at hdisplays
  exact ⟨_, h.displays hc, hdisplays⟩

/-! ## Moving borders -/

/-- A command that moves borders of a sheet. -/
def Command.MovesBorders : Command → Prop
  | .resize .. | .addRow | .addColumn | .removeRow | .removeColumn => True
  | _ => False

/-- A command that moves borders of a sheet, and none of them inwards. -/
def Command.Widens (size : Size) : Command → Prop
  | .resize rows cols => size.rows ≤ rows ∧ size.cols ≤ cols
  | .addRow | .addColumn => True
  | _ => False

theorem Command.Widens.movesBorders {size : Size} (h : command.Widens size) :
    command.MovesBorders := by
  cases command with
  | resize | addRow | addColumn => trivial
  | removeRow | removeColumn | set | load | reset | invalidate | value | display => exact h.elim

/-- A sheet has the texts of another one, but where it has no cells. -/
def Crops (s s' : Sheet) : Prop := ∀ d, s'.text d = if d ∈ s'.size then s.text d else ""

theorem crops_of_grid (h : s'.grid = s.grid) : s.Crops s' := by
  intro d
  unfold Sheet.text Sheet.size
  rw [h]
  split
  · rfl
  · exact Grid.text_of_not_mem ‹_›

theorem crops_resize (s : Sheet) (size : Size) : s.Crops (s.regrid (s.grid.resize size)) :=
  fun d => Grid.text_resize s.grid size d

/-- **Commands that read or move borders** leave the texts of the cells that are left. -/
theorem crops_perform (h : command.IsReading ∨ command.MovesBorders) (room : Nat) :
    s.Crops (s.perform room command) := by
  cases command with
  | value | display | invalidate => exact crops_of_grid rfl
  | addRow | addColumn => exact crops_resize s _
  | resize rows cols =>
    simp only [Sheet.perform, Sheet.resize]
    cases Grid.checkSize rows cols with
    | error _ => exact crops_of_grid rfl
    | ok size => exact crops_resize s size
  | removeRow =>
    simp only [Sheet.perform, removeRow, Grid.removeRow]
    split
    · rw [dif_pos ‹_›]
      exact crops_resize s _
    · exact crops_of_grid rfl
  | removeColumn =>
    simp only [Sheet.perform, removeColumn, Grid.removeColumn]
    split
    · rw [dif_pos ‹_›]
      exact crops_resize s _
    · exact crops_of_grid rfl
  | set | load | reset => exact (h.elim id id).elim

/-- A cell is on a sheet, and stays there through a history. -/
def Stays (room : Nat) (s : Sheet) (d : Cell) : List Command → Prop
  | [] => d ∈ s.size
  | command :: history => d ∈ s.size ∧ (s.perform room command).Stays room d history

theorem Stays.mem (h : s.Stays room d history) : d ∈ s.size := by
  cases history with
  | nil => exact h
  | cons => exact h.1

/-- **The texts of the cells that stay**; a cell that a border has passed is empty, if it is back on
the sheet or not. -/
theorem text_after (s : Sheet) (room : Nat) (d : Cell)
    (h : ∀ command ∈ history, command.IsReading ∨ command.MovesBorders) :
    (s.Stays room d history → (s.after room history).text d = s.text d) ∧
      (¬ s.Stays room d history → (s.after room history).text d = "") := by
  induction history generalizing s with
  | nil => exact ⟨fun _ => rfl, Grid.text_of_not_mem⟩
  | cons command history ih =>
    obtain ⟨hcommand, hhistory⟩ := List.forall_mem_cons.1 h
    obtain ⟨hstays, hleaves⟩ := ih (s.perform room command) hhistory
    have hcrops := crops_perform (s := s) hcommand room d
    refine ⟨fun ⟨_, hd⟩ => ?_, fun hd => ?_⟩
    · exact (hstays hd).trans (hcrops.trans (if_pos hd.mem))
    · by_cases hrest : (s.perform room command).Stays room d history
      · have hnone : d ∉ s.size := fun hmem => hd ⟨hmem, hrest⟩
        exact (hstays hrest).trans
          (hcrops.trans ((if_pos hrest.mem).trans (Grid.text_of_not_mem hnone)))
      · exact hleaves hrest

/-- Every command of a history only reads, or widens the sheet as it is then. -/
def WidenedBy (room : Nat) (s : Sheet) : List Command → Prop
  | [] => True
  | command :: history =>
    (command.IsReading ∨ command.Widens s.size) ∧ (s.perform room command).WidenedBy room history

theorem WidenedBy.movesBorders (h : s.WidenedBy room history) :
    ∀ command ∈ history, command.IsReading ∨ command.MovesBorders := by
  induction history generalizing s with
  | nil => exact fun _ hmem => absurd hmem List.not_mem_nil
  | cons command history ih =>
    exact List.forall_mem_cons.2 ⟨h.1.imp_right Command.Widens.movesBorders, ih h.2⟩

theorem mem_perform (h : command.IsReading ∨ command.Widens s.size) (hd : d ∈ s.size) :
    d ∈ (s.perform room command).size := by
  have hmem := Size.mem_iff.1 hd
  cases command with
  | value | display | invalidate => exact hd
  | addRow | addColumn =>
    refine Size.mem_iff.2 ?_
    simp only [Sheet.perform, Sheet.addRow, Sheet.addColumn, Grid.addRow, Grid.addColumn, size,
      regrid, Grid.size_resize] at hmem ⊢
    omega
  | resize rows cols =>
    obtain ⟨hrows, hcols⟩ := h.resolve_left id
    simp only [Sheet.perform, Sheet.resize]
    cases hsize : Grid.checkSize rows cols with
    | error _ => exact hd
    | ok size =>
      unfold Grid.checkSize at hsize
      split at hsize
      · obtain rfl := Except.ok.inj hsize
        refine Size.mem_iff.2 ?_
        change 0 ≤ d.row ∧ d.row < (rows.toNat : Int) ∧ 0 ≤ d.col ∧ d.col < (cols.toNat : Int)
        omega
      · cases hsize
  | removeRow | removeColumn | set | load | reset => exact (h.elim id id).elim

/-- No border passes a cell of a sheet that is widened. -/
theorem WidenedBy.stays (h : s.WidenedBy room history) (hd : d ∈ s.size) :
    s.Stays room d history := by
  induction history generalizing s with
  | nil => exact hd
  | cons command history ih => exact ⟨hd, ih h.2 (mem_perform h.1 hd)⟩

/-! ## Emptied cells -/

/-- A sheet with empty texts put into some of its cells. -/
def emptied (s : Sheet) (room : Nat) (cells : List Cell) : Sheet :=
  s.after room (cells.map fun d => .set d "")

theorem text_emptied (cells : List Cell) :
    (s.emptied room cells).text d = if d ∈ cells then "" else s.text d := by
  unfold emptied
  induction cells generalizing s with
  | nil => rfl
  | cons x cells ih =>
    have hset : (s.perform room (.set x "")).text d = if d = x then "" else s.text d := by
      by_cases hx : x ∈ s.size
      · exact text_perform_set hx "" d
      · simp only [Sheet.perform, Sheet.set, dif_neg hx]
        change s.text d = _
        split
        · subst d
          exact Grid.text_of_not_mem hx
        · rfl
    refine (ih (s := s.perform room (.set x ""))).trans ?_
    rw [hset]
    by_cases hd : d = x
    · simp [hd]
    · simp [hd]

/-- **Only the texts matter, not the extent of a sheet.** From a cell no cycle is reached. Widen the
sheet: it shows what it showed before. Move the borders of the sheet to and fro: it shows what it
shows if the cells that a border has passed are emptied instead; and these cells are empty, those
that are back on the sheet included. Readings may come in between; one can fail only where a row
number is too long. -/
theorem displays_after_moving (hs : s.Reachable room) (hc : ¬ s.grid.ReachesCycle room c) :
    (∀ history, s.WidenedBy room history → (∀ d, (s.after room history).text d = s.text d) ∧
      ∃ t, s.Displays room c t ∧ (s.after room history).Displays room c t) ∧
    ∀ history passed, (∀ command ∈ history, command.IsReading ∨ command.MovesBorders) →
      (∀ d, d ∈ passed ↔ d ∈ s.size ∧ ¬ s.Stays room d history) →
      (∀ d, (s.after room history).text d = if d ∈ passed then "" else s.text d) ∧
      ∃ t, (s.emptied room passed).Displays room c t ∧
        (s.after room history).Displays room c t := by
  refine ⟨fun history h => ?_, fun history passed h hpassed => ?_⟩
  · have htext (d : Cell) : (s.after room history).text d = s.text d := by
      obtain ⟨hstays, hleaves⟩ := s.text_after room d h.movesBorders
      by_cases hd : d ∈ s.size
      · exact hstays (h.stays hd)
      · exact (hleaves fun hd' => hd hd'.mem).trans (Grid.text_of_not_mem hd).symm
    exact ⟨htext, hs.coherent.exists_displays (hs.after history).coherent htext hc⟩
  · have htext (d : Cell) :
        (s.after room history).text d = if d ∈ passed then "" else s.text d := by
      obtain ⟨hstays, hleaves⟩ := s.text_after room d h
      by_cases hd : s.Stays room d history
      · rw [hstays hd, if_neg fun hmem => ((hpassed d).1 hmem).2 hd]
      · rw [hleaves hd]
        split
        · rfl
        · rename_i hmem
          exact (Grid.text_of_not_mem fun hin => hmem ((hpassed d).2 ⟨hin, hd⟩)).symm
    have hkept (d : Cell) (hf : CellText.isFormula ((s.emptied room passed).text d) = true) :
        s.text d = (s.emptied room passed).text d := by
      rw [text_emptied] at hf ⊢
      split
      · rw [if_pos ‹_›] at hf
        cases hf
      · rfl
    exact ⟨htext, (hs.after _).coherent.exists_displays (hs.after history).coherent
      (fun d => (htext d).trans (text_emptied passed).symm) fun hcycle => hc (hcycle.of_text hkept)⟩

/-- Rows added to a sheet of two cells, and its second column taken away and back. -/
theorem displays_after_moving_twice : ∃ s : Sheet, s.Reachable roomLimit ∧
    s.text ⟨0, 0⟩ = "=B1" ∧ s.text ⟨0, 1⟩ = "5" ∧
    (∃ t, s.Displays roomLimit ⟨0, 0⟩ t ∧ (s.after roomLimit
      [.addRow, .display ⟨0, 0⟩, .addColumn]).Displays roomLimit ⟨0, 0⟩ t) ∧
    (s.after roomLimit [.removeColumn, .addColumn]).text ⟨0, 1⟩ = "" ∧
    ∃ t, (s.emptied roomLimit [⟨0, 1⟩]).Displays roomLimit ⟨0, 0⟩ t ∧
      (s.after roomLimit [.removeColumn, .addColumn]).Displays roomLimit ⟨0, 0⟩ t := by
  generalize hs : Sheet.mk (.ofRows [["=B1", "5"]]) {} = s
  have hreachable : s.Reachable roomLimit := hs ▸ .start _
  have hfirst : s.text ⟨0, 0⟩ = "=B1" := hs ▸ rfl
  have hsecond : s.text ⟨0, 1⟩ = "5" := hs ▸ rfl
  have he : Formula.Expr.ofBody roomLimit "B1" = .ok (.cell ⟨false, ['B'], false, ['1']⟩ 0) := by
    cbv
  have hb : CellText.body? (s.grid.text ⟨0, 0⟩) = some "B1" := by
    rw [← Sheet.text, hfirst]
    decide +kernel
  have hcycle : ¬ s.grid.ReachesCycle roomLimit ⟨0, 0⟩ := by
    refine Grid.not_reachesCycle_of_cells hb he fun d hd hf => absurd hf ?_
    rw [Formula.Expr.cells_cell, List.mem_singleton] at hd
    have hd' : d = ⟨0, 1⟩ := hd
    rw [hd', ← Sheet.text, hsecond]
    decide +kernel
  have hsize : s.size = ⟨1, 2, Nat.one_pos, Nat.two_pos⟩ := hs ▸ rfl
  have hless : (s.perform roomLimit .removeColumn).size =
      ⟨1, 1, Nat.one_pos, Nat.one_pos⟩ := hs ▸ rfl
  have hagain : ((s.perform roomLimit .removeColumn).perform roomLimit
      .addColumn).size = ⟨1, 2, Nat.one_pos, Nat.two_pos⟩ := hs ▸ rfl
  obtain ⟨hwiden, hmove⟩ := displays_after_moving hreachable hcycle
  have hgrow := (hwiden [.addRow, .display ⟨0, 0⟩, .addColumn]
    ⟨.inr trivial, .inl trivial, .inr trivial, trivial⟩).2
  have hpassed (d : Cell) : d ∈ [(⟨0, 1⟩ : Cell)] ↔
      d ∈ s.size ∧ ¬ s.Stays roomLimit d [.removeColumn, .addColumn] := by
    obtain ⟨i, j⟩ := d
    simp only [Stays, hsize, hless, hagain, List.mem_singleton, Size.mem_iff, Cell.mk.injEq]
    omega
  obtain ⟨htext, hshrink⟩ :=
    hmove [.removeColumn, .addColumn] [⟨0, 1⟩] (by simp [Command.MovesBorders]) hpassed
  exact ⟨s, hreachable, hfirst, hsecond, hgrow,
    (htext _).trans (if_pos (List.mem_singleton_self _)), hshrink⟩

/-- **A sheet that grows may lose what it shows.** A cell shows an error, every formula of a chain
having been read from its far end; one more row, and it cannot be read. -/
theorem not_displayed_after_growing : ∃ (s : Sheet) (f : Formula.Failure),
    s.Reachable roomLimit ∧ ⟨0, 0⟩ ∈ s.size ∧ ¬ s.grid.ReachesCycle roomLimit ⟨0, 0⟩ ∧
    (s.run fun g => g.display roomLimit ⟨0, 0⟩).1 = .ok "#VALUE!" ∧
    ((s.after roomLimit [.addRow]).run fun g => g.display roomLimit ⟨0, 0⟩).1 = .error f := by
  obtain ⟨g, h⟩ : ∃ g : Grid, g.Chained := ⟨_, Grid.chained_chain⟩
  obtain ⟨history, r, hafter, hmemo⟩ := h.exists_after (k := 8) (by decide)
  have hreachable : (Sheet.mk g r).Reachable roomLimit := by
    rw [← hafter]
    exact (Reachable.start g).after history
  obtain ⟨_, r', hrun, rfl, -⟩ := (h.display_meets (i := 0) (by decide) (hmemo 0)
    fun _ => hmemo 1).exists_ok
  obtain ⟨f, hf⟩ := h.addRow.exists_display_error hreachable.coherent.addRow.sound
    fun _ => Std.HashMap.getElem?_empty
  exact ⟨⟨g, r⟩, f, hreachable, Grid.mem_of_isFormula (h.isFormula (i := 0) (by decide)),
    h.not_reachesCycle (i := 0) (by decide), congrArg Prod.fst hrun, hf⟩

end Sheet

end Spreadsheet
