import Spreadsheet.Proofs.Editor.Order
import Spreadsheet.Proofs.Editor.Run
import Spreadsheet.Proofs.Sheet.Unreadable

/-!
# How far failures reach

A formula that is rejected or nested too deeply shows so in its own cell, and nothing fails for it.
A row number that is too long goes further: every reading of its cell fails, those of the cells that
refer to it may, and a recompute fails as a whole, so that all cells show what they showed before.

* `Sheet.Scoped`, `Editor.Scoped`: how readings and recomputes fail; **`scoped_after`**: at any time;
* **`not_displayed`**: a formula that cannot be read keeps another cell from being shown.
-/

namespace Spreadsheet

open Formula (CellValue Failure roomLimit)

/-! ## Readings -/

namespace Sheet

variable {room : Nat} {s : Sheet}

/-- How readings of a sheet fail: only where references lead to a formula that cannot be read, and
always at its cell. -/
structure Scoped (room : Nat) (s : Sheet) : Prop where
  value : ∀ c f, (s.run fun g => g.valueAt room c).1 = .error f → s.grid.Overlong room c f
  display : ∀ c f, (s.run fun g => g.display room c).1 = .error f → s.grid.Overlong room c f
  unreadable : ∀ c f, s.grid.Unreadable room c f →
    (s.run fun g => g.valueAt room c).1 = .error f ∧ (s.run fun g => g.display room c).1 = .error f

theorem Coherent.scoped (h : s.Coherent room) : s.Scoped room := by
  have hvalue (c : Cell) := h.run (x := fun g => g.valueAt room c) (Grid.valueAt_meets h.sound)
  have hdisplay (c : Cell) := display_sound h.sound c
  constructor
  · intro c f hf
    obtain ⟨-, hread⟩ := hvalue c
    rwa [hf] at hread
  · intro c f hf
    obtain ⟨-, hread⟩ := hdisplay c
    rwa [hf] at hread
  · intro c f hc
    obtain ⟨hcoherent, hread⟩ := hvalue c
    obtain ⟨-, hread'⟩ := hdisplay c
    constructor
    · cases hrun : (s.run fun g => g.valueAt room c).1 with
      | error f' =>
        rw [hrun] at hread
        exact congrArg _ (hread.eq_of_unreadable hc)
      | ok v =>
        rw [hrun] at hread
        have hmemo := hread.resolve_left fun hf => hf.1 hc.isFormula
        exact absurd (hcoherent.sound.right hmemo) hc.not_right
    · cases hrun : (s.run fun g => g.display room c).1 with
      | error f' =>
        rw [hrun] at hread'
        exact congrArg _ (hread'.eq_of_unreadable hc)
      | ok t =>
        rw [hrun] at hread'
        exact absurd hread' hc.not_shown

end Sheet

/-! ## Recomputes -/

namespace Editor

variable {watch : Observer} {ed : Editor}

/-- How a recompute fails: only if its observer wants it to, or if references lead from a cell that
is to be shown to a formula that cannot be read. Otherwise all these cells are shown. Such a formula
in one of them makes it fail, and then nothing is shown anew. -/
structure Scoped (ed : Editor) : Prop where
  fails : ∀ fault ed', ed.recompute = (.error fault, ed') →
    (∃ c t, ed.observe c t = .error fault) ∨ ∃ c f, (c ∈ ed.sheet.size ∧ ed.active? ≠ some c) ∧
      ed.sheet.grid.Overlong roomLimit c f ∧ fault = f.fault
  shows : ∀ ed', ed.recompute = (.ok (), ed') → ∀ c ∈ ed.sheet.size, ed.active? ≠ some c →
    ed.sheet.grid.Shown roomLimit c (ed'.buffer.text c)
  unreadable : ∀ c f, ed.sheet.grid.Unreadable roomLimit c f → ed.active? ≠ some c →
    ∃ fault ed', ed.recompute = (.error fault, ed') ∧ ed'.buffer = ed.buffer

theorem Valid.scoped (h : ed.Valid watch) : ed.Scoped := by
  constructor
  · intro fault ed' hrun
    obtain ⟨-, -, -, hfails⟩ := recompute_spec h hrun
    exact hfails.imp (fun ⟨c, t, hstop⟩ => ⟨c, t, h.observe ▸ hstop⟩) id
  · exact fun ed' hrun c hc hactive => shown_of_recompute hrun hc hactive
  · intro c f hc hactive
    rcases hrun : ed.recompute with ⟨outcome, ed'⟩
    cases outcome with
    | ok u =>
      have hmem : c ∈ ed.sheet.size := Grid.mem_of_isFormula hc.isFormula
      exact absurd (shown_of_recompute hrun hmem hactive) hc.not_shown
    | error fault =>
      obtain ⟨-, -, hbuffer, -⟩ := recompute_spec h hrun
      exact ⟨fault, ed', rfl, hbuffer⟩

/-- **How far failures reach** on any sheet that was changed and read, and in any editor that was
used. -/
theorem scoped_after (room : Nat) (g : Grid) (history : List Sheet.Command) (settings : Settings)
    (clocked : Bool) (observe : Observer) (ops : List Operation) :
    ((Sheet.mk g {}).after room history).Scoped room ∧
      ((start settings clocked observe).after ops).Scoped := by
  have hsheet : ((Sheet.mk g {}).after room history).Coherent room :=
    Sheet.coherent_of_failures_eq_empty.after history
  exact ⟨hsheet.scoped, (valid_of_after rfl).scoped⟩

/-! ## A formula that cannot be read -/

/-- A reference whose row number has one digit too many. -/
def unreadableReference : Reference.Parts :=
  ⟨false, ['A'], false, List.replicate (Decimal.maxDigits + 1) '1'⟩

/-- The formula that is that reference. -/
def unreadableText : String := String.ofList ('=' :: unreadableReference.chars)

theorem length_unreadableReference :
    unreadableReference.digits.length = Decimal.maxDigits + 1 := List.length_replicate

theorem written_unreadableReference : Formula.Written unreadableReference where
  word_ne := List.cons_ne_nil _ _
  word := List.forall_mem_singleton.2 (by decide)
  digits_ne := List.ne_nil_of_length_pos (length_unreadableReference ▸ Nat.succ_pos _)
  digits c hc := by
    rw [List.eq_of_mem_replicate hc]
    decide

theorem unreadable_of_text {g : Grid} {c : Cell} (h : g.text c = unreadableText) :
    g.Unreadable roomLimit c (.tooLong (.reading (Decimal.maxDigits + 1))) := by
  have hlength := length_unreadableReference
  have hbody : CellText.body? (g.text c) = some (String.ofList unreadableReference.chars) :=
    h ▸ Formula.body?_reference written_unreadableReference
  have hlong : Formula.Expr.ofBody roomLimit (String.ofList unreadableReference.chars) =
      .error (.tooLong (.reading unreadableReference.digits.length)) :=
    Formula.Expr.ofBody_of_overlong written_unreadableReference (by omega) (by decide)
  exact ⟨_, _, hbody, hlong, by rw [hlength]⟩

theorem exists_typed (text : String) : ∃ ed,
    (start ⟨⟨1, 2, by decide, by decide⟩, 16, []⟩ true Observer.silent).after
      [.edit ⟨0, 0⟩ text, .edit ⟨0, 1⟩ "x"] = ed ∧
    ed.active? = none ∧ ed.sheet.grid.text ⟨0, 0⟩ = text ∧ ed.sheet.grid.text ⟨0, 1⟩ = "x" ∧
    ed.buffer.text ⟨0, 1⟩ = "" :=
  ⟨_, rfl, rfl, rfl, rfl, rfl⟩

/-- Neither the cell that cannot be read nor the one next to it is shown. -/
theorem not_displayed : ∃ ed fault ed',
    (start ⟨⟨1, 2, by decide, by decide⟩, 16, []⟩ true Observer.silent).after
      [.edit ⟨0, 0⟩ unreadableText, .edit ⟨0, 1⟩ "x"] = ed ∧
    (∀ t, (ed.sheet.run fun g => g.display roomLimit ⟨0, 0⟩).1 ≠ .ok t) ∧
    ed.recompute = (.error fault, ed') ∧ ed.sheet.text ⟨0, 1⟩ = "x" ∧
    ed'.buffer.text ⟨0, 1⟩ ≠ "x" := by
  obtain ⟨ed, hed, hactive, htext, hx, hblank⟩ := exists_typed unreadableText
  have hvalid := valid_of_after hed
  have hunreadable := unreadable_of_text htext
  obtain ⟨-, hdisplay⟩ := hvalid.sheet.scoped.unreadable _ _ hunreadable
  obtain ⟨fault, ed', hrun, hbuffer⟩ :=
    hvalid.scoped.unreadable _ _ hunreadable (by rw [hactive]; nofun)
  refine ⟨ed, fault, ed', hed, fun t ht => ?_, hrun, hx, ?_⟩
  · rw [hdisplay] at ht
    cases ht
  · rw [hbuffer, hblank]
    decide

end Editor

end Spreadsheet
