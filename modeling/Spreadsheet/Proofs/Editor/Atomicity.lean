import Spreadsheet.Proofs.Editor.Run

/-!
# What failures leave behind

An operation that fails leaves the texts, the extent of the grid, the active cell and the cell last
copied as they were. The exception is a paste that meets a row number that is too long: it leaves
the cells that it has written by then.

* `Document.Halfway`, `Document.Unnamed`: what such a paste leaves; `Document.Stops.leaves`;
* **`document_of_failure`**: operations that fail; **`not_unchanged_after_stop`**: one that is not
  undone.
-/

namespace Spreadsheet.Editor

variable {ed : Editor} {d d' : Document} {c : Cell} {text : String} {t : Decimal.TooLong}

namespace Document

/-- A paste stops at a text whose row number is too long when the cells before it are written. -/
def Halfway (d d' : Document) (c : Cell) (text : String) (t : Decimal.TooLong) : Prop :=
  ∃ before p rest n s, Clipboard.cells c (Clipboard.rows text) = before ++ p :: rest ∧
    p.1 ∈ d.grid.size ∧ Sheet.shifted (d.origin?.map (·.offset c)) p.2 = .error t ∧
    (Sheet.write (d.origin?.map (·.offset c)) before).run (Sheet.mk d.grid {}) = (.ok n, s) ∧
    d' = { d with grid := s.grid }

/-- A paste has written all its cells, but a cell that its report should name has no name. -/
def Unnamed (d d' : Document) (c : Cell) (text : String) (t : Decimal.TooLong) : Prop :=
  (∃ n s, (Sheet.mk d.grid {}).paste c text d.origin? = (.ok n, s) ∧
    d' = { d with grid := s.grid, origin? := none }) ∧
  ∃ c', (c' = c ∨ d.origin? = some c') ∧ Address.text c' = .error t

theorem size_paste : (d.paste c text).grid.size = d.grid.size := by
  have hcoherent : (Sheet.mk d.grid {}).Coherent Formula.roomLimit :=
    Sheet.coherent_of_failures_eq_empty
  have hsize := (hcoherent.paste c text d.origin?).2
  unfold paste
  split
  · rename_i hpaste
    rwa [hpaste] at hsize
  · rename_i hpaste
    rwa [hpaste] at hsize

theorem active_paste : (d.paste c text).active? = d.active? := by
  unfold paste
  split
  · rfl
  · rfl

/-- **What a paste leaves** that does not get through. -/
theorem Stops.leaves (h : d.Stops c text t) :
    d.Halfway (d.paste c text) c text t ∨ d.Unnamed (d.paste c text) c text t := by
  unfold Stops at h
  rcases hpaste : (Sheet.mk d.grid {}).paste c text d.origin? with ⟨e | n, s⟩
  · rw [hpaste] at h
    obtain rfl : e = t := h
    have hleft : d.paste c text = { d with grid := s.grid } := by
      rw [paste, hpaste]
    unfold Sheet.paste at hpaste
    split at hpaste
    · cases hpaste
    · obtain ⟨before, p, rest, n, hcells, hp, hstop, hrun⟩ := Sheet.run_write_error hpaste
      exact .inl ⟨before, p, rest, n, s, hcells, hp, hstop, hrun, hleft⟩
  · rw [hpaste] at h
    have hleft : d.paste c text = { d with grid := s.grid, origin? := none } := by
      rw [paste, hpaste]
    exact .inr ⟨⟨n, s, hpaste, hleft⟩, h⟩

end Document

variable {settings : Settings} {clocked : Bool} {observe : Observer}

/-- **Operations that fail** leave the extent of the grid and the active cell as they were, and the
texts and the cell last copied, too, unless a paste meets a row number that is too long. Values that
cannot be loaded leave all as it was. -/
theorem document_of_failure {ops : List Operation} {op : Operation} {f : Failure}
    (hed : (start settings clocked observe).after ops = ed)
    (hfail : (op.action.run ed).1 = .error f) :
    ((ed.perform op).document.grid.size = ed.document.grid.size ∧
      (ed.perform op).document.active? = ed.document.active?) ∧
    ((ed.perform op).document = ed.document ∨ ∃ c text t, op = .paste c text ∧ f = .tooLong t ∧
      (ed.document.Halfway (ed.perform op).document c text t ∨
        ed.document.Unnamed (ed.perform op).document c text t)) ∧
    ∀ rows f, ((loadValues rows).run ed).1 = .error f → ((loadValues rows).run ed).2 = ed := by
  have hvalid := valid_of_after hed
  obtain ⟨hfails, -⟩ := (op.action_meets hvalid).of_error hfail
  have hdocument : (ed.perform op).document = ed.document.perform op :=
    (keeps_perform hvalid op).document
  have hvalues (rows : List (List Value)) (f : Failure)
      (hf : ((loadValues rows).run ed).1 = .error f) : ((loadValues rows).run ed).2 = ed :=
    ((loadValues_meets hvalid rows).of_error hf).1
  rw [hdocument]
  rcases hfails.document with hsame | ⟨c, text, t, rfl, hc, rfl, hstops⟩
  · rw [hsame]
    exact ⟨⟨rfl, rfl⟩, .inl rfl, hvalues⟩
  · have hperform : ed.document.perform (.paste c text) = ed.document.paste c text := if_pos hc
    rw [hperform]
    exact ⟨⟨Document.size_paste, Document.active_paste⟩,
      .inr ⟨c, text, t, rfl, rfl, hstops.leaves⟩, hvalues⟩

/-! ## A paste that is not undone -/

/-- Below the cell that was copied, the second cell of the block stops a paste, and what is written
stays. -/
theorem paste_stoppingBlock (horigin : ed.origin? = some ⟨0, 0⟩)
    (hgrid : ed.sheet.grid = .empty ⟨3, 1, by decide, by decide⟩) :
    ((Operation.paste ⟨1, 0⟩ stoppingBlock).action.run ed).1 = .error (.tooLong .writing) ∧
      (ed.perform (.paste ⟨1, 0⟩ stoppingBlock)).document.grid ≠ ed.document.grid := by
  have hcorner : (⟨1, 0⟩ : Cell) ∈ ed.sheet.size := by rw [Sheet.size, hgrid]; decide
  have hbelow : (⟨1 + 1, 0⟩ : Cell) ∈ ed.sheet.size := by rw [Sheet.size, hgrid]; decide
  have hoffset : ed.origin?.map (·.offset ⟨1, 0⟩) = some ⟨1, 0⟩ := by rw [horigin]; rfl
  have hpaste : ed.sheet.paste ⟨1, 0⟩ stoppingBlock ed.origin? =
      (.error .writing, ed.sheet.put ⟨1, 0⟩ "x" hcorner) := by
    refine Sheet.paste_stops rows_stoppingBlock hcorner hbelow ?_ ?_
    · rw [hoffset]
      decide
    · rw [hoffset]
      simp only [Sheet.shifted]
      exact Formula.translate_lastRow (by decide) (by decide)
  refine ⟨congrArg Prod.fst (run_paste_of_error hcorner hpaste), fun hsame => ?_⟩
  rw [perform_paste_of_error hcorner hpaste] at hsame
  have hput : (ed.sheet.put ⟨1, 0⟩ "x" hcorner).grid = ed.sheet.grid := hsame
  have hx : (ed.sheet.put ⟨1, 0⟩ "x" hcorner).grid.text ⟨1, 0⟩ = "x" :=
    (Sheet.text_put "x" hcorner ⟨1, 0⟩).trans (if_pos rfl)
  rw [hput, hgrid, Grid.text_empty] at hx
  exact absurd hx (by decide)

theorem exists_copied : ∃ ed,
    (start ⟨⟨3, 1, by decide, by decide⟩, 16, []⟩ false Observer.silent).after [.copy ⟨0, 0⟩] = ed ∧
    ed.origin? = some ⟨0, 0⟩ ∧ ed.sheet.grid = .empty ⟨3, 1, by decide, by decide⟩ :=
  ⟨_, rfl, rfl, rfl⟩

/-- A cell is copied, and a paste below it stops at its second cell. -/
theorem document_after_stop : ∃ ed f,
    (start ⟨⟨3, 1, by decide, by decide⟩, 16, []⟩ false Observer.silent).after [.copy ⟨0, 0⟩] = ed ∧
    ((Operation.paste ⟨1, 0⟩ stoppingBlock).action.run ed).1 = .error f ∧
    ∃ c text t, Operation.paste ⟨1, 0⟩ stoppingBlock = .paste c text ∧ f = .tooLong t ∧
      (ed.document.Halfway (ed.perform (.paste ⟨1, 0⟩ stoppingBlock)).document c text t ∨
        ed.document.Unnamed (ed.perform (.paste ⟨1, 0⟩ stoppingBlock)).document c text t) := by
  obtain ⟨ed, hed, horigin, hgrid⟩ := exists_copied
  obtain ⟨hfail, hne⟩ := paste_stoppingBlock horigin hgrid
  obtain ⟨-, hleaves, -⟩ := document_of_failure hed hfail
  exact ⟨ed, _, hed, hfail, hleaves.resolve_left fun hsame => hne (congrArg Document.grid hsame)⟩

/-- A paste that fails has changed the texts. -/
theorem not_unchanged_after_stop : ∃ ed f,
    (start ⟨⟨3, 1, by decide, by decide⟩, 16, []⟩ false Observer.silent).after [.copy ⟨0, 0⟩] = ed ∧
    ((Operation.paste ⟨1, 0⟩ stoppingBlock).action.run ed).1 = .error f ∧
    (ed.perform (.paste ⟨1, 0⟩ stoppingBlock)).document.grid ≠ ed.document.grid := by
  obtain ⟨ed, hed, horigin, hgrid⟩ := exists_copied
  obtain ⟨hfail, hne⟩ := paste_stoppingBlock horigin hgrid
  exact ⟨ed, _, hed, hfail, hne⟩

end Spreadsheet.Editor
