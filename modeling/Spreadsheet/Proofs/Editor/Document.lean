import Spreadsheet.Editor.Operation
import Spreadsheet.Proofs.Sheet.Brief

/-!
# What operations do to a document

A document is what a user works on, apart from what is shown of it and when. What an operation does
to it depends on the document only, and time that passes does nothing to it.

* `Operation`, `Operation.action`: what a user does, and time that passes;
* `Document`, `Document.perform`, `Document.after`;
* **`Document.after_filter`**: the clock does not matter; **`Document.brief_after`**: brief texts.
-/

namespace Spreadsheet.Editor

/-- What a user does with an editor, or what the clock does. -/
inductive Operation where
  | beginEdit (c : Cell)
  | edit (c : Cell) (text : String)
  | endEdit
  | copy (c : Cell)
  | cut (c : Cell)
  | paste (c : Cell) (text : String)
  | addRow
  | addColumn
  | removeRow
  | removeColumn
  | resize (rows cols : Int)
  | load (rows : List (List String))
  | reset
  | view
  | displayText (c : Cell)
  /-- Time passes; the recompute is run if it is due. -/
  | wait (ms : Nat)
  /-- A pending recompute is run, whatever the time. -/
  | fire

/-- An operation without its answer. -/
def Operation.action : Operation → Action Unit
  | beginEdit c => do let _ ← Editor.beginEdit c
  | edit c text => Editor.edit c text
  | endEdit => do let _ ← Editor.endEdit
  | copy c => do let _ ← Editor.copy c
  | cut c => do let _ ← Editor.cut c
  | paste c text => do let _ ← Editor.paste c text
  | addRow => Editor.addRow
  | addColumn => Editor.addColumn
  | removeRow => Editor.removeRow
  | removeColumn => Editor.removeColumn
  | resize rows cols => Editor.resize rows cols
  | load rows => Editor.load rows
  | reset => Editor.reset
  | view => do let _ ← Editor.view
  | displayText c => do let _ ← Editor.displayText c
  | wait ms => request (.advance ms)
  | fire => request .flush

/-- The operation is the user's and not the clock's. -/
def Operation.byUser : Operation → Bool
  | wait _ | fire => false
  | _ => true

/-- The texts that an operation may put into cells. -/
def Operation.texts : Operation → List String
  | edit _ text => [text]
  | paste _ text => (Clipboard.rows text).flatten
  | load rows => rows.flatten
  | _ => []

/-- No row number in the texts of an operation is too long. -/
def Operation.Brief (op : Operation) : Prop := ∀ t ∈ op.texts, Formula.Brief t.toList

instance (op : Operation) : Decidable op.Brief := inferInstanceAs (Decidable (∀ t ∈ op.texts, _))

/-! ## Documents -/

/-- What a user works on, apart from what is shown of it. -/
structure Document where
  /-- The extent of a new grid. -/
  start : Size
  grid : Grid
  active? : Option Cell
  origin? : Option Cell

/-- The document of an editor. -/
def document (ed : Editor) : Document :=
  ⟨ed.settings.size, ed.sheet.grid, ed.active?, ed.origin?⟩

namespace Document

/-- A document with the text of one of its cells replaced. -/
def put (d : Document) (c : Cell) (text : String) : Document :=
  if h : c ∈ d.grid.size then { d with grid := d.grid.set c text h } else d

/-- A document whose active cell is left. -/
def leave (d : Document) : Document :=
  match d.active? with
  | none => d
  | some c => { d.put c (CellText.normalize (d.grid.text c)) with active? := none }

/-- A document on another grid, which keeps those of its cells that the grid has. -/
def within (d : Document) (g : Grid) : Document :=
  { d with
    grid := g
    active? := keepWithin g.size d.active?
    origin? := keepWithin g.size d.origin? }

/-- A document after a paste, as far as that comes. -/
def paste (d : Document) (c : Cell) (text : String) : Document :=
  match (Sheet.mk d.grid {}).paste c text d.origin? with
  | (.ok _, s) => { d with grid := s.grid, origin? := none }
  | (.error _, s) => { d with grid := s.grid }

/-- A document after an operation. -/
def perform (d : Document) : Operation → Document
  | .beginEdit c =>
    if c ∈ d.grid.size then
      { (if d.active? = some c then d else d.leave) with active? := some c }
    else d
  | .edit c text => d.put c text
  | .endEdit => d.leave
  | .copy c => if c ∈ d.grid.size then { d with origin? := some c } else d
  | .cut c => if c ∈ d.grid.size then { d.put c "" with origin? := some c } else d
  | .paste c text => if c ∈ d.grid.size then d.paste c text else d
  | .addRow => d.within d.grid.addRow
  | .addColumn => d.within d.grid.addColumn
  | .removeRow => d.within d.grid.removeRow
  | .removeColumn => d.within d.grid.removeColumn
  | .resize rows cols =>
    match Grid.checkSize rows cols with
    | .ok size => d.within (d.grid.resize size)
    | .error _ => d
  | .load rows => { d with grid := .ofRows rows, active? := none, origin? := none }
  | .reset => { d with grid := .empty d.start, active? := none, origin? := none }
  | .view | .displayText _ | .wait _ | .fire => d

/-- A document after operations, one after another. -/
def after (d : Document) (ops : List Operation) : Document := ops.foldl perform d

variable {d : Document} {c : Cell} {text : String}

/-- **The clock does not matter** to a document. -/
theorem after_filter (ops : List Operation) :
    d.after (ops.filter Operation.byUser) = d.after ops := by
  induction ops generalizing d with
  | nil => rfl
  | cons op ops ih =>
    cases op <;> exact ih

theorem leave_of_none (h : d.active? = none) : d.leave = d := by
  rw [leave, h]

theorem leave_of_active (h : d.active? = some c) :
    d.leave = { d.put c (CellText.normalize (d.grid.text c)) with active? := none } := by
  rw [leave, h]

theorem put_self : d.put c (d.grid.text c) = d := by
  unfold put
  split
  · rw [Grid.set_text]
  · rfl

theorem active_leave : d.leave.active? = none := by
  unfold leave
  split
  · assumption
  · rfl

theorem size_put : (d.put c text).grid.size = d.grid.size := by
  unfold put
  split
  · rfl
  · rfl

theorem size_leave : d.leave.grid.size = d.grid.size := by
  unfold leave
  split
  · rfl
  · exact size_put

/-! ## Brief texts -/

theorem brief_put (h : d.grid.Brief) (ht : Formula.Brief text.toList) :
    (d.put c text).grid.Brief := by
  unfold put
  split
  · exact h.set ht ‹_›
  · exact h

theorem brief_leave (h : d.grid.Brief) : d.leave.grid.Brief := by
  unfold leave
  split
  · exact h
  · exact brief_put h (Formula.brief_normalize (h _))

theorem brief_pasted (h : d.grid.Brief)
    (ht : ∀ t ∈ (Clipboard.rows text).flatten, Formula.Brief t.toList) :
    (d.paste c text).grid.Brief := by
  have hpaste : ((Sheet.mk d.grid {}).paste c text d.origin?).2.grid.Brief :=
    Sheet.brief_paste (s := ⟨d.grid, {}⟩) h ht
  unfold paste
  split
  · rename_i hrun
    rw [hrun] at hpaste
    exact hpaste
  · rename_i hrun
    rw [hrun] at hpaste
    exact hpaste

theorem brief_perform (h : d.grid.Brief) {op : Operation} (hop : op.Brief) :
    (d.perform op).grid.Brief := by
  cases op with
  | beginEdit c =>
    simp only [perform]
    split
    · split
      · exact h
      · exact brief_leave h
    · exact h
  | edit c text => exact brief_put h (hop text List.mem_cons_self)
  | endEdit => exact brief_leave h
  | copy c =>
    simp only [perform]
    split
    · exact h
    · exact h
  | cut c =>
    simp only [perform]
    split
    · exact brief_put h trivial
    · exact h
  | paste c text =>
    simp only [perform]
    split
    · exact brief_pasted h hop
    · exact h
  | addRow => exact h.resize _
  | addColumn => exact h.resize _
  | removeRow =>
    simp only [perform, within, Grid.removeRow]
    split
    · exact h.resize _
    · exact h
  | removeColumn =>
    simp only [perform, within, Grid.removeColumn]
    split
    · exact h.resize _
    · exact h
  | resize rows cols =>
    simp only [perform]
    split
    · exact h.resize _
    · exact h
  | load rows => exact Grid.brief_ofRows hop
  | reset => exact Grid.brief_empty _
  | view | displayText _ | wait _ | fire => exact h

/-- **Brief texts make brief documents.** -/
theorem brief_after (h : d.grid.Brief) {ops : List Operation} (hops : ∀ op ∈ ops, op.Brief) :
    (d.after ops).grid.Brief := by
  induction ops generalizing d with
  | nil => exact h
  | cons op ops ih =>
    obtain ⟨hop, hrest⟩ := List.forall_mem_cons.1 hops
    exact ih (brief_perform h hop) hrest

end Document

end Spreadsheet.Editor
