import Spreadsheet.Proofs.Editor.Operation

/-!
# Views are right

A view runs a pending recompute first, so that what it shows of a fresh editor is right for the
document.

* `View.Of`, `view_of_flush`, **`view_meets`**: a view and the editor it is taken of;
  `displayText_meets`;
* `View.Right`: what a view of a document should be; **`View.Of.right`**.
-/

namespace Spreadsheet

/-! ## Rows of a grid -/

namespace Grid

variable {g : Grid} {c : Cell}

theorem length_rows : g.rows.length = g.size.rows := by
  rw [rows, List.length_map, Vector.length_toList]

theorem length_of_mem_rows {row : List String} (h : row ∈ g.rows) : row.length = g.size.cols := by
  obtain ⟨r, -, rfl⟩ := List.mem_map.1 h
  exact Vector.length_toList

theorem rows_getElem? (h : c ∈ g.size) :
    (g.rows[c.row.toNat]?).bind (·[c.col.toNat]?) = some (g.text c) := by
  have hr := Size.row_lt h
  have hc := Size.col_lt h
  rw [text_of_mem h hr hc, rows]
  simp [hr, hc]

end Grid

namespace Editor

open Formula (roomLimit)

variable {watch : Observer} {ed ed' : Editor} {c : Cell} {text : String}

/-! ## Looking -/

/-- A view is of an editor. -/
structure View.Of (v : View) (ed : Editor) : Prop where
  size : v.size = ed.sheet.size
  cells : v.cells = ed.buffer.rows
  errors : v.errors.map Prod.snd = ed.sheet.failures
  names : ∀ e ∈ v.errors, Address.text e.2.1 = .ok e.1
  state : v.state = ed.timer.state

/-- A failing cell with its name. -/
def named (p : Cell × String) : Action (String × Cell × String) :=
  do return (← nameOf p.1, p.1, p.2)

theorem mapM_named_meets (ps : List (Cell × String)) : (ps.mapM named).Meets ed
    (fun es ed' => ed = ed' ∧ es.map Prod.snd = ps ∧ ∀ e ∈ es, Address.text e.2.1 = .ok e.1)
    fun f ed' => ed = ed' ∧ ∃ p ∈ ps, ∃ t, Address.text p.1 = .error t ∧ f = .tooLong t := by
  induction ps with
  | nil =>
    rw [List.mapM_nil, ExceptT.meets_pure]
    exact ⟨rfl, rfl, nofun⟩
  | cons p ps ih =>
    rw [List.mapM_cons, ExceptT.meets_bind, named, ExceptT.meets_bind, meets_nameOf]
    cases hname : Address.text p.1 with
    | error t => exact ⟨rfl, p, List.mem_cons_self, t, hname, rfl⟩
    | ok name =>
      simp only
      rw [ExceptT.meets_pure, ExceptT.meets_bind]
      refine ih.imp ?_ ?_
      · rintro es _ ⟨rfl, hes, hnames⟩
        refine ⟨rfl, ?_, List.forall_mem_cons.2 ⟨hname, hnames⟩⟩
        rw [List.map_cons, hes]
      · rintro _ _ ⟨rfl, q, hq, t, ht⟩
        exact ⟨rfl, q, List.mem_cons_of_mem p hq, t, ht⟩

/-- A view leaves an editor as the flush of its timer does, and is of that editor. It fails only if
a cell has no name. -/
theorem view_of_flush {P : Editor → Prop}
    (h : (request .flush).Meets ed (fun _ => P) fun _ _ => False) :
    view.Meets ed (fun v ed' => P ed' ∧ v.Of ed' ∧ v.lastError? = ed'.timer.lastError?)
      fun f ed' => P ed' ∧ ∃ c, (c ∈ ed'.sheet.size ∨ ed'.active? = some c) ∧
        ∃ t, Address.text c = .error t ∧ f = .tooLong t := by
  unfold view
  rw [ExceptT.meets_bind]
  refine h.imp ?_ fun _ _ => False.elim
  intro _ ed' h'
  rw [ExceptT.meets_bind, ExceptT.meets_get]
  simp only
  rw [ExceptT.meets_bind]
  refine (mapM_named_meets ed'.sheet.failures).imp ?_ ?_
  · rintro es _ ⟨rfl, hes, hnames⟩
    rw [ExceptT.meets_bind]
    refine mapM_nameOf_meets.imp ?_ ?_
    · rintro active _ rfl
      exact ⟨h', ⟨rfl, rfl, hes, hnames, rfl⟩, rfl⟩
    · rintro _ _ ⟨rfl, c, hc, hname⟩
      exact ⟨h', c, .inr hc, hname⟩
  · rintro _ _ ⟨rfl, p, hp, hname⟩
    exact ⟨h', p.1, .inl (Sheet.mem_failures.1 hp).1, hname⟩

/-- **A view** of a fresh editor is taken when it has settled. It fails only if a cell has no
name. -/
theorem view_meets (h : ed.Valid watch) : view.Meets ed
    (fun v ed' => ed'.Rests watch ed.Fresh ed.document ∧ v.Of ed')
    fun f ed' => ed'.Rests watch ed.Fresh ed.document ∧
      ∃ c ∈ ed.sheet.size, ∃ t, Address.text c = .error t ∧ f = .tooLong t := by
  refine (view_of_flush (request_flush_meets h)).imp (fun v ed' h' => ⟨h'.1, h'.2.1⟩) ?_
  rintro f ed' ⟨h', c, hc, hname⟩
  have hsize : ed'.sheet.size = ed.sheet.size := congrArg (·.grid.size) h'.document
  exact ⟨h', c, hsize ▸ hc.elim id h'.valid.active, hname⟩

theorem displayText_meets (h : ed.Valid watch) : (displayText c).Meets ed
    (fun _ ed' => ed'.Keeps watch ed.Fresh ed.document)
    fun f ed' => ed'.Keeps watch ed.Fresh ed.document ∧ f.kind = Fault.valueKind := by
  unfold displayText
  rw [ExceptT.meets_bind]
  refine (request_flush_meets h).imp ?_ fun _ _ => False.elim
  intro _ ed' h'
  rw [ExceptT.meets_bind]
  refine requireCell_meets.imp ?_ ?_
  · rintro _ _ ⟨hc, rfl⟩
    have hc' : c ∈ ed'.buffer.size := h'.valid.size ▸ hc
    rw [ExceptT.meets_bind, ExceptT.meets_get, if_pos hc']
    exact h'.keeps
  · rintro _ _ ⟨-, rfl, rfl⟩
    exact ⟨h'.keeps, rfl⟩

/-! ## What a view should be -/

/-- The text of a cell in a view. -/
def View.text? (v : View) (c : Cell) : Option String :=
  (v.cells[c.row.toNat]?).bind (·[c.col.toNat]?)

/-- **A view is right** for a document: the active cell shows its own text, every other cell that
reaches no cycle shows its value, and the formula cells without a value are listed with the
reasons. -/
structure View.Right (v : View) (d : Document) : Prop where
  state : v.state = .ready
  size : v.size = d.grid.size
  rows : v.cells.length = d.grid.size.rows
  cols : ∀ row ∈ v.cells, row.length = d.grid.size.cols
  active : ∀ c, d.active? = some c → v.text? c = some (d.grid.text c)
  cell : ∀ c ∈ d.grid.size, d.active? ≠ some c → ¬ d.grid.ReachesCycle roomLimit c →
    v.text? c = some (d.grid.meaning roomLimit c).display
  errors : ∀ c ∈ d.grid.size, d.active? ≠ some c → ∀ name message,
    (name, c, message) ∈ v.errors ↔ Address.text c = .ok name ∧
      ∃ body f, CellText.body? (d.grid.text c) = some body ∧
        d.grid.verdict roomLimit body = .error f ∧ message = f.message

theorem View.Of.text? {v : View} (hv : v.Of ed) (hc : c ∈ ed.buffer.size) :
    v.text? c = some (ed.buffer.text c) := by
  rw [View.text?, hv.cells]
  exact Grid.rows_getElem? hc

theorem View.Of.mem_errors {v : View} (hv : v.Of ed) {name message : String} :
    (name, c, message) ∈ v.errors ↔
      Address.text c = .ok name ∧ (c, message) ∈ ed.sheet.failures := by
  rw [← hv.errors, List.mem_map]
  constructor
  · intro he
    exact ⟨hv.names (name, c, message) he, _, he, rfl⟩
  · rintro ⟨hname, ⟨name', c', message'⟩, he, heq⟩
    obtain ⟨rfl, rfl⟩ := Prod.mk.inj heq
    have hname' : Address.text c' = .ok name' := hv.names (name', c', message') he
    rw [Except.ok.inj (hname.symm.trans hname')]
    exact he

/-- The reasons listed for a formula cell are those for which it has no value. -/
theorem Current.mem_failures (h : ed.Valid watch) (hcurrent : ed.Current) (hc : c ∈ ed.sheet.size)
    (hactive : ed.active? ≠ some c) {message : String} : (c, message) ∈ ed.sheet.failures ↔
      ∃ body f, CellText.body? (ed.sheet.grid.text c) = some body ∧
        ed.sheet.grid.verdict roomLimit body = .error f ∧ message = f.message := by
  rw [Sheet.mem_failures]
  cases hbody : CellText.body? (ed.sheet.grid.text c) with
  | none =>
    have hnone := h.sheet.tidy fun hf => by
      obtain ⟨body, hb⟩ := CellText.isFormula_iff.1 hf
      rw [hbody] at hb
      cases hb
    rw [hnone]
    constructor
    · rintro ⟨-, f, hf, -⟩
      cases hf
    · rintro ⟨body, f, hb, -⟩
      cases hb
  | some body =>
    rw [hcurrent.noted hc hactive body hbody]
    constructor
    · rintro ⟨-, f, hf, rfl⟩
      refine ⟨body, f, rfl, ?_, rfl⟩
      cases hverdict : ed.sheet.grid.verdict roomLimit body with
      | ok x =>
        rw [hverdict] at hf
        cases hf
      | error f' =>
        rw [hverdict] at hf
        rw [Option.some.inj hf]
    · rintro ⟨body', f, hb, hverdict, rfl⟩
      obtain rfl := Option.some.inj hb
      rw [hverdict]
      exact ⟨hc, f, rfl, rfl⟩

theorem View.Of.right {v : View} (hv : v.Of ed) (h : ed.Valid watch)
    (hwatch : ∀ c t, watch c t = .ok ()) (hs : ed.Settled) (hshort : ed.sheet.grid.Short) :
    v.Right ed.document := by
  have hquiet : ¬ ∃ c t fault, ed.observe c t = .error fault := by
    rintro ⟨c, t, fault, hstop⟩
    rw [h.observe, hwatch] at hstop
    cases hstop
  obtain ⟨hready, hcurrent⟩ := hs.resolve_right fun hs =>
    hs.2.elim (fun ⟨_, _, hlong⟩ => hshort.not_overlong hlong) hquiet
  have hsize : ed.buffer.size = ed.document.grid.size := h.size
  constructor
  · exact hv.state.trans hready
  · exact hv.size
  · rw [hv.cells, Grid.length_rows, hsize]
  · intro row hrow
    rw [hv.cells] at hrow
    rw [Grid.length_of_mem_rows hrow, hsize]
  · intro c hc
    rw [hv.text? (h.size ▸ h.active hc), hcurrent.active hc]
    rfl
  · intro c hc hactive hcycle
    rw [hv.text? (hsize ▸ hc)]
    exact congrArg some ((hcurrent.shown hc hactive).eq_display hcycle)
  · intro c hc hactive name message
    rw [hv.mem_errors, hcurrent.mem_failures h hc hactive]
    rfl

end Editor

end Spreadsheet
