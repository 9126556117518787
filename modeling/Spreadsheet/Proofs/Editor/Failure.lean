import Spreadsheet.Proofs.CalcState
import Spreadsheet.Proofs.Editor.Provenance
import Spreadsheet.Proofs.Editor.Scope

/-!
# Recomputes that fail

A recompute builds what is to be shown aside, so that one that fails leaves the display as it was,
the failures that have been told of and the count of recomputes. It evaluates the cells on the sheet
itself, though, where the reason why a cell fails is noted as soon as it has been evaluated, and
stays: what a view lists as failing afterwards is newer than what its cells show.

* `Results.Sound.failure_iff`: what is noted of a cell that has been evaluated;
* `Editor.Failed`: what a recompute that fails leaves; `Failed.failures_eq_iff`: when nothing else
  is listed than before;
* **`failed_recompute`**: whatever asks for the recompute, and the views that follow;
* **`listed_not_shown`**: a failure that is listed in the recompute that fails.
-/

namespace Spreadsheet

open Formula (CellValue Failure roomLimit)

/-! ## What has been evaluated -/

namespace Results

variable {g : Grid} {room : Nat} {r : Results} {c : Cell} {v : CellValue} {m : String}

/-- **What is noted of a cell whose value is known** is why it fails. -/
theorem Sound.failure_iff (h : r.Sound g room) (hm : r.memo[c]? = some v) :
    (r.failures[c]?).map Failure.message = some m ↔ g.Failing room c m := by
  obtain ⟨body, hb, hright⟩ := h.right hm
  rw [h.reason hm hb, Grid.failing_iff]
  rcases hverdict : g.verdict room body with f | x
  · rw [hverdict] at hright
    simp [Formula.reason?, hb, hverdict, hright.2, eq_comm]
  · simp [Formula.reason?, hb, hverdict]

end Results

/-! ## Where a scan stops -/

namespace Grid

variable {g : Grid} {room : Nat} {r r' : Results} {observe : Observer} {cs : List Cell}
  {shown : List (Cell × String)} {fault : Fault}

/-- Someone or something stops a scan of cells: its observer refuses the last cell that is shown, or
references lead from the next cell to a row number that is too long. -/
inductive Stops (g : Grid) (room : Nat) (observe : Observer) (cs : List Cell)
    (shown : List (Cell × String)) (fault : Fault) : Prop where
  | refused (front : List (Cell × String)) (c : Cell) (text : String)
    (hshown : shown = front ++ [(c, text)]) (hcells : shown.map Prod.fst <+: cs)
    (hstop : observe c text = .error fault)
  | overlong (c : Cell) (f : Failure) (hcells : shown.map Prod.fst ++ [c] <+: cs)
    (hlong : g.Overlong room c f) (hfault : fault = f.fault)

theorem Stops.cons (h : g.Stops room observe cs shown fault) (c : Cell) (text : String) :
    g.Stops room observe (c :: cs) ((c, text) :: shown) fault := by
  cases h with
  | refused front d t hshown hcells hstop =>
    exact .refused ((c, text) :: front) d t (congrArg _ hshown)
      (List.prefix_cons_inj c |>.2 hcells) hstop
  | overlong d f hcells hlong hfault =>
    exact .overlong d f (List.prefix_cons_inj c |>.2 hcells) hlong hfault

/-- **Where a scan stops** that does not come to its end. -/
theorem stops_of_scan (hr : r.Sound g room)
    (hrun : (g.scan room observe cs).run r = (⟨shown, some fault⟩, r')) :
    g.Stops room observe cs shown fault := by
  induction cs generalizing r shown with
  | nil => cases hrun
  | cons c cs ih =>
    have hdisplay := display_meets (c := c) hr
    rw [run_scan_cons] at hrun
    rcases hd : (g.display room c).run r with ⟨f | text, r₁⟩
    · rw [hd] at hrun
      obtain ⟨-, hlong⟩ := hdisplay.of_run_error hd
      obtain ⟨rfl, hfault⟩ := Scan.mk.inj (Prod.mk.inj hrun).1
      exact .overlong c f (List.prefix_append [c] cs) hlong (Option.some.inj hfault).symm
    · rw [hd] at hrun
      obtain ⟨⟨hr₁, -⟩, -⟩ := hdisplay.of_run_ok hd
      cases hobserve : observe c text with
      | error fault' =>
        simp only [hobserve] at hrun
        obtain ⟨rfl, hfault⟩ := Scan.mk.inj (Prod.mk.inj hrun).1
        rw [Option.some.inj hfault] at hobserve
        exact .refused [] c text rfl (List.prefix_append [c] cs) hobserve
      | ok u =>
        simp only [hobserve] at hrun
        rcases hrest : (g.scan room observe cs).run r₁ with ⟨⟨shown', fault?⟩, r₂⟩
        rw [hrest] at hrun
        obtain ⟨rfl, rfl⟩ := Scan.mk.inj (Prod.mk.inj hrun).1
        exact (ih hr₁ (hrest.trans (congrArg (Prod.mk _) (Prod.mk.inj hrun).2))).cons c text

end Grid

namespace Sheet

variable {s s' : Sheet}

theorem failures_eq (s : Sheet) :
    s.failures = s.size.toList.filterMap fun c => (s.failure? c).map (c, ·) := by
  unfold failures
  split
  · rename_i hempty
    have hnone (c : Cell) : s.failure? c = none := by
      rw [failure?, Std.HashMap.getElem?_of_isEmpty hempty]
      rfl
    simp [hnone]
  · rfl

/-- Two sheets list the same failures if and only if the same reasons are noted on their cells. -/
theorem failures_eq_iff (hsize : s'.size = s.size) :
    s'.failures = s.failures ↔ ∀ c ∈ s.size, s'.failure? c = s.failure? c := by
  constructor
  · intro h c hc
    refine Option.ext fun m => ?_
    have hmem (s : Sheet) (hc : c ∈ s.size) : (c, m) ∈ s.failures ↔ s.failure? c = some m := by
      rw [mem_failures, failure?, Option.map_eq_some_iff]
      simp only [hc, true_and, eq_comm]
    rw [← hmem s' (hsize ▸ hc), ← hmem s hc, h]
  · intro h
    rw [failures_eq, failures_eq, hsize]
    exact List.filterMap_congr fun c hc => by rw [h c (Size.mem_toList.1 hc)]

/-- **What a scan that is stopped leaves noted.** -/
theorem noted_of_scan {observe : Observer} {skipped : Option Cell} {shown : List (Cell × String)}
    {fault : Fault}
    (hscan : s.invalidate.scan roomLimit observe skipped = (⟨shown, some fault⟩, s')) :
    s'.grid = s.grid ∧
    s.grid.Stops roomLimit observe (s.size.without skipped) shown fault ∧
    (∀ p ∈ shown, CellText.isFormula (s.text p.1) = true → s'.results.memo[p.1]? ≠ none) ∧
    ∀ c, (s'.results.memo[c]? ≠ none → ∀ m, s'.failure? c = some m ↔
        s.grid.Failing roomLimit c m) ∧
      (s'.results.memo[c]? = none → s'.failure? c = s.failure? c) := by
  have hsound : s.invalidate.results.Sound s.grid roomLimit := Results.sound_of_memo_eq_empty rfl
  unfold Sheet.scan at hscan
  rcases hrun : (s.grid.scan roomLimit observe (s.size.without skipped)).run s.invalidate.results
    with ⟨shows, r⟩
  obtain ⟨⟨hr, hext⟩, ⟨-, hshows⟩, -⟩ := Grid.scan_spec observe hsound hrun
  have hpair : (shows, { s.invalidate with results := r }) = (⟨shown, some fault⟩, s') := by
    rw [← hscan]
    exact congrArg (fun q : Scan × Results => (q.1, { s.invalidate with results := q.2 })) hrun.symm
  obtain ⟨rfl, rfl⟩ := Prod.mk.inj hpair
  refine ⟨rfl, Grid.stops_of_scan hsound hrun, fun p hp hformula => ?_,
    fun c => ⟨fun hm m => ?_, fun hm => ?_⟩⟩
  · rcases hshows p hp with ⟨hno, -⟩ | ⟨v, hv, -⟩
    · exact absurd hformula hno
    · rw [hv]
      exact Option.some_ne_none v
  · obtain ⟨v, hv⟩ := Option.ne_none_iff_exists'.1 hm
    exact hr.failure_iff hv
  · change (r.failures[c]?).map Failure.message = _
    rw [hext.kept hm]
    rfl

end Sheet

namespace Editor

variable {watch : Observer} {ed ed' : Editor} {fault : Fault} {c : Cell} {m : String}

/-! ## Recomputes -/

/-- The value of a cell has become known since the texts changed last. -/
def Evaluated (ed : Editor) (c : Cell) : Prop := ed.sheet.results.memo[c]? ≠ none

/-- What a recompute that fails leaves of an editor. The document, the display and what has been
told of it are as before. What is noted of the cells that it has evaluated is why they fail now, and
among them are those that it came to show; what is noted of all other cells is as before. -/
structure Failed (ed : Editor) (fault : Fault) (ed' : Editor) : Prop where
  document : ed'.document = ed.document
  buffer : ed'.buffer = ed.buffer
  reported : ed'.reported = ed.reported
  runs : ed'.timer.runs = ed.timer.runs
  pending : ed'.timer.pending = false
  state : ed'.timer.state = .error
  lastError : ed'.timer.lastError? = some fault.message
  shown : ∃ shown, ed'.shown = ed.shown ++ shown ∧ ed.sheet.grid.Stops roomLimit ed.observe
      (ed.sheet.size.without ed.active?) shown fault ∧
    ∀ p ∈ shown, CellText.isFormula (ed.sheet.text p.1) = true → ed'.Evaluated p.1
  evaluated (c : Cell) : ed'.Evaluated c →
    ∀ m, ed'.sheet.failure? c = some m ↔ ed.sheet.grid.Failing roomLimit c m
  unevaluated (c : Cell) : ¬ ed'.Evaluated c → ed'.sheet.failure? c = ed.sheet.failure? c

/-- A recompute that fails does so in its scan. -/
theorem scan_of_recompute (h : ed.Valid watch) (hfails : ed.recompute.1 = .error fault) :
    ∃ shown sheet, ed.sheet.invalidate.scan roomLimit ed.observe ed.active? =
      (⟨shown, some fault⟩, sheet) := by
  rcases hscan : ed.sheet.invalidate.scan roomLimit ed.observe ed.active? with
    ⟨⟨shown, fault?⟩, sheet⟩
  rw [recompute_eq h.active hscan] at hfails
  cases fault? with
  | none => cases hfails
  | some fault' => exact ⟨shown, sheet, by rw [Except.error.inj hfails]⟩

theorem pending_request {d : Debounce} {r : Debounce.Request} (hdue : (d.request r).2 = true) :
    (d.request r).1.pending = false := by
  cases Debounce.request_effect d r with
  | runs _ _ _ hidle => exact hidle
  | puts hno => exact absurd (hdue.symm.trans hno) (Bool.noConfusion)
  | drops hno => exact absurd (hdue.symm.trans hno) (Bool.noConfusion)
  | keeps hno => exact absurd (hdue.symm.trans hno) (Bool.noConfusion)

/-- **A request whose recompute fails.** -/
theorem request_failed (h : ed.Valid watch) {r : Debounce.Request}
    (hdue : (ed.timer.request r).2 = true) (hfails : ed.recompute.1 = .error fault) :
    (request r).Meets ed (fun _ => ed.Failed fault) fun _ _ => False := by
  obtain ⟨shown, sheet, hscan⟩ := scan_of_recompute h hfails
  obtain ⟨hgrid, hstops, hshown, hnoted⟩ := Sheet.noted_of_scan hscan
  have hrun (timer : Debounce) : recompute { ed with timer } =
      (.error fault, { ed with timer, sheet, shown := ed.shown ++ shown }) :=
    recompute_eq (h.setTimer timer).active hscan
  unfold request
  rw [ExceptT.meets_bind, ExceptT.meets_get]
  obtain ⟨hruns, -⟩ := Debounce.runs_request ed.timer r
  have hpending := pending_request hdue
  rcases hrequest : ed.timer.request r with ⟨timer, due⟩
  rw [hrequest] at hdue hruns hpending
  obtain rfl : due = true := hdue
  simp only [if_true]
  rw [ExceptT.meets_bind, ExceptT.meets_modify, ExceptT.meets_bind, ExceptT.meets_get, hrun]
  simp only
  rw [ExceptT.meets_bind, ExceptT.meets_set]
  unfold emit
  rw [ExceptT.meets_modify]
  exact {
    document := congrArg (Document.mk _ · _ _) hgrid
    buffer := rfl
    reported := rfl
    runs := hruns
    pending := hpending
    state := rfl
    lastError := rfl
    shown := ⟨shown, rfl, hstops, hshown⟩
    evaluated := fun c => (hnoted c).1
    unevaluated := fun c hc => (hnoted c).2 (not_not.1 hc) }

/-! ## What is listed -/

/-- **Nothing else is listed than before** if and only if what was noted before of the cells that
have been evaluated is why they fail. -/
theorem Failed.failures_eq_iff (h : ed.Failed fault ed') : ed'.sheet.failures = ed.sheet.failures ↔
    ∀ c ∈ ed.sheet.size, ed'.Evaluated c → ∀ m,
      ed.sheet.failure? c = some m ↔ ed.sheet.grid.Failing roomLimit c m := by
  have hsize : ed'.sheet.size = ed.sheet.size := congrArg (·.grid.size) h.document
  rw [Sheet.failures_eq_iff hsize]
  constructor
  · intro hsame c hc hevaluated m
    rw [← hsame c hc]
    exact h.evaluated c hevaluated m
  · intro hold c hc
    by_cases hevaluated : ed'.Evaluated c
    · exact Option.ext fun m => (h.evaluated c hevaluated m).trans (hold c hc hevaluated m).symm
    · exact h.unevaluated c hevaluated

/-- A view after a recompute that failed shows what was on display before it. -/
theorem Failed.view (h : ed.Failed fault ed') {v : View} {ed'' : Editor}
    (hview : view.run ed' = (.ok v, ed'')) : ed'' = ed' ∧ v.cells = ed.buffer.rows ∧
      v.errors.map Prod.snd = ed'.sheet.failures ∧ v.state = .error ∧
      v.lastError? = some fault.message := by
  obtain ⟨rfl, hof, hlast⟩ := view_idle h.pending hview
  exact ⟨rfl, hof.cells.trans (congrArg Grid.rows h.buffer), hof.errors, hof.state.trans h.state,
    hlast.trans h.lastError⟩

/-- A view for which a recompute fails is the view of what the recompute leaves. -/
theorem view_of_failed (h : (request .flush).run ed = (.ok (), ed')) (hed : ed.Failed fault ed') :
    view.run ed = view.run ed' := by
  have hidle : (request .flush).run ed' = (.ok (), ed') := by
    obtain ⟨u, ed'', hrun, rfl⟩ := (request_flush_idle_meets hed.pending).exists_ok
    exact hrun
  unfold view
  rw [ExceptT.run_bind_apply, ExceptT.run_bind_apply, h, hidle]

/-- **A recompute that fails** leaves the document, the display, the failures that have been told of
and the count of recomputes as they were, whatever asks for it and whichever cell stops it, and the
timer knows why. Views show the old display then, but list the failures that are noted now: a cell
that has been evaluated is listed if and only if it fails, with the reason, and any other cell as it
was before. -/
theorem failed_recompute (h : ed.Valid watch) {r : Debounce.Request}
    (hdue : (ed.timer.request r).2 = true) (hfails : ed.recompute.1 = .error fault) :
    ∃ ed', (request r).run ed = (.ok (), ed') ∧ ed.Failed fault ed' ∧
      (ed'.sheet.failures = ed.sheet.failures ↔ ∀ c ∈ ed.sheet.size, ed'.Evaluated c → ∀ m,
        ed.sheet.failure? c = some m ↔ ed.sheet.grid.Failing roomLimit c m) ∧
      (r = .flush → view.run ed = view.run ed') ∧
      ∀ v ed'', view.run ed' = (.ok v, ed'') → ed'' = ed' ∧ v.cells = ed.buffer.rows ∧
        v.errors.map Prod.snd = ed'.sheet.failures ∧ v.state = .error ∧
        v.lastError? = some fault.message := by
  obtain ⟨u, ed', hrun, hed⟩ := (request_failed h hdue hfails).exists_ok
  refine ⟨ed', hrun, hed, hed.failures_eq_iff, ?_, fun v ed'' => hed.view⟩
  rintro rfl
  exact view_of_failed hrun hed

/-! ## A failure that is listed too early -/

/-- A formula that is rejected leads nowhere. -/
theorem not_overlong_of_rejected {g : Grid} {body : String} {q : Formula.Rejection}
    (hb : CellText.body? (g.text c) = some body)
    (hq : Formula.Expr.ofBody roomLimit body = .error (.rejected q)) (f : Formula.Failure) :
    ¬ g.Overlong roomLimit c f := by
  rintro ⟨d, hlead, body', t, hb', hlong, -⟩
  rcases Relation.ReflTransGen.cases_head hlead with rfl | ⟨d, hcd, -⟩
  · rw [← Option.some.inj (hb.symm.trans hb'), hq] at hlong
    cases hlong
  · obtain ⟨body', e, hb', he⟩ := hcd.source
    rw [← Option.some.inj (hb.symm.trans hb'), hq] at he
    cases he

/-- A grid of two cells. -/
def twoCells : Settings := ⟨⟨1, 2, Nat.one_pos, Nat.two_pos⟩, 16, []⟩

/-- Two formulas are typed while the recompute is put off. -/
theorem exists_typed_twice (text : String) : ∃ ed,
    (start twoCells true .silent).after [.edit ⟨0, 0⟩ "=1+", .edit ⟨0, 1⟩ text] = ed ∧
    ed.active? = none ∧ ed.observe = .silent ∧ ed.sheet.size = twoCells.size ∧
    ed.sheet.grid.text ⟨0, 0⟩ = "=1+" ∧ ed.sheet.grid.text ⟨0, 1⟩ = text ∧
    ed.timer.pending = true ∧ ed.buffer.rows = [["", ""]] ∧
    ed.sheet.results.Within {} := by
  have hfirst : (⟨0, 0⟩ : Cell) ∈ twoCells.size := by decide
  have hsecond : (⟨0, 1⟩ : Cell) ∈ twoCells.size := by decide
  refine ⟨_, rfl, rfl, rfl, rfl, rfl, rfl, rfl, rfl, ?_⟩
  have h₁ : ((Sheet.empty twoCells.size).put ⟨0, 0⟩ "=1+" hfirst).results.Within {} :=
    Sheet.within_put hfirst
  have h₂ : (((Sheet.empty twoCells.size).put ⟨0, 0⟩ "=1+" hfirst).put ⟨0, 1⟩ text
      hsecond).results.Within _ := Sheet.within_put hsecond
  exact h₂.trans h₁

/-- The second formula cannot be read, and so the recompute fails. -/
theorem exists_stopped : ∃ ed fault,
    (start twoCells true .silent).after [.edit ⟨0, 0⟩ "=1+", .edit ⟨0, 1⟩ unreadableText] = ed ∧
    ed.Valid .silent ∧ ed.timer.pending = true ∧ ed.recompute.1 = .error fault ∧
    ed.active? = none ∧ ed.sheet.size = twoCells.size ∧ ed.sheet.grid.text ⟨0, 0⟩ = "=1+" ∧
    ed.buffer.rows = [["", ""]] ∧ ed.sheet.failures = [] := by
  obtain ⟨ed, hed, hactive, -, hsize, hfirst, hsecond, hpending, hrows, hnone⟩ :=
    exists_typed_twice unreadableText
  have hvalid := valid_of_after hed
  obtain ⟨fault, ed', hrun, -⟩ := hvalid.scoped.unreadable _ _ (unreadable_of_text hsecond)
    (by rw [hactive]; exact nofun)
  refine ⟨ed, fault, hed, hvalid, hpending, by rw [hrun], hactive, hsize, hfirst, hrows, ?_⟩
  refine List.eq_nil_iff_forall_not_mem.2 fun ⟨c, m⟩ hmem => ?_
  obtain ⟨-, f, hf, -⟩ := Sheet.mem_failures.1 hmem
  exact absurd (hnone c f hf) (by rw [Std.HashMap.getElem?_empty]; exact nofun)

theorem failed_recompute_unreadable : ∃ ed fault ed',
    (start twoCells true .silent).after [.edit ⟨0, 0⟩ "=1+", .edit ⟨0, 1⟩ unreadableText] = ed ∧
    (request .flush).run ed = (.ok (), ed') ∧ ed.Failed fault ed' := by
  obtain ⟨ed, fault, hed, hvalid, hpending, hfails, -⟩ := exists_stopped
  have hdue : (ed.timer.request .flush).2 = true := hpending
  obtain ⟨ed', hrun, hfailed, -⟩ := failed_recompute hvalid hdue hfails
  exact ⟨ed, fault, ed', hed, hrun, hfailed⟩

/-- **A failure is listed next to a cell that does not show it**: the recompute of a view comes by a
formula that is rejected, and then fails at the next cell. -/
theorem listed_not_shown : ∃ ed v ed',
    (start twoCells true .silent).after [.edit ⟨0, 0⟩ "=1+", .edit ⟨0, 1⟩ unreadableText] = ed ∧
    ed.sheet.failures = [] ∧ view.run ed = (.ok v, ed') ∧ v.state = .error ∧
    v.cells = [["", ""]] ∧ ("A1", ⟨0, 0⟩, "Unexpected end (at position 2)") ∈ v.errors := by
  obtain ⟨ed, fault, hed, hvalid, hpending, hfails, hactive, hsize, hfirst, hrows, hnone⟩ :=
    exists_stopped
  have hdue : (ed.timer.request .flush).2 = true := hpending
  obtain ⟨u, ed₁, hrun, hfailed⟩ := (request_failed hvalid hdue hfails).exists_ok
  obtain ⟨v, ed', hview, -, hof⟩ := view_run_ok hvalid (by rw [hsize]; decide +kernel)
  obtain ⟨rfl, hcells, -, hstate, -⟩ :=
    hfailed.view ((view_of_failed hrun hfailed).symm.trans hview)
  refine ⟨ed, v, ed', hed, hnone, hview, hstate, hcells.trans hrows, ?_⟩
  have hrejected : Formula.Expr.ofBody roomLimit "1+" = .error (.rejected (.unexpectedEnd 2)) := by
    cbv
  have hbody : CellText.body? (ed.sheet.grid.text ⟨0, 0⟩) = some "1+" := by
    rw [hfirst]
    decide +kernel
  -- nothing can have stopped the scan at the first cell
  have hevaluated : ed'.Evaluated ⟨0, 0⟩ := by
    obtain ⟨shown, -, hstops, hshown⟩ := hfailed.shown
    have hall : ed.sheet.size.without ed.active? = [⟨0, 0⟩, ⟨0, 1⟩] := by
      rw [hsize, hactive]
      decide +kernel
    cases hstops with
    | refused front c text _ _ hstop =>
      rw [hvalid.observe] at hstop
      cases hstop
    | overlong c f hcells hlong _ =>
      rw [hall] at hcells
      cases shown with
      | nil =>
        obtain ⟨rfl, -⟩ := List.cons_prefix_cons.1 hcells
        exact absurd hlong (not_overlong_of_rejected hbody hrejected f)
      | cons p rest =>
        have hp : p.1 = ⟨0, 0⟩ := (List.cons_prefix_cons.1 hcells).1
        rw [← hp]
        refine hshown p List.mem_cons_self ?_
        rw [hp]
        exact CellText.isFormula_iff.2 ⟨_, hbody⟩
  have hfailing : ed.sheet.grid.Failing roomLimit ⟨0, 0⟩ "Unexpected end (at position 2)" :=
    ⟨_, hbody, .inl ⟨_, hrejected, by decide +kernel⟩⟩
  obtain ⟨f, hf, hmessage⟩ :=
    Option.map_eq_some_iff.1 ((hfailed.evaluated _ hevaluated _).2 hfailing)
  have hmem : (⟨0, 0⟩ : Cell) ∈ ed'.sheet.size := by
    have hsame : ed'.sheet.size = ed.sheet.size := congrArg (·.grid.size) hfailed.document
    rw [hsame, hsize]
    decide +kernel
  exact hof.mem_errors.2 ⟨by decide +kernel, Sheet.mem_failures.2 ⟨hmem, f, hf, hmessage.symm⟩⟩

end Editor

end Spreadsheet
