import Spreadsheet.Proofs.Editor.Run
import Spreadsheet.Proofs.Sheet.Overlay

/-!
# What the listed failures say

A failure that is listed was the reason why its cell failed at some time. It is why the cell fails
now, if the cell has been evaluated since the texts changed last. A recompute evaluates all cells
but the active one, which it evaluates only where another cell refers to it: so what is listed of
the active cell may be what was wrong with an earlier text of it.

* `Results.Within`, `Sheet.Honest`: nothing is noted anew, or only what is right;
* `request_scans`: the timer; **`Operation.action_honest`**: one operation;
* `noted_after`, **`errors_after`**: a run, and the view behind it;
* `Unread`, **`errors_while_edited`**: what is listed of the only formula while it is edited;
* **`errors_of_earlier_text`**: a view that lists a failure of a text that is gone.
-/

namespace Spreadsheet

open Formula (CellValue Failure roomLimit)

/-! ## What is noted -/

namespace Results

variable {g : Grid} {room : Nat} {r r' old : Results} {c : Cell} {v : CellValue} {f : Failure}

/-- No reason is noted that was not noted before. -/
def Within (r old : Results) : Prop :=
  ∀ (c : Cell) (f : Failure), r.failures[c]? = some f → old.failures[c]? = some f

theorem Within.refl (r : Results) : r.Within r := fun _ _ => id

theorem Within.trans (h : r'.Within r) (h' : r.Within old) : r'.Within old :=
  fun c f hf => h' c f (h c f hf)

theorem within_empty : ({} : Results).Within old := fun c f hf => by
  rw [Std.HashMap.getElem?_empty] at hf
  cases hf

/-- The reason noted for a cell whose value is known is why it fails. -/
theorem Sound.failing (h : r.Sound g room) (hm : r.memo[c]? = some v)
    (hf : r.failures[c]? = some f) : g.Failing room c f.message :=
  (h.right hm).failing (fun _ hb => h.reason hm hb) hf

/-- What becomes noted is why a cell fails. -/
theorem Extends.failing (h : r.Extends g r') (hr : r'.Sound g room)
    (hf : r'.failures[c]? = some f) : r.failures[c]? = some f ∨ g.Failing room c f.message := by
  cases hm : r'.memo[c]? with
  | none => exact .inl ((h.kept hm).symm.trans hf)
  | some v => exact .inr (hr.failing hm hf)

end Results

namespace Sheet

variable {s : Sheet} {c : Cell} {text : String} {old : Results}

theorem within_ofRows (rows : List (List String)) : (ofRows rows).results.Within old :=
  Results.within_empty

theorem within_empty (size : Size) : (empty size).results.Within old := Results.within_empty

theorem within_put (hc : c ∈ s.size) : (s.put c text hc).results.Within s.results := by
  intro d f hf
  simp only [put, Results.invalidate] at hf
  split at hf
  · exact hf
  · rw [Results.succeed, Std.HashMap.getElem?_erase] at hf
    split at hf
    · cases hf
    · exact hf

theorem within_regrid (g : Grid) : (s.regrid g).results.Within s.results := by
  intro d f hf
  simp only [regrid, Std.HashMap.getElem?_filter'] at hf
  exact (Option.filter_eq_some_iff.1 hf).1

theorem within_addRow : s.addRow.results.Within s.results := within_regrid _

theorem within_addColumn : s.addColumn.results.Within s.results := within_regrid _

theorem within_removeRow : s.removeRow.results.Within s.results := by
  unfold removeRow
  split
  · exact within_regrid _
  · exact .refl _

theorem within_removeColumn : s.removeColumn.results.Within s.results := by
  unfold removeColumn
  split
  · exact within_regrid _
  · exact .refl _

theorem within_write {d? : Option Offset} : ∀ {cells : List (Cell × String)} {s : Sheet},
    ((write d? cells).run s).2.results.Within s.results := by
  intro cells
  induction cells with
  | nil => exact fun {s} => .refl s.results
  | cons p rest ih =>
    intro s
    obtain ⟨c, text⟩ := p
    rw [run_write_cons]
    by_cases hc : c ∈ s.size
    · rw [dif_pos hc]
      cases shifted d? text with
      | error e => exact .refl _
      | ok t => exact ih.trans (within_put hc)
    · rw [dif_neg hc]
      exact ih

theorem within_paste (origin? : Option Cell) :
    (s.paste c text origin?).2.results.Within s.results := by
  unfold paste
  split
  · exact .refl _
  · exact within_write

/-- What is noted on a sheet was noted before, or is why a cell fails. -/
def Honest (s : Sheet) (old : Results) : Prop :=
  ∀ c f, s.results.failures[c]? = some f →
    old.failures[c]? = some f ∨ s.grid.Failing roomLimit c f.message

theorem honest_of_within (h : s.results.Within old) : s.Honest old := fun c f hf => .inl (h c f hf)

theorem honest_self (s : Sheet) : s.Honest s.results := honest_of_within (.refl _)

/-- A scan that starts anew notes only what is right. -/
theorem honest_scan (h : s.results.Within old) (observe : Observer) (skipped : Option Cell) :
    (s.invalidate.scan roomLimit observe skipped).2.Honest old := by
  rcases hscan : s.invalidate.scan roomLimit observe skipped with ⟨scan, s'⟩
  -- no value is known at its start, and so every value at its end is one of this grid
  obtain ⟨⟨hgrid, hsound, hext⟩, -⟩ := scan_sound (Results.sound_of_memo_eq_empty rfl) hscan
  intro c f hf
  rw [hgrid]
  exact (hext.failing hsound hf).imp (h c f) id

end Sheet

namespace Editor

variable {watch : Observer} {ed ed' : Editor} {old : Results} {c : Cell} {text : String}

/-! ## The timer -/

theorem recompute_scans (ed : Editor) : ed.recompute.2.active? = ed.active? ∧
    (ed.recompute.2.sheet = ed.sheet ∨
      ed.recompute.2.sheet = (ed.sheet.invalidate.scan roomLimit ed.observe ed.active?).2) := by
  unfold recompute
  split
  · exact ⟨rfl, .inl rfl⟩
  · rcases ed.sheet.invalidate.scan roomLimit ed.observe ed.active? with ⟨⟨shown, fault?⟩, sheet⟩
    cases fault? with
    | some fault => exact ⟨rfl, .inr rfl⟩
    | none => exact ⟨rfl, .inr rfl⟩

/-- **Whatever is asked of the timer**, the sheet stays or is scanned anew. -/
theorem request_scans (r : Debounce.Request) : (request r).Meets ed
    (fun _ ed' => ed'.active? = ed.active? ∧ (ed'.sheet = ed.sheet ∨
      ed'.sheet = (ed.sheet.invalidate.scan roomLimit ed.observe ed.active?).2))
    fun _ _ => False := by
  unfold request
  rw [ExceptT.meets_bind, ExceptT.meets_get]
  rcases ed.timer.request r with ⟨timer, due⟩
  simp only
  rw [ExceptT.meets_bind, ExceptT.meets_modify]
  cases due with
  | false => exact ⟨rfl, .inl rfl⟩
  | true =>
    simp only [if_true]
    rw [ExceptT.meets_bind, ExceptT.meets_get]
    have hscans := recompute_scans { ed with timer }
    rcases hrun : recompute { ed with timer } with ⟨outcome, ed'⟩
    rw [hrun] at hscans
    rw [ExceptT.meets_bind, ExceptT.meets_set]
    unfold emit
    rw [ExceptT.meets_modify]
    exact hscans

variable {E : Failure → Editor → Prop}

theorem request_honest (h : ed.sheet.results.Within old) (r : Debounce.Request) :
    (request r).Meets ed (fun _ ed' => ed'.sheet.Honest old) E := by
  refine (request_scans r).imp ?_ fun _ _ => False.elim
  rintro _ ed' ⟨-, hsheet | hsheet⟩
  · rw [hsheet]
    exact Sheet.honest_of_within h
  · rw [hsheet]
    exact Sheet.honest_scan h _ _

theorem schedule_honest {α : Type} (h : ed.sheet.results.Within old) (a : α) :
    (do request .schedule; return a : Action α).Meets ed (fun _ ed' => ed'.sheet.Honest old) E := by
  rw [ExceptT.meets_bind]
  exact request_honest h .schedule

/-! ## Operations -/

theorem showText_unmoved : (showText c text).Meets ed
    (fun _ ed' => ed'.active? = ed.active? ∧ ed'.sheet = ed.sheet)
    fun _ ed' => ed'.active? = ed.active? ∧ ed'.sheet = ed.sheet := by
  unfold showText
  rw [ExceptT.meets_bind, ExceptT.meets_get, ExceptT.meets_bind, ExceptT.meets_ofExcept]
  cases writeText ed.buffer c text with
  | error e => exact ⟨rfl, rfl⟩
  | ok buffer => exact ⟨rfl, rfl⟩

theorem store_within : (store c text).Meets ed
    (fun _ ed' => ed'.sheet.results.Within ed.sheet.results)
    fun _ ed' => ed'.sheet.Honest ed.sheet.results := by
  refine store_meets.imp ?_ ?_
  · rintro _ _ ⟨hc, rfl⟩
    exact Sheet.within_put hc
  · rintro _ _ ⟨-, rfl, -⟩
    exact Sheet.honest_self _

theorem endEdit_honest : endEdit.Meets ed (fun _ ed' => ed'.sheet.Honest ed.sheet.results)
    fun _ ed' => ed'.sheet.Honest ed.sheet.results := by
  unfold endEdit
  rw [ExceptT.meets_bind, ExceptT.meets_get]
  cases ed.active? with
  | none => exact Sheet.honest_self _
  | some c =>
    simp only
    rw [ExceptT.meets_bind, ExceptT.meets_modify, ExceptT.meets_bind, ExceptT.meets_get]
    simp only
    split
    · split
      · rw [ExceptT.meets_bind]
        exact store_within.imp (fun _ _ h => schedule_honest h _) fun _ _ => id
      · exact schedule_honest (.refl _) _
    · exact Sheet.honest_self _

theorem focus_honest (h : ed.sheet.Honest old) :
    (do
      modify fun ed => { ed with active? := some c }
      let text := (← get).sheet.text c
      showText c text
      return text : Action String).Meets ed (fun _ ed' => ed'.sheet.Honest old)
      fun _ ed' => ed'.sheet.Honest old := by
  rw [ExceptT.meets_bind, ExceptT.meets_modify, ExceptT.meets_bind, ExceptT.meets_get]
  simp only
  rw [ExceptT.meets_bind]
  exact showText_unmoved.imp (fun _ _ hs => hs.2 ▸ h) fun _ _ hs => hs.2 ▸ h

theorem beginEdit_honest : (beginEdit c).Meets ed (fun _ ed' => ed'.sheet.Honest ed.sheet.results)
    fun _ ed' => ed'.sheet.Honest ed.sheet.results := by
  unfold beginEdit
  rw [ExceptT.meets_bind]
  refine requireCell_meets.imp ?_ ?_
  · rintro _ _ ⟨-, rfl⟩
    rw [ExceptT.meets_bind, ExceptT.meets_get]
    simp only
    split
    · rw [ExceptT.meets_bind]
      exact endEdit_honest.imp (fun _ _ h => focus_honest h) fun _ _ => id
    · exact focus_honest (Sheet.honest_self _)
  · rintro _ _ ⟨-, rfl, -⟩
    exact Sheet.honest_self _

theorem edit_honest : (edit c text).Meets ed (fun _ ed' => ed'.sheet.Honest ed.sheet.results)
    fun _ ed' => ed'.sheet.Honest ed.sheet.results := by
  unfold edit
  rw [ExceptT.meets_bind]
  refine store_within.imp (fun _ ed' h => ?_) fun _ _ => id
  rw [ExceptT.meets_bind, ExceptT.meets_get]
  split
  · rw [ExceptT.meets_bind]
    refine showText_unmoved.imp (fun _ _ hs => ?_) fun _ _ hs => ?_
    · exact request_honest (hs.2 ▸ h) _
    · exact hs.2 ▸ Sheet.honest_of_within h
  · exact request_honest h _

theorem cut_honest : (cut c).Meets ed (fun _ ed' => ed'.sheet.Honest ed.sheet.results)
    fun _ ed' => ed'.sheet.Honest ed.sheet.results := by
  unfold cut
  rw [ExceptT.meets_bind]
  refine copy_meets.imp ?_ ?_
  · rintro _ _ ⟨-, rfl⟩
    rw [ExceptT.meets_bind]
    exact store_within.imp (fun _ _ h => schedule_honest h _) fun _ _ => id
  · rintro _ _ ⟨-, rfl, -⟩
    exact Sheet.honest_self _

theorem paste_honest : (paste c text).Meets ed (fun _ ed' => ed'.sheet.Honest ed.sheet.results)
    fun _ ed' => ed'.sheet.Honest ed.sheet.results := by
  unfold paste
  rw [ExceptT.meets_bind]
  refine requireCell_meets.imp ?_ ?_
  · rintro _ _ ⟨-, rfl⟩
    have hwithin : (ed.sheet.paste c text ed.origin?).2.results.Within ed.sheet.results :=
      Sheet.within_paste _
    rcases hpaste : ed.sheet.paste c text ed.origin? with ⟨outcome, sheet⟩
    rw [hpaste] at hwithin
    rw [ExceptT.meets_bind, ExceptT.meets_get]
    simp only [hpaste]
    rw [ExceptT.meets_bind, ExceptT.meets_modify, ExceptT.meets_bind, ExceptT.meets_ofExcept]
    cases outcome with
    | error t => exact Sheet.honest_of_within hwithin
    | ok n =>
      simp only [Except.mapError]
      rw [ExceptT.meets_bind, ExceptT.meets_modify, ExceptT.meets_bind, meets_nameOf]
      cases Address.text c with
      | error t => exact Sheet.honest_of_within hwithin
      | ok name =>
        simp only
        rw [ExceptT.meets_bind]
        refine mapM_nameOf_meets.imp ?_ ?_
        · rintro origin _ rfl
          unfold emit
          rw [ExceptT.meets_bind, ExceptT.meets_modify]
          exact schedule_honest hwithin _
        · rintro _ _ ⟨rfl, -⟩
          exact Sheet.honest_of_within hwithin
  · rintro _ _ ⟨-, rfl, -⟩
    exact Sheet.honest_self _

theorem restructure_honest (name : String) {sheet : Sheet} (h : sheet.results.Within old) :
    (restructure name sheet).Meets ed (fun _ ed' => ed'.sheet.Honest old)
      fun _ ed' => ed'.sheet.Honest old := by
  unfold restructure emit
  rw [ExceptT.meets_bind, ExceptT.meets_modify, ExceptT.meets_bind, ExceptT.meets_modify]
  exact request_honest h _

theorem replaceSheet_honest (event : Journal.Event) {sheet : Sheet}
    (h : sheet.results.Within old) : (replaceSheet event sheet).Meets ed
      (fun _ ed' => ed'.sheet.Honest old) fun _ ed' => ed'.sheet.Honest old := by
  unfold replaceSheet emit
  rw [ExceptT.meets_bind, ExceptT.meets_modify, ExceptT.meets_bind, ExceptT.meets_modify]
  exact request_honest h _

theorem resize_honest (rows cols : Int) : (resize rows cols).Meets ed
    (fun _ ed' => ed'.sheet.Honest ed.sheet.results)
    fun _ ed' => ed'.sheet.Honest ed.sheet.results := by
  unfold resize Sheet.resize
  rw [ExceptT.meets_bind, ExceptT.meets_get, ExceptT.meets_bind, ExceptT.meets_ofExcept]
  cases Grid.checkSize rows cols with
  | error e => exact Sheet.honest_self _
  | ok size => exact restructure_honest _ (Sheet.within_regrid _)

theorem view_honest : view.Meets ed (fun _ ed' => ed'.sheet.Honest ed.sheet.results)
    fun _ ed' => ed'.sheet.Honest ed.sheet.results :=
  (view_of_flush (request_honest (.refl _) .flush)).imp (fun _ _ h => h.1) fun _ _ h => h.1

theorem displayText_honest : (displayText c).Meets ed
    (fun _ ed' => ed'.sheet.Honest ed.sheet.results)
    fun _ ed' => ed'.sheet.Honest ed.sheet.results := by
  unfold displayText
  rw [ExceptT.meets_bind]
  refine (request_honest (.refl _) .flush).imp ?_ fun _ _ => False.elim
  intro _ ed' h
  rw [ExceptT.meets_bind]
  refine requireCell_meets.imp ?_ ?_
  · rintro _ _ ⟨-, rfl⟩
    rw [ExceptT.meets_bind, ExceptT.meets_get]
    split
    · exact h
    · exact h
  · rintro _ _ ⟨-, rfl, -⟩
    exact h

/-- **One operation** notes only what is right, also if it fails. -/
theorem Operation.action_honest (op : Operation) (ed : Editor) : op.action.Meets ed
    (fun _ ed' => ed'.sheet.Honest ed.sheet.results)
    fun _ ed' => ed'.sheet.Honest ed.sheet.results := by
  cases op with
  | beginEdit c => exact meets_ignore.2 beginEdit_honest
  | edit c text => exact edit_honest
  | endEdit => exact meets_ignore.2 endEdit_honest
  | copy c =>
    refine meets_ignore.2 (copy_meets.imp ?_ ?_)
    · rintro _ _ ⟨-, rfl⟩
      exact Sheet.honest_self _
    · rintro _ _ ⟨-, rfl, -⟩
      exact Sheet.honest_self _
  | cut c => exact meets_ignore.2 cut_honest
  | paste c text => exact meets_ignore.2 paste_honest
  | addRow => exact restructure_honest _ Sheet.within_addRow
  | addColumn => exact restructure_honest _ Sheet.within_addColumn
  | removeRow => exact restructure_honest _ Sheet.within_removeRow
  | removeColumn => exact restructure_honest _ Sheet.within_removeColumn
  | resize rows cols => exact resize_honest rows cols
  | load rows => exact replaceSheet_honest _ (Sheet.within_ofRows rows)
  | reset => exact replaceSheet_honest _ (Sheet.within_empty _)
  | view => exact meets_ignore.2 view_honest
  | displayText c => exact meets_ignore.2 displayText_honest
  | wait ms => exact request_honest (.refl _) (.advance ms)
  | fire => exact request_honest (.refl _) .flush

theorem perform_of_meets (op : Operation) {P : Editor → Prop}
    (h : op.action.Meets ed (fun _ => P) fun _ => P) : P (ed.perform op) := by
  unfold perform
  rcases hrun : op.action.run ed with ⟨f | u, ed'⟩
  · exact h.of_run_error hrun
  · exact h.of_run_ok hrun

theorem perform_honest (ed : Editor) (op : Operation) :
    (ed.perform op).sheet.Honest ed.sheet.results :=
  perform_of_meets op (op.action_honest ed)

/-! ## Runs -/

/-- **Everything that is noted after a run** was noted before it, or was why a cell failed at some
time during it. -/
theorem noted_after (ops : List Operation) {f : Formula.Failure}
    (hf : (ed.after ops).sheet.results.failures[c]? = some f) :
    ed.sheet.results.failures[c]? = some f ∨ ∃ before, before <+: ops ∧
      (ed.after before).sheet.grid.Failing roomLimit c f.message := by
  induction ops generalizing ed with
  | nil => exact .inl hf
  | cons op ops ih =>
    rcases ih hf with hf | ⟨before, hbefore, hfailing⟩
    · refine (perform_honest ed op c f hf).imp id fun hfailing => ⟨[op], ?_, hfailing⟩
      exact List.prefix_append [op] ops
    · exact .inr ⟨op :: before, List.cons_prefix_cons.2 ⟨rfl, hbefore⟩, hfailing⟩

variable {settings : Settings} {clocked : Bool} {observe : Observer} {ops : List Operation}

theorem document_after (ops : List Operation) :
    ((start settings clocked observe).after ops).document =
      (Document.empty settings.size).after ops :=
  (keeps_after ops valid_start fun _ : ¬ False => .inr settled_start).document

theorem view_run_ok (h : ed.Valid watch) (hrows : ed.sheet.size.rows < 10 ^ Decimal.maxDigits) :
    ∃ v ed', view.run ed = (.ok v, ed') ∧ ed'.Rests watch ed.Fresh ed.document ∧ v.Of ed' := by
  have hmeets := view_meets h
  rcases hrun : view.run ed with ⟨e | v, ed'⟩
  · obtain ⟨-, c, hc, t, ht, -⟩ := hmeets.of_run_error hrun
    exact absurd ht (text_ne_error_of_mem hc hrows t)
  · exact ⟨v, ed', rfl, hmeets.of_run_ok hrun⟩

theorem perform_view {v : View} (hview : view.run ed = (.ok v, ed')) : ed.perform .view = ed' := by
  change ((view >>= fun _ => pure () : Action Unit).run ed).2 = ed'
  rw [ExceptT.run_bind_apply, hview]
  rfl

/-- The settings of a grid with one cell. -/
def oneCell : Settings := ⟨⟨1, 1, by decide, by decide⟩, 16, []⟩

theorem eq_of_mem_oneCell (h : c ∈ oneCell.size) : c = ⟨0, 0⟩ := by
  obtain ⟨row, col⟩ := c
  have hmem := Size.mem_iff.1 h
  dsimp only [oneCell] at hmem
  rw [Cell.mk.injEq]
  omega

theorem view_of_unended : ∃ v ed,
    view.run ((start oneCell false .silent).after [.edit ⟨0, 0⟩ "=1+"]) = (.ok v, ed) ∧
    v.state = .ready ∧ ("A1", ⟨0, 0⟩, "Unexpected end (at position 2)") ∈ v.errors ∧
    ed.Valid .silent ∧ v.Of ed ∧
    ed.document = (Document.empty oneCell.size).after [.edit ⟨0, 0⟩ "=1+"] := by
  have hstart : ¬ False → (start oneCell false .silent).Fresh := fun _ => .inr settled_start
  obtain ⟨hvalid, hfresh, hdocument⟩ := keeps_after [.edit ⟨0, 0⟩ "=1+"] valid_start hstart
  have hops : ¬ (start oneCell false .silent).Lags False [.edit ⟨0, 0⟩ "=1+"] :=
    not_lags_of_forall_ne_paste not_false (by simp)
  have hsize : ((start oneCell false .silent).after [.edit ⟨0, 0⟩ "=1+"]).sheet.size =
    oneCell.size := congrArg (·.grid.size) hdocument
  obtain ⟨v, ed, hview, hrests, hof⟩ := view_run_ok hvalid (by rw [hsize]; decide +kernel)
  have hsame := hrests.document.trans hdocument
  have hshort : ed.document.grid.Short := by
    rw [hsame]
    decide +kernel
  have hright := hof.right hrests.valid (fun _ _ => rfl) (hrests.settled (hfresh hops)) hshort
  refine ⟨v, ed, hview, hright.state, ?_, hrests.valid, hof, hsame⟩
  have hrejected : Formula.Expr.ofBody roomLimit "1+" = .error (.rejected (.unexpectedEnd 2)) := by
    cbv
  rw [hsame] at hright
  have hinactive : ((Document.empty oneCell.size).after [.edit ⟨0, 0⟩ "=1+"]).active? ≠
    some ⟨0, 0⟩ := (Option.some_ne_none _).symm
  refine (hright.errors ⟨0, 0⟩ (by decide) hinactive "A1" _).2
    ⟨by decide +kernel, "1+", _, ?_, Grid.rejected_iff.1 hrejected, ?_⟩
  · decide
  · decide

/-- What is listed of a cell that is not active is why it fails, and nothing is missing. -/
theorem Current.mem_failures_iff (h : ed.Valid watch) (hcurrent : ed.Current)
    (hactive : ed.active? ≠ some c) {message : String} :
    (c, message) ∈ ed.sheet.failures ↔ ed.sheet.grid.Failing roomLimit c message := by
  constructor
  · intro he
    have hc := (Sheet.mem_failures.1 he).1
    obtain ⟨body, f, hb, hv, hmessage⟩ := (hcurrent.mem_failures h hc hactive).1 he
    have hlong := (hcurrent.shown hc hactive).ne_tooLong hb hv
    exact Grid.failing_iff.2 ⟨body, f, hb, hv, hlong, hmessage⟩
  · intro hfailing
    have hc := Grid.mem_of_isFormula hfailing.isFormula
    obtain ⟨body, f, hb, hv, -, hmessage⟩ := Grid.failing_iff.1 hfailing
    exact (hcurrent.mem_failures h hc hactive).2 ⟨body, f, hb, hv, hmessage⟩

/-- **The failures that a view lists after a run** are those of formula cells, and each of them was
why its cell failed after some part of the run. It is why the cell fails now if the value of the
cell is known. If the last recompute went through and no paste has been interrupted since, just
those cells are listed that fail, but for the active one. -/
theorem errors_after {v : View} {d : Document} (hd : (Document.empty settings.size).after ops = d)
    (hview : view.run ((start settings clocked observe).after ops) = (.ok v, ed)) :
    (∀ name c message, (name, c, message) ∈ v.errors → Address.text c = .ok name ∧
      c ∈ d.grid.size ∧ CellText.isFormula (d.grid.text c) = true ∧
      (∃ before, before <+: ops ∧
        ((Document.empty settings.size).after before).grid.Failing roomLimit c message) ∧
      (ed.sheet.results.memo[c]? ≠ none → d.grid.Failing roomLimit c message)) ∧
    (¬ (start settings clocked observe).Lags False ops → v.state = .ready →
      ∀ c, d.active? ≠ some c → ∀ name message, (name, c, message) ∈ v.errors ↔
        Address.text c = .ok name ∧ d.grid.Failing roomLimit c message) := by
  obtain ⟨hvalid, hfresh, hdocument⟩ :=
    keeps_after ops valid_start fun _ : ¬ False => .inr settled_start
  obtain ⟨hrests, hof⟩ := (view_meets hvalid).of_run_ok hview
  obtain rfl : ed.document = d := hrests.document.trans (hdocument.trans hd)
  constructor
  · intro name c message he
    obtain ⟨hname, hentry⟩ := hof.mem_errors.1 he
    obtain ⟨hc, f, hf, rfl⟩ := Sheet.mem_failures.1 hentry
    have hformula : CellText.isFormula (ed.sheet.grid.text c) = true := by
      by_contra hno
      rw [hrests.valid.sheet.tidy hno] at hf
      cases hf
    refine ⟨hname, hc, hformula, ?_, fun hm => ?_⟩
    -- what is noted has become so during the run or in the recompute of the view
    · rcases view_honest.of_run_ok hview c f hf with hbefore | hnow
      · rcases noted_after ops hbefore with hstart | ⟨before, hbefore, hfailing⟩
        · exact absurd (hstart.symm.trans Std.HashMap.getElem?_empty) (Option.some_ne_none f)
        · have hsame : ((start settings clocked observe).after before).document =
              (Document.empty settings.size).after before := document_after before
          exact ⟨before, hbefore, hsame ▸ hfailing⟩
      · exact ⟨ops, List.prefix_rfl, hd ▸ hnow⟩
    · obtain ⟨x, hx⟩ := Option.ne_none_iff_exists'.1 hm
      exact hrests.valid.sheet.sound.failing hx hf
  · intro hops hstate c hactive name message
    rw [hof.state] at hstate
    obtain ⟨-, hcurrent⟩ := (hrests.settled (hfresh hops)).resolve_right fun herror => by
      rw [hstate] at herror
      cases herror.1
    rw [hof.mem_errors, hcurrent.mem_failures_iff hrests.valid hactive]
    exact .rfl

/-- A formula without an end in a cell that is not being edited. -/
theorem errors_after_unended : ∃ v ed,
    view.run ((start oneCell false .silent).after [.edit ⟨0, 0⟩ "=1+"]) = (.ok v, ed) ∧
    ("A1", ⟨0, 0⟩, "Unexpected end (at position 2)") ∈ v.errors ∧
    ((Document.empty oneCell.size).after [.edit ⟨0, 0⟩ "=1+"]).grid.Failing roomLimit ⟨0, 0⟩
      "Unexpected end (at position 2)" := by
  obtain ⟨v, ed, hview, hstate, he, -⟩ := view_of_unended
  have hops : ¬ (start oneCell false .silent).Lags False [.edit ⟨0, 0⟩ "=1+"] :=
    not_lags_of_forall_ne_paste not_false (by simp)
  obtain ⟨-, hlisted⟩ := errors_after rfl hview
  have hiff := hlisted hops hstate ⟨0, 0⟩ (Option.some_ne_none _).symm
  exact ⟨v, ed, hview, he, ((hiff _ _).1 he).2⟩

/-! ## What is listed of the only formula -/

/-- The active cell is noted to fail, and no other cell has a formula. -/
structure Unread (ed : Editor) (c : Cell) (f : Formula.Failure) : Prop where
  active : ed.active? = some c
  noted : ed.sheet.results.failures[c]? = some f
  alone {d : Cell} : d ≠ c → ¬ CellText.isFormula (ed.sheet.grid.text d) = true

variable {f : Formula.Failure}

theorem Unread.of_sheet (h : ed.Unread c f) (hactive : ed'.active? = ed.active?)
    (hsheet : ed'.sheet = ed.sheet) : ed'.Unread c f := by
  obtain ⟨hact, hnoted, halone⟩ := h
  rw [← hactive] at hact
  rw [← hsheet] at hnoted halone
  exact ⟨hact, hnoted, halone⟩

theorem Unread.request (h : ed.Unread c f) (r : Debounce.Request) :
    (request r).Meets ed (fun _ ed' => ed'.Unread c f) E := by
  -- no cell of the scan has a formula
  have hscan : (ed.sheet.invalidate.scan roomLimit ed.observe ed.active?).2 =
      ed.sheet.invalidate := by
    refine congrArg (Sheet.mk ed.sheet.grid) (Grid.results_scan_of_not_isFormula _ ?_)
    intro d hd
    refine h.alone ?_
    rintro rfl
    exact (Size.mem_without.1 hd).2 h.active
  refine (request_scans r).imp ?_ fun _ _ => False.elim
  rintro _ ed' ⟨hactive, hsheet | hsheet⟩
  · exact h.of_sheet hactive hsheet
  · have hinvalidate : Unread { ed with sheet := ed.sheet.invalidate } c f :=
      ⟨h.active, h.noted, h.alone⟩
    exact hinvalidate.of_sheet hactive (hsheet.trans hscan)

theorem Unread.beginEdit (hactive : ed.active? = none) (hc : c ∈ ed.sheet.size)
    (hf : ed.sheet.results.failures[c]? = some f)
    (halone : ∀ {d}, d ≠ c → ¬ CellText.isFormula (ed.sheet.grid.text d) = true) :
    (ed.perform (.beginEdit c)).Unread c f := by
  refine perform_of_meets (P := (Unread · c f)) (.beginEdit c) (meets_ignore.2 ?_)
  unfold Editor.beginEdit
  rw [ExceptT.meets_bind]
  refine requireCell_meets.imp ?_ fun _ _ hout => absurd hc hout.1
  rintro _ _ ⟨-, rfl⟩
  have hidle : ¬ (ed.active?.isSome && ed.active? != some c) = true := by simp [hactive]
  rw [ExceptT.meets_bind, ExceptT.meets_get]
  simp only
  rw [if_neg hidle, ExceptT.meets_bind, ExceptT.meets_modify, ExceptT.meets_bind,
    ExceptT.meets_get]
  simp only
  rw [ExceptT.meets_bind]
  have hfocus : Unread { ed with active? := some c } c f := ⟨rfl, hf, halone⟩
  exact showText_unmoved.imp (fun _ _ hs => hfocus.of_sheet hs.1 hs.2)
    fun _ _ hs => hfocus.of_sheet hs.1 hs.2

theorem Unread.edit (h : ed.Unread c f) (htext : CellText.isFormula text = true) :
    (edit c text).Meets ed (fun _ ed' => ed'.Unread c f) fun _ ed' => ed'.Unread c f := by
  unfold Editor.edit
  rw [ExceptT.meets_bind]
  refine store_meets.imp ?_ ?_
  · rintro _ _ ⟨hc, rfl⟩
    have hput : Unread { ed with sheet := ed.sheet.put c text hc } c f := by
      refine ⟨h.active, ?_, fun {d} hd => ?_⟩
      · simp only [Sheet.put, Results.invalidate, if_pos htext]
        exact h.noted
      · rw [Sheet.text_put, if_neg hd]
        exact h.alone hd
    rw [ExceptT.meets_bind, ExceptT.meets_get]
    simp only
    split
    · rw [ExceptT.meets_bind]
      refine showText_unmoved.imp (fun _ ed' hs => ?_) fun _ ed' hs => hput.of_sheet hs.1 hs.2
      exact (hput.of_sheet hs.1 hs.2).request _
    · exact hput.request _
  · rintro _ _ ⟨-, rfl, -⟩
    exact h

theorem Unread.after {texts : List String} (h : ed.Unread c f)
    (htexts : ∀ text ∈ texts, CellText.isFormula text = true) :
    (ed.after (texts.map (.edit c))).Unread c f := by
  induction texts generalizing ed with
  | nil => exact h
  | cons text texts ih =>
    obtain ⟨htext, htexts⟩ := List.forall_mem_cons.1 htexts
    exact ih (perform_of_meets (.edit c text) (h.edit htext)) htexts

/-- **What is listed of the only formula stays** while its cell is edited, whatever formulas are
typed into it and whether there is something wrong with them or not. -/
theorem errors_while_edited (hvalid : ed.Valid watch) (h : ed.Unread c f) {texts : List String}
    (htexts : ∀ text ∈ texts, CellText.isFormula text = true) {v : View}
    (hview : view.run (ed.after (texts.map (.edit c))) = (.ok v, ed')) {name : String}
    (hname : Address.text c = .ok name) : (name, c, f.message) ∈ v.errors := by
  have hstart : ¬ True → ed.Fresh := fun hno => absurd trivial hno
  have hafter := (keeps_after (texts.map (.edit c)) hvalid hstart).valid
  obtain ⟨hrests, hof⟩ := (view_meets hafter).of_run_ok hview
  have hunread : ed'.Unread c f :=
    ((view_of_flush ((h.after htexts).request .flush)).of_run_ok hview).1
  refine hof.mem_errors.2 ⟨hname, Sheet.mem_failures.2 ⟨?_, f, hunread.noted, rfl⟩⟩
  exact hrests.valid.active hunread.active

theorem unread_of_unended : ∃ f : Formula.Failure, f.message = "Unexpected end (at position 2)" ∧
    ((start oneCell false .silent).after
      [.edit ⟨0, 0⟩ "=1+", .view, .beginEdit ⟨0, 0⟩]).Unread ⟨0, 0⟩ f := by
  obtain ⟨v, ed, hview, -, he, -, hof, hdocument⟩ := view_of_unended
  obtain ⟨hc, f, hf, hmessage⟩ := Sheet.mem_failures.1 (hof.mem_errors.1 he).2
  have hsize : ed.sheet.size = oneCell.size := congrArg (·.grid.size) hdocument
  have hunread : (ed.perform (.beginEdit ⟨0, 0⟩)).Unread ⟨0, 0⟩ f := by
    refine .beginEdit (congrArg Document.active? hdocument) hc hf fun {d} hd hformula => hd ?_
    exact eq_of_mem_oneCell (hsize ▸ Grid.mem_of_isFormula hformula)
  rw [← perform_view hview] at hunread
  exact ⟨f, hmessage.symm, hunread⟩

/-- A formula is corrected while its cell is edited, and its failure goes on being listed. -/
theorem errors_of_earlier_text : ∃ v ed, view.run ((start oneCell false .silent).after
      [.edit ⟨0, 0⟩ "=1+", .view, .beginEdit ⟨0, 0⟩, .edit ⟨0, 0⟩ "=1"]) = (.ok v, ed) ∧
    ("A1", ⟨0, 0⟩, "Unexpected end (at position 2)") ∈ v.errors ∧
    ed.sheet.text ⟨0, 0⟩ = "=1" ∧ ∀ m, ¬ ed.sheet.grid.Failing roomLimit ⟨0, 0⟩ m := by
  obtain ⟨f, hmessage, hunread⟩ := unread_of_unended
  have hsize : ((start oneCell false .silent).after [.edit ⟨0, 0⟩ "=1+", .view,
      .beginEdit ⟨0, 0⟩, .edit ⟨0, 0⟩ "=1"]).sheet.size = oneCell.size :=
    congrArg (·.grid.size) (document_after _)
  have hrows : oneCell.size.rows < 10 ^ Decimal.maxDigits := by decide +kernel
  obtain ⟨v, ed, hview, hrests, -⟩ := view_run_ok (valid_of_after rfl) (hsize ▸ hrows)
  have htext : ed.sheet.grid.text ⟨0, 0⟩ = "=1" := by
    have hdocument := hrests.document.trans (document_after _)
    refine (congrArg (·.grid.text ⟨0, 0⟩) hdocument).trans ?_
    decide +kernel
  refine ⟨v, ed, hview, ?_, htext, fun m => ?_⟩
  · rw [← hmessage]
    have htexts : ∀ text ∈ ["=1"], CellText.isFormula text = true := by decide +kernel
    exact errors_while_edited (valid_of_after rfl) hunread htexts hview (by decide +kernel)
  · have hone : Formula.Expr.ofBody roomLimit "1" = .ok (.number ⟨['1'], []⟩) := by cbv
    refine Grid.not_failing_of_ofBody ?_ hone (by rw [Formula.Expr.depth]; decide)
    rw [htext]
    decide +kernel

end Editor

end Spreadsheet
