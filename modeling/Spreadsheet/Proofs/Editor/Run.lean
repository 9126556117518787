import Spreadsheet.Proofs.Editor.View

/-!
# Runs of an editor

Operations keep editors fresh, so that views are right after any operations, whatever the clock does
between them. The exception is a paste that stops at a row number that is too long: it leaves the
cells that it has written on the sheet and asks for no recompute, and until another operation does,
views show what was on display before.

* **`Operation.action_meets`**: one operation; `Operation.asks`: whether it asks for a recompute;
* `Interrupted`, `Lags`, **`keeps_after`**: a run of them;
* `cells_after_interrupted`: the next view after a paste that stopped;
* **`view_after`**: views are right; **`not_right_of_stopped`**: but not after a paste that stopped.
-/

namespace Spreadsheet.Editor

open Formula (roomLimit)

variable {watch : Observer} {ed ed' : Editor} {c : Cell} {text : String}

/-! ## Operations, one after another -/

theorem meets_ignore {α : Type} {x : Action α} {P : Editor → Prop} {E : Failure → Editor → Prop} :
    (do let _ ← x : Action Unit).Meets ed (fun _ => P) E ↔ x.Meets ed (fun _ => P) E := by
  rw [ExceptT.meets_bind]
  rfl

/-- An operation asks for a recompute before it ends. -/
def Operation.asks (ed : Editor) : Operation → Bool
  | beginEdit c => ed.active?.isSome && ed.active? != some c
  | endEdit => ed.active?.isSome
  | copy _ | view | displayText _ | wait _ | fire => false
  | edit .. | cut _ | paste .. | addRow | addColumn | removeRow | removeColumn | resize .. | load _
  | reset => true

/-- **One operation** that asks for a recompute leaves an editor fresh, any other one leaves it as
fresh as it was; but not a paste that stops before its end. -/
theorem Operation.action_meets (op : Operation) (h : ed.Valid watch) : op.action.Meets ed
    (fun _ ed' => ed'.Keeps watch (op.asks ed = true ∨ ed.Fresh) (ed.document.perform op))
    fun f ed' => op.Fails ed.document f ∧ (ed'.Keeps watch ed.Fresh (ed.document.perform op) ∨
      (∃ c text t, op = .paste c text ∧ f = .tooLong t) ∧ ed'.Valid watch ∧
        ed'.document = ed.document.perform op ∧
          ∃ sheet origin?, ed' = { ed with sheet, origin? }) := by
  cases op with
  | beginEdit c =>
    exact meets_ignore.2 ((beginEdit_meets h).imp (fun _ _ hk => hk.1)
      fun _ _ ⟨_, hk, hfails⟩ => ⟨hfails, .inl hk⟩)
  | edit c text =>
    exact (edit_meets h).imp (fun _ _ hk => hk.always) fun _ _ ⟨hk, hfails⟩ => ⟨hfails, .inl hk⟩
  | endEdit => exact meets_ignore.2 ((endEdit_meets h).imp (fun _ _ => id) fun _ _ => False.elim)
  | copy c =>
    refine meets_ignore.2 (copy_meets.imp ?_ ?_)
    · rintro _ _ ⟨hc, rfl⟩
      have hperform : ed.document.perform (.copy c) = { ed.document with origin? := some c } :=
        if_pos hc
      have hkeeps : Keeps watch ed.Fresh (ed.document.perform (.copy c))
        { ed with origin? := some c } := ⟨h.setOrigin hc, fun hf => hf.setOrigin _, hperform.symm⟩
      exact hkeeps.silent
    · rintro _ _ ⟨hc, rfl, rfl⟩
      have hsame : ed.document.perform (.copy c) = ed.document := if_neg hc
      exact ⟨⟨rfl, .inl hsame⟩, .inl ⟨h, id, hsame.symm⟩⟩
  | cut c =>
    exact meets_ignore.2 ((cut_meets h).imp (fun _ _ hk => hk.always)
      fun _ _ ⟨hk, hfails⟩ => ⟨hfails, .inl hk⟩)
  | paste c text =>
    refine meets_ignore.2 ((paste_meets h).imp (fun _ _ hk => hk.always) fun f ed' => ?_)
    rintro ⟨hfails, ⟨-, hkeeps⟩ | ⟨⟨t, rfl⟩, hrest⟩⟩
    · exact ⟨hfails, .inl hkeeps⟩
    · exact ⟨hfails, .inr ⟨⟨c, text, t, rfl, rfl⟩, hrest⟩⟩
  | addRow =>
    exact (restructure_meets h _ h.sheet.addRow).imp (fun _ _ hk => hk.always)
      fun _ _ => False.elim
  | addColumn =>
    exact (restructure_meets h _ h.sheet.addColumn).imp (fun _ _ hk => hk.always)
      fun _ _ => False.elim
  | removeRow =>
    refine (restructure_meets h _ h.sheet.removeRow).imp (fun _ _ hk => ?_) fun _ _ => False.elim
    rw [Sheet.grid_removeRow] at hk
    exact hk.always
  | removeColumn =>
    refine (restructure_meets h _ h.sheet.removeColumn).imp (fun _ _ hk => ?_)
      fun _ _ => False.elim
    rw [Sheet.grid_removeColumn] at hk
    exact hk.always
  | resize rows cols =>
    exact (resize_meets h rows cols).imp (fun _ _ hk => hk.always)
      fun _ _ ⟨hk, hfails⟩ => ⟨hfails, .inl hk⟩
  | load rows => exact (load_meets h rows).imp (fun _ _ hk => hk.always) fun _ _ => False.elim
  | reset =>
    exact (replaceSheet_meets h (by decide) (Sheet.coherent_empty _)).imp (fun _ _ hk => hk.always)
      fun _ _ => False.elim
  | view =>
    refine meets_ignore.2 ((view_meets h).imp (fun _ _ h' => h'.1.keeps.silent) ?_)
    rintro _ _ ⟨h', c, -, t, -, rfl⟩
    exact ⟨⟨rfl, .inl rfl⟩, .inl h'.keeps⟩
  | displayText c =>
    refine meets_ignore.2 ((displayText_meets h).imp (fun _ _ hk => hk.silent) ?_)
    rintro _ _ ⟨hk, hkind⟩
    exact ⟨⟨hkind, .inl rfl⟩, .inl hk⟩
  | wait ms =>
    exact (request_advance_meets h ms).imp (fun _ _ hk => hk.silent) fun _ _ => False.elim
  | fire => exact (request_flush_meets h).imp (fun _ _ h' => h'.keeps.silent) fun _ _ => False.elim

/-- An editor after an operation. -/
def perform (ed : Editor) (op : Operation) : Editor := (op.action.run ed).2

/-- An editor after operations, one after another. -/
def after (ed : Editor) (ops : List Operation) : Editor := ops.foldl perform ed

/-- **An operation is interrupted**: it is a paste that stops at a row number that is too long, when
it has changed the sheet and no recompute is pending. -/
def Interrupted (ed : Editor) (op : Operation) : Prop :=
  (∃ c text t, op = .paste c text ∧ (op.action.run ed).1 = .error (.tooLong t)) ∧
    ed.timer.pending = false ∧ (ed.perform op).sheet ≠ ed.sheet

/-- An operation gets through and asks for a recompute. -/
def Asks (ed : Editor) (op : Operation) : Prop :=
  (op.action.run ed).1 = .ok () ∧ op.asks ed = true

/-- **The display lags behind** after a run, or lagged before it: an operation has been interrupted,
and none has asked for a recompute since. -/
def Lags (ed : Editor) (lagged : Prop) : List Operation → Prop
  | [] => lagged
  | op :: ops => (ed.perform op).Lags (ed.Interrupted op ∨ lagged ∧ ¬ ed.Asks op) ops

theorem not_lags_of_forall_ne_paste {ops : List Operation} {lagged : Prop} (hlagged : ¬ lagged)
    (h : ∀ op ∈ ops, ∀ c text, op ≠ .paste c text) : ¬ ed.Lags lagged ops := by
  induction ops generalizing ed lagged with
  | nil => exact hlagged
  | cons op ops ih =>
    refine ih ?_ fun op hop => h op (List.mem_cons_of_mem _ hop)
    rintro (⟨⟨c, text, t, hop, -⟩, -⟩ | ⟨hlagged', -⟩)
    · exact h op List.mem_cons_self c text hop
    · exact hlagged hlagged'

/-- An editor after an operation is fresh if that asks for a recompute, or if it was fresh and the
operation is not interrupted. -/
theorem keeps_perform (h : ed.Valid watch) (op : Operation) :
    (ed.perform op).Keeps watch (ed.Asks op ∨ ed.Fresh ∧ ¬ ed.Interrupted op)
      (ed.document.perform op) := by
  have hmeets := op.action_meets h
  unfold Asks Interrupted perform
  rcases hrun : op.action.run ed with ⟨f | u, ed'⟩
  · obtain ⟨-, hkeeps | ⟨⟨c, text, t, rfl, rfl⟩, hvalid, hdocument, sheet, origin?, rfl⟩⟩ :=
      hmeets.of_run_error hrun
    · refine hkeeps.mono ?_
      rintro (⟨hok, -⟩ | ⟨hf, -⟩)
      · cases hok
      · exact hf
    · -- the paste stopped, but a recompute is pending or it has written nothing
      refine ⟨hvalid, ?_, hdocument⟩
      rintro (⟨hok, -⟩ | ⟨hf, hop⟩)
      · cases hok
      · by_cases hpending : ed.timer.pending = true
        · exact .inl hpending
        · by_cases hsheet : sheet = ed.sheet
          · subst hsheet
            exact hf.setOrigin origin?
          · exact absurd ⟨⟨c, text, t, rfl, rfl⟩, eq_false_of_ne_true hpending, hsheet⟩ hop
  · exact (hmeets.of_run_ok hrun).mono fun hF => hF.imp (·.2) (·.1)

/-- **A run** keeps an editor fresh, unless the display lags behind after it. -/
theorem keeps_after (ops : List Operation) {lagged : Prop} (h : ed.Valid watch)
    (hf : ¬ lagged → ed.Fresh) :
    (ed.after ops).Keeps watch (¬ ed.Lags lagged ops) (ed.document.after ops) := by
  induction ops generalizing ed lagged with
  | nil => exact ⟨h, hf, rfl⟩
  | cons op ops ih =>
    have hkeeps := keeps_perform h op
    have hfresh : ¬ (ed.Interrupted op ∨ lagged ∧ ¬ ed.Asks op) → (ed.perform op).Fresh := by
      intro hnot
      obtain ⟨hop, hasks⟩ := not_or.1 hnot
      by_cases hlagged : lagged
      · exact hkeeps.fresh (.inl (not_not.1 fun hno => hasks ⟨hlagged, hno⟩))
      · exact hkeeps.fresh (.inr ⟨hf hlagged, hop⟩)
    have hrest := ih hkeeps.valid hfresh
    rw [hkeeps.document] at hrest
    exact hrest

/-! ## After a paste that stopped -/

theorem request_flush_idle_meets (hpending : ed.timer.pending = false) :
    (request .flush).Meets ed (fun _ ed' => ed' = ed) fun _ _ => False := by
  have hdue : (ed.timer.request .flush).2 = false := hpending
  refine (request_idle_meets hdue).imp ?_ fun _ _ => id
  rintro _ _ rfl
  have hsince : ed.timer.since? = none := by simpa [Debounce.pending] using hpending
  have hdrop : ed.timer.drop = ed.timer := by rw [Debounce.drop, ← hsince]
  exact congrArg (fun timer => { ed with timer }) hdrop

/-- A view while nothing is pending is of the editor as it is. -/
theorem view_idle (hpending : ed.timer.pending = false) {v : View}
    (hview : view.run ed = (.ok v, ed')) :
    ed' = ed ∧ v.Of ed ∧ v.lastError? = ed.timer.lastError? := by
  obtain ⟨rfl, hof, hlast⟩ :=
    (view_of_flush (request_flush_idle_meets hpending)).of_run_ok hview
  exact ⟨rfl, hof, hlast⟩

theorem cells_of_view (hpending : ed.timer.pending = false) {v : View}
    (hv : (view.run ed).1 = .ok v) : v.cells = ed.buffer.rows :=
  (view_idle hpending (Prod.ext hv rfl)).2.1.cells

/-- An interrupted paste leaves what is on display as it was. -/
theorem Interrupted.eq (h : ed.Valid watch) {op : Operation} (hop : ed.Interrupted op) :
    ∃ sheet origin?, ed.perform op = { ed with sheet, origin? } := by
  obtain ⟨⟨c, text, t, rfl, hfail⟩, -, -⟩ := hop
  have hmeets : (Operation.paste c text).action.Meets ed (fun _ _ => True) fun f ed' =>
      f = .tooLong t → ∃ sheet origin?, ed' = { ed with sheet, origin? } := by
    refine meets_ignore.2 ((paste_meets h).imp (fun _ _ _ => trivial) fun f ed' h' hfail => ?_)
    obtain ⟨-, ⟨⟨e, rfl⟩, -⟩ | ⟨-, -, -, heq⟩⟩ := h'
    · cases hfail
    · exact heq
  unfold perform
  rcases hrun : (Operation.paste c text).action.run ed with ⟨f | u, ed'⟩
  · rw [hrun] at hfail
    exact hmeets.of_run_error hrun (Except.error.inj hfail)
  · rw [hrun] at hfail
    cases hfail

/-- **After an interrupted paste** the next view shows the cells as they were before it. -/
theorem cells_after_interrupted (h : ed.Valid watch) {op : Operation}
    (hop : ed.Interrupted op) {v v' : View} (hv : (view.run ed).1 = .ok v)
    (hv' : (view.run (ed.perform op)).1 = .ok v') : v'.cells = v.cells := by
  have hpending := hop.2.1
  obtain ⟨sheet, origin?, heq⟩ := hop.eq h
  rw [heq] at hv'
  have hcells : v'.cells = ({ ed with sheet, origin? } : Editor).buffer.rows :=
    cells_of_view (by exact hpending) hv'
  rw [cells_of_view hpending hv, hcells]

/-! ## Views after a run -/

/-- A new editor with an observer. -/
def start (settings : Settings) (clocked : Bool) (observe : Observer) : Editor :=
  { Editor.empty settings clocked with observe }

/-- The document of a new editor. -/
def Document.empty (size : Size) : Document := ⟨size, .empty size, none, none⟩

variable {settings : Settings} {clocked : Bool} {observe : Observer}

theorem valid_start : (start settings clocked observe).Valid observe :=
  ⟨Sheet.coherent_empty _, rfl, nofun, nofun, rfl, nofun⟩

theorem settled_start : (start settings clocked observe).Settled := by
  have htext (c : Cell) : (start settings clocked observe).sheet.grid.text c = "" :=
    Grid.text_empty _ c
  refine .inl ⟨rfl, nofun, fun {c} _ _ => .inl ⟨?_, ?_⟩, fun {c} _ _ body hb => ?_⟩
  · rw [htext, CellText.isFormula_empty]
    exact Bool.false_ne_true
  · rfl
  · rw [htext] at hb
    cases hb

theorem valid_of_after {ops : List Operation}
    (hed : (start settings clocked observe).after ops = ed) : ed.Valid observe := by
  subst hed
  exact (keeps_after ops valid_start fun _ : ¬ False => .inr settled_start).valid

/-- Every cell has a name if the rows can be numbered. -/
theorem text_ne_error_of_mem {size : Size} (hc : c ∈ size)
    (hrows : size.rows < 10 ^ Decimal.maxDigits) (t : Decimal.TooLong) :
    Address.text c ≠ .error t := by
  unfold Address.text Reference.text Decimal.writeInt
  generalize Decimal.maxDigits = k at hrows
  have hrow := Size.mem_iff.1 hc
  have hlt : (c.row + 1).natAbs < Nat.pow 10 k := by
    rw [Nat.pow_eq]
    omega
  simp only
  rw [if_pos hlt]
  exact nofun

/-- **Views are right** after any operations and with any clock, unless a paste has been interrupted
and nothing has asked for a recompute since; the clock does not matter to what is right. The next
view after an interrupted paste shows the cells as they were before it. -/
theorem view_after {ops : List Operation} {d : Document} (hobserve : ∀ c t, observe c t = .ok ())
    (hd : (Document.empty settings.size).after (ops.filter Operation.byUser) = d)
    (hbrief : ∀ op ∈ ops, op.Brief) (hrows : d.grid.size.rows < 10 ^ Decimal.maxDigits)
    (hops : ¬ (start settings clocked observe).Lags False ops) :
    ∃ v, (view.run ((start settings clocked observe).after ops)).1 = .ok v ∧ v.Right d ∧
      ∀ op, ((start settings clocked observe).after ops).Interrupted op → ∀ v',
        (view.run (((start settings clocked observe).after ops).perform op)).1 = .ok v' →
          v'.cells = v.cells := by
  obtain ⟨hvalid, hfresh, hdocument⟩ :=
    keeps_after ops valid_start fun _ : ¬ False => .inr settled_start
  have hfresh := hfresh hops
  generalize (start settings clocked observe).after ops = ed at hvalid hfresh hdocument
  have hdocument : ed.document = d := by
    rw [← hd, Document.after_filter]
    exact hdocument
  have hshort : d.grid.Short := by
    rw [← hd, Document.after_filter]
    have hempty : (Document.empty settings.size).grid.Brief := Grid.brief_empty settings.size
    exact (Document.brief_after hempty hbrief).short
  have hmeets := view_meets hvalid
  rcases hrun : view.run ed with ⟨f | v, ed'⟩
  · obtain ⟨-, c, hc, t, ht, -⟩ := hmeets.of_run_error hrun
    rw [← hdocument] at hrows
    exact absurd ht (text_ne_error_of_mem hc hrows t)
  · obtain ⟨hrests, hof⟩ := hmeets.of_run_ok hrun
    have hdocument' : ed'.document = d := hrests.document.trans hdocument
    refine ⟨v, rfl, ?_, fun op hop v' hv' => ?_⟩
    · rw [← hdocument'] at hshort ⊢
      exact hof.right hrests.valid hobserve (hrests.settled hfresh) hshort
    · exact cells_after_interrupted hvalid hop (congrArg Prod.fst hrun) hv'

/-- A cell is being edited while another one changes and the recompute is put off. -/
theorem view_after_put_off : ∃ v, (view.run
      ((start ⟨⟨3, 2, by decide, by decide⟩, 16, []⟩ true Observer.silent).after
        [.beginEdit ⟨0, 1⟩, .edit ⟨0, 1⟩ "=A1", .wait 5, .edit ⟨0, 0⟩ "2", .fire,
          .addRow])).1 = .ok v ∧
    v.state = .ready ∧ v.text? ⟨0, 1⟩ = some "=A1" := by
  have hops : ¬ (start ⟨⟨3, 2, by decide, by decide⟩, 16, []⟩ true Observer.silent).Lags False
      [.beginEdit ⟨0, 1⟩, .edit ⟨0, 1⟩ "=A1", .wait 5, .edit ⟨0, 0⟩ "2", .fire, .addRow] :=
    not_lags_of_forall_ne_paste not_false (by simp)
  obtain ⟨v, hv, hright, -⟩ := view_after (fun _ _ => rfl) rfl (by decide +kernel)
    (by decide +kernel) hops
  exact ⟨v, hv, hright.state, hright.active ⟨0, 1⟩ (by decide +kernel)⟩

/-! ## A paste that stops -/

/-- A paste that stops leaves on the sheet what it has written, and no more than that. -/
theorem run_paste_of_error {t : Decimal.TooLong} {sheet : Sheet} (hc : c ∈ ed.sheet.size)
    (hpaste : ed.sheet.paste c text ed.origin? = (.error t, sheet)) :
    (Operation.paste c text).action.run ed = (.error (.tooLong t), { ed with sheet }) := by
  have hmeets : (Operation.paste c text).action.Meets ed (fun _ _ => False)
      fun f ed' => f = .tooLong t ∧ ed' = { ed with sheet } := by
    refine meets_ignore.2 ?_
    unfold paste
    rw [ExceptT.meets_bind]
    refine requireCell_meets.imp ?_ fun _ _ hout => absurd hc hout.1
    rintro _ _ ⟨-, rfl⟩
    rw [ExceptT.meets_bind, ExceptT.meets_get]
    simp only [hpaste]
    rw [ExceptT.meets_bind, ExceptT.meets_modify, ExceptT.meets_bind, ExceptT.meets_ofExcept]
    exact ⟨rfl, rfl⟩
  rcases hrun : (Operation.paste c text).action.run ed with ⟨f | u, ed'⟩
  · obtain ⟨rfl, rfl⟩ := hmeets.of_run_error hrun
    rfl
  · exact (hmeets.of_run_ok hrun).elim

theorem perform_paste_of_error {t : Decimal.TooLong} {sheet : Sheet} (hc : c ∈ ed.sheet.size)
    (hpaste : ed.sheet.paste c text ed.origin? = (.error t, sheet)) :
    ed.perform (.paste c text) = { ed with sheet } :=
  congrArg Prod.snd (run_paste_of_error hc hpaste)

/-- **The view after a paste that stopped** is not right if the paste has written another text than
was on display and no recompute is pending. -/
theorem not_right_of_stopped {t : Decimal.TooLong} {new : String} (h : ed.Valid watch)
    (hpending : ed.timer.pending = false) (hactive : ed.active? = none) (hc : c ∈ ed.sheet.size)
    (hpaste : ed.sheet.paste c text ed.origin? = (.error t, ed.sheet.put c new hc))
    (hnew : ¬ CellText.isFormula new = true) (hne : ed.buffer.text c ≠ new) {v : View}
    (hv : (view.run (ed.perform (.paste c text))).1 = .ok v) :
    ¬ v.Right (ed.document.perform (.paste c text)) := by
  intro hright
  rw [perform_paste_of_error hc hpaste] at hv
  have hcells : v.cells = ({ ed with sheet := ed.sheet.put c new hc } : Editor).buffer.rows :=
    cells_of_view (by exact hpending) hv
  have hshown : v.text? c = some (ed.buffer.text c) := by
    rw [View.text?, hcells]
    exact Grid.rows_getElem? (h.size ▸ hc)
  have hperform : ed.document.perform (.paste c text) = ed.document.paste c text := if_pos hc
  rw [hperform, document_paste hpaste] at hright
  have htext : (ed.sheet.put c new hc).grid.text c = new :=
    (Sheet.text_put new hc c).trans (if_pos rfl)
  have hformula : ¬ CellText.isFormula ((ed.sheet.put c new hc).grid.text c) = true := by
    rw [htext]
    exact hnew
  have hinactive : ed.active? ≠ some c := by
    rw [hactive]
    exact (Option.some_ne_none c).symm
  -- the view shows what was on display, and the new text is its own value
  have hcell := hright.cell c hc hinactive (Grid.not_reachesCycle_of_not_isFormula hformula)
  rw [Grid.meaning_of_not_isFormula hformula, htext, hshown] at hcell
  exact hne (Option.some.inj hcell)

/-- Two cells on the clipboard, the second one a formula that cannot be moved down. -/
def stoppingBlock : String := String.ofList (['x'] ++ '\n' :: '=' :: Formula.lastRow.chars)

theorem rows_stoppingBlock : Clipboard.rows stoppingBlock =
    [["x"], [String.ofList ('=' :: Formula.lastRow.chars)]] := by
  refine Clipboard.rows_of_two_lines (List.forall_mem_singleton.2 (by decide))
    (List.forall_mem_cons.2 ⟨by decide, ?_⟩) (List.cons_ne_nil _ _)
  intro c hc
  rcases List.mem_cons.1 hc with rfl | hc
  · decide
  · rw [List.eq_of_mem_replicate hc]
    decide

theorem brief_stoppingBlock : (Operation.paste c stoppingBlock).Brief := by
  have hbrief : ∀ t ∈ (Clipboard.rows stoppingBlock).flatten, Formula.Brief t.toList := by
    rw [rows_stoppingBlock]
    refine List.forall_mem_cons.2 ⟨by decide, List.forall_mem_cons.2 ⟨?_, nofun⟩⟩
    rw [String.toList_ofList]
    exact ⟨fun hletter => absurd hletter (by decide), Formula.brief_lastRow⟩
  exact hbrief

/-- A copied cell is pasted with another one below it, which stops the paste. -/
theorem not_right_after_stop :
    (∀ op ∈ [Operation.copy ⟨0, 0⟩, .paste ⟨1, 0⟩ stoppingBlock], op.Brief) ∧
    ¬ ∃ v, (view.run ((start ⟨⟨3, 1, by decide, by decide⟩, 16, []⟩ false Observer.silent).after
        [.copy ⟨0, 0⟩, .paste ⟨1, 0⟩ stoppingBlock])).1 = .ok v ∧
      v.Right ((Document.empty ⟨3, 1, by decide, by decide⟩).after
        [.copy ⟨0, 0⟩, .paste ⟨1, 0⟩ stoppingBlock]) := by
  refine ⟨List.forall_mem_cons.2 ⟨nofun, List.forall_mem_cons.2 ⟨brief_stoppingBlock, nofun⟩⟩, ?_⟩
  rintro ⟨v, hv, hright⟩
  have hcorner : (⟨1, 0⟩ : Cell) ∈ (⟨3, 1, by decide, by decide⟩ : Size) := by decide
  have hbelow : (⟨1 + 1, 0⟩ : Cell) ∈ (⟨3, 1, by decide, by decide⟩ : Size) := by decide
  let ed := (start ⟨⟨3, 1, by decide, by decide⟩, 16, []⟩ false Observer.silent).perform
    (.copy ⟨0, 0⟩)
  have hvalid : ed.Valid Observer.silent := valid_start.setOrigin (by decide)
  have hdocument : (Document.empty ⟨3, 1, by decide, by decide⟩).perform (.copy ⟨0, 0⟩) =
      ed.document := rfl
  have hoffset : ed.origin?.map (·.offset ⟨1, 0⟩) = some ⟨1, 0⟩ := rfl
  have hpaste : ed.sheet.paste ⟨1, 0⟩ stoppingBlock ed.origin? =
      (.error .writing, ed.sheet.put ⟨1, 0⟩ "x" hcorner) := by
    refine Sheet.paste_stops rows_stoppingBlock hcorner hbelow ?_ ?_
    · rw [hoffset]
      decide +kernel
    · rw [hoffset]
      simp only [Sheet.shifted]
      exact Formula.translate_lastRow (by decide) (by decide)
  rw [after, List.foldl_cons, List.foldl_cons, List.foldl_nil] at hv
  rw [Document.after, List.foldl_cons, List.foldl_cons, List.foldl_nil, hdocument] at hright
  have hpending : ed.timer.pending = false := rfl
  have hactive : ed.active? = none := rfl
  have hshown : ed.buffer.text ⟨1, 0⟩ ≠ "x" := by decide +kernel
  have hx : ¬ CellText.isFormula "x" = true := by decide +kernel
  have hv' : (view.run (ed.perform (.paste ⟨1, 0⟩ stoppingBlock))).1 = .ok v := hv
  exact not_right_of_stopped hvalid hpending hactive hcorner hpaste hx hshown hv' hright

end Spreadsheet.Editor
