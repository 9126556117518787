import Spreadsheet.Proofs.Editor.Reports
import Spreadsheet.Proofs.Editor.Provenance
import Spreadsheet.Proofs.Formula.Wording
import Spreadsheet.Proofs.Journal.Length

/-!
# What the messages of events say

Messages of events are not cut. Most of them consist of fixed words, of numbers and of names of
cells. But the message of a failing formula is the wording of its failure, which takes a token or
the name of a function from the formula, and these have any length.

* `Worded`: the messages of all types of events; `Stopping`: what stops a recompute;
* `Utterance`, `Utters`: events that an editor tells of; **`Operation.action_utters`**: one operation;
* `exists_failing`: the failing formula that an event tells of;
* **`logged_strings`**: the strings of the records of a run; **`not_bounded`**: they have no bound.
-/

namespace Spreadsheet.Editor

open Journal (Event Record)
open Formula

variable {ed ed' : Editor} {c : Cell} {text : String} {watch : Observer} {e : Event} {fault : Fault}
variable {stopping stopping' : Fault → Prop} {failing failing' : String → Prop} {α : Type}

/-! ## Messages -/

/-- The message of an event: fixed words, what stopped a recompute or why a formula fails, or the
number of cells and the name of a cell. -/
def Worded (stopping : Fault → Prop) (failing : String → Prop) (e : Event) : Prop :=
  match e.type with
  | .recalcCompleted => e.message = "Recalc completed"
  | .recalcFailed => ∃ runs fault, e = recomputeEvent runs (.error fault) ∧ stopping fault
  | .formulaError => failing e.message
  | .gridChanged =>
    ∃ name ∈ ["add_row", "add_column", "remove_row", "remove_column", "resize"],
      e.message = "Grid " ++ name
  | .gridLoaded => e.message = "Grid loaded"
  | .gridReset => e.message = "Grid reset"
  | .pasteApplied => ∃ (n : Nat) (c : Cell) (name : String), Called c name ∧
      e.message = "Pasted " ++ toString n ++ " cell(s) at " ++ name

theorem Worded.imp (h : Worded stopping failing e)
    (hstopping : ∀ runs fault, e = recomputeEvent runs (.error fault) → stopping fault →
      stopping' fault)
    (hfailing : e.type = .formulaError → failing e.message → failing' e.message) :
    Worded stopping' failing' e := by
  unfold Worded at h ⊢
  split at h
  case h_2 =>
    obtain ⟨runs, fault, he, h⟩ := h
    exact ⟨runs, fault, he, hstopping runs fault he h⟩
  case h_3 htype => exact hfailing htype h
  all_goals exact h

/-- What can stop a recompute: a number that is too long, the observer, or a place that the buffer
does not have. -/
def Stopping (watch : Observer) (fault : Fault) : Prop :=
  (∃ t : Decimal.TooLong, fault.message = t.message) ∨ (∃ c t, watch c t = .error fault) ∨
    fault.kind ≠ Fault.valueKind

theorem stopping_of_recompute (h : ed.recompute = (.error fault, ed'))
    (hwatch : ed.observe = watch) : Stopping watch fault := by
  subst hwatch
  unfold recompute at h
  split at h
  · rename_i f hwrite
    obtain ⟨c, -, hwrite⟩ := Option.map_eq_some_iff.1 hwrite
    obtain rfl := Except.error.inj (Prod.mk.inj h).1
    unfold writeText at hwrite
    split at hwrite
    · cases hwrite
    · obtain rfl := Except.error.inj hwrite
      refine .inr (.inr ?_)
      dsimp only
      split <;> decide
  · rcases hscan : ed.sheet.invalidate.scan roomLimit ed.observe ed.active? with ⟨scan, sheet⟩
    rw [hscan] at h
    obtain ⟨-, -, hend⟩ := Sheet.scan_sound (Results.sound_of_memo_eq_empty rfl) hscan
    cases hfault : scan.fault? with
    | none =>
      simp only [hfault] at h
      cases h
    | some fault' =>
      rw [hfault] at hend
      simp only [hfault] at h
      obtain rfl := Except.error.inj (Prod.mk.inj h).1
      rcases hend with ⟨p, -, hstop⟩ | ⟨c, f, -, ⟨d, -, body, t, -, -, rfl⟩, rfl⟩
      · exact .inr (.inl ⟨p.1, p.2, hstop⟩)
      · exact .inl ⟨t, rfl⟩

theorem observe_recompute (ed : Editor) : ed.recompute.2.observe = ed.observe := by
  unfold recompute
  split
  · rfl
  · rcases ed.sheet.invalidate.scan roomLimit ed.observe ed.active? with ⟨⟨shown, fault?⟩, sheet⟩
    cases fault? <;> rfl

/-! ## Events that an editor tells of -/

/-- An event as an editor with an observer tells of it. -/
structure Utterance (watch : Observer) (e : Event) : Prop where
  flat : e.Flat
  worded : Worded (Stopping watch) (fun _ => True) e

theorem utterance_failure (s : Sheet) (c : Cell) (message : String) :
    Utterance watch (failureEvent s c message) where
  flat := ⟨by simp [failureEvent, Json.fieldsPlaced, Json.placed], by simp [failureEvent]; decide⟩
  worded := trivial

theorem utterance_completed (runs : Nat) : Utterance watch (recomputeEvent runs (.ok ())) where
  flat := ⟨by simp [recomputeEvent, Json.fieldsPlaced, Json.placed], by simp [recomputeEvent]⟩
  worded := rfl

theorem utterance_failed (runs : Nat) (h : Stopping watch fault) :
    Utterance watch (recomputeEvent runs (.error fault)) where
  flat := ⟨by simp [recomputeEvent, Json.fieldsPlaced, Json.placed], by
    simp [recomputeEvent]; decide⟩
  worded := ⟨runs, fault, rfl, h⟩

theorem utterance_pasted {name : String} (h : Called c name) (origin? : Option String) (n : Nat) :
    Utterance watch (pasteEvent name origin? n) where
  flat := by
    refine ⟨?_, by simp [pasteEvent]⟩
    cases origin? <;> simp [pasteEvent, Journal.ofText?, Json.fieldsPlaced, Json.placed]
  worded := ⟨n, c, name, h, rfl⟩

theorem fst_of_mem_sizeFields (s : Size) :
    ∀ p ∈ Json.fieldsPlaced false (sizeFields s), p.1 = false := by
  simp [sizeFields, Json.fieldsPlaced, Json.placed]

/-- An editor only tells of such events, and its observer stays. -/
def Utters (watch : Observer) (ed ed' : Editor) : Prop :=
  ed.observe = watch → ed'.observe = watch ∧
    ∃ more, (∀ e ∈ more, Utterance watch e) ∧ ed'.events = ed.events ++ more

instance : IsPreorder Editor (Utters watch) where
  refl _ h := ⟨h, [], nofun, (List.append_nil _).symm⟩
  trans _ _ _ hfirst hsecond h := by
    obtain ⟨h, more, hmore, hevents⟩ := hfirst h
    obtain ⟨h, more', hmore', hevents'⟩ := hsecond h
    refine ⟨h, more ++ more', List.forall_mem_append.2 ⟨hmore, hmore'⟩, ?_⟩
    rw [hevents', hevents, List.append_assoc]

theorem Utters.of_eq (hobserve : ed'.observe = ed.observe) (hevents : ed'.events = ed.events) :
    Utters watch ed ed' := fun h => ⟨hobserve.trans h, [], nofun, by rw [hevents, List.append_nil]⟩

theorem utters_emit (h : Utterance watch e) : (emit e).Steps (Utters watch) :=
  steps_modify fun _ hobserve => ⟨hobserve, [e], List.forall_mem_singleton.2 h, rfl⟩

theorem utters_news {reported : List (Cell × String)} {s : Sheet} :
    ∀ e ∈ news reported s, Utterance watch e := by
  intro e he
  obtain ⟨p, -, rfl⟩ := List.mem_map.1 he
  exact utterance_failure s p.1 p.2

/-- **Whatever is asked of the timer**, only such events are told of. -/
theorem request_utters (r : Debounce.Request) : (request r).Steps (Utters watch) := by
  refine ⟨fun ed => ?_⟩
  unfold request
  rw [ExceptT.meets_bind, ExceptT.meets_get]
  rcases ed.timer.request r with ⟨timer, due⟩
  simp only
  rw [ExceptT.meets_bind, ExceptT.meets_modify]
  cases due with
  | false => exact .of_eq rfl rfl
  | true =>
    simp only [if_true]
    rw [ExceptT.meets_bind, ExceptT.meets_get]
    obtain ⟨-, hsteps⟩ := recompute_steps { ed with timer }
    have hobserve := observe_recompute { ed with timer }
    rcases hrun : recompute { ed with timer } with ⟨outcome, ed'⟩
    rw [hrun] at hsteps hobserve
    rw [ExceptT.meets_bind, ExceptT.meets_set]
    unfold emit
    rw [ExceptT.meets_modify]
    rintro rfl
    refine ⟨hobserve, ?_⟩
    cases outcome with
    | ok u =>
      refine ⟨news ed.reported ed'.sheet ++
        [recomputeEvent (ed'.timer.finish (.ok ())).runs (.ok ())],
        List.forall_mem_append.2 ⟨utters_news, ?_⟩, ?_⟩
      · exact List.forall_mem_singleton.2 (utterance_completed _)
      · rw [← List.append_assoc]
        exact congrArg (· ++ _) hsteps.2
    | error fault =>
      exact ⟨[_], List.forall_mem_singleton.2 (utterance_failed _ (stopping_of_recompute hrun rfl)),
        congrArg (· ++ _) hsteps.2⟩

/-! ## Operations -/

theorem utters_store (c : Cell) (text : String) : (store c text).Steps (Utters watch) :=
  steps_bind steps_get fun _ => steps_bind (steps_ofExcept _) fun _ =>
    steps_modify fun _ => .of_eq rfl rfl

theorem utters_showText (c : Cell) (text : String) : (showText c text).Steps (Utters watch) :=
  steps_bind steps_get fun _ => steps_bind (steps_ofExcept _) fun _ =>
    steps_modify fun _ => .of_eq rfl rfl

theorem endEdit_utters : endEdit.Steps (Utters watch) := by
  unfold endEdit
  refine steps_bind steps_get fun ed => ?_
  cases ed.active? with
  | none => exact steps_pure none
  | some c =>
    refine steps_bind (steps_modify fun _ => .of_eq rfl rfl) fun _ => ?_
    refine steps_bind steps_get fun ed => ?_
    have hask (text : String) :
        Action.Steps (Utters watch) (do request .schedule; return some text) :=
      steps_bind (request_utters _) fun _ => steps_pure _
    simp only
    split
    · split
      · exact steps_bind (utters_store c _) fun _ => hask _
      · exact hask _
    · exact steps_pure none

theorem beginEdit_utters (c : Cell) : (beginEdit c).Steps (Utters watch) := by
  have hfocus : Action.Steps (Utters watch) (do
      modify fun ed => { ed with active? := some c }
      let text := (← get).sheet.text c
      showText c text
      return text) :=
    steps_bind (steps_modify fun _ => .of_eq rfl rfl) fun _ => steps_bind steps_get fun _ =>
      steps_bind (utters_showText _ _) fun _ => steps_pure _
  unfold beginEdit
  refine steps_bind (steps_requireCell c) fun _ => steps_bind steps_get fun ed => ?_
  simp only
  split
  · exact steps_bind endEdit_utters fun _ => hfocus
  · exact hfocus

theorem edit_utters (c : Cell) (text : String) : (edit c text).Steps (Utters watch) := by
  unfold edit
  refine steps_bind (utters_store c text) fun _ => steps_bind steps_get fun ed => ?_
  split
  · exact steps_bind (utters_showText c text) fun _ => request_utters _
  · exact request_utters _

theorem copy_utters (c : Cell) : (copy c).Steps (Utters watch) :=
  steps_bind (steps_requireCell c) fun _ => steps_bind (steps_modify fun _ => .of_eq rfl rfl)
    fun _ => steps_bind steps_get fun _ => steps_pure _

theorem cut_utters (c : Cell) : (cut c).Steps (Utters watch) :=
  steps_bind (copy_utters c) fun text => steps_bind (utters_store c "") fun _ =>
    steps_bind (request_utters _) fun _ => steps_pure text

/-- A paste tells of the name of a cell of the grid. -/
theorem paste_utters (c : Cell) (text : String) : (paste c text).Steps (Utters watch) := by
  refine ⟨fun ed => ?_⟩
  unfold paste
  rw [ExceptT.meets_bind]
  refine requireCell_meets.imp ?_ fun _ _ ⟨_, hsame, _⟩ => .of_eq (hsame ▸ rfl) (hsame ▸ rfl)
  rintro _ _ ⟨hc, rfl⟩
  have hmem := Size.mem_iff.1 hc
  refine (steps_bind steps_get fun ed => ?_ : Action.Steps (Utters watch) _).meets ed
  rcases ed.sheet.paste c text ed.origin? with ⟨written, sheet⟩
  refine steps_bind (steps_modify fun _ => .of_eq rfl rfl) fun _ => ?_
  refine steps_bind (steps_ofExcept _) fun n => ?_
  refine steps_bind (steps_modify fun _ => .of_eq rfl rfl) fun _ => ⟨fun ed' => ?_⟩
  rw [ExceptT.meets_bind, meets_nameOf]
  cases hname : Address.text c with
  | error t => exact Utters.of_eq rfl rfl
  | ok name =>
    refine (steps_bind (steps_mapM_nameOf _) fun origin? => ?_ :
      Action.Steps (Utters watch) _).meets ed'
    refine steps_bind (utters_emit (utterance_pasted ⟨hmem.1, hmem.2.2.1, hname⟩ _ _)) fun _ => ?_
    exact steps_bind (request_utters _) fun _ => steps_pure n

theorem restructure_utters {name : String}
    (h : name ∈ ["add_row", "add_column", "remove_row", "remove_column", "resize"])
    (sheet : Sheet) : (restructure name sheet).Steps (Utters watch) := by
  refine steps_bind (steps_modify fun _ => .of_eq rfl rfl) fun _ =>
    steps_bind (utters_emit ⟨⟨?_, nofun⟩, name, h, rfl⟩) fun _ => request_utters _
  exact List.forall_mem_cons.2 ⟨rfl, fst_of_mem_sizeFields _⟩

theorem replaceSheet_utters {event : Event} (hcode : event.code? = none)
    (h : ∀ context, Worded (Stopping watch) (fun _ => True) { event with context })
    (sheet : Sheet) : (replaceSheet event sheet).Steps (Utters watch) := by
  refine steps_bind (steps_modify fun _ => .of_eq rfl rfl) fun _ =>
    steps_bind (utters_emit ⟨⟨fst_of_mem_sizeFields _, ?_⟩, h _⟩) fun _ => request_utters _
  simp [hcode]

theorem view_utters : view.Steps (Utters watch) := by
  unfold view
  refine steps_bind (request_utters _) fun _ => steps_bind steps_get fun ed => ?_
  refine steps_bind (steps_mapM (fun p => ?_) _) fun es => ?_
  · exact steps_bind (steps_nameOf p.1) fun _ => steps_pure _
  · exact steps_bind (steps_mapM_nameOf _) fun _ => steps_pure _

theorem displayText_utters (c : Cell) : (displayText c).Steps (Utters watch) := by
  unfold displayText
  refine steps_bind (request_utters _) fun _ => steps_bind (steps_requireCell c) fun _ =>
    steps_bind steps_get fun ed => ?_
  split
  · exact steps_pure _
  · exact steps_throw _

/-- **An operation** only tells of such events. -/
theorem Operation.action_utters (op : Operation) : op.action.Steps (Utters watch) := by
  have hignore {α : Type} {x : Action α} (h : x.Steps (Utters watch)) :
      (do let _ ← x : Action Unit).Steps (Utters watch) := steps_bind h fun _ => steps_pure ()
  cases op with
  | beginEdit c => exact hignore (beginEdit_utters c)
  | edit c text => exact edit_utters c text
  | endEdit => exact hignore endEdit_utters
  | copy c => exact hignore (copy_utters c)
  | cut c => exact hignore (cut_utters c)
  | paste c text => exact hignore (paste_utters c text)
  | addRow | addColumn | removeRow | removeColumn =>
    exact steps_bind steps_get fun ed => restructure_utters (by decide) _
  | resize rows cols =>
    exact steps_bind steps_get fun ed => steps_bind (steps_ofExcept _) fun sheet =>
      restructure_utters (by decide) sheet
  | load rows =>
    refine replaceSheet_utters ?_ (fun context => ?_) _
    · rfl
    · rfl
  | reset =>
    refine steps_bind steps_get fun ed => replaceSheet_utters ?_ (fun context => ?_) _
    · rfl
    · rfl
  | view => exact hignore view_utters
  | displayText c => exact hignore (displayText_utters c)
  | wait ms => exact request_utters (.advance ms)
  | fire => exact request_utters .flush

theorem perform_utters (ed : Editor) (op : Operation) : Utters watch ed (ed.perform op) :=
  perform_of_meets op (op.action_utters.meets ed)

theorem after_utters (ed : Editor) (ops : List Operation) : Utters watch ed (ed.after ops) := by
  induction ops generalizing ed with
  | nil => exact Std.Refl.refl ed
  | cons op ops ih => exact IsTrans.trans _ _ _ (perform_utters ed op) (ih _)

/-! ## Runs -/

section

variable {settings : Settings} {clocked : Bool} {observe : Observer} {ops : List Operation}

theorem utterance_of_mem (he : e ∈ ((start settings clocked observe).after ops).events) :
    Utterance observe e := by
  obtain ⟨-, more, hmore, hevents⟩ := after_utters (start settings clocked observe) ops rfl
  refine hmore e ?_
  rw [hevents] at he
  exact he

theorem recomputeEvent_injective {runs runs' : Nat} {fault fault' : Fault}
    (h : recomputeEvent runs (.error fault) = recomputeEvent runs' (.error fault')) :
    fault = fault' := by
  have hkind := congrArg (fun e => e.context.lookup "exception") h
  have hmessage := congrArg Event.message h
  simp only [recomputeEvent, List.lookup, beq_self_eq_true, Option.some.injEq, Json.string.injEq]
    at hkind
  simp only [recomputeEvent, String.append_right_inj] at hmessage
  cases fault
  cases fault'
  rw [Fault.mk.injEq]
  exact ⟨hkind, hmessage⟩

/-- What stops a recompute in a run is a number that is too long, or the observer. -/
theorem stopping_of_mem (he : e ∈ ((start settings clocked observe).after ops).events) {runs : Nat}
    (hfailed : e = recomputeEvent runs (.error fault)) (h : Stopping observe fault) :
    (∃ t : Decimal.TooLong, fault.message = t.message) ∨ ∃ c t, observe c t = .error fault := by
  have htype : e.type = .recalcFailed := by rw [hfailed]; rfl
  obtain ⟨runs', fault', hfailed', hwhy⟩ := (valid_of_after rfl).explained e he htype
  obtain rfl := recomputeEvent_injective (hfailed.symm.trans hfailed')
  rcases h with h | h | h
  · exact .inl h
  · exact .inr h
  · exact hwhy.imp (absurd · h) id

theorem Amid.mem_of_type {told events : List Event} (h : Amid told events)
    (htype : e.type = .formulaError) (hmem : e ∈ events) : e ∈ told := by
  obtain ⟨front, back, hfront, hback, rfl⟩ := h
  rcases List.mem_append.1 hmem with hmem | hmem
  · exact (List.mem_append.1 hmem).resolve_left fun hmem => hfront e hmem htype
  · exact absurd htype (hback e hmem)

/-- **The message of a failing formula** says why the formula of a cell failed at some time of the
run. -/
theorem exists_failing (he : e ∈ ((start settings clocked observe).after ops).events)
    (htype : e.type = .formulaError) : ∃ before c, before <+: ops ∧
      ((start settings clocked observe).after before).sheet.grid.Failing roomLimit c e.message := by
  induction ops using List.reverseRecOn with
  | nil => cases he
  | append_singleton ops op ih =>
    obtain ⟨more, hmore, hevents⟩ :=
      exists_events_append (rfl : start settings clocked observe = _) ops op
    rw [hevents] at he
    rcases List.mem_append.1 he with he | he
    · obtain ⟨before, c, hbefore, hfailing⟩ := ih he
      exact ⟨before, c, hbefore.trans (List.prefix_append _ _), hfailing⟩
    · have htold := hmore.mem_of_type htype he
      unfold told at htold
      split at htold
      case isFalse => cases htold
      case isTrue =>
        obtain ⟨c, -, hreport⟩ := List.mem_filterMap.1 htold
        obtain ⟨message, hnoted, -, rfl⟩ := report?_eq_some_iff.1 hreport
        obtain ⟨f, hf, rfl⟩ := Option.map_eq_some_iff.1 hnoted
        rw [← after_append] at hf
        -- nothing was noted when the run began
        rcases noted_after (ops ++ [op]) hf with hstart | ⟨before, hbefore, hfailing⟩
        · exact absurd (hstart.symm.trans Std.HashMap.getElem?_empty) (Option.some_ne_none f)
        · exact ⟨before, c, hbefore, hfailing⟩

end

/-- **The strings of what is logged in a run** are short, but for the time and the message of an
event, which is not cut. Messages consist of fixed words, of numbers and of names of cells, or of
what the observer or a number that is too long has to say about a failed recompute; but the message
of a failing formula takes something from the formula, and is longer than that, by no more than 27
characters and a position. -/
theorem logged_strings (settings : Settings) (clocked : Bool) (observe : Observer)
    (ops : List Operation) (he : e ∈ ((start settings clocked observe).after ops).events)
    (now : String) :
    (false, e.message) ∈ ((Record.ofEvent e).json now).placed false ∧
    (∀ p ∈ ((Record.ofEvent e).json now).placed false,
      p.2 = e.message ∨ p.2 = now ∨ p.2.length ≤ 270) ∧
    Worded
      (fun fault => (∃ t : Decimal.TooLong, fault.message = t.message) ∨
        ∃ c t, observe c t = .error fault)
      (fun message => ∃ before c body, before <+: ops ∧
        CellText.body? (((start settings clocked observe).after before).sheet.text c) = some body ∧
        (message = Formula.tooDeepMessage ∨ ∃ r,
          Formula.Expr.ofBody roomLimit body = .error (.rejected r) ∧ message = r.description ∧
          r.Quotes body ∧ r.quoted.length ≤ message.length ∧
          message.length ≤
            r.quoted.length + 27 + r.position?.elim 0 fun p => (toString p).length + 15)) e := by
  have hutterance := utterance_of_mem he
  refine ⟨Journal.message_mem_record e now, fun p hp => hutterance.flat.length_le hp, ?_⟩
  refine hutterance.worded.imp (fun runs fault hfailed h => stopping_of_mem he hfailed h)
    fun htype _ => ?_
  obtain ⟨before, c, hbefore, body, hb, hwhy⟩ := exists_failing he htype
  refine ⟨before, c, body, hbefore, hb, ?_⟩
  rcases hwhy with ⟨r, hr, hmessage⟩ | ⟨-, hmessage⟩
  · refine .inr ⟨r, hr, hmessage, Formula.Expr.quotes_of_ofBody hr, ?_, ?_⟩
    · exact hmessage ▸ r.length_quoted_le
    · rw [hmessage, r.length_description]
      exact Nat.add_le_add_right r.length_message.2 _
  · exact .inl hmessage

/-! ## A long message -/

/-- **A failing formula is told of at once** where there is no clock to wait for. -/
theorem schedule_tells (hvalid : ed.Valid watch) (hwatch : ∀ c t, watch c t = .ok ())
    (hclock : ed.timer.clocked = false) (hreadable : ∀ d f, ¬ ed.sheet.grid.Overlong roomLimit d f)
    (hactive : ed.active? ≠ some c) {message : String}
    (hnew : ed.reported.lookup c ≠ some message)
    (hfailing : ed.sheet.grid.Failing roomLimit c message) :
    (request .schedule).Meets ed
      (fun _ ed' => ∃ e ∈ ed'.events, e.type = .formulaError ∧ e.message = message)
      fun _ _ => False := by
  have hdue : ed.timer.request .schedule =
      ({ ed.timer.drop with state := .calculating }, true) := by
    rw [Debounce.request, if_neg (by simp [hclock])]
  unfold request
  rw [ExceptT.meets_bind, ExceptT.meets_get]
  simp only [hdue, if_true]
  rw [ExceptT.meets_bind, ExceptT.meets_modify, ExceptT.meets_bind, ExceptT.meets_get]
  generalize ({ ed.timer.drop with state := .calculating } : Debounce) = timer
  obtain ⟨-, hsteps⟩ := recompute_steps { ed with timer }
  rcases hrun : recompute { ed with timer } with ⟨outcome, ed'⟩
  obtain ⟨⟨hvalid', hdocument⟩, -, hspec⟩ := recompute_spec (hvalid.setTimer timer) hrun
  have hgrid : ed'.sheet.grid = ed.sheet.grid := congrArg Document.grid hdocument
  have hactive' : ed'.active? = ed.active? := congrArg Document.active? hdocument
  rw [hrun] at hsteps
  rw [ExceptT.meets_bind, ExceptT.meets_set]
  unfold emit
  rw [ExceptT.meets_modify]
  cases outcome with
  | error fault =>
    rcases hspec.2 with ⟨d, t, hstop⟩ | ⟨d, f, -, hlong, -⟩
    · rw [hwatch] at hstop
      cases hstop
    · exact absurd hlong (hreadable d f)
  | ok u =>
    have hmem : (c, message) ∈ ed'.sheet.failures :=
      (hspec.mem_failures_iff hvalid' (hactive' ▸ hactive)).2 (hgrid ▸ hfailing)
    refine ⟨failureEvent ed'.sheet c message, List.mem_append_left _ ?_, rfl, rfl⟩
    change _ ∈ ed'.events
    rw [hsteps.2]
    refine List.mem_append_right _ (List.mem_map.2 ⟨_, List.mem_filter.2 ⟨hmem, ?_⟩, rfl⟩)
    simpa using hnew

theorem edit_tells (hvalid : ed.Valid watch) (hwatch : ∀ c t, watch c t = .ok ())
    (hclock : ed.timer.clocked = false) (hactive : ed.active? = none) (hc : c ∈ ed.sheet.size)
    (hreadable : ∀ d f, ¬ (ed.sheet.put c text hc).grid.Overlong roomLimit d f) {message : String}
    (hnew : ed.reported.lookup c ≠ some message)
    (hfailing : (ed.sheet.put c text hc).grid.Failing roomLimit c message) :
    ∃ e ∈ (ed.perform (.edit c text)).events, e.type = .formulaError ∧ e.message = message := by
  refine perform_of_meets (.edit c text) ?_
    (P := fun ed' => ∃ e ∈ ed'.events, e.type = .formulaError ∧ e.message = message)
  change (edit c text).Meets ed _ _
  unfold edit
  rw [ExceptT.meets_bind]
  refine store_meets.imp ?_ fun _ _ ⟨hout, _⟩ => absurd hc hout
  rintro _ _ ⟨-, rfl⟩
  rw [ExceptT.meets_bind, ExceptT.meets_get]
  have hother : ¬ (ed.active? == some c) = true := by simp [hactive]
  simp only
  rw [if_neg hother]
  have htells := schedule_tells (hvalid.put text hc) hwatch hclock hreadable
    (by simp [hactive]) hnew hfailing
  exact htells.imp (fun _ _ => id) fun _ _ => False.elim

/-- A message with a word of any length in it. -/
theorem exists_long_message (n : Nat) : ∃ e ∈ ((start oneCell false .silent).after
      [.edit ⟨0, 0⟩ (String.ofList ('=' :: twoOperands (List.replicate (n + 1) 'A')))]).events,
    n < e.message.length := by
  have hc : (⟨0, 0⟩ : Cell) ∈ (start oneCell false .silent).sheet.size := by decide
  have hparse := parse_twoOperands (formed_replicate n)
  have hb : CellText.body? (String.ofList ('=' :: twoOperands (List.replicate (n + 1) 'A'))) = _ :=
    CellText.body?_ofList ⟨'1', List.mem_cons_self, by decide⟩
  generalize twoOperands (List.replicate (n + 1) 'A') = body at hparse hb ⊢
  have hrejected : Expr.ofBody roomLimit _ = .error (.rejected _) :=
    (ofBody_of_parse_error hparse).1
  generalize String.ofList ('=' :: body) = text at hb ⊢
  have htext : ((start oneCell false .silent).sheet.put ⟨0, 0⟩ text hc).grid.text ⟨0, 0⟩ = text := by
    rw [Sheet.text_put, if_pos rfl]
  have hreadable (d : Cell) (f : Formula.Failure) :
      ¬ ((start oneCell false .silent).sheet.put ⟨0, 0⟩ text hc).grid.Overlong roomLimit d f := by
    intro hlong
    obtain rfl := eq_of_mem_oneCell (Grid.mem_of_isFormula hlong.isFormula)
    exact not_overlong_of_rejected (htext ▸ hb) hrejected f hlong
  obtain ⟨e, he, -, hmessage⟩ := edit_tells valid_start (fun _ _ => rfl) rfl rfl hc hreadable
    (Option.some_ne_none _).symm ⟨_, htext ▸ hb, .inl ⟨_, hrejected, rfl⟩⟩
  have hlong := Rejection.length_quoted_le
    (.unexpectedToken (String.ofList (List.replicate (n + 1) 'A')) 2)
  rw [Rejection.quoted, String.length_ofList, List.length_replicate] at hlong
  exact ⟨e, he, hmessage ▸ hlong⟩

/-- The message of a formula with a word of 300 letters is longer than all that has been cut. -/
theorem logged_strings_long_word : ∃ e ∈ ((start oneCell false .silent).after
      [.edit ⟨0, 0⟩ (String.ofList ('=' :: twoOperands (List.replicate 300 'A')))]).events,
    270 < e.message.length ∧ (false, e.message) ∈ ((Record.ofEvent e).json "").placed false ∧
    ∀ p ∈ ((Record.ofEvent e).json "").placed false,
      p.2 = e.message ∨ p.2 = "" ∨ p.2.length ≤ 270 := by
  obtain ⟨e, he, hlong⟩ := exists_long_message 299
  obtain ⟨hmessage, hstrings, -⟩ := logged_strings oneCell false .silent _ he ""
  exact ⟨e, he, lt_of_lt_of_le (by decide) hlong, hmessage, hstrings⟩

/-- **There is no bound** on the strings of what is logged: the formulas that are typed can be of any
length, and so can be what a message takes from one. -/
theorem not_bounded : ¬ ∃ bound : Nat, ∀ (settings : Settings) (clocked : Bool)
    (ops : List Operation), ∀ e ∈ ((start settings clocked .silent).after ops).events,
      ∀ now : String, now.length ≤ 27 →
        ∀ p ∈ ((Record.ofEvent e).json now).placed false, p.2.length ≤ bound := by
  rintro ⟨bound, h⟩
  obtain ⟨e, he, hlong⟩ := exists_long_message bound
  have hbound := h oneCell false _ e he "" (by decide) _ (Journal.message_mem_record e "")
  exact absurd hlong (Nat.not_lt.2 hbound)

end Spreadsheet.Editor
