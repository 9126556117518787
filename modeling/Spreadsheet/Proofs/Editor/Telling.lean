import Spreadsheet.Proofs.Editor.Run

/-!
# What operations tell of

An operation runs a recompute at most once, and tells of failing formulas only if that goes through:
of those that it finds and that were not found, for the same reason, by the last one that went
through. Behind the recompute nothing happens to the sheet any more.

* `Action.Steps`: every run of an action, whether it fails or not, takes an editor to a related one;
  `Steps.bind`, `steps_bind` and their like: one rule for every way of building an action;
* `Still`, `Quiet`: nothing happens that matters here, or no failing formula is told of;
* `Loud`: a recompute goes through; `request_steps`;
* **`Operation.action_steps`**: an operation is quiet, or quiet with one recompute at its end.
-/

namespace Spreadsheet.Editor

open Journal (Event)

variable {ed ed' ed'' : Editor} {c : Cell} {text : String} {α β : Type}

/-! ## Actions as relations -/

/-- Every run of an action takes an editor to a related one. -/
structure Action.Steps (R : Editor → Editor → Prop) (x : Action α) : Prop where
  meets (ed : Editor) : x.Meets ed (fun _ => R ed) fun _ => R ed

section

variable {R S T : Editor → Editor → Prop} {x : Action α} {k : α → Action β}

theorem Action.Steps.imp (hx : x.Steps R) (h : ∀ ed ed', R ed ed' → S ed ed') : x.Steps S :=
  ⟨fun ed => (hx.meets ed).imp (fun _ => h ed) fun _ => h ed⟩

/-- An action followed by another one, which may also be left out. -/
theorem Action.Steps.bind (hx : x.Steps R) (hk : ∀ a, (k a).Steps S)
    (htrans : ∀ ed ed' ed'', R ed ed' → S ed' ed'' → T ed ed'')
    (hleft : ∀ ed ed', R ed ed' → T ed ed') : (x >>= k).Steps T := by
  refine ⟨fun ed => ?_⟩
  rw [ExceptT.meets_bind]
  refine (hx.meets ed).imp (fun a ed' h => ?_) fun _ ed' h => hleft ed ed' h
  exact ((hk a).meets ed').imp (fun _ ed'' h' => htrans ed ed' ed'' h h')
    fun _ ed'' h' => htrans ed ed' ed'' h h'

end

theorem steps_modify {R : Editor → Editor → Prop} {u : Editor → Editor} (h : ∀ ed, R ed (u ed)) :
    Action.Steps R (modify u : Action PUnit) := ⟨h⟩

/-! Relations that also hold between an editor and itself, and of steps one after another. -/

section

variable {R : Editor → Editor → Prop} [IsPreorder Editor R] {x : Action α} {k : α → Action β}

theorem steps_pure (a : α) : Action.Steps R (pure a) := ⟨Std.Refl.refl⟩

theorem steps_get : Action.Steps R get := ⟨Std.Refl.refl⟩

theorem steps_ofExcept (y : Except Failure α) : Action.Steps R (MonadExcept.ofExcept y) := by
  refine ⟨fun ed => ?_⟩
  rw [ExceptT.meets_ofExcept]
  cases y <;> exact Std.Refl.refl ed

theorem steps_throw (f : Failure) : Action.Steps R (throw f : Action α) := ⟨Std.Refl.refl⟩

theorem steps_bind (hx : x.Steps R) (hk : ∀ a, (k a).Steps R) : (x >>= k).Steps R :=
  hx.bind hk IsTrans.trans fun _ _ => id

theorem steps_map (hx : x.Steps R) (u : α → β) : Action.Steps R (u <$> x) := by
  rw [map_eq_pure_bind]
  exact steps_bind hx fun a => steps_pure (u a)

theorem steps_mapM {f : α → Action β} (h : ∀ a, (f a).Steps R) (as : List α) :
    (as.mapM f).Steps R := by
  induction as with
  | nil => exact steps_pure []
  | cons a as ih =>
    rw [List.mapM_cons]
    exact steps_bind (h a) fun b => steps_bind ih fun bs => steps_pure (b :: bs)

theorem steps_requireCell (c : Cell) : (requireCell c).Steps R := by
  refine steps_bind steps_get fun ed => ?_
  split
  · exact steps_pure _
  · exact steps_throw _

theorem steps_nameOf (c : Cell) : (nameOf c).Steps R := by
  unfold nameOf
  exact steps_ofExcept _

theorem steps_mapM_nameOf (c? : Option Cell) : (c?.mapM nameOf).Steps R := by
  cases c? with
  | none =>
    rw [Option.mapM_none]
    exact steps_pure none
  | some c =>
    rw [Option.mapM_some]
    exact steps_map (steps_nameOf c) some

end

/-! ## Operations that tell of nothing -/

/-- Nothing happens but to what is on display and to the places that are marked. -/
structure Still (ed ed' : Editor) : Prop where
  sheet : ed'.sheet = ed.sheet
  runs : ed'.timer.runs = ed.timer.runs
  reported : ed'.reported = ed.reported
  events : ed'.events = ed.events

/-- Events tell of no failing formula. -/
def Bland (events : List Event) : Prop := ∀ e ∈ events, e.type ≠ .formulaError

/-- No recompute goes through, and no failing formula is told of. -/
structure Quiet (ed ed' : Editor) : Prop where
  runs : ed'.timer.runs = ed.timer.runs
  reported : ed'.reported = ed.reported
  events : ∃ more, Bland more ∧ ed'.events = ed.events ++ more

theorem bland_append {events events' : List Event} (h : Bland events) (h' : Bland events') :
    Bland (events ++ events') := List.forall_mem_append.2 ⟨h, h'⟩

theorem bland_singleton {e : Event} (h : e.type ≠ .formulaError) : Bland [e] :=
  List.forall_mem_singleton.2 h

theorem bland_nil : Bland [] := fun _ he => absurd he List.not_mem_nil

theorem Still.refl (ed : Editor) : Still ed ed := ⟨rfl, rfl, rfl, rfl⟩

theorem Still.trans (h : Still ed ed') (h' : Still ed' ed'') : Still ed ed'' :=
  ⟨h'.sheet.trans h.sheet, h'.runs.trans h.runs, h'.reported.trans h.reported,
    h'.events.trans h.events⟩

theorem Quiet.of_eq (hruns : ed'.timer.runs = ed.timer.runs) (hreported : ed'.reported = ed.reported)
    (hevents : ed'.events = ed.events) : Quiet ed ed' :=
  ⟨hruns, hreported, [], bland_nil, by rw [hevents, List.append_nil]⟩

theorem Still.quiet (h : Still ed ed') : Quiet ed ed' := .of_eq h.runs h.reported h.events

theorem Quiet.trans (h : Quiet ed ed') (h' : Quiet ed' ed'') : Quiet ed ed'' := by
  obtain ⟨more, hmore, hevents⟩ := h.events
  obtain ⟨more', hmore', hevents'⟩ := h'.events
  refine ⟨h'.runs.trans h.runs, h'.reported.trans h.reported, more ++ more',
    bland_append hmore hmore', ?_⟩
  rw [hevents', hevents, List.append_assoc]

instance : IsPreorder Editor Still := { refl := .refl, trans := fun _ _ _ => .trans }

instance : IsPreorder Editor Quiet :=
  { refl := fun ed => (Still.refl ed).quiet, trans := fun _ _ _ => .trans }

theorem still_showText (c : Cell) (text : String) : (showText c text).Steps Still :=
  steps_bind steps_get fun _ => steps_bind (steps_ofExcept _) fun _ =>
    steps_modify fun _ => ⟨rfl, rfl, rfl, rfl⟩

theorem still_copy (c : Cell) : (copy c).Steps Still :=
  steps_bind (steps_requireCell c) fun _ => steps_bind (steps_modify fun _ => ⟨rfl, rfl, rfl, rfl⟩)
    fun _ => steps_bind steps_get fun _ => steps_pure _

theorem Action.Steps.quiet {x : Action α} (h : x.Steps Still) : x.Steps Quiet :=
  h.imp fun _ _ => Still.quiet

theorem quiet_store (c : Cell) (text : String) : (store c text).Steps Quiet :=
  steps_bind steps_get fun _ => steps_bind (steps_ofExcept _) fun _ =>
    steps_modify fun _ => .of_eq rfl rfl rfl

theorem quiet_emit {e : Event} (h : e.type ≠ .formulaError) : (emit e).Steps Quiet :=
  steps_modify fun _ => ⟨rfl, rfl, [e], bland_singleton h, rfl⟩

/-! ## Recomputes -/

/-- The events of the failing cells of a sheet that differ from those that have been reported. -/
def news (reported : List (Cell × String)) (sheet : Sheet) : List Event :=
  (sheet.failures.filter fun (c, message) => reported.lookup c != some message).map
    fun (c, message) => failureEvent sheet c message

/-- **A recompute goes through**, as the last thing that happens. -/
structure Loud (ed ed' : Editor) : Prop where
  runs : ed'.timer.runs = ed.timer.runs + 1
  reported : ed'.reported = ed'.sheet.failures
  events : ∃ front, Bland front ∧ ed'.events =
    ed.events ++ front ++ news ed.reported ed'.sheet ++ [recomputeEvent ed'.timer.runs (.ok ())]

/-- No recompute goes through, or one does at the end. -/
def Tells (ed ed' : Editor) : Prop := Quiet ed ed' ∨ Loud ed ed'

theorem Quiet.tells (h : Quiet ed ed') (h' : Tells ed' ed'') : Tells ed ed'' := by
  refine h'.imp h.trans fun h' => ?_
  obtain ⟨more, hmore, hevents⟩ := h.events
  obtain ⟨front, hfront, hevents'⟩ := h'.events
  refine ⟨h'.runs.trans (congrArg (· + 1) h.runs), h'.reported, more ++ front,
    bland_append hmore hfront, ?_⟩
  rw [hevents', hevents, h.reported, List.append_assoc ed.events]

theorem Tells.still (h : Tells ed ed') (h' : Still ed' ed'') : Tells ed ed'' := by
  refine h.imp (·.trans h'.quiet) fun h => ?_
  obtain ⟨front, hfront, hevents⟩ := h.events
  refine ⟨h'.runs.trans h.runs, ?_, front, hfront, ?_⟩
  · rw [h'.reported, h.reported, h'.sheet]
  · rw [h'.events, hevents, h'.sheet, h'.runs]

theorem Action.Steps.tells {x : Action α} (h : x.Steps Still) : x.Steps Tells :=
  h.imp fun _ _ h => .inl h.quiet

theorem runs_request (d : Debounce) (r : Debounce.Request) : (d.request r).1.runs = d.runs := by
  cases r with
  | schedule =>
    rw [Debounce.request]
    split <;> rfl
  | flush | cancel => rfl
  | advance ms =>
    rw [Debounce.request]
    split
    · dsimp only
      split <;> rfl
    · rfl

/-- What a recompute does to the list of events and to what has been reported. -/
theorem recompute_steps (ed : Editor) : ed.recompute.2.timer = ed.timer ∧
    match ed.recompute.1 with
    | .ok () => ed.recompute.2.reported = ed.recompute.2.sheet.failures ∧
        ed.recompute.2.events = ed.events ++ news ed.reported ed.recompute.2.sheet
    | .error _ => ed.recompute.2.reported = ed.reported ∧ ed.recompute.2.events = ed.events := by
  unfold recompute
  split
  · exact ⟨rfl, rfl, rfl⟩
  · rcases ed.sheet.invalidate.scan Formula.roomLimit ed.observe ed.active? with ⟨⟨shown, fault?⟩, sheet⟩
    cases fault? with
    | some fault => exact ⟨rfl, rfl, rfl⟩
    | none => exact ⟨rfl, rfl, rfl⟩

/-- **Whatever is asked of the timer**, a recompute goes through or no failing formula is told of. -/
theorem request_steps (r : Debounce.Request) : (request r).Steps Tells := by
  refine ⟨fun ed => ?_⟩
  unfold request
  rw [ExceptT.meets_bind, ExceptT.meets_get]
  have hruns := runs_request ed.timer r
  rcases hrequest : ed.timer.request r with ⟨timer, due⟩
  rw [hrequest] at hruns
  simp only
  rw [ExceptT.meets_bind, ExceptT.meets_modify]
  cases due with
  | false => exact .inl (.of_eq hruns rfl rfl)
  | true =>
    simp only [if_true]
    rw [ExceptT.meets_bind, ExceptT.meets_get]
    have hsteps := recompute_steps { ed with timer }
    rcases hrun : recompute { ed with timer } with ⟨outcome, ed'⟩
    rw [hrun] at hsteps
    obtain ⟨htimer, hsteps⟩ := hsteps
    rw [ExceptT.meets_bind, ExceptT.meets_set]
    unfold emit
    rw [ExceptT.meets_modify]
    cases outcome with
    | ok u =>
      obtain ⟨hreported, hevents⟩ := hsteps
      refine .inr ⟨congrArg (· + 1) (htimer ▸ hruns), hreported, [], bland_nil, ?_⟩
      rw [List.append_nil]
      exact congrArg (· ++ _) hevents
    | error fault =>
      obtain ⟨hreported, hevents⟩ := hsteps
      have hbland : Bland [recomputeEvent (ed'.timer.finish (.error fault)).runs (.error fault)] :=
        bland_singleton (by simp [recomputeEvent])
      exact .inl ⟨htimer ▸ hruns, hreported, _, hbland, congrArg (· ++ _) hevents⟩

theorem tells_bind {x : Action α} {k : α → Action β} (hx : x.Steps Quiet)
    (hk : ∀ a, (k a).Steps Tells) : (x >>= k).Steps Tells :=
  hx.bind hk (fun _ _ _ => Quiet.tells) fun _ _ => .inl

theorem tells_bind_still {x : Action α} {k : α → Action β} (hx : x.Steps Tells)
    (hk : ∀ a, (k a).Steps Still) : (x >>= k).Steps Tells :=
  hx.bind hk (fun _ _ _ => Tells.still) fun _ _ => id

/-! ## Operations -/

theorem endEdit_steps : endEdit.Steps Tells := by
  unfold endEdit
  refine tells_bind steps_get fun ed => ?_
  cases ed.active? with
  | none => exact (steps_pure none).tells
  | some c =>
    refine tells_bind (steps_modify fun _ => .of_eq rfl rfl rfl) fun _ =>
      tells_bind steps_get fun ed => ?_
    have hask (text : String) : Action.Steps Tells (do request .schedule; return some text) :=
      tells_bind_still (request_steps _) fun _ => steps_pure _
    simp only
    split
    · split
      · exact tells_bind (quiet_store c _) fun _ => hask _
      · exact hask _
    · exact (steps_pure none).tells

theorem beginEdit_steps (c : Cell) : (beginEdit c).Steps Tells := by
  have hfocus : Action.Steps Still (do
      modify fun ed => { ed with active? := some c }
      let text := (← get).sheet.text c
      showText c text
      return text) :=
    steps_bind (steps_modify fun _ => ⟨rfl, rfl, rfl, rfl⟩) fun _ => steps_bind steps_get fun _ =>
      steps_bind (still_showText _ _) fun _ => steps_pure _
  unfold beginEdit
  refine tells_bind (steps_requireCell c) fun _ => tells_bind steps_get fun ed => ?_
  simp only
  split
  · exact tells_bind_still endEdit_steps fun _ => hfocus
  · exact hfocus.tells

theorem edit_steps (c : Cell) (text : String) : (edit c text).Steps Tells := by
  unfold edit
  refine tells_bind (quiet_store c text) fun _ => tells_bind steps_get fun ed => ?_
  split
  · exact tells_bind (still_showText c text).quiet fun _ => request_steps _
  · exact request_steps _

theorem cut_steps (c : Cell) : (cut c).Steps Tells :=
  tells_bind (still_copy c).quiet fun text => tells_bind (quiet_store c "") fun _ =>
    tells_bind_still (request_steps _) fun _ => steps_pure text

theorem paste_steps (c : Cell) (text : String) : (paste c text).Steps Tells := by
  unfold paste
  refine tells_bind (steps_requireCell c) fun _ => tells_bind steps_get fun ed => ?_
  rcases ed.sheet.paste c text ed.origin? with ⟨written, sheet⟩
  refine tells_bind (steps_modify fun _ => .of_eq rfl rfl rfl) fun _ => ?_
  refine tells_bind (steps_ofExcept _) fun n => ?_
  refine tells_bind (steps_modify fun _ => .of_eq rfl rfl rfl) fun _ => ?_
  refine tells_bind (steps_nameOf c) fun name => ?_
  refine tells_bind (steps_mapM_nameOf _) fun origin? => ?_
  refine tells_bind (quiet_emit nofun) fun _ => ?_
  exact tells_bind_still (request_steps _) fun _ => steps_pure n

theorem restructure_steps (name : String) (sheet : Sheet) :
    (restructure name sheet).Steps Tells :=
  tells_bind (steps_modify fun _ => .of_eq rfl rfl rfl) fun _ =>
    tells_bind (quiet_emit (by simp)) fun _ => request_steps _

theorem replaceSheet_steps {event : Event} (h : event.type ≠ .formulaError) (sheet : Sheet) :
    (replaceSheet event sheet).Steps Tells :=
  tells_bind (steps_modify fun _ => .of_eq rfl rfl rfl) fun _ =>
    tells_bind (quiet_emit h) fun _ => request_steps _

theorem view_steps : view.Steps Tells := by
  unfold view
  refine tells_bind_still (request_steps _) fun _ => steps_bind steps_get fun ed => ?_
  refine steps_bind (steps_mapM (fun p => ?_) _) fun es => ?_
  · exact steps_bind (steps_nameOf p.1) fun _ => steps_pure _
  · exact steps_bind (steps_mapM_nameOf _) fun _ => steps_pure _

theorem displayText_steps (c : Cell) : (displayText c).Steps Tells := by
  unfold displayText
  refine tells_bind_still (request_steps _) fun _ => steps_bind (steps_requireCell c) fun _ =>
    steps_bind steps_get fun ed => ?_
  split
  · exact steps_pure _
  · exact steps_throw _

theorem steps_ignore {x : Action α} (h : x.Steps Tells) :
    (do let _ ← x : Action Unit).Steps Tells :=
  tells_bind_still h fun _ => steps_pure ()

/-- **An operation** runs at most one recompute that goes through, and that is the last thing it
does. -/
theorem Operation.action_steps (op : Operation) : op.action.Steps Tells := by
  cases op with
  | beginEdit c => exact steps_ignore (beginEdit_steps c)
  | edit c text => exact edit_steps c text
  | endEdit => exact steps_ignore endEdit_steps
  | copy c => exact (steps_bind (still_copy c) fun _ => steps_pure ()).tells
  | cut c => exact steps_ignore (cut_steps c)
  | paste c text => exact steps_ignore (paste_steps c text)
  | addRow | addColumn | removeRow | removeColumn =>
    exact tells_bind steps_get fun ed => restructure_steps _ _
  | resize rows cols =>
    exact tells_bind steps_get fun ed => tells_bind (steps_ofExcept _) fun sheet =>
      restructure_steps _ sheet
  | load rows => exact replaceSheet_steps (by decide) _
  | reset => exact tells_bind steps_get fun ed => replaceSheet_steps (by decide) _
  | view => exact steps_ignore view_steps
  | displayText c => exact steps_ignore (displayText_steps c)
  | wait ms => exact request_steps (.advance ms)
  | fire => exact request_steps .flush

theorem perform_steps (ed : Editor) (op : Operation) : Tells ed (ed.perform op) := by
  have h := op.action_steps.meets ed
  unfold perform
  rcases hrun : op.action.run ed with ⟨f | u, ed'⟩
  · exact h.of_run_error hrun
  · exact h.of_run_ok hrun

end Spreadsheet.Editor
