import Spreadsheet.Proofs.Editor.Document
import Spreadsheet.Proofs.Sheet.Scan

/-!
# Recomputes show what is right

An editor is fresh if a recompute is pending, or else what is on display is right. A request for a
recompute makes any valid editor fresh, whether the recompute is put off or run at once, and when it
is run the editor has settled. Two things keep it from that: a row number that is too long, and an
observer that refuses what it is told.

* `Editor.Valid`, `Editor.Current`, `Editor.Settled`, `Editor.Fresh`;
* `Keeps`, `Rests`: a valid editor with a given document, fresh or settled on a condition;
* **`recompute_spec`**: a recompute;
* `request_schedule_meets`, `request_flush_meets`, `request_advance_meets`: what the timer is asked.
-/

namespace Spreadsheet.Editor

open Formula (roomLimit)

/-- If an event tells of a recompute that failed, a formula was the reason or the observer. -/
def Explained (watch : Observer) (e : Journal.Event) : Prop :=
  e.type = .recalcFailed → ∃ runs fault, e = recomputeEvent runs (.error fault) ∧
    (fault.kind = Fault.valueKind ∨ ∃ c t, watch c t = .error fault)

/-- What holds of an editor with a given observer at any time. -/
structure Valid (watch : Observer) (ed : Editor) : Prop where
  sheet : ed.sheet.Coherent roomLimit
  size : ed.buffer.size = ed.sheet.size
  active {c : Cell} : ed.active? = some c → c ∈ ed.sheet.size
  origin {c : Cell} : ed.origin? = some c → c ∈ ed.sheet.size
  observe : ed.observe = watch
  explained : ∀ e ∈ ed.events, Explained watch e

/-- What is on display is right. -/
structure Current (ed : Editor) : Prop where
  active {c : Cell} : ed.active? = some c → ed.buffer.text c = ed.sheet.grid.text c
  shown {c : Cell} : c ∈ ed.sheet.size → ed.active? ≠ some c →
    ed.sheet.grid.Shown roomLimit c (ed.buffer.text c)
  noted {c : Cell} : c ∈ ed.sheet.size → ed.active? ≠ some c →
    ed.sheet.grid.Noted roomLimit ed.sheet.results c

/-- The last recompute went through and what it showed is right, or it failed, since a row number is
too long or the observer refuses something. -/
def Settled (ed : Editor) : Prop :=
  (ed.timer.state = .ready ∧ ed.Current) ∨ ed.timer.state = .error ∧
    ((∃ c f, ed.sheet.grid.Overlong roomLimit c f) ∨ ∃ c t fault, ed.observe c t = .error fault)

/-- A recompute is pending, or the last one is good enough. -/
def Fresh (ed : Editor) : Prop := ed.timer.pending = true ∨ ed.Settled

/-- An editor that is valid, with a given document, and fresh if `F` holds. -/
structure Keeps (watch : Observer) (F : Prop) (d : Document) (ed : Editor) : Prop where
  valid : ed.Valid watch
  fresh : F → ed.Fresh
  document : ed.document = d

/-- An editor that is valid, with a given document, and has settled if `F` holds. -/
structure Rests (watch : Observer) (F : Prop) (d : Document) (ed : Editor) : Prop where
  valid : ed.Valid watch
  settled : F → ed.Settled
  document : ed.document = d

variable {watch : Observer} {ed ed' : Editor} {F F' : Prop} {d : Document}

theorem Keeps.mono (h : ed.Keeps watch F d) (hF : F' → F) : ed.Keeps watch F' d :=
  ⟨h.valid, fun hF' => h.fresh (hF hF'), h.document⟩

theorem Keeps.always (h : ed.Keeps watch True d) : ed.Keeps watch F d := h.mono fun _ => trivial

theorem Keeps.silent (h : ed.Keeps watch F d) : ed.Keeps watch (false = true ∨ F) d :=
  h.mono fun hF => hF.resolve_left Bool.false_ne_true

theorem Rests.keeps (h : ed.Rests watch F d) : ed.Keeps watch F d :=
  ⟨h.valid, fun hF => .inr (h.settled hF), h.document⟩

theorem explained_append {events events' : List Journal.Event}
    (h : ∀ e ∈ events, Explained watch e) (h' : ∀ e ∈ events', e.type ≠ .recalcFailed) :
    ∀ e ∈ events ++ events', Explained watch e :=
  List.forall_mem_append.2 ⟨h, fun e he htype => absurd htype (h' e he)⟩

theorem Valid.tell (h : ed.Valid watch) {e : Journal.Event} (he : e.type ≠ .recalcFailed) :
    Valid watch { ed with events := ed.events ++ [e] } :=
  { h with explained := explained_append h.explained (List.forall_mem_singleton.2 he) }

/-! ## Recomputing -/

theorem writeText_of_mem {g : Grid} {c : Cell} (h : c ∈ g.size) (t : String) :
    writeText g c t = .ok (g.set c t h) := dif_pos h

theorem text_bufferOf {sheet : Sheet} {active? : Option Cell} {shown : List (Cell × String)}
    {c : Cell} (hc : c ∈ sheet.size) : (bufferOf sheet active? shown).text c =
      if active? = some c then sheet.grid.text c else (Std.HashMap.ofList shown).getD c "" := by
  rw [bufferOf, Grid.text_ofFn, if_pos hc]
  rfl

/-- A cell of a scan has the text in the buffer that it was shown with. -/
theorem getD_ofList_of_scan {shown : List (Cell × String)} {cs : List Cell}
    (hcells : shown.map Prod.fst = cs) (hcs : cs.Nodup) {c : Cell} (hc : c ∈ cs) :
    (c, (Std.HashMap.ofList shown).getD c "") ∈ shown := by
  obtain ⟨⟨d, t⟩, hp, rfl⟩ := List.mem_map.1 (hcells ▸ hc)
  have hdistinct : shown.Pairwise fun a b => (a.1 == b.1) = false := by
    rw [← hcells, List.Nodup, List.pairwise_map] at hcs
    exact hcs.imp fun hne => by simpa using hne
  rw [Std.HashMap.getD_ofList_of_mem (beq_self_eq_true d) hdistinct hp]
  exact hp

/-- What a scan has shown of all cells but the active one is on display. -/
theorem current_of_shown {shown : List (Cell × String)}
    (hbuffer : ed.buffer = bufferOf ed.sheet ed.active? shown)
    (hactive : ∀ {c : Cell}, ed.active? = some c → c ∈ ed.sheet.size)
    (hcells : shown.map Prod.fst = ed.sheet.size.without ed.active?)
    (hshown : ∀ p ∈ shown, ed.sheet.grid.Shown roomLimit p.1 p.2)
    (hnoted : ∀ c ∈ ed.sheet.size, ed.active? ≠ some c →
      ed.sheet.grid.Noted roomLimit ed.sheet.results c) : ed.Current := by
  constructor
  · intro c hc
    rw [hbuffer, text_bufferOf (hactive hc), if_pos hc]
  · intro c hc hne
    rw [hbuffer, text_bufferOf hc, if_neg hne]
    exact hshown (c, _) (getD_ofList_of_scan hcells (Size.nodup_without _ _)
      (Size.mem_without.2 ⟨hc, hne⟩))
  · exact hnoted _

/-- A recompute of an editor whose active cell, if there is one, is in its grid. -/
theorem recompute_eq (hactive : ∀ {c : Cell}, ed.active? = some c → c ∈ ed.sheet.size) {scan : Scan}
    {sheet : Sheet}
    (hscan : ed.sheet.invalidate.scan roomLimit ed.observe ed.active? = (scan, sheet)) :
    ed.recompute = match scan.fault? with
      | some fault => (.error fault, { ed with sheet, shown := ed.shown ++ scan.shown })
      | none => (.ok (), reportFailures { ed with
          sheet, shown := ed.shown ++ scan.shown, buffer := bufferOf sheet ed.active? scan.shown }) := by
  unfold recompute
  split
  · rename_i e hwrite
    obtain ⟨c, hc, hwrite⟩ := Option.map_eq_some_iff.1 hwrite
    have hmem : c ∈ (Grid.empty ed.sheet.size).size := hactive hc
    rw [writeText_of_mem hmem] at hwrite
    cases hwrite
  · cases hfault : scan.fault? with
    | none => simp only [hscan, hfault]
    | some fault => simp only [hscan, hfault]

/-- **A recompute** shows cells of the grid only. It brings the display up to date, unless its
observer refuses something or a row number is too long where a cell leads that is to be shown. -/
theorem recompute_spec (h : ed.Valid watch) {outcome : Except Fault Unit}
    (hrun : ed.recompute = (outcome, ed')) : (ed'.Valid watch ∧ ed'.document = ed.document) ∧
      (∃ shown, ed'.shown = ed.shown ++ shown ∧ ∀ p ∈ shown, p.1 ∈ ed.sheet.size) ∧
      match outcome with
      | .ok () => ed'.Current
      | .error fault => ed'.buffer = ed.buffer ∧ ((∃ c t, watch c t = .error fault) ∨
          ∃ c f, (c ∈ ed.sheet.size ∧ ed.active? ≠ some c) ∧
            ed.sheet.grid.Overlong roomLimit c f ∧ fault = f.fault) := by
  rcases hscan : ed.sheet.invalidate.scan roomLimit ed.observe ed.active? with ⟨scan, sheet⟩
  rw [recompute_eq h.active hscan] at hrun
  have hcoherent := h.sheet.invalidate.scan hscan
  obtain ⟨⟨hgrid, -⟩, hshown, hend⟩ := Sheet.scan_sound h.sheet.invalidate.sound hscan
  change sheet.grid = ed.sheet.grid at hgrid
  have hsize : sheet.size = ed.sheet.size := congrArg Grid.size hgrid
  have hactive {c : Cell} (hc : ed.active? = some c) : c ∈ sheet.size := hsize ▸ h.active hc
  have horigin {c : Cell} (hc : ed.origin? = some c) : c ∈ sheet.size := hsize ▸ h.origin hc
  have hdocument : Document.mk ed.settings.size sheet.grid ed.active? ed.origin? = ed.document :=
    congrArg (Document.mk _ · _ _) hgrid
  have hcells : ∀ p ∈ scan.shown, p.1 ∈ ed.sheet.size := fun p hp => (hshown p hp).1
  cases hfault : scan.fault? with
  | some fault =>
    rw [hfault] at hrun hend
    obtain ⟨rfl, rfl⟩ := Prod.mk.inj hrun
    refine ⟨⟨?_, hdocument⟩, ⟨_, rfl, hcells⟩, rfl, ?_⟩
    · exact ⟨hcoherent, h.size.trans hsize.symm, hactive, horigin, h.observe, h.explained⟩
    · exact hend.imp (fun ⟨p, _, hstop⟩ => ⟨p.1, p.2, h.observe ▸ hstop⟩) id
  | none =>
    rw [hfault] at hrun hend
    obtain ⟨rfl, rfl⟩ := Prod.mk.inj hrun
    refine ⟨⟨⟨hcoherent, rfl, hactive, horigin, h.observe, ?_⟩, hdocument⟩, ⟨_, rfl, hcells⟩, ?_⟩
    · refine explained_append h.explained fun e he => ?_
      obtain ⟨p, -, rfl⟩ := List.mem_map.1 he
      exact nofun
    · refine current_of_shown rfl hactive (hend.1.trans ?_) (fun p hp => ?_) fun c hc => ?_
      · exact congrArg (Size.without · ed.active?) hsize.symm
      · exact hgrid ▸ (hshown p hp).2.2
      · exact hgrid ▸ hend.2 c (hsize ▸ hc)

/-! ## Requests -/

theorem Valid.setTimer (h : ed.Valid watch) (timer : Debounce) : Valid watch { ed with timer } :=
  { h with }

/-- A request that runs the recompute. -/
theorem request_due_meets (h : ed.Valid watch) {r : Debounce.Request}
    (hdue : (ed.timer.request r).2 = true) :
    (request r).Meets ed (fun _ ed' => ed'.Rests watch True ed.document) fun _ _ => False := by
  unfold request
  rw [ExceptT.meets_bind, ExceptT.meets_get]
  rcases hrequest : ed.timer.request r with ⟨timer, due⟩
  obtain rfl : due = true := by rw [hrequest] at hdue; exact hdue
  simp only [if_true]
  rw [ExceptT.meets_bind, ExceptT.meets_modify, ExceptT.meets_bind, ExceptT.meets_get]
  have hvalid : Valid watch { ed with timer } := h.setTimer timer
  rcases hrun : recompute { ed with timer } with ⟨outcome, ed'⟩
  obtain ⟨⟨hvalid', hdocument⟩, -, hspec⟩ := recompute_spec hvalid hrun
  have hgrid : ed'.sheet.grid = ed.sheet.grid := congrArg Document.grid hdocument
  simp only
  rw [ExceptT.meets_bind, ExceptT.meets_set]
  unfold emit
  rw [ExceptT.meets_modify]
  refine ⟨{ hvalid' with explained := List.forall_mem_append.2 ⟨hvalid'.explained, ?_⟩ },
    fun _ => ?_, hdocument⟩
  · refine List.forall_mem_singleton.2 ?_
    cases outcome with
    | ok u => exact nofun
    | error fault =>
      refine fun _ => ⟨_, fault, rfl, hspec.2.symm.imp ?_ id⟩
      rintro ⟨c, f, -, -, rfl⟩
      rfl
  · cases outcome with
    | ok u => exact .inl ⟨rfl, hspec.active, hspec.shown, hspec.noted⟩
    | error fault =>
      rcases hspec.2 with ⟨c, t, hstop⟩ | ⟨c, f, -, hlong, -⟩
      · exact .inr ⟨rfl, .inr ⟨c, t, fault, hvalid'.observe ▸ hstop⟩⟩
      · exact .inr ⟨rfl, .inl ⟨c, f, hgrid ▸ hlong⟩⟩

/-- A request that does not run it. -/
theorem request_idle_meets {r : Debounce.Request} (hdue : (ed.timer.request r).2 = false) :
    (request r).Meets ed (fun _ ed' => ed' = { ed with timer := (ed.timer.request r).1 })
      fun _ _ => False := by
  unfold request
  rw [ExceptT.meets_bind, ExceptT.meets_get]
  rcases hrequest : ed.timer.request r with ⟨timer, due⟩
  obtain rfl : due = false := by rw [hrequest] at hdue; exact hdue
  rw [ExceptT.meets_bind, ExceptT.meets_modify]
  rfl

theorem Settled.setTimer (h : ed.Settled) {timer : Debounce}
    (hstate : timer.state = ed.timer.state) : Settled { ed with timer } :=
  h.imp (fun h => ⟨hstate.trans h.1, h.2.active, h.2.shown, h.2.noted⟩)
    fun h => ⟨hstate.trans h.1, h.2⟩

/-- **A recompute is asked for.** -/
theorem request_schedule_meets (h : ed.Valid watch) :
    (request .schedule).Meets ed (fun _ ed' => ed'.Keeps watch True ed.document) fun _ _ => False := by
  by_cases hclock : ed.timer.clocked = true
  · have hdue : (ed.timer.request .schedule).2 = false := by simp [Debounce.request, hclock]
    refine (request_idle_meets hdue).imp ?_ fun _ _ => id
    rintro _ _ rfl
    refine ⟨h.setTimer _, fun _ => .inl ?_, rfl⟩
    simp [Debounce.request, hclock, Debounce.pending]
  · have hdue : (ed.timer.request .schedule).2 = true := by simp [Debounce.request, hclock]
    exact (request_due_meets h hdue).imp (fun _ _ h' => h'.keeps) fun _ _ => id

/-- **A pending recompute is run.** -/
theorem request_flush_meets (h : ed.Valid watch) :
    (request .flush).Meets ed (fun _ ed' => ed'.Rests watch ed.Fresh ed.document)
      fun _ _ => False := by
  by_cases hpending : ed.timer.pending = true
  · have hdue : (ed.timer.request .flush).2 = true := hpending
    exact (request_due_meets h hdue).imp
      (fun _ _ h' => ⟨h'.valid, fun _ => h'.settled trivial, h'.document⟩) fun _ _ => id
  · have hdue : (ed.timer.request .flush).2 = false := eq_false_of_ne_true hpending
    refine (request_idle_meets hdue).imp ?_ fun _ _ => id
    rintro _ _ rfl
    exact ⟨h.setTimer _, fun hf => (hf.resolve_left hpending).setTimer rfl, rfl⟩

theorem advance_idle {d : Debounce} {ms : Nat} (h : ¬ (d.request (.advance ms)).2 = true) :
    (d.request (.advance ms)).1.pending = d.pending ∧
      (d.request (.advance ms)).1.state = d.state := by
  simp only [Debounce.request] at h ⊢
  by_cases hclock : d.clocked = true
  · rw [if_pos hclock] at h ⊢
    by_cases hisDue : ({ d with now := d.now + ms } : Debounce).isDue = true
    · rw [if_pos hisDue] at h
      exact absurd rfl h
    · rw [if_neg hisDue]
      exact ⟨rfl, rfl⟩
  · rw [if_neg hclock]
    exact ⟨rfl, rfl⟩

/-- **Time passes.** -/
theorem request_advance_meets (h : ed.Valid watch) (ms : Nat) :
    (request (.advance ms)).Meets ed (fun _ ed' => ed'.Keeps watch ed.Fresh ed.document)
      fun _ _ => False := by
  by_cases hdue : (ed.timer.request (.advance ms)).2 = true
  · exact (request_due_meets h hdue).imp (fun _ _ h' => h'.keeps.always) fun _ _ => id
  · refine (request_idle_meets (eq_false_of_ne_true hdue)).imp ?_ fun _ _ => id
    rintro _ _ rfl
    obtain ⟨hpending, hstate⟩ := advance_idle hdue
    exact ⟨h.setTimer _, Or.imp hpending.trans fun hs => hs.setTimer hstate, rfl⟩

end Spreadsheet.Editor
