import Spreadsheet.Proofs.Sheet.Overlay
import Spreadsheet.Proofs.Sheet.Tour

/-!
# Sheets that keep track

A sheet that keeps track has a set of cells in progress of its own. A change of the grid empties it,
and a reading starts from it as it stands. Between any two requests, whatever became of the readings
before, the set is empty and all that is noted is about formula cells of the grid; while cells are
evaluated, it holds the chain of those being evaluated.

* `Sheet.Request`, `Sheet.serve`: changes, readings and scans;
* `Tracked`, `Tracked.serve`: the same on a sheet that keeps track, with what happens meanwhile;
* `Tracking.valueAt_mirrors`, `Tracking.scan_mirrors`: readings; **`Tracked.serve_mirrors`**: one
  request;
* `Sheet.Settled`: how values and reasons fit together; **`Tracked.after_requests`**: at any time.
-/

namespace Spreadsheet

open Formula (CellValue Failure)

variable {g : Grid} {room : Nat} {c : Cell} {r : Results}

/-! ## Readings -/

namespace Tracking

/-- Show cells one after another to an observer, keeping track. -/
def scan (g : Grid) (room : Nat) (observe : Observer) : List Cell → StateM Workspace Scan
  | [] => return ⟨[], none⟩
  | c :: cs => do
    match ← (display g room c).run with
    | .error f => return ⟨[], some f.fault⟩
    | .ok text =>
      match observe c text with
      | .error fault => return ⟨[(c, text)], some fault⟩
      | .ok () =>
        let rest ← scan g room observe cs
        return { rest with shown := (c, text) :: rest.shown }

/-- **The value of any cell**: it is read with nothing in progress, and nothing is afterwards. -/
theorem valueAt_mirrors :
    Mirrors (fun _ => True) (Snapshot.InStep g room) ∅ (valueAt g room c) (g.valueAt room c) := by
  rw [valueAt, Grid.valueAt]
  refine .get_bind fun w hw => .tryCatch ?_ fun f => ?_
  · exact cellValue_mirrors le_rfl Grid.trail_nil fun _ p hp => absurd hp (Option.not_mem_none p)
  · cases f with
    | tooDeep =>
      simp only [if_pos hw]
      exact (settle_mirrors ∅).mono fun m hm => hm.toInStep
    | rejected q => exact .throw _
    | tooLong t => exact .throw _

theorem display_mirrors :
    Mirrors (fun _ => True) (Snapshot.InStep g room) ∅ (display g room c) (g.display room c) := by
  unfold display Grid.display
  split
  · exact compatible_mirrors.map valueAt_mirrors _
  · exact .pure _

/-- A computation that keeps track does what another one does, with nothing in progress before and
after it, and the set in progress holds a chain of references all the time. -/
def Follows {α : Type} (g : Grid) (room : Nat) (x : StateM Workspace α) (y : StateM Results α) :
    Prop :=
  ∀ w : Workspace, w.inProgress = ∅ → ∃ more, (∀ m ∈ more, m.InStep g room) ∧
    x.run w = ((y.run w.results).1, ⟨(y.run w.results).2, ∅, w.snapshots ++ more⟩)

theorem Mirrors.follows {α : Type} {x : Tracking α} {y : Evaluation α}
    (h : Mirrors (fun _ => True) (Snapshot.InStep g room) ∅ x y) : Follows g room x.run y.run :=
  fun w hw => (h w hw trivial).2

theorem Follows.pure {α : Type} (a : α) :
    Follows g room (Pure.pure a : StateM Workspace α) (Pure.pure a) := by
  rintro ⟨r, s, ms⟩ rfl
  exact ⟨[], nofun, by rw [List.append_nil]; rfl⟩

theorem Follows.bind {α β : Type} {x : StateM Workspace α} {y : StateM Results α}
    {k : α → StateM Workspace β} {l : α → StateM Results β} (h : Follows g room x y)
    (hk : ∀ a, Follows g room (k a) (l a)) : Follows g room (x >>= k) (y >>= l) := by
  intro w hw
  obtain ⟨more, hmore, hx⟩ := h w hw
  obtain ⟨more', hmore', hk⟩ := hk (y.run w.results).1
    ⟨(y.run w.results).2, ∅, w.snapshots ++ more⟩ rfl
  refine ⟨more ++ more', List.forall_mem_append.2 ⟨hmore, hmore'⟩, ?_⟩
  rw [List.append_assoc] at hk
  rw [StateT.run_bind, hx]
  exact hk

/-- **A scan**, however it ends. -/
theorem scan_mirrors (observe : Observer) (cells : List Cell) :
    Follows g room (scan g room observe cells) (g.scan room observe cells) := by
  induction cells with
  | nil => exact .pure _
  | cons c cells ih =>
    refine display_mirrors.follows.bind fun answer => ?_
    cases answer with
    | error f => exact .pure _
    | ok text =>
      simp only
      cases observe c text with
      | error fault => exact .pure _
      | ok _ => exact ih.bind fun rest => .pure _

end Tracking

/-! ## Requests -/

namespace Sheet

/-- What can be asked of a sheet: a command, or to show its cells to an observer. -/
inductive Request where
  | command (x : Command)
  | scan (observe : Observer) (skipped : Option Cell)

/-- A sheet after a request. -/
def serve (room : Nat) (s : Sheet) : Request → Sheet
  | .command x => s.perform room x
  | .scan observe skipped => (s.scan room observe skipped).2

theorem Reachable.serve {s : Sheet} (h : s.Reachable room) (request : Request) :
    (s.serve room request).Reachable room := by
  cases request with
  | command x => exact h.perform x
  | scan observe skipped => exact h.scan observe skipped

/-- Values and reasons are noted of formula cells of the grid only. A value is missing if and only
if there is a reason, and the reason is that of the cell's text. -/
structure Settled (room : Nat) (s : Sheet) : Prop where
  memo : ∀ c ∈ s.results.memo, c ∈ s.size ∧ CellText.isFormula (s.text c) = true
  failures : ∀ c ∈ s.results.failures, c ∈ s.size ∧ CellText.isFormula (s.text c) = true
  failed : ∀ c v, s.results.memo[c]? = some v → (v = .failed ↔ c ∈ s.results.failures)
  reason : ∀ c m, c ∈ s.results.memo → s.failure? c = some m → s.grid.Failing room c m

theorem Coherent.settled {s : Sheet} (h : s.Coherent room) : s.Settled room where
  memo c hc := by
    obtain ⟨v, hv⟩ := Option.isSome_iff_exists.1 (Std.HashMap.mem_iff_isSome_getElem?.1 hc)
    have hformula := (h.sound.right hv).isFormula
    exact ⟨Grid.mem_of_isFormula hformula, hformula⟩
  failures c hc := by
    have hformula : CellText.isFormula (s.text c) = true := by
      by_contra hno
      rw [Std.HashMap.mem_iff_isSome_getElem?, h.tidy hno] at hc
      cases hc
    exact ⟨Grid.mem_of_isFormula hformula, hformula⟩
  failed c v hv := by
    obtain ⟨body, hb, hright⟩ := h.sound.right hv
    rw [Std.HashMap.mem_iff_isSome_getElem?, h.sound.reason hv hb]
    rcases hverdict : s.grid.verdict room body with f | x
    · rw [hverdict] at hright
      exact iff_of_true hright.1 rfl
    · rw [hverdict] at hright
      obtain ⟨y, rfl, -⟩ := hright
      exact iff_of_false nofun nofun
  reason c m hc hm := by
    obtain ⟨v, hv⟩ := Option.isSome_iff_exists.1 (Std.HashMap.mem_iff_isSome_getElem?.1 hc)
    obtain ⟨f, hf, rfl⟩ := Option.map_eq_some_iff.1 hm
    exact (h.sound.right hv).failing (fun _ hb => h.sound.reason hv hb) hf

end Sheet

open Sheet (Request)

/-- A sheet and the cells of it that are in progress. -/
structure Tracked where
  sheet : Sheet
  inProgress : Finset Cell := ∅

namespace Tracked

/-- Compute something on a sheet. What happens meanwhile is told. -/
def read {α : Type} (t : Tracked) (x : Grid → StateM Workspace α) : List Snapshot × Tracked :=
  let w := ((x t.sheet.grid).run ⟨t.sheet.results, t.inProgress, []⟩).2
  (w.snapshots, ⟨{ t.sheet with results := w.results }, w.inProgress⟩)

/-- Replace a sheet by one with other texts, unless that is refused. -/
def change (t : Tracked) (s : Except Grid.Refusal Sheet) : List Snapshot × Tracked :=
  ([], match s with
    | .ok s => ⟨s, ∅⟩
    | .error _ => t)

/-- Serve a request. What happens meanwhile is told. -/
def serve (room : Nat) (t : Tracked) : Request → List Snapshot × Tracked
  | .command (.set c text) => t.change (t.sheet.set c text)
  | .command (.resize rows cols) => t.change (t.sheet.resize rows cols)
  | .command .addRow => t.change (.ok t.sheet.addRow)
  | .command .addColumn => t.change (.ok t.sheet.addColumn)
  | .command .removeRow =>
    if 1 < t.sheet.size.rows then t.change (.ok t.sheet.removeRow) else ([], t)
  | .command .removeColumn =>
    if 1 < t.sheet.size.cols then t.change (.ok t.sheet.removeColumn) else ([], t)
  | .command (.load rows) => t.change (.ok (.ofRows rows))
  | .command (.reset rows cols) => t.change ((Grid.checkSize rows cols).map .empty)
  | .command .invalidate => t.change (.ok t.sheet.invalidate)
  | .command (.value c) => t.read fun g => (Tracking.valueAt g room c).run
  | .command (.display c) => t.read fun g => (Tracking.display g room c).run
  | .scan observe skipped =>
    t.read fun g => Tracking.scan g room observe (t.sheet.size.without skipped)

/-- A sheet that keeps track after requests, one after another. -/
def after (room : Nat) (t : Tracked) (history : List Request) : Tracked :=
  history.foldl (fun t request => (t.serve room request).2) t

variable {t : Tracked}

/-- With nothing in progress, a request has the same effect on a sheet that keeps track, nothing is
in progress afterwards, and meanwhile the set in progress holds a chain of references. -/
def Serves (room : Nat) (t : Tracked) (x : List Snapshot × Tracked) (s : Sheet) : Prop :=
  x.2 = ⟨s, ∅⟩ ∧ ∀ m ∈ x.1, m.InStep t.sheet.grid room

theorem serves_change (ht : t.inProgress = ∅) (s : Except Grid.Refusal Sheet) :
    Serves room t (t.change s) (s.toOption.getD t.sheet) := by
  obtain ⟨sheet, _⟩ := t
  subst ht
  cases s <;> exact ⟨rfl, nofun⟩

theorem serves_read {α : Type} {x : Grid → StateM Workspace α} {y : Grid → StateM Results α}
    (ht : t.inProgress = ∅) (h : Tracking.Follows t.sheet.grid room (x t.sheet.grid)
      (y t.sheet.grid)) :
    Serves room t (t.read x)
      { t.sheet with results := ((y t.sheet.grid).run t.sheet.results).2 } := by
  obtain ⟨more, hmore, hx⟩ := h ⟨t.sheet.results, t.inProgress, []⟩ ht
  unfold read
  rw [hx]
  exact ⟨rfl, hmore⟩

theorem serves_unchanged (ht : t.inProgress = ∅) : Serves room t ([], t) t.sheet := by
  obtain ⟨sheet, _⟩ := t
  subst ht
  exact ⟨rfl, nofun⟩

/-- **One request** on a sheet that keeps track. -/
theorem serve_mirrors (ht : t.inProgress = ∅) (request : Request) :
    Serves room t (t.serve room request) (t.sheet.serve room request) := by
  cases request with
  | scan observe skipped =>
    exact serves_read (y := fun g => g.scan room observe _) ht (Tracking.scan_mirrors observe _)
  | command x =>
    cases x with
    | set c text => exact serves_change ht (t.sheet.set c text)
    | resize rows cols => exact serves_change ht (t.sheet.resize rows cols)
    | addRow => exact serves_change ht (.ok t.sheet.addRow)
    | addColumn => exact serves_change ht (.ok t.sheet.addColumn)
    | removeRow =>
      simp only [serve, Sheet.serve, Sheet.perform]
      split
      · exact serves_change ht (.ok t.sheet.removeRow)
      · rw [Sheet.removeRow, if_neg ‹_›]
        exact serves_unchanged ht
    | removeColumn =>
      simp only [serve, Sheet.serve, Sheet.perform]
      split
      · exact serves_change ht (.ok t.sheet.removeColumn)
      · rw [Sheet.removeColumn, if_neg ‹_›]
        exact serves_unchanged ht
    | load rows => exact serves_change ht (.ok (.ofRows rows))
    | reset rows cols => exact serves_change ht ((Grid.checkSize rows cols).map .empty)
    | invalidate => exact serves_change ht (.ok t.sheet.invalidate)
    | value c =>
      exact serves_read (y := fun g => (g.valueAt room c).run) ht Tracking.valueAt_mirrors.follows
    | display c =>
      exact serves_read (y := fun g => (g.display room c).run) ht Tracking.display_mirrors.follows

theorem after_mirrors (ht : t.inProgress = ∅) (history : List Request) :
    t.after room history = ⟨history.foldl (Sheet.serve room) t.sheet, ∅⟩ := by
  induction history generalizing t with
  | nil =>
    obtain ⟨sheet, _⟩ := t
    subst ht
    rfl
  | cons request history ih =>
    have hserve : (t.serve room request).2 = ⟨t.sheet.serve room request, ∅⟩ :=
      (serve_mirrors ht request).1
    have hrest : after room (t.serve room request).2 history = _ := ih (by rw [hserve])
    rw [hserve] at hrest
    rw [after, List.foldl_cons, hserve]
    exact hrest

/-- **At any time**, after any changes, readings and scans, those included that failed, were stopped
or started again with a walk: the sheet is the one that does not keep track, nothing is in progress,
and what is noted is settled. While any request is served then, the set in progress holds exactly
the chain of the cells being evaluated, each of which is referred to by the one before. -/
theorem after_requests (room : Nat) (size : Size) (history : List Request) :
    ∃ t, (Tracked.mk (.empty size) ∅).after room history = t ∧
      t.sheet = history.foldl (Sheet.serve room) (.empty size) ∧
      t.inProgress = ∅ ∧ t.sheet.Settled room ∧
      ∀ request, ∀ m ∈ (t.serve room request).1, m.InStep t.sheet.grid room := by
  have hreachable : (history.foldl (Sheet.serve room) (.empty size)).Reachable room :=
    List.foldlRecOn history _ (.start (.empty size)) fun _ h request _ => h.serve request
  refine ⟨_, after_mirrors rfl history, rfl, rfl, hreachable.coherent.settled, fun request => ?_⟩
  exact (serve_mirrors rfl request).2

end Tracked

end Spreadsheet
