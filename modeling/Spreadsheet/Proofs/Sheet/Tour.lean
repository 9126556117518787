import Spreadsheet.Proofs.Sheet.Coherence
import Spreadsheet.Proofs.Sheet.Tracking

/-!
# What a walk evaluates

A walk from a formula cell evaluates the formula cells that it leads to through cells that are not
known yet, each of them once, whatever is known when it starts. When it evaluates one, the others
that the formula reads are known or on the path of the walk, so that no other evaluation begins,
however long the chain of references is.

* `Snapshot.OnTour`, `evaluated`: what a walk writes down;
* `Grid.Awaits`: the cells that are to be evaluated;
* `Grid.Touring`: what holds all along, sound results or not; `Touring.leave`, `Touring.skip`,
  `Touring.enter`: one step;
* **`Touring.tours`**: a walk, step by step; `Tour.mem_evaluated`: what it has evaluated at its end;
* **`Tracking.run_settle`**: starting again with a walk.
-/

namespace Spreadsheet

open Formula (CellValue Failure)
open Grid (Visit)

/-- A snapshot of a walk from a cell. The path is a chain of references from that cell. When the
walk evaluates a formula, the cells that it depends on are known or on the path, and so is each
formula cell that is asked for; no evaluation begins that follows references. -/
structure Snapshot.OnTour (g : Grid) (room : Nat) (start : Cell) (m : Snapshot) : Prop
    extends m.InStep g room where
  rooted : m.chain.getLast? = some start
  settled : m.stage = .left → ∀ d, g.DependsOn room m.cell d → d ∈ m.results.memo ∨ d ∈ m.chain
  answered : m.stage = .asked → CellText.isFormula (g.text m.cell) = true →
    m.cell ∈ m.results.memo ∨ m.cell ∈ m.chain
  not_begun : m.stage ≠ .begun

/-- The cells that walks evaluate, in order. -/
def evaluated (snapshots : List Snapshot) : List Cell :=
  (snapshots.filter fun m => m.stage = .left).map Snapshot.cell

variable {g : Grid} {room : Nat} {start c d : Cell} {path : List Cell} {body : String}
  {r r' r₀ : Results} {v : CellValue} {unvisited : Std.HashSet Cell} {stack : List Visit}
  {more more' : List Snapshot}

theorem evaluated_append (ms ms' : List Snapshot) :
    evaluated (ms ++ ms') = evaluated ms ++ evaluated ms' := by
  simp [evaluated]

theorem evaluated_cons_of_left {m : Snapshot} (hm : m.stage = .left) (ms : List Snapshot) :
    evaluated (m :: ms) = m.cell :: evaluated ms := by
  simp [evaluated, hm]

theorem evaluated_cons_of_not_left {m : Snapshot} (hm : m.stage ≠ .left) (ms : List Snapshot) :
    evaluated (m :: ms) = evaluated ms := by
  simp [evaluated, hm]

theorem evaluated_of_not_left {ms : List Snapshot} (h : ∀ m ∈ ms, m.stage ≠ .left) :
    evaluated ms = [] := by
  simpa [evaluated, List.filter_eq_nil_iff] using h

/-- One formula of a walk: its evaluation begins, and references are answered at once. -/
theorem Tracking.boundedValue_mirrors (hb : CellText.body? (g.text c) = some body)
    (hchain : g.Trail room (c :: path)) (hfirst : (c :: path).getLast? = some start) :
    MirrorsFrom (fun r => ∀ d, g.DependsOn room c d → d ∈ r.memo ∨ d ∈ c :: path)
      (fun m => m.stage ≠ .left ∧ m.OnTour g room start) path.toFinset
      (fun r => ⟨.left, c, c :: path, insert c path.toFinset, r⟩)
      (boundedValue g room path c) (g.boundedValue room path c) := by
  have hc : c ∉ path.toFinset := by
    rw [List.mem_toFinset]
    exact (List.nodup_cons.1 hchain.nodup).1
  rw [boundedValue, Grid.boundedValue, hb]
  refine .tryCatch (evaluate_mirrors hc (fun _ hr => hr) (fun _ _ hr => hr)
    fun e he level d hd => ?_) fun f => ?_
  · rw [← List.toFinset_cons]
    have hlink (hf : CellText.isFormula (g.text d) = true) : g.DependsOn room c d :=
      (Grid.dependsOn_iff hb he).2 ⟨hf, hd⟩
    refine cellValue_mirrors_known (fun r hr => ⟨nofun, hchain.inStep_asked fun hf p hp => ?_,
      hfirst, nofun, fun _ hf => hr d (hlink hf), nofun⟩)
      fun r hr => Grid.known_of_mem_cells hb he hr hd
    obtain rfl : c = p := Option.some.inj hp
    exact hlink hf
  · cases f with
    | tooDeep => exact .update_bind (fun _ hr => hr) (.pure _)
    | rejected q => exact .throw _
    | tooLong t => exact .throw _

namespace Grid

/-! ## What holds all along -/

/-- A cell leads to another one through cells that are not known. -/
def Awaits (g : Grid) (room : Nat) (r : Results) (start : Cell) : Cell → Prop :=
  Relation.ReflTransGen (fun c d => g.DependsOn room c d ∧ d ∉ r.memo) start

/-- Only the start is entered while the path is empty. -/
def Rooted (start : Cell) (path : List Cell) : List Visit → Prop
  | [] => True
  | .enter c :: stack => (path = [] → c = start) ∧ Rooted start path stack
  | .leave _ :: stack => Rooted start path.tail stack

theorem Rooted.enter_append {cells : List Cell} (h : Rooted start path stack) (hpath : path ≠ []) :
    Rooted start path (cells.map .enter ++ stack) := by
  induction cells with
  | nil => exact h
  | cons c cells ih => exact ⟨fun hnil => absurd hnil hpath, ih⟩

/-- A walk from a cell, whatever is known at its start. The path is a chain of references from that
cell, and what cells depend on that have become known is known too, or on the path. -/
structure Touring (g : Grid) (room : Nat) (start : Cell) (r₀ : Results)
    (unvisited : Std.HashSet Cell) (path : List Cell) (stack : List Visit) (r : Results) : Prop
    extends g.Route room start unvisited path stack r where
  trail : g.Trail room path
  entry : Rooted start path stack
  first : ∀ c ∈ path.getLast?, c = start
  kept : ∀ c ∈ r₀.memo, c ∈ r.memo
  awaited : ∀ c ∈ path, g.Awaits room r₀ start c
  found : ∀ c ∈ r.memo, c ∈ r₀.memo ∨ g.Awaits room r₀ start c
  closed : ∀ c ∈ r.memo, c ∉ r₀.memo → ∀ d, g.DependsOn room c d → d ∈ r.memo ∨ d ∈ path

theorem Touring.initial : g.Touring room start r g.formulas [] [.enter start] r where
  toRoute := .initial
  trail := trail_nil
  entry := ⟨fun _ => rfl, trivial⟩
  first := nofun
  kept _ hc := hc
  awaited _ hc := absurd hc List.not_mem_nil
  found _ hc := .inl hc
  closed _ hc hc' := absurd hc hc'

theorem Touring.getLast? (h : g.Touring room start r₀ unvisited (c :: path) stack r) :
    (c :: path).getLast? = some start := by
  have hlast := List.getLast?_eq_some_getLast (List.cons_ne_nil c path)
  rw [hlast, h.first _ hlast]

/-- Leaving a cell: it is known then. -/
theorem Touring.leave (h : g.Touring room start r₀ unvisited (c :: path) (.leave c :: stack) r)
    (hmem : ∀ d, d ∈ r'.memo ↔ c = d ∨ d ∈ r.memo) :
    g.Touring room start r₀ unvisited path stack r' where
  toRoute := h.toRoute.leave hmem
  trail := ⟨(List.isChain_cons.1 h.trail.linked).2, (List.nodup_cons.1 h.trail.nodup).2⟩
  entry := h.entry
  first d hd := by
    cases path with
    | nil => cases hd
    | cons e rest => exact h.first d (by rwa [List.getLast?_cons_cons])
  kept d hd := (hmem d).2 (.inr (h.kept d hd))
  awaited d hd := h.awaited d (.tail _ hd)
  found d hd := by
    rcases (hmem d).1 hd with rfl | hd
    · exact .inr (h.awaited c List.mem_cons_self)
    · exact h.found d hd
  closed d hd hnew e hde := by
    have hknown : e ∈ r.memo ∨ e ∈ c :: path := by
      rcases (hmem d).1 hd with rfl | hd
      · exact h.settled hde
      · exact h.closed d hd hnew e hde
    rw [hmem]
    rcases hknown with he | he
    · exact .inl (.inr he)
    · exact (List.mem_cons.1 he).imp (fun heq => .inl heq.symm) id

/-- Passing a cell that is known or on the path. -/
theorem Touring.skip (h : g.Touring room start r₀ unvisited path (.enter c :: stack) r)
    (hstart : CellText.isFormula (g.text start) = true) (hc : c ∈ r.memo ∨ c ∉ unvisited) :
    g.Touring room start r₀ unvisited path stack r :=
  { h with
    toRoute := h.toRoute.skip hstart hc
    entry := h.entry.2 }

/-- A cell that is entered is led to by the path, and nothing is on the path before the start. -/
theorem Touring.awaits_enter (h : g.Touring room start r₀ unvisited path (.enter c :: stack) r)
    (hm : c ∉ r.memo) : g.Awaits room r₀ start c := by
  cases path with
  | nil =>
    obtain rfl : c = start := h.entry.1 rfl
    exact .refl
  | cons p rest =>
    have hp := h.awaited p List.mem_cons_self
    exact hp.tail ⟨h.pending.1 p rfl, fun hc => hm (h.kept c hc)⟩

theorem Touring.getLast?_enter
    (h : g.Touring room start r₀ unvisited path (.enter c :: stack) r) :
    (c :: path).getLast? = some start := by
  cases path with
  | nil => rw [List.getLast?_singleton, h.entry.1 rfl]
  | cons p rest => rw [List.getLast?_cons_cons, h.getLast?]

/-- Entering a cell. -/
theorem Touring.enter (h : g.Touring room start r₀ unvisited path (.enter c :: stack) r)
    (hc : c ∈ unvisited) (hm : c ∉ r.memo) (hb : CellText.body? (g.text c) = some body)
    {found : List Cell} (hfound : g.dependencies room body = .ok found) :
    g.Touring room start r₀ (unvisited.erase c) (c :: path)
      ((found.filter (unvisited.erase c).contains).map .enter ++ .leave c :: stack) r where
  toRoute := h.toRoute.enter hc hm hb hfound
  trail := h.trail.cons (fun hp => (h.fresh c hp).1 hc) h.pending.1
  entry :=
    Rooted.enter_append (show Rooted start path stack from h.entry.2) (List.cons_ne_nil c path)
  first d hd := by
    rw [h.getLast?_enter] at hd
    exact (Option.some.inj hd).symm
  kept := h.kept
  awaited := List.forall_mem_cons.2 ⟨h.awaits_enter hm, h.awaited⟩
  found := h.found
  closed d hd hnew e hde := (h.closed d hd hnew e hde).imp id (.tail _)

/-! ## A whole walk -/

/-- What a walk has done between two results, by what it has written down. -/
structure Tour (g : Grid) (room : Nat) (start : Cell) (r₀ r r' : Results) (more : List Snapshot) :
    Prop where
  ended : ∃ unvisited, g.Touring room start r₀ unvisited [] [] r'
  kept : ∀ c ∈ r.memo, c ∈ r'.memo
  nodup : (evaluated more).Nodup
  mem : ∀ c, c ∈ evaluated more ↔ c ∈ r'.memo ∧ c ∉ r.memo

theorem Tour.cons_of_not_left (h : g.Tour room start r₀ r r' more) {m : Snapshot}
    (hm : m.stage ≠ .left) : g.Tour room start r₀ r r' (m :: more) :=
  { h with
    nodup := by
      rw [evaluated_cons_of_not_left hm]
      exact h.nodup
    mem := fun c => by
      rw [evaluated_cons_of_not_left hm]
      exact h.mem c }

/-- A cell is evaluated before the rest of a walk. -/
theorem Tour.left {r₁ : Results} (h : g.Tour room start r₀ r₁ r' more) (hnew : c ∉ r.memo)
    (hmem : ∀ d, d ∈ r₁.memo ↔ c = d ∨ d ∈ r.memo) (hbefore : evaluated more' = [c]) :
    g.Tour room start r₀ r r' (more' ++ more) where
  ended := h.ended
  kept d hd := h.kept d ((hmem d).2 (.inr hd))
  nodup := by
    have hnot : c ∉ evaluated more := fun hc => ((h.mem c).1 hc).2 ((hmem c).2 (.inl rfl))
    rw [evaluated_append, hbefore]
    exact List.nodup_cons.2 ⟨hnot, h.nodup⟩
  mem d := by
    rw [evaluated_append, hbefore, List.singleton_append, List.mem_cons, h.mem, hmem]
    constructor
    · rintro (rfl | ⟨hd, hd'⟩)
      · exact ⟨h.kept d ((hmem d).2 (.inl rfl)), hnew⟩
      · exact ⟨hd, fun hr => hd' (.inr hr)⟩
    · rintro ⟨hd, hd'⟩
      by_cases heq : d = c
      · exact .inl heq
      · exact .inr ⟨hd, fun hr => hr.elim (fun e => heq e.symm) hd'⟩

/-- A walk that keeps track ends like one that does not, and what it writes down is as it should be.
If it fails, a formula cannot be read. -/
def Tours (g : Grid) (room : Nat) (start : Cell) (r₀ : Results) (unvisited : Std.HashSet Cell)
    (path : List Cell) (stack : List Visit) (r : Results) : Prop :=
  ∀ w : Workspace, w.results = r → ∃ more s, (∀ m ∈ more, m.OnTour g room start) ∧
    (Tracking.walk g room unvisited path stack).run w =
      (((g.walk room unvisited path stack).run r).1,
        ⟨((g.walk room unvisited path stack).run r).2, s, w.snapshots ++ more⟩) ∧
    (g.walk room unvisited path stack).Meets r (fun _ r' => g.Tour room start r₀ r r' more)
      fun f _ => ∃ c, g.Unreadable room c f

theorem Touring.tours_nil (h : g.Touring room start r₀ unvisited path [] r) :
    g.Tours room start r₀ unvisited path [] r := by
  rintro ⟨r, s, ms⟩ rfl
  obtain rfl : path = [] := h.pending
  refine ⟨[], s, nofun, ?_, ?_⟩
  · rw [Tracking.walk, walk, List.append_nil]
    rfl
  · rw [walk, ExceptT.meets_pure]
    exact ⟨⟨_, h⟩, fun _ hc => hc, .nil, fun c => by simp [evaluated]⟩

/-- What a walk does to a cell that is left. -/
theorem run_walk_leave : (g.walk room unvisited (c :: path) (.leave c :: stack)).run r =
    match (g.boundedValue room path c).run r with
    | (.ok v, r₁) => (g.walk room unvisited path stack).run (r₁.memoize c v)
    | (.error f, r₁) => (.error f, r₁) := by
  rw [walk, ExceptT.run_bind_apply, List.tail_cons]
  rcases (g.boundedValue room path c).run r with ⟨f | v, r₁⟩ <;> rfl

theorem run_tracking_walk_leave (s : Finset Cell) (ms : List Snapshot) :
    (Tracking.walk g room unvisited (c :: path) (.leave c :: stack)).run ⟨r, s, ms⟩ =
      match (Tracking.boundedValue g room path c).run ⟨r, path.toFinset, ms⟩ with
      | (.ok v, w) => (Tracking.walk g room unvisited path stack).run
          { w with results := w.results.memoize c v }
      | (.error f, w) => (.error f, w) := by
  rw [Tracking.walk, ExceptT.run_bind_apply, List.tail_cons]
  change ((Tracking.boundedValue g room path c >>= _).run ⟨r, path.toFinset, ms⟩) = _
  rw [ExceptT.run_bind_apply]
  rcases (Tracking.boundedValue g room path c).run ⟨r, path.toFinset, ms⟩ with ⟨f | v, w⟩ <;> rfl

theorem Touring.tours_leave
    (h : g.Touring room start r₀ unvisited path (.leave c :: stack) r)
    (hrest : ∀ {path r'}, g.Touring room start r₀ unvisited path stack r' →
      g.Tours room start r₀ unvisited path stack r') :
    g.Tours room start r₀ unvisited path (.leave c :: stack) r := by
  obtain ⟨rest, rfl⟩ := List.head?_eq_some_iff.1 h.pending.1
  rintro ⟨r, s, ms⟩ rfl
  obtain ⟨body, hb⟩ := CellText.isFormula_iff.1 (h.onPath c List.mem_cons_self)
  have hknown (d : Cell) (hd : g.DependsOn room c d) : d ∈ r.memo ∨ d ∈ c :: rest := h.settled hd
  have hkeeps := boundedValue_keeps hb hknown
  obtain ⟨-, asked, hasked, hrun⟩ := Tracking.boundedValue_mirrors hb h.trail h.getLast?
    ⟨r, rest.toFinset, ms⟩ rfl hknown
  have hleft : Snapshot.OnTour g room start ⟨.left, c, c :: rest, insert c rest.toFinset, r⟩ :=
    ⟨h.trail.inStep_top nofun, h.getLast?, fun _ => hknown, nofun, nofun⟩
  have hmoments := List.forall_mem_cons.2 ⟨hleft, fun m hm => (hasked m hm).2⟩
  have htracked : (Tracking.walk g room unvisited (c :: rest) (.leave c :: stack)).run ⟨r, s, ms⟩ =
    _ := run_tracking_walk_leave s ms
  have hwalk : (g.walk room unvisited (c :: rest) (.leave c :: stack)).run r = _ := run_walk_leave
  rw [hrun] at htracked
  unfold ExceptT.Meets
  rcases hv : (g.boundedValue room rest c).run r with ⟨f | v, r₁⟩
  · rw [hv] at htracked hwalk
    rw [hwalk]
    exact ⟨_, rest.toFinset, hmoments, htracked, c, (hkeeps.of_run_error hv).2⟩
  · rw [hv] at htracked hwalk
    rw [hwalk]
    have hmem (d : Cell) : d ∈ (r₁.memoize c v).memo ↔ c = d ∨ d ∈ r.memo := by
      rw [← hkeeps.of_run_ok hv]
      simp [Results.memoize, Std.HashMap.mem_insert]
    obtain ⟨more, s', hmore, hrun', htour⟩ := hrest (h.leave hmem) ⟨_, _, _⟩ rfl
    refine ⟨_ ++ more, s', List.forall_mem_append.2 ⟨hmoments, hmore⟩, ?_, ?_⟩
    · rw [← List.append_assoc]
      exact htracked.trans hrun'
    · refine htour.imp (fun _ _ htour => ?_) fun _ _ => id
      refine htour.left (h.fresh c List.mem_cons_self).2 hmem ?_
      rw [evaluated_cons_of_left rfl, evaluated_of_not_left fun m hm => (hasked m hm).1]

/-- A step of the walk that changes nothing. -/
theorem Tours.of_run (h : g.Tours room start r₀ unvisited path stack r)
    (hwalk : (g.walk room unvisited path (.enter c :: stack)).run r =
      (g.walk room unvisited path stack).run r)
    (htracked : ∀ w : Workspace, w.results = r →
      (Tracking.walk g room unvisited path (.enter c :: stack)).run w =
        (Tracking.walk g room unvisited path stack).run w) :
    g.Tours room start r₀ unvisited path (.enter c :: stack) r := by
  intro w hw
  unfold ExceptT.Meets
  rw [hwalk, htracked w hw]
  exact h w hw

theorem Touring.tours_skip (h : g.Touring room start r₀ unvisited path (.enter c :: stack) r)
    (hstart : CellText.isFormula (g.text start) = true) (hc : c ∈ r.memo ∨ c ∉ unvisited)
    (hrest : g.Touring room start r₀ unvisited path stack r →
      g.Tours room start r₀ unvisited path stack r) :
    g.Tours room start r₀ unvisited path (.enter c :: stack) r := by
  have hcontains (hunvisited : c ∈ unvisited) : r.memo.contains c = true :=
    Std.HashMap.mem_iff_contains.1 (hc.resolve_right (not_not_intro hunvisited))
  refine (hrest (h.skip hstart hc)).of_run ?_ fun w hw => ?_
  · rw [walk]
    split
    · rw [ExceptT.run_get_bind, if_pos (hcontains ‹_›)]
    · rfl
  · subst hw
    rw [Tracking.walk]
    split
    · rw [Tracking.run_results_bind, if_pos (hcontains ‹_›)]
    · rfl

section Enter

variable (hc : c ∈ unvisited) (hm : c ∉ r.memo) (hb : CellText.body? (g.text c) = some body)
include hc hm hb

/-- What a walk does to a cell that is entered. -/
theorem run_walk_enter : (g.walk room unvisited path (.enter c :: stack)).run r =
    match g.dependencies room body with
    | .ok found => (g.walk room (unvisited.erase c) (c :: path)
        ((found.filter (unvisited.erase c).contains).map .enter ++ .leave c :: stack)).run r
    | .error f => (.error f, r) := by
  rw [Std.HashMap.mem_iff_contains] at hm
  rw [walk, dif_pos hc, ExceptT.run_get_bind, if_neg hm, hb, Option.getD_some,
    ExceptT.run_ofExcept_bind]
  cases g.dependencies room body <;> rfl

theorem run_tracking_walk_enter (s : Finset Cell) (ms : List Snapshot) :
    (Tracking.walk g room unvisited path (.enter c :: stack)).run ⟨r, s, ms⟩ =
      match g.dependencies room body with
      | .ok found => (Tracking.walk g room (unvisited.erase c) (c :: path)
          ((found.filter (unvisited.erase c).contains).map .enter ++ .leave c :: stack)).run
            ⟨r, s, ms ++ [⟨.entered, c, c :: path, s, r⟩]⟩
      | .error f => (.error f, ⟨r, s, ms ++ [⟨.entered, c, c :: path, s, r⟩]⟩) := by
  rw [Std.HashMap.mem_iff_contains] at hm
  rw [Tracking.walk, dif_pos hc, Tracking.run_results_bind, if_neg hm, Tracking.run_record_bind, hb,
    Option.getD_some, ExceptT.run_ofExcept_bind]
  cases g.dependencies room body <;> rfl

end Enter

theorem Touring.tours_enter (h : g.Touring room start r₀ unvisited path (.enter c :: stack) r)
    (hc : c ∈ unvisited) (hm : c ∉ r.memo)
    (hrest : ∀ {stack'}, g.Touring room start r₀ (unvisited.erase c) (c :: path) stack' r →
      g.Tours room start r₀ (unvisited.erase c) (c :: path) stack' r) :
    g.Tours room start r₀ unvisited path (.enter c :: stack) r := by
  obtain ⟨body, hb⟩ := CellText.isFormula_iff.1 (h.formulas c hc)
  rintro ⟨r, s, ms⟩ rfl
  have htrail := h.trail.cons (fun hp => (h.fresh c hp).1 hc) h.pending.1
  have hentered : Snapshot.OnTour g room start ⟨.entered, c, c :: path, s, r⟩ :=
    ⟨⟨htrail, fun hne => absurd rfl hne, nofun, fun _ => rfl⟩, h.getLast?_enter, nofun, nofun,
      nofun⟩
  have hwalk : (g.walk room unvisited path (.enter c :: stack)).run r = _ :=
    run_walk_enter hc hm hb
  have htracked : (Tracking.walk g room unvisited path (.enter c :: stack)).run ⟨r, s, ms⟩ = _ :=
    run_tracking_walk_enter hc hm hb s ms
  unfold ExceptT.Meets
  rcases hfound : g.dependencies room body with f | found
  · obtain ⟨t, rfl, hlong⟩ := dependencies_eq_error hfound
    rw [hfound] at hwalk htracked
    rw [hwalk]
    exact ⟨_, s, List.forall_mem_singleton.2 hentered, htracked, c, body, t, hb, hlong, rfl⟩
  · rw [hfound] at hwalk htracked
    rw [hwalk]
    obtain ⟨more, s', hmore, hrun, htour⟩ := hrest (h.enter hc hm hb hfound)
      ⟨r, s, ms ++ [⟨.entered, c, c :: path, s, r⟩]⟩ rfl
    refine ⟨_ :: more, s', List.forall_mem_cons.2 ⟨hentered, hmore⟩, ?_, ?_⟩
    · rw [List.append_assoc] at hrun
      exact htracked.trans hrun
    · exact htour.imp (fun _ _ htour => htour.cons_of_not_left nofun) fun _ _ => id

/-- **A walk that keeps track**, from any point that it can have come to. -/
theorem Touring.tours (hstart : CellText.isFormula (g.text start) = true)
    (h : g.Touring room start r₀ unvisited path stack r) :
    g.Tours room start r₀ unvisited path stack r := by
  -- entering a cell lengthens the stack, and leaves fewer cells to be entered
  induction hn : unvisited.size using Nat.strong_induction_on
    generalizing unvisited path stack r with
  | _ n ihn =>
  induction stack generalizing path r with
  | nil => exact h.tours_nil
  | cons visit stack ih =>
    cases visit with
    | leave c => exact h.tours_leave ih
    | enter c =>
      by_cases hc : c ∈ r.memo ∨ c ∉ unvisited
      · exact h.tours_skip hstart hc ih
      · rw [not_or, not_not] at hc
        exact h.tours_enter hc.2 hc.1 fun h' => ihn _ (hn ▸ size_erase_lt hc.2) h' rfl

/-- **What a walk has evaluated at its end**: the cells that its start leads to through cells that
were not known. -/
theorem Tour.mem_evaluated (h : g.Tour room start r r r' more) (hnew : start ∉ r.memo) :
    start ∈ r'.memo ∧ ∀ d, d ∈ evaluated more ↔ g.Awaits room r start d := by
  obtain ⟨unvisited, hended⟩ := h.ended
  have hstart : start ∈ r'.memo := by simpa using hended.reached
  refine ⟨hstart, fun d => ⟨fun hd => ?_, fun hd => ?_⟩⟩
  · obtain ⟨hd, hd'⟩ := (h.mem d).1 hd
    exact (hended.found d hd).resolve_left hd'
  · rw [h.mem]
    induction hd with
    | refl => exact ⟨hstart, hnew⟩
    | tail _ hstep ih =>
      exact ⟨(hended.closed _ ih.1 ih.2 _ hstep.1).resolve_right List.not_mem_nil, hstep.2⟩

end Grid

/-! ## Starting again with a walk -/

theorem Tracking.run_restoring {α : Type} (x : Tracking α) (w : Workspace) :
    (restoring x).run w = ((x.run w).1, { (x.run w).2 with inProgress := w.inProgress }) := rfl

/-- A walk from a cell without a formula does nothing. -/
theorem Tracking.run_walk_of_not_isFormula (hstart : ¬ CellText.isFormula (g.text start) = true)
    (w : Workspace) : (walk g room g.formulas [] [.enter start]).run w =
      (((g.walk room g.formulas [] [.enter start]).run w.results).1,
        { w with results := ((g.walk room g.formulas [] [.enter start]).run w.results).2 }) := by
  have hnot : start ∉ g.formulas := fun h => hstart (Grid.mem_formulas.1 h)
  rw [walk, Grid.walk, dif_neg hnot, dif_neg hnot, walk, Grid.walk]
  rfl

/-- Starting again with a walk does the same to results, and all that is written down is right. -/
theorem Tracking.settle_mirrors (s : Finset Cell) :
    Mirrors (fun _ => True) (fun m => m.OnTour g room start) s (settle g room start)
      (do g.walk room g.formulas [] [.enter start]
          return (← get).memo.getD start .failed) := by
  rintro ⟨r, s, ms⟩ rfl -
  obtain ⟨more, s', hmore, hrun⟩ : ∃ more s', (∀ m ∈ more, m.OnTour g room start) ∧
      (walk g room g.formulas [] [.enter start]).run ⟨r, s, ms⟩ =
        (((g.walk room g.formulas [] [.enter start]).run r).1,
          ⟨((g.walk room g.formulas [] [.enter start]).run r).2, s', ms ++ more⟩) := by
    by_cases hstart : CellText.isFormula (g.text start) = true
    · obtain ⟨more, s', hmore, hrun, -⟩ := Grid.Touring.initial.tours hstart ⟨r, s, ms⟩ rfl
      exact ⟨more, s', hmore, hrun⟩
    · exact ⟨[], s, nofun, by rw [run_walk_of_not_isFormula hstart, List.append_nil]⟩
  refine ⟨trivial, more, hmore, ?_⟩
  rw [settle, run_restoring, ExceptT.run_bind_apply, hrun, ExceptT.run_bind_apply]
  rcases (g.walk room g.formulas [] [.enter start]).run r with ⟨f | ⟨⟩, r'⟩ <;> rfl

/-- **Starting again with a walk** ends with the value of its start, whatever was known. It
evaluates each cell that its start leads to through cells that were not known once, and no others.
When it evaluates a cell, all that its formula can read is known or on the path, so that no
evaluation begins that follows references; the path is always a chain of references from the start
to the cell that is visited. -/
theorem Tracking.run_settle (hshort : g.Short) (hstart : CellText.isFormula (g.text start) = true)
    (w : Workspace) (hnew : start ∉ w.results.memo) :
    ∃ v r more, (settle g room start).run w = (.ok v, ⟨r, w.inProgress, w.snapshots ++ more⟩) ∧
      (g.walk room g.formulas [] [.enter start]).run w.results = (.ok (), r) ∧
      r.memo[start]? = some v ∧
      (evaluated more).Nodup ∧
      (∀ d, d ∈ evaluated more ↔ g.Awaits room w.results start d) ∧
      ∀ m ∈ more, m.OnTour g room start := by
  obtain ⟨more, s', hmore, hrun, htour⟩ := Grid.Touring.initial.tours hstart w rfl
  rcases hwalk : (g.walk room g.formulas [] [.enter start]).run w.results with ⟨f | ⟨⟩, r⟩
  · obtain ⟨c, hc⟩ := htour.of_run_error hwalk
    exact absurd hc.overlong hshort.not_overlong
  · have htour := htour.of_run_ok hwalk
    obtain ⟨hmem, hevaluated⟩ := htour.mem_evaluated hnew
    obtain ⟨v, hv⟩ := Option.isSome_iff_exists.1 (Std.HashMap.mem_iff_isSome_getElem?.1 hmem)
    refine ⟨v, r, more, ?_, rfl, hv, htour.nodup, hevaluated, hmore⟩
    rw [settle, run_restoring, ExceptT.run_bind_apply, hrun, hwalk]
    simp only [run_results_bind, Std.HashMap.getD_eq_getD_getElem?, hv]
    rfl

/-- A walk over two cells that refer to each other, one of them also to a third that is known. -/
theorem Tracking.run_settle_circle : ∃ g w, g = Grid.ofRows [["=B1", "=A1+C1", "=1"]] ∧
    w = Workspace.mk (Results.memoize {} ⟨0, 2⟩ .failed) ∅ [] ∧ g.Short ∧
    CellText.isFormula (g.text ⟨0, 0⟩) = true ∧ ⟨0, 0⟩ ∉ w.results.memo ∧
    ∃ v r more, (settle g Formula.roomLimit ⟨0, 0⟩).run w = (.ok v, ⟨r, ∅, [] ++ more⟩) ∧
      (g.walk Formula.roomLimit g.formulas [] [.enter ⟨0, 0⟩]).run w.results = (.ok (), r) ∧
      r.memo[(⟨0, 0⟩ : Cell)]? = some v ∧ (evaluated more).Nodup ∧
      (∀ d, d ∈ evaluated more ↔ g.Awaits Formula.roomLimit w.results ⟨0, 0⟩ d) ∧
      ∀ m ∈ more, m.OnTour g Formula.roomLimit ⟨0, 0⟩ := by
  have hnew : (⟨0, 0⟩ : Cell) ∉ (Results.memoize {} ⟨0, 2⟩ .failed).memo := by
    simp [Results.memoize, Std.HashMap.mem_insert]
  have hshort : (Grid.ofRows [["=B1", "=A1+C1", "=1"]]).Short := by decide +kernel
  have hstart : CellText.isFormula
      ((Grid.ofRows [["=B1", "=A1+C1", "=1"]]).text ⟨0, 0⟩) = true := by decide
  exact ⟨_, _, rfl, rfl, hshort, hstart, hnew, run_settle hshort hstart _ hnew⟩

end Spreadsheet
