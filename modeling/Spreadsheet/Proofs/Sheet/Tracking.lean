import Mathlib.Data.Finset.Insert
import Mathlib.Data.List.Chain
import Spreadsheet.Proofs.Formula.Dependence
import Spreadsheet.Proofs.Sheet.Walk
import Spreadsheet.Sheet.Display

/-!
# Evaluations that keep track

While cells are evaluated, a set holds those whose formulas are in progress: a cell is put into it
before its formula is evaluated and taken out afterwards, however that ends, and a reference to a
cell of the set is a circular one. Here evaluations keep such a set beside the results, and write
down what happens. They answer like those that hand on the path of cells, with the same results, and
in all that is written down the set in progress holds the cells of the path.

* `Snapshot`: what is written down; `Workspace`, `Tracking`: computations that keep track;
* `Tracking.cellValue`, `Tracking.walk`, `Tracking.settle`, `Tracking.valueAt`: evaluations;
* `Tracking.Mirrors`, `Tracking.MirrorsFrom`: to do the same to results and leave the set in
  progress as it was, with one rule for every way of building a computation;
* `Snapshot.InStep`: the set in progress holds a chain of references;
* **`Tracking.cellValue_mirrors`**: asking recursively; `Tracking.cellValue_mirrors_known`: a
  reference that is answered at once.
-/

namespace Spreadsheet

open Formula (CellValue Expr Failure)
open Grid (Visit referenceCost)

/-! ## Keeping track -/

/-- What happens to a cell. -/
inductive Stage where
  /-- Its value is asked for. -/
  | asked
  /-- The evaluation of its formula begins, its references being followed. -/
  | begun
  /-- A walk looks for the cells that it depends on. -/
  | entered
  /-- The evaluation of its formula by a walk begins. -/
  | left
  deriving DecidableEq

/-- What happens at a moment, and how things are then. -/
structure Snapshot where
  stage : Stage
  cell : Cell
  /-- The cells being evaluated or on the path of a walk, the last one first. -/
  chain : List Cell
  inProgress : Finset Cell
  results : Results

/-- What an evaluation that keeps track works on. -/
structure Workspace where
  results : Results
  /-- The cells whose formulas are in progress. -/
  inProgress : Finset Cell := ∅
  /-- What has happened, in order. -/
  snapshots : List Snapshot := []

/-- A computation on results that keeps track. -/
abbrev Tracking := ExceptT Failure (StateM Workspace)

namespace Tracking

variable {α β : Type}

/-- The results as they stand. -/
def results : Tracking Results := return (← get).results

/-- Change the results. -/
def update (u : Results → Results) : Tracking Unit :=
  modify fun w => { w with results := u w.results }

/-- Write down what happens. -/
def record (stage : Stage) (chain : List Cell) (c : Cell) : Tracking Unit :=
  modify fun w =>
    { w with snapshots := w.snapshots ++ [⟨stage, c, chain, w.inProgress, w.results⟩] }

/-- Do something with a cell in progress. It is taken out again however that ends. -/
def during (c : Cell) (x : Tracking α) : Tracking α :=
  ExceptT.mk fun w =>
    let (answer, w') := x.run { w with inProgress := insert c w.inProgress }
    (answer, { w' with inProgress := w'.inProgress.erase c })

/-- Do something and put the set in progress back, however that ends. -/
def restoring (x : Tracking α) : Tracking α :=
  ExceptT.mk fun w =>
    let (answer, w') := x.run w
    (answer, { w' with inProgress := w.inProgress })

/-- Evaluate the body of a formula cell, the cell being in progress. -/
def evaluate (stage : Stage) (room : Nat) (chain : List Cell) (c : Cell) (body : String)
    (answer : (level : Nat) → Cell → Tracking CellValue) : Tracking CellValue :=
  during c do
    record stage (c :: chain) c
    tryCatch
      (do
        let e ← MonadExcept.ofExcept (Expr.ofBody room body)
        let x ← e.value ⟨answer, fun level => MonadExcept.ofExcept (Formula.enter room level)⟩
        update (·.succeed c)
        return .result x)
      fun
        | .rejected r => do
          update (·.fail c (.rejected r))
          return .failed
        | f => throw f

/-- The value of a cell, asked for while the cells of a chain are being evaluated. A cell in
progress is referred to in a circle. -/
def cellValue (g : Grid) (room : Nat) (chain : List Cell) (c : Cell) : Tracking CellValue := do
  record .asked chain c
  match (← results).memo[c]? with
  | some v => return v
  | none =>
    match CellText.body? (g.text c) with
    | none => return .text (g.text c)
    | some body =>
      if c ∈ (← get).inProgress then return .result (.error .circular)
      else if _h : room = 0 then throw .tooDeep
      else
        let v ← evaluate .begun room chain c body fun level c' =>
          cellValue g (room - referenceCost level) (c :: chain) c'
        update (·.memoize c v)
        return v
termination_by room
decreasing_by unfold referenceCost; omega

/-- The value of a formula cell that a walk leaves. -/
def boundedValue (g : Grid) (room : Nat) (path : List Cell) (c : Cell) : Tracking CellValue :=
  match CellText.body? (g.text c) with
  | none => return .text (g.text c)
  | some body =>
    tryCatch
      (evaluate .left room path c body fun level c' =>
        cellValue g (room - referenceCost level) (c :: path) c')
      fun
        | .tooDeep => do
          update (·.fail c .tooDeep)
          return .failed
        | f => throw f

/-- Walk over the graph of references. Before a cell is left, the set in progress becomes the rest
of the path. -/
def walk (g : Grid) (room : Nat) (unvisited : Std.HashSet Cell) (path : List Cell) :
    List Visit → Tracking Unit
  | [] => return ()
  | .leave c :: stack => do
    modify fun w => { w with inProgress := path.tail.toFinset }
    let v ← boundedValue g room path.tail c
    update (·.memoize c v)
    walk g room unvisited path.tail stack
  | .enter c :: stack => do
    if _h : c ∈ unvisited then
      if (← results).memo.contains c then walk g room unvisited path stack
      else
        record .entered (c :: path) c
        let found ← MonadExcept.ofExcept (g.dependencies room ((CellText.body? (g.text c)).getD ""))
        let left := unvisited.erase c
        walk g room left (c :: path)
          ((found.filter left.contains).map .enter ++ .leave c :: stack)
    else walk g room unvisited path stack
termination_by stack => (unvisited.size, stack.length)
decreasing_by
  · exact Prod.Lex.right _ (by simp)
  · exact Prod.Lex.right _ (by simp)
  · exact Prod.Lex.left _ _ (Grid.size_erase_lt _h)
  · exact Prod.Lex.right _ (by simp)

/-- Start again with a walk. -/
def settle (g : Grid) (room : Nat) (start : Cell) : Tracking CellValue :=
  restoring do
    walk g room g.formulas [] [.enter start]
    return (← results).memo.getD start .failed

/-- The value of a cell. The outermost evaluation starts again if there is not enough room. -/
def valueAt (g : Grid) (room : Nat) (c : Cell) : Tracking CellValue := do
  let before := (← get).inProgress
  tryCatch (cellValue g room [] c) fun
    | .tooDeep => if before = ∅ then settle g room c else throw .tooDeep
    | f => throw f

/-- What a cell shows. -/
def display (g : Grid) (room : Nat) (c : Cell) : Tracking String :=
  if CellText.isFormula (g.text c) then CellValue.display <$> valueAt g room c
  else return g.text c

theorem run_results_bind (k : Results → Tracking α) (w : Workspace) :
    (results >>= k).run w = (k w.results).run w := rfl

theorem run_record_bind (stage : Stage) (chain : List Cell) (c : Cell) (x : Tracking α)
    (w : Workspace) : (do record stage chain c; x).run w =
      x.run { w with
        snapshots := w.snapshots ++ [⟨stage, c, chain, w.inProgress, w.results⟩] } := rfl

/-! ## Doing the same to results -/

/-- A computation that keeps track ends like one that does not, from results that satisfy `I`, which
they do again then. It leaves the set in progress, `s`, as it was, and what it writes down
satisfies `P`. -/
def Mirrors (I : Results → Prop) (P : Snapshot → Prop) (s : Finset Cell) (x : Tracking α)
    (y : Evaluation α) : Prop :=
  ∀ w : Workspace, w.inProgress = s → I w.results → I (y.run w.results).2 ∧
    ∃ more, (∀ m ∈ more, P m) ∧
      x.run w = ((y.run w.results).1, ⟨(y.run w.results).2, s, w.snapshots ++ more⟩)

variable {I : Results → Prop} {P P' : Snapshot → Prop} {s : Finset Cell} {x : Tracking α}
  {y : Evaluation α} {c d : Cell} {chain : List Cell} {stage : Stage}

/-- What keeps all as it is and answers the same. -/
theorem Mirrors.of_run {a : Except Failure α} (hx : ∀ w, x.run w = (a, w))
    (hy : ∀ r, y.run r = (a, r)) : Mirrors I P s x y := by
  rintro ⟨r, s, ms⟩ rfl hI
  rw [hx, hy]
  exact ⟨hI, [], nofun, by rw [List.append_nil]⟩

theorem Mirrors.pure (a : α) : Mirrors I P s (Pure.pure a) (Pure.pure a) :=
  .of_run (fun _ => rfl) fun _ => rfl

theorem Mirrors.throw (f : Failure) :
    Mirrors I P s (MonadExceptOf.throw f : Tracking α) (MonadExceptOf.throw f) :=
  .of_run (fun _ => rfl) fun _ => rfl

theorem Mirrors.bind {k : α → Tracking β} {l : α → Evaluation β} (h : Mirrors I P s x y)
    (hk : ∀ a, Mirrors I P s (k a) (l a)) : Mirrors I P s (x >>= k) (y >>= l) := by
  intro w hw hI
  obtain ⟨hI, more, hmore, hx⟩ := h w hw hI
  rw [ExceptT.run_bind_apply, ExceptT.run_bind_apply, hx]
  rcases hrun : y.run w.results with ⟨f | a, r⟩
  · rw [hrun] at hI
    exact ⟨hI, more, hmore, rfl⟩
  · rw [hrun] at hI
    obtain ⟨hI, more', hmore', hk⟩ := hk a ⟨r, s, w.snapshots ++ more⟩ rfl hI
    refine ⟨hI, more ++ more', List.forall_mem_append.2 ⟨hmore, hmore'⟩, ?_⟩
    rw [List.append_assoc] at hk
    exact hk

theorem Mirrors.tryCatch {k : Failure → Tracking α} {l : Failure → Evaluation α}
    (h : Mirrors I P s x y) (hk : ∀ f, Mirrors I P s (k f) (l f)) :
    Mirrors I P s (MonadExcept.tryCatch x k) (MonadExcept.tryCatch y l) := by
  intro w hw hI
  obtain ⟨hI, more, hmore, hx⟩ := h w hw hI
  rw [ExceptT.run_tryCatch_apply, ExceptT.run_tryCatch_apply, hx]
  rcases hrun : y.run w.results with ⟨f | a, r⟩
  · rw [hrun] at hI
    obtain ⟨hI, more', hmore', hk⟩ := hk f ⟨r, s, w.snapshots ++ more⟩ rfl hI
    refine ⟨hI, more ++ more', List.forall_mem_append.2 ⟨hmore, hmore'⟩, ?_⟩
    rw [List.append_assoc] at hk
    exact hk
  · rw [hrun] at hI
    exact ⟨hI, more, hmore, rfl⟩

theorem compatible_mirrors :
    ExceptT.Compatible fun α (x : Tracking α) (y : Evaluation α) => Mirrors I P s x y where
  pure := .pure
  throw := .throw
  bind := .bind

theorem Mirrors.mono (h : Mirrors I P s x y) (hP : ∀ m, P m → P' m) : Mirrors I P' s x y := by
  intro w hw hI
  obtain ⟨hI, more, hmore, hx⟩ := h w hw hI
  exact ⟨hI, more, fun m hm => hP m (hmore m hm), hx⟩

theorem Mirrors.results_bind {k : Results → Tracking α} {l : Results → Evaluation α}
    (h : ∀ r, I r → Mirrors I P s (k r) (l r)) :
    Mirrors I P s (do k (← results)) (do l (← get)) :=
  fun w hw hI => h w.results hI w hw hI

/-- The set in progress is looked at. -/
theorem Mirrors.get_bind {k : Workspace → Tracking α}
    (h : ∀ w : Workspace, w.inProgress = s → Mirrors I P s (k w) y) :
    Mirrors I P s (do k (← get)) y :=
  fun w hw hI => h w hw w hw hI

theorem Mirrors.update_bind {u : Results → Results} (hu : ∀ r, I r → I (u r))
    (h : Mirrors I P s x y) : Mirrors I P s (do update u; x) (do modify u; y) := by
  rintro ⟨r, s, ms⟩ rfl hI
  exact h ⟨u r, s, ms⟩ rfl (hu r hI)

/-- A computation writes down a snapshot of its own first, and what follows satisfies `P`. -/
def MirrorsFrom (I : Results → Prop) (P : Snapshot → Prop) (s : Finset Cell)
    (first : Results → Snapshot) (x : Tracking α) (y : Evaluation α) : Prop :=
  ∀ w : Workspace, w.inProgress = s → I w.results → I (y.run w.results).2 ∧
    ∃ more, (∀ m ∈ more, P m) ∧ x.run w =
      ((y.run w.results).1, ⟨(y.run w.results).2, s, w.snapshots ++ first w.results :: more⟩)

variable {first : Results → Snapshot}

theorem Mirrors.record_bind (h : Mirrors I P s x y) :
    MirrorsFrom I P s (fun r => ⟨stage, c, chain, s, r⟩) (do record stage chain c; x) y := by
  rintro ⟨r, s, ms⟩ rfl hI
  obtain ⟨hI, more, hmore, hx⟩ := h ⟨r, s, ms ++ [⟨stage, c, chain, s, r⟩]⟩ rfl hI
  refine ⟨hI, more, hmore, ?_⟩
  rw [List.append_assoc] at hx
  exact hx

theorem MirrorsFrom.mirrors (h : MirrorsFrom I P s first x y) (hP : ∀ r, I r → P (first r)) :
    Mirrors I P s x y := by
  intro w hw hI
  obtain ⟨hI', more, hmore, hx⟩ := h w hw hI
  exact ⟨hI', _ :: more, List.forall_mem_cons.2 ⟨hP _ hI, hmore⟩, hx⟩

theorem MirrorsFrom.tryCatch {k : Failure → Tracking α} {l : Failure → Evaluation α}
    (h : MirrorsFrom I P s first x y) (hk : ∀ f, Mirrors I P s (k f) (l f)) :
    MirrorsFrom I P s first (MonadExcept.tryCatch x k) (MonadExcept.tryCatch y l) := by
  intro w hw hI
  obtain ⟨hI, more, hmore, hx⟩ := h w hw hI
  rw [ExceptT.run_tryCatch_apply, ExceptT.run_tryCatch_apply, hx]
  rcases hrun : y.run w.results with ⟨f | a, r⟩
  · rw [hrun] at hI
    obtain ⟨hI, more', hmore', hk⟩ := hk f ⟨r, s, w.snapshots ++ first w.results :: more⟩ rfl hI
    refine ⟨hI, more ++ more', List.forall_mem_append.2 ⟨hmore, hmore'⟩, ?_⟩
    rw [List.append_assoc] at hk
    exact hk
  · rw [hrun] at hI
    exact ⟨hI, more, hmore, rfl⟩

theorem MirrorsFrom.during (hc : c ∉ s) (h : MirrorsFrom I P (insert c s) first x y) :
    MirrorsFrom I P s first (during c x) y := by
  rintro ⟨r, s, ms⟩ rfl hI
  obtain ⟨hI, more, hmore, hx⟩ := h ⟨r, insert c s, ms⟩ rfl hI
  refine ⟨hI, more, hmore, ?_⟩
  have hrun : (Tracking.during c x).run ⟨r, s, ms⟩ =
      ((x.run ⟨r, insert c s, ms⟩).1,
        { (x.run ⟨r, insert c s, ms⟩).2 with
          inProgress := (x.run ⟨r, insert c s, ms⟩).2.inProgress.erase c }) := rfl
  rw [hrun, hx]
  simp only [Finset.erase_insert hc]

/-! ## One formula -/

variable {room : Nat} {body : String}

theorem evaluate_mirrors {answer : Nat → Cell → Tracking CellValue}
    {answer' : Nat → Cell → Evaluation CellValue} (hc : c ∉ s)
    (hsucceed : ∀ r, I r → I (r.succeed c)) (hfail : ∀ r f, I r → I (r.fail c f))
    (ha : ∀ e, Expr.ofBody room body = .ok e → ∀ level, ∀ d ∈ e.cells,
      Mirrors I P (insert c s) (answer level d) (answer' level d)) :
    MirrorsFrom I P s (fun r => ⟨stage, c, c :: chain, insert c s, r⟩)
      (evaluate stage room chain c body answer) (Spreadsheet.evaluate room c body answer') := by
  refine .during hc (Mirrors.record_bind (.tryCatch ?_ ?_))
  · rcases he : Expr.ofBody room body with f | e
    · exact .throw f
    · have hvalue : Mirrors I P (insert c s)
          (e.value ⟨answer, fun level => MonadExcept.ofExcept (Formula.enter room level)⟩)
          (e.value ⟨answer', fun level => MonadExcept.ofExcept (Formula.enter room level)⟩) :=
        Expr.value_alike (R := fun _ x y => Mirrors I P (insert c s) x y) compatible_mirrors
          ⟨fun level d hd => ha e he level d hd, fun _ => compatible_mirrors.ofExcept _⟩
      exact hvalue.bind fun x => .update_bind hsucceed (.pure _)
  · intro f
    cases f with
    | rejected q => exact .update_bind (fun r hr => hfail r _ hr) (.pure _)
    | tooDeep => exact .throw _
    | tooLong t => exact .throw _

end Tracking

/-! ## Chains of references -/

/-- Cells each of which is referred to by the next one, none of them twice. -/
structure Grid.Trail (g : Grid) (room : Nat) (chain : List Cell) : Prop where
  linked : chain.IsChain fun d c => g.DependsOn room c d
  nodup : chain.Nodup

/-- **The set in progress is a chain of references** in a snapshot: it holds the cells being
evaluated, each of which is referred to by the one before. The cell that a walk enters is not in
progress. -/
structure Snapshot.InStep (g : Grid) (room : Nat) (m : Snapshot) : Prop where
  trail : g.Trail room m.chain
  progress : m.stage ≠ .entered → m.inProgress = m.chain.toFinset
  asked : m.stage = .asked → CellText.isFormula (g.text m.cell) = true →
    ∀ c ∈ m.chain.head?, g.DependsOn room c m.cell
  top : m.stage ≠ .asked → m.chain.head? = some m.cell

variable {g : Grid} {room : Nat} {c d : Cell} {chain : List Cell} {body : String} {r : Results}

theorem Grid.trail_nil : g.Trail room [] := ⟨.nil, .nil⟩

theorem Grid.Trail.cons (h : g.Trail room chain) (hc : c ∉ chain)
    (hlink : ∀ p ∈ chain.head?, g.DependsOn room p c) : g.Trail room (c :: chain) :=
  ⟨List.isChain_cons.2 ⟨hlink, h.linked⟩, List.nodup_cons.2 ⟨hc, h.nodup⟩⟩

theorem Grid.Trail.inStep_asked (h : g.Trail room chain)
    (hlink : CellText.isFormula (g.text c) = true → ∀ p ∈ chain.head?, g.DependsOn room p c) :
    Snapshot.InStep g room ⟨.asked, c, chain, chain.toFinset, r⟩ :=
  ⟨h, fun _ => rfl, fun _ => hlink, fun hstage => absurd rfl hstage⟩

/-- The evaluation of the last cell of a chain. -/
theorem Grid.Trail.inStep_top (h : g.Trail room (c :: chain)) {stage : Stage}
    (hstage : stage ≠ .asked) :
    Snapshot.InStep g room ⟨stage, c, c :: chain, insert c chain.toFinset, r⟩ :=
  ⟨h, fun _ => List.toFinset_cons.symm, fun hasked => absurd hasked hstage, fun _ => rfl⟩

namespace Tracking

variable {I : Results → Prop} {P : Snapshot → Prop}

/-- **Asking recursively** does the same to results, and the set in progress is a chain of
references all the time. -/
theorem cellValue_mirrors {room' : Nat} (hroom : room' ≤ room) (hchain : g.Trail room chain)
    (hlink : CellText.isFormula (g.text c) = true → ∀ p ∈ chain.head?, g.DependsOn room p c) :
    Mirrors (fun _ => True) (Snapshot.InStep g room) chain.toFinset (cellValue g room' chain c)
      (g.cellValue room' chain c) := by
  induction room' using Nat.strong_induction_on generalizing chain c with
  | _ room' ih =>
  rw [cellValue, Grid.cellValue]
  refine (Mirrors.record_bind (.results_bind fun r _ => ?_)).mirrors fun r _ =>
    hchain.inStep_asked hlink
  cases r.memo[c]? with
  | some v => exact .pure v
  | none =>
    cases hb : CellText.body? (g.text c) with
    | none => exact .pure _
    | some body =>
      refine .get_bind fun w hw => ?_
      simp only [hw, List.mem_toFinset]
      split
      · exact .pure _
      · rename_i hc
        split
        · exact .throw _
        · rename_i hpos
          have hformula := CellText.isFormula_iff.2 ⟨body, hb⟩
          have hchain' := hchain.cons hc (hlink hformula)
          have hbegun (r : Results) : Snapshot.InStep g room
              ⟨.begun, c, c :: chain, insert c chain.toFinset, r⟩ := hchain'.inStep_top (by decide)
          refine .bind ((evaluate_mirrors (by rwa [List.mem_toFinset]) (fun _ _ => trivial)
            (fun _ _ _ => trivial) fun e he level d hd => ?_).mirrors fun r _ => hbegun r)
            fun v => .update_bind (fun _ _ => trivial) (.pure v)
          rw [← List.toFinset_cons]
          refine ih _ (by unfold referenceCost; omega) (by omega) hchain' fun hf p hp => ?_
          obtain rfl : c = p := Option.some.inj hp
          have he' := (Grid.compatible_of_le hroom c body hb).1 e he
          exact (Grid.dependsOn_iff hb he').2 ⟨hf, hd⟩

/-- **A reference that is answered at once** begins no evaluation. -/
theorem cellValue_mirrors_known {room' : Nat}
    (hP : ∀ r, I r → P ⟨.asked, c, chain, chain.toFinset, r⟩)
    (hknown : ∀ r, I r → c ∈ r.memo ∨ c ∈ chain ∨ ¬ CellText.isFormula (g.text c) = true) :
    Mirrors I P chain.toFinset (cellValue g room' chain c) (g.cellValue room' chain c) := by
  rw [cellValue, Grid.cellValue]
  refine (Mirrors.record_bind (.results_bind fun r hr => ?_)).mirrors hP
  cases hm : r.memo[c]? with
  | some v => exact .pure v
  | none =>
    cases hb : CellText.body? (g.text c) with
    | none => exact .pure _
    | some body =>
      have hmem : c ∉ r.memo := by simp [Std.HashMap.mem_iff_isSome_getElem?, hm]
      have hc : c ∈ chain := ((hknown r hr).resolve_left hmem).resolve_right
        (not_not_intro (CellText.isFormula_iff.2 ⟨body, hb⟩))
      refine .get_bind fun w hw => ?_
      simp only [hw, List.mem_toFinset, if_pos hc]
      exact .pure _

end Tracking

end Spreadsheet
