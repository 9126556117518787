import Spreadsheet.Proofs.Formula.Evaluation

/-!
# What an evaluation depends on

How a tree is evaluated depends on the answers for the cells that it reads, and on nothing else. It
does not matter here what it means that answers are alike, as long as computations that are made of
such parts in the same way are alike again.

* `ExceptT.Compatible`: a way of being alike; `Compatible.eq`; `ExceptT.Follows`: two computations
  end alike unless the second one stops for a certain reason, **`Compatible.follows`**;
* **`Expr.eval_alike`**: a tree in two surroundings; `Expr.value_alike`: a whole formula.
-/

namespace ExceptT

variable {ε σ τ α β : Type}

/-- A way for two computations, on states of their own, to be alike that is kept when computations
are composed. -/
structure Compatible (R : ∀ α : Type, ExceptT ε (StateM σ) α → ExceptT ε (StateM τ) α → Prop) :
    Prop where
  pure {α : Type} (a : α) : R α (Pure.pure a) (Pure.pure a)
  throw {α : Type} (f : ε) : R α (MonadExceptOf.throw f) (MonadExceptOf.throw f)
  bind {α β : Type} {x : ExceptT ε (StateM σ) α} {y : ExceptT ε (StateM τ) α}
    {k : α → ExceptT ε (StateM σ) β} {l : α → ExceptT ε (StateM τ) β} :
    R α x y → (∀ a, R β (k a) (l a)) → R β (x >>= k) (y >>= l)

theorem Compatible.eq : Compatible fun α (x y : ExceptT ε (StateM σ) α) => x = y where
  pure _ := rfl
  throw _ := rfl
  bind h hk := congrArg₂ _ h (funext hk)

variable {x y : ExceptT ε (StateM σ) α} {stop : ε → Prop}

/-- Two computations end alike from every state from which the second one does not stop for a reason
of a kind. -/
def Follows (stop : ε → Prop) (x y : ExceptT ε (StateM σ) α) : Prop :=
  ∀ r, (∀ f, (y.run r).1 = .error f → ¬ stop f) → x.run r = y.run r

theorem Compatible.follows :
    Compatible fun α (x y : ExceptT ε (StateM σ) α) => Follows stop x y where
  pure _ _ _ := rfl
  throw _ _ _ := rfl
  bind {α β x y k l} h hk r hstop := by
    rw [run_bind_apply] at hstop ⊢
    rw [run_bind_apply]
    rcases hrun : y.run r with ⟨f | a, r'⟩
    · rw [hrun] at hstop
      have hnot : ¬ stop f := hstop f rfl
      have hsame : x.run r = y.run r := h r fun f' hf' => by
        rw [hrun] at hf'
        exact Except.error.inj hf' ▸ hnot
      rw [hsame, hrun]
    · rw [hrun] at hstop
      have hsame : x.run r = y.run r := h r (hrun ▸ nofun)
      rw [hsame, hrun]
      exact hk a r' hstop

namespace Compatible

variable {R : ∀ α : Type, ExceptT ε (StateM σ) α → ExceptT ε (StateM τ) α → Prop}
  (hR : Compatible R)
include hR

theorem ofExcept (x : Except ε α) : R α (MonadExcept.ofExcept x) (MonadExcept.ofExcept x) := by
  cases x with
  | error f => exact hR.throw f
  | ok a => exact hR.pure a

theorem map {x : ExceptT ε (StateM σ) α} {y : ExceptT ε (StateM τ) α} (h : R α x y) (u : α → β) :
    R β (u <$> x) (u <$> y) := by
  rw [map_eq_pure_bind, map_eq_pure_bind]
  exact hR.bind h fun a => hR.pure (u a)

theorem mapM {k : β → ExceptT ε (StateM σ) α} {l : β → ExceptT ε (StateM τ) α} {bs : List β}
    (h : ∀ b ∈ bs, R α (k b) (l b)) : R (List α) (bs.mapM k) (bs.mapM l) := by
  induction bs with
  | nil => exact hR.pure []
  | cons b bs ih =>
    rw [List.mapM_cons, List.mapM_cons]
    obtain ⟨hb, hbs⟩ := List.forall_mem_cons.1 h
    exact hR.bind hb fun a => hR.bind (ih hbs) fun as => hR.pure (a :: as)

end Compatible

end ExceptT

namespace Spreadsheet.Formula

open ExceptT (Compatible)

variable {σ τ : Type}
  {R : ∀ α : Type, ExceptT Failure (StateM σ) α → ExceptT Failure (StateM τ) α → Prop}
  {env : Surroundings (ExceptT Failure (StateM σ))}
  {env' : Surroundings (ExceptT Failure (StateM τ))}

/-- Surroundings that answer for some cells alike. -/
structure Surroundings.AgreeOn
    (R : ∀ α : Type, ExceptT Failure (StateM σ) α → ExceptT Failure (StateM τ) α → Prop)
    (cells : List Cell) (env : Surroundings (ExceptT Failure (StateM σ)))
    (env' : Surroundings (ExceptT Failure (StateM τ))) : Prop where
  cell (level : Nat) {c : Cell} : c ∈ cells → R _ (env.cell level c) (env'.cell level c)
  enter (level : Nat) : R _ (env.enter level) (env'.enter level)

theorem Surroundings.AgreeOn.mono {cells cells' : List Cell} (h : env.AgreeOn R cells env')
    (hsub : ∀ c ∈ cells', c ∈ cells) : env.AgreeOn R cells' env' where
  cell level _ hc := h.cell level (hsub _ hc)
  enter := h.enter

variable (hR : Compatible R)
include hR

theorem Operand.scalar_alike (x : Operand) : R _ x.scalar x.scalar := by
  cases x with
  | number y => exact hR.pure y
  | range xs => exact hR.throw _

/-- Answers to a reference, if the token of it names a cell at all. -/
theorem resolve_alike {β : Type} (position : Nat) (p : Reference.Parts)
    {k : Reference → ExceptT Failure (StateM σ) β} {l : Reference → ExceptT Failure (StateM τ) β}
    (h : ∀ r : Reference, r.cell = p.target → R _ (k r) (l r)) :
    R _ (MonadExcept.ofExcept (resolve position p) >>= k)
      (MonadExcept.ofExcept (resolve position p) >>= l) := by
  have hfailure (f : Failure) : R β (MonadExcept.ofExcept (.error f) >>= k)
      (MonadExcept.ofExcept (.error f) >>= l) := hR.throw f
  unfold resolve
  rcases hr : p.resolve? with e | _ | r
  · exact hfailure _
  · exact hfailure _
  · refine h r ?_
    rw [Reference.Parts.target, hr]

mutual

/-- **A tree is evaluated alike** where the answers for the cells that it reads are alike. -/
theorem Expr.eval_alike : ∀ (e : Expr) (level : Nat), env.AgreeOn R e.cells env' →
    R _ (e.eval env level) (e.eval env' level)
  | .number n, level, h => by
    simp only [Expr.eval]
    exact hR.bind (h.enter level) fun _ => hR.pure _
  | .cell parts position, level, h => by
    simp only [Expr.eval]
    refine hR.bind (h.enter level) fun _ => resolve_alike hR position parts fun r hr => ?_
    exact hR.bind (h.cell level (by simp [hr])) fun v => hR.pure _
  | .range first last position, level, h => by
    simp only [Expr.eval]
    refine hR.bind (h.enter level) fun _ => resolve_alike hR position first fun r hr =>
      resolve_alike hR position last fun r' hr' => hR.bind (hR.mapM fun c hc => ?_) fun xs =>
        hR.pure _
    rw [hr, hr', ← Expr.cells_range first last position] at hc
    exact hR.map (h.cell (level + 1) hc) CellValue.number
  | .signed sign e, level, h => by
    simp only [Expr.eval]
    exact hR.bind (h.enter level) fun _ => hR.bind (Expr.eval_alike e (level + 1) h) fun x =>
      hR.bind (x.scalar_alike hR) fun y => hR.pure _
  | .binary op l r, level, h => by
    rw [Expr.cells_binary] at h
    have hl := Expr.eval_alike l (level + 1) (h.mono fun _ => List.mem_append_left _)
    have hr := Expr.eval_alike r (level + 1) (h.mono fun _ => List.mem_append_right _)
    simp only [Expr.eval]
    refine hR.bind (h.enter level) fun _ => hR.bind hl fun x => hR.bind (x.scalar_alike hR) ?_
    rintro (code | a)
    · exact hR.pure _
    · refine hR.bind hr fun y => hR.bind (y.scalar_alike hR) ?_
      rintro (code | b)
      · exact hR.pure _
      · exact hR.pure _
  | .call name args, level, h => by
    simp only [Expr.eval]
    refine hR.bind (h.enter level) fun _ => ?_
    cases Function.ofName? (upperName name) with
    | none => exact hR.throw _
    | some f =>
      exact hR.bind (Expr.evalArguments_alike args (level + 2) h) fun xs => hR.pure _

theorem Expr.evalArguments_alike : ∀ (es : List Expr) (level : Nat),
    env.AgreeOn R (Expr.cellsAll es) env' →
      R _ (Expr.evalArguments env level es) (Expr.evalArguments env' level es)
  | [], _, _ => by
    simp only [Expr.evalArguments]
    exact hR.pure []
  | e :: es, level, h => by
    rw [Expr.cellsAll_cons] at h
    have he := Expr.eval_alike e level (h.mono fun _ => List.mem_append_left _)
    have hes := Expr.evalArguments_alike es level (h.mono fun _ => List.mem_append_right _)
    simp only [Expr.evalArguments]
    exact hR.bind he fun x => hR.bind hes fun xs => hR.pure _

end

theorem Expr.value_alike {e : Expr} (h : env.AgreeOn R e.cells env') :
    R _ (e.value env) (e.value env') :=
  hR.bind (Expr.eval_alike hR e 0 h) fun x => x.scalar_alike hR

end Spreadsheet.Formula
