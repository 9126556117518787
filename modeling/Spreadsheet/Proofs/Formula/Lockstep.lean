import Spreadsheet.Proofs.Formula.Context
import Spreadsheet.Proofs.Formula.Dependence

/-!
# Evaluations in lockstep

Two computations go in lockstep if from every state of a kind they end alike, with the same answer
or the same failure and in the same state, which is again of that kind. Evaluations of a tree go in
lockstep where the answers to its references do, and a part of a tree can be replaced by another one
that is evaluated in lockstep with it.

* `ExceptT.Lockstep`, with one rule for every way of building a computation;
* **`Expr.eval_lockstep`**: one tree in two surroundings;
* **`Context.eval_lockstep`**: two parts in one context.
-/

namespace ExceptT

variable {ε σ α β : Type}

/-- Two computations end alike from every state that satisfies `I`, in a state that does so too. -/
def Lockstep (I : σ → Prop) (x y : ExceptT ε (StateM σ) α) : Prop :=
  ∀ r, I r → x.run r = y.run r ∧ I (x.run r).2

namespace Lockstep

variable {I : σ → Prop} {x y : ExceptT ε (StateM σ) α}

theorem pure (a : α) : Lockstep I (Pure.pure a : ExceptT ε (StateM σ) α) (Pure.pure a) :=
  fun _ h => ⟨rfl, h⟩

theorem throw (f : ε) :
    Lockstep I (MonadExceptOf.throw f : ExceptT ε (StateM σ) α) (MonadExceptOf.throw f) :=
  fun _ h => ⟨rfl, h⟩

theorem ofExcept (x : Except ε α) :
    Lockstep I (MonadExcept.ofExcept x : ExceptT ε (StateM σ) α) (MonadExcept.ofExcept x) := by
  cases x with
  | error f => exact throw f
  | ok a => exact pure a

theorem get : Lockstep I (MonadState.get : ExceptT ε (StateM σ) σ) MonadState.get :=
  fun _ h => ⟨rfl, h⟩

theorem bind {k l : α → ExceptT ε (StateM σ) β} (h : Lockstep I x y)
    (hk : ∀ a, Lockstep I (k a) (l a)) : Lockstep I (x >>= k) (y >>= l) := by
  intro r hr
  obtain ⟨hsame, hI⟩ := h r hr
  rw [run_bind_apply, run_bind_apply, ← hsame]
  rcases hrun : x.run r with ⟨f | a, r'⟩
  · rw [hrun] at hI
    exact ⟨rfl, hI⟩
  · rw [hrun] at hI
    exact hk a r' hI

theorem modify_bind {u : σ → σ} (hu : ∀ r, I r → I (u r)) (h : Lockstep I x y) :
    Lockstep I (do modify u; x) (do modify u; y) := by
  have hmodify : Lockstep I (modify u : ExceptT ε (StateM σ) PUnit) (modify u) :=
    fun r hr => ⟨rfl, hu r hr⟩
  exact hmodify.bind fun _ => h

theorem map (h : Lockstep I x y) (u : α → β) : Lockstep I (u <$> x) (u <$> y) := by
  rw [map_eq_pure_bind, map_eq_pure_bind]
  exact h.bind fun a => pure (u a)

theorem tryCatch {k l : ε → ExceptT ε (StateM σ) α} (h : Lockstep I x y)
    (hk : ∀ f, Lockstep I (k f) (l f)) :
    Lockstep I (MonadExcept.tryCatch x k) (MonadExcept.tryCatch y l) := by
  intro r hr
  obtain ⟨hsame, hI⟩ := h r hr
  rw [run_tryCatch_apply, run_tryCatch_apply, ← hsame]
  rcases hrun : x.run r with ⟨f | a, r'⟩
  · rw [hrun] at hI
    exact hk f r' hI
  · rw [hrun] at hI
    exact ⟨rfl, hI⟩

end Lockstep

theorem Compatible.lockstep {I : σ → Prop} :
    Compatible fun α (x y : ExceptT ε (StateM σ) α) => Lockstep I x y where
  pure := Lockstep.pure
  throw := Lockstep.throw
  bind := Lockstep.bind

end ExceptT

namespace Spreadsheet.Formula

open ExceptT (Lockstep)

variable {σ : Type} {I : σ → Prop} {env env' : Surroundings (ExceptT Failure (StateM σ))}
  {s t : Expr}

/-- Surroundings that answer in lockstep. -/
structure Surroundings.Agree (I : σ → Prop) (env env' : Surroundings (ExceptT Failure (StateM σ))) :
    Prop where
  cell (level : Nat) (c : Cell) : Lockstep I (env.cell level c) (env'.cell level c)
  enter (level : Nat) : Lockstep I (env.enter level) (env'.enter level)

theorem Operand.lockstep_scalar (x : Operand) :
    Lockstep I (x.scalar : ExceptT Failure (StateM σ) Outcome) x.scalar := by
  cases x with
  | number y => exact .pure y
  | range xs => exact .throw _

/-! ## Trees -/

theorem Expr.lockstep_signed (h : env.Agree I env') (sign : Sign) {level : Nat}
    (hs : Lockstep I (s.eval env (level + 1)) (t.eval env' (level + 1))) :
    Lockstep I ((Expr.signed sign s).eval env level) ((Expr.signed sign t).eval env' level) := by
  simp only [Expr.eval]
  exact (h.enter level).bind fun _ => hs.bind fun x => x.lockstep_scalar.bind fun y => .pure _

theorem Expr.lockstep_binary (h : env.Agree I env') (op : Operator) {l r : Expr} {level : Nat}
    (hl : Lockstep I (l.eval env (level + 1)) (s.eval env' (level + 1)))
    (hr : Lockstep I (r.eval env (level + 1)) (t.eval env' (level + 1))) :
    Lockstep I ((Expr.binary op l r).eval env level) ((Expr.binary op s t).eval env' level) := by
  simp only [Expr.eval]
  refine (h.enter level).bind fun _ => hl.bind fun x => x.lockstep_scalar.bind fun a => ?_
  cases a with
  | error code => exact .pure _
  | ok a =>
    refine hr.bind fun y => y.lockstep_scalar.bind fun b => ?_
    cases b with
    | error code => exact .pure _
    | ok b => exact .pure _

theorem Expr.lockstep_call (h : env.Agree I env') (name : List Char) {ss ts : List Expr}
    {level : Nat} (hargs : Lockstep I (Expr.evalArguments env (level + 2) ss)
      (Expr.evalArguments env' (level + 2) ts)) :
    Lockstep I ((Expr.call name ss).eval env level) ((Expr.call name ts).eval env' level) := by
  simp only [Expr.eval]
  refine (h.enter level).bind fun _ => ?_
  cases Function.ofName? (upperName name) with
  | none => exact .throw _
  | some f => exact hargs.bind fun xs => .pure _

theorem Expr.lockstep_cons {level : Nat} {ss ts : List Expr}
    (hs : Lockstep I (s.eval env level) (t.eval env' level))
    (hrest : Lockstep I (Expr.evalArguments env level ss) (Expr.evalArguments env' level ts)) :
    Lockstep I (Expr.evalArguments env level (s :: ss))
      (Expr.evalArguments env' level (t :: ts)) := by
  simp only [Expr.evalArguments]
  exact hs.bind fun x => hrest.bind fun xs => .pure _

/-- **A tree is evaluated in lockstep** with itself, where the answers to its references are. -/
theorem Expr.eval_lockstep (h : env.Agree I env') (e : Expr) (level : Nat) :
    Lockstep I (e.eval env level) (e.eval env' level) :=
  Expr.eval_alike .lockstep e level ⟨fun level _ _ => h.cell level _, h.enter⟩

theorem Expr.evalArguments_lockstep (h : env.Agree I env') (es : List Expr) (level : Nat) :
    Lockstep I (Expr.evalArguments env level es) (Expr.evalArguments env' level es) :=
  Expr.evalArguments_alike .lockstep es level ⟨fun level _ _ => h.cell level _, h.enter⟩

/-- **Parts that are evaluated in lockstep** are so in any context. -/
theorem Context.eval_lockstep (h : env.Agree I env')
    (hst : ∀ level, Lockstep I (s.eval env level) (t.eval env' level)) (C : Context) :
    ∀ level, Lockstep I ((C.fill s).eval env level) ((C.fill t).eval env' level) := by
  induction C with
  | hole => exact hst
  | signed sign C ih => exact fun level => Expr.lockstep_signed h sign (ih (level + 1))
  | left op C r ih =>
    exact fun level => Expr.lockstep_binary h op (ih (level + 1)) (Expr.eval_lockstep h r _)
  | right op l C ih =>
    exact fun level => Expr.lockstep_binary h op (Expr.eval_lockstep h l _) (ih (level + 1))
  | argument name before C after ih =>
    intro level
    refine Expr.lockstep_call h name ?_
    induction before with
    | nil => exact Expr.lockstep_cons (ih _) (Expr.evalArguments_lockstep h after _)
    | cons e before ihargs => exact Expr.lockstep_cons (Expr.eval_lockstep h e _) ihargs

theorem Expr.value_lockstep (hst : Lockstep I (s.eval env 0) (t.eval env' 0)) :
    Lockstep I (s.value env) (t.value env') :=
  hst.bind fun x => x.lockstep_scalar

end Spreadsheet.Formula
