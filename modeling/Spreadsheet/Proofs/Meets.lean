import Mathlib.Data.List.Forall2

/-!
# What computations achieve

A computation that may fail, started in some state, ends with an answer or a failure and in a new
state in both cases. `ExceptT.Meets` says what holds of either end; there is one rule for every way
of building a computation.

* `ExceptT.Meets`, `Meets.imp`; `Meets.of_run_ok`, `Meets.of_run_error`, `Meets.of_error`: a run
  that is known;
* `run_bind_apply`, `run_get_bind`, `run_ofExcept_bind`, `run_tryCatch_apply`: where a run goes;
* `meets_bind`, `meets_map`, `meets_tryCatch`, `meets_ofExcept`, `meets_get`, `meets_modify`;
* `Meets.mapM`: one computation for every element of a list.
-/

namespace ExceptT

variable {ε σ α β : Type}

/-- A computation started in `r` ends with an answer in a state that satisfies `P`, or with a
failure in a state that satisfies `E`. -/
def Meets (x : ExceptT ε (StateM σ) α) (r : σ) (P : α → σ → Prop) (E : ε → σ → Prop) : Prop :=
  match x.run r with
  | (.ok a, r') => P a r'
  | (.error f, r') => E f r'

variable {x : ExceptT ε (StateM σ) α} {a : α} {f : ε} {r r' : σ} {P P' : α → σ → Prop}
  {E E' : ε → σ → Prop}

theorem Meets.imp (h : x.Meets r P E) (hP : ∀ a r', P a r' → P' a r')
    (hE : ∀ f r', E f r' → E' f r') : x.Meets r P' E' := by
  revert h
  unfold Meets
  rcases x.run r with ⟨_ | _, r'⟩
  · exact hE _ _
  · exact hP _ _

theorem Meets.of_run_ok (h : x.Meets r P E) (hrun : x.run r = (.ok a, r')) : P a r' := by
  unfold Meets at h
  rwa [hrun] at h

theorem Meets.of_run_error (h : x.Meets r P E) (hrun : x.run r = (.error f, r')) : E f r' := by
  unfold Meets at h
  rwa [hrun] at h

theorem Meets.of_error (h : x.Meets r P E) (hf : (x.run r).1 = .error f) : E f (x.run r).2 :=
  h.of_run_error (Prod.ext hf rfl)

theorem Meets.exists_ok (h : x.Meets r P fun _ _ => False) :
    ∃ a r', x.run r = (.ok a, r') ∧ P a r' := by
  revert h
  unfold Meets
  rcases x.run r with ⟨_ | a, r'⟩
  · exact False.elim
  · exact fun h => ⟨a, r', rfl, h⟩

/-! ## Rules -/

@[simp] theorem meets_pure (a : α) :
    (pure a : ExceptT ε (StateM σ) α).Meets r P E ↔ P a r := Iff.rfl

@[simp] theorem meets_get {P : σ → σ → Prop} :
    (get : ExceptT ε (StateM σ) σ).Meets r P E ↔ P r r := Iff.rfl

@[simp] theorem meets_modify {P : Unit → σ → Prop} (u : σ → σ) :
    (modify u : ExceptT ε (StateM σ) Unit).Meets r P E ↔ P () (u r) := Iff.rfl

@[simp] theorem meets_set {P : PUnit → σ → Prop} (r' : σ) :
    (set r' : ExceptT ε (StateM σ) PUnit).Meets r P E ↔ P ⟨⟩ r' := Iff.rfl

theorem meets_ofExcept (x : Except ε α) :
    (MonadExcept.ofExcept x : ExceptT ε (StateM σ) α).Meets r P E ↔ match x with
      | .ok a => P a r
      | .error f => E f r := by
  cases x <;> rfl

theorem run_bind_apply (x : ExceptT ε (StateM σ) β) (k : β → ExceptT ε (StateM σ) α) (r : σ) :
    (x >>= k).run r = match x.run r with
      | (.ok b, r') => (k b).run r'
      | (.error f, r') => (.error f, r') := by
  change StateT.bind x.run (ExceptT.bindCont k) r = _
  unfold StateT.bind
  rcases h : x.run r with ⟨_ | _, r'⟩ <;> rfl

theorem run_get_bind (k : σ → ExceptT ε (StateM σ) α) (r : σ) : (get >>= k).run r = (k r).run r :=
  rfl

theorem run_ofExcept_bind (x : Except ε β) (k : β → ExceptT ε (StateM σ) α) (r : σ) :
    ((MonadExcept.ofExcept x : ExceptT ε (StateM σ) β) >>= k).run r = match x with
      | .ok b => (k b).run r
      | .error f => (.error f, r) := by
  cases x <;> rfl

theorem run_tryCatch_apply (x : ExceptT ε (StateM σ) α) (k : ε → ExceptT ε (StateM σ) α) (r : σ) :
    (tryCatch x k).run r = match x.run r with
      | (.ok a, r') => (.ok a, r')
      | (.error f, r') => (k f).run r' := by
  simp only [tryCatch, MonadExceptOf.tryCatch, tryCatchThe, ExceptT.tryCatch, ExceptT.run,
    ExceptT.mk, bind, StateT.bind]
  rcases h : x r with ⟨_ | _, r'⟩ <;> rfl

theorem meets_bind (x : ExceptT ε (StateM σ) β) (k : β → ExceptT ε (StateM σ) α) :
    (x >>= k).Meets r P E ↔ x.Meets r (fun b r' => (k b).Meets r' P E) E := by
  unfold Meets
  rw [run_bind_apply]
  rcases h : x.run r with ⟨_ | _, r'⟩ <;> rfl

/-- Where failures do not matter, it is enough that all is well from any answer on. -/
theorem meets_bind_of_forall {x : ExceptT ε (StateM σ) β} {k : β → ExceptT ε (StateM σ) α}
    (h : ∀ b r', (k b).Meets r' P fun _ _ => True) : (x >>= k).Meets r P fun _ _ => True := by
  rw [meets_bind]
  unfold Meets
  rcases x.run r with ⟨_ | b, r'⟩
  · trivial
  · exact h b r'

theorem meets_tryCatch (x : ExceptT ε (StateM σ) α) (k : ε → ExceptT ε (StateM σ) α) :
    (tryCatch x k).Meets r P E ↔ x.Meets r P fun f r' => (k f).Meets r' P E := by
  unfold Meets
  rw [run_tryCatch_apply]
  rcases h : x.run r with ⟨_ | _, r'⟩ <;> rfl

theorem meets_map (x : ExceptT ε (StateM σ) β) (k : β → α) :
    (k <$> x).Meets r P E ↔ x.Meets r (fun b r' => P (k b) r') E := by
  rw [map_eq_pure_bind, meets_bind]
  rfl

/-! ## Lists -/

/-- Computations for all elements of a list, each of which keeps an invariant `I` and ends with an
answer related to its element. -/
theorem Meets.mapM {I : σ → Prop} {F : ε → σ → Prop} {R : α → β → Prop}
    {k : β → ExceptT ε (StateM σ) α} : ∀ {bs : List β} {r : σ},
    (∀ b ∈ bs, ∀ r, I r → (k b).Meets r (fun a r' => I r' ∧ R a b) F) → I r →
      (bs.mapM k).Meets r (fun as r' => I r' ∧ List.Forall₂ R as bs) F
  | [], r, _, hr => by
    rw [List.mapM_nil, meets_pure]
    exact ⟨hr, .nil⟩
  | b :: bs, r, h, hr => by
    rw [List.mapM_cons, meets_bind]
    refine (h b (by simp) r hr).imp (fun a r' ⟨hr', ha⟩ => ?_) fun _ _ => id
    rw [meets_bind]
    refine (Meets.mapM (fun b hb => h b (by simp [hb])) hr').imp
      (fun as r'' ⟨hr'', has⟩ => ?_) fun _ _ => id
    exact ⟨hr'', .cons ha has⟩

end ExceptT
