import Spreadsheet.Proofs.Sheet.Dependency

/-!
# What a grid means

The value of every cell as a function of the texts alone, by recursion on the graph of references.
A text that is no formula is its own value, a formula has the value of its tree, and a formula that
is rejected or nested too deeply has none.

* `Formula.verdict`: a body, given the values of cells;
* `Grid.meaning`, and **`Grid.meaning_eq`**: its equation for cells that reach no cycle; the others
  count as circular;
* `Grid.verdict`; **`not_reachesCycle_of_verdict`**: a cell that reaches a cycle denotes no number;
  `verdict_ne_circular`: one that reaches none does not denote a circular reference.
-/

namespace Spreadsheet

namespace Formula

/-- What a body denotes, given the values of cells; why it denotes nothing. -/
def verdict (room : Nat) (ρ : Cell → CellValue) (body : String) : Except Failure Outcome := do
  let e ← Expr.ofBody room body
  if e.depth ρ ≤ room then return (e.denote ρ).single else throw .tooDeep

/-- The value of a cell by what its formula denotes. -/
def CellValue.ofVerdict : Except Failure Outcome → CellValue
  | .ok x => .result x
  | .error _ => .failed

/-- Why a formula has no value. -/
def reason? : Except Failure Outcome → Option Failure
  | .ok _ => none
  | .error f => some f

variable {room : Nat} {ρ σ : Cell → CellValue} {body : String} {e : Expr}

theorem verdict_of_ofBody (h : Expr.ofBody room body = .ok e) :
    verdict room ρ body =
      if e.depth ρ ≤ room then .ok (e.denote ρ).single else .error .tooDeep := by
  unfold verdict
  rw [h]
  rfl

theorem verdict_of_error {f : Failure} (h : Expr.ofBody room body = .error f) :
    verdict room ρ body = .error f := by
  unfold verdict
  rw [h]
  rfl

theorem ofBody_of_verdict {f : Failure} (h : verdict room ρ body = .error f)
    (hf : f ≠ .tooDeep) : Expr.ofBody room body = .error f := by
  rcases he : Expr.ofBody room body with f' | e
  · rw [verdict_of_error he] at h
    rw [Except.error.inj h]
  · rw [verdict_of_ofBody he] at h
    split at h
    · cases h
    · exact absurd (Except.error.inj h).symm hf

/-- What a body denotes depends on the cells only that its tree reads. -/
theorem verdict_congr (h : ∀ e, Expr.ofBody room body = .ok e → ∀ c ∈ e.cells, ρ c = σ c) :
    verdict room ρ body = verdict room σ body := by
  rcases hb : Expr.ofBody room body with f | e
  · rw [verdict_of_error hb, verdict_of_error hb]
  · have hc : RelatedOn Eq e.cells ρ σ := fun c hc => congrArg CellValue.number (h e hb c hc)
    rw [verdict_of_ofBody hb, verdict_of_ofBody hb, Expr.depth_related congruence_eq e hc,
      (Expr.denote_related congruence_eq e hc).single congruence_eq]

/-- More room changes nothing about a body but that there is too little. -/
theorem verdict_mono {room' : Nat} (hroom : room' ≤ room) :
    Persists (verdict room' ρ body) (verdict room ρ body) := by
  refine (Expr.ofBody_mono hroom body).bind fun e hne => ?_
  split at hne
  · rw [if_pos (by omega), if_pos ‹_›]
  · exact absurd (Eq.refl _) hne

end Formula

open Formula (CellValue)

namespace Grid

/-- The value of a cell, given those of all cells. -/
def valueFrom (g : Grid) (room : Nat) (ρ : Cell → CellValue) (c : Cell) : CellValue :=
  match CellText.body? (g.text c) with
  | none => .text (g.text c)
  | some body => .ofVerdict (Formula.verdict room ρ body)

open Classical in
/-- The value of a cell from which every path of references ends, by recursion on these paths. -/
noncomputable def groundedMeaning (g : Grid) (room : Nat) (c : Cell)
    (h : Acc (fun d c => g.DependsOn room c d) c) : CellValue :=
  Acc.rec (motive := fun _ _ => CellValue)
    (fun c _ value => g.valueFrom room
      (fun d => if hd : g.DependsOn room c d then value d hd else .text (g.text d)) c) h

open Classical in
/-- **The value of a cell.** One that reaches a cycle counts as a circular reference. -/
noncomputable def meaning (g : Grid) (room : Nat) (c : Cell) : CellValue :=
  if h : Acc (fun d c => g.DependsOn room c d) c then g.groundedMeaning room c h
  else .result (.error .circular)

variable {g : Grid} {room : Nat} {c : Cell} {body : String}

open Classical in
theorem groundedMeaning_eq (h : Acc (fun d c => g.DependsOn room c d) c) :
    g.groundedMeaning room c h = g.valueFrom room
      (fun d => if hd : g.DependsOn room c d then g.groundedMeaning room d (h.inv hd)
        else .text (g.text d)) c := by
  cases h
  rfl

theorem meaning_of_reachesCycle (h : g.ReachesCycle room c) :
    g.meaning room c = .result (.error .circular) :=
  dif_neg fun hacc => acc_iff_not_reachesCycle.1 hacc h

theorem meaning_of_not_isFormula (h : ¬ CellText.isFormula (g.text c) = true) :
    g.meaning room c = .text (g.text c) := by
  have hacc : Acc (fun d c => g.DependsOn room c d) c :=
    acc_iff_not_reachesCycle.2 (not_reachesCycle_of_not_isFormula h)
  rw [meaning, dif_pos hacc, groundedMeaning_eq, valueFrom, CellText.body?_eq_none h]

/-- **The equation of values.** -/
theorem meaning_eq (h : ¬ g.ReachesCycle room c) :
    g.meaning room c = g.valueFrom room (g.meaning room) c := by
  have hacc := acc_iff_not_reachesCycle.2 h
  rw [meaning, dif_pos hacc, groundedMeaning_eq]
  unfold valueFrom
  cases hb : CellText.body? (g.text c) with
  | none => rfl
  | some body =>
    refine congrArg CellValue.ofVerdict (Formula.verdict_congr fun e he d hd => ?_)
    by_cases hdep : g.DependsOn room c d
    · rw [dif_pos hdep, meaning, dif_pos (hacc.inv hdep)]
    · have hf : ¬ CellText.isFormula (g.text d) = true := fun hf =>
        hdep ((dependsOn_iff hb he).2 ⟨hf, hd⟩)
      rw [dif_neg hdep, meaning_of_not_isFormula hf]

/-! ## Formula cells -/

/-- What the body of a formula cell denotes on a grid. -/
noncomputable def verdict (g : Grid) (room : Nat) (body : String) :
    Except Formula.Failure Formula.Outcome := Formula.verdict room (g.meaning room) body

theorem meaning_of_body? (h : ¬ g.ReachesCycle room c)
    (hb : CellText.body? (g.text c) = some body) :
    g.meaning room c = .ofVerdict (g.verdict room body) := by
  rw [meaning_eq h, valueFrom, hb]
  rfl

/-- **A formula that denotes a number reaches no cycle.** -/
theorem not_reachesCycle_of_verdict {x : Float} (hb : CellText.body? (g.text c) = some body)
    (h : g.verdict room body = .ok (.ok x)) : ¬ g.ReachesCycle room c := by
  intro hc
  obtain ⟨d, hd, hdc⟩ := hc.exists_dependsOn
  obtain ⟨body', e, hb', he⟩ := hd.source
  obtain rfl : body = body' := Option.some.inj (hb.symm.trans hb')
  rw [verdict, Formula.verdict_of_ofBody he] at h
  split at h
  · -- the formula reads a cell on the way to the cycle, and that one counts as circular
    have hx : (e.denote (g.meaning room)).single = .ok x := Except.ok.inj h
    obtain ⟨y, hy⟩ := Formula.Expr.cells_ok_of_denote e
      (Formula.isNumber_outcomes_of_single ⟨x, hx⟩) d ((dependsOn_iff hb he).1 hd).2
    rw [meaning_of_reachesCycle hdc] at hy
    cases hy
  · cases h

/-! ## No circular references -/

theorem checked_ne_circular (x : Float) : Formula.checked x ≠ .error .circular := by
  unfold Formula.checked
  split <;> simp

theorem number_text_ne_circular (s : String) : (CellValue.text s).number ≠ .error .circular := by
  simp only [CellValue.number, Formula.ofText]
  split
  · simp
  · split
    · exact checked_ne_circular _
    · simp

theorem number_result_ne_circular {x : Formula.Outcome} (h : x ≠ .error .circular) :
    (CellValue.result x).number ≠ .error .circular := by
  cases x with
  | error code => exact h
  | ok x => exact checked_ne_circular x

/-- Operations give no circular reference unless they are given one. -/
theorem congruence_ne_circular :
    Formula.Congruence fun x y => x = y ∧ x ≠ .error .circular where
  ok x := ⟨rfl, by simp⟩
  value := ⟨rfl, by simp⟩
  eq_of_ok h := h.1.symm
  error_of_error h := ⟨_, h.1.symm⟩

theorem meaning_ne_circular (h : ¬ g.ReachesCycle room c) :
    (g.meaning room c).number ≠ .error .circular := by
  have hacc := acc_iff_not_reachesCycle.2 h
  induction hacc with
  | intro c _ ih =>
    rw [meaning_eq h, valueFrom]
    cases hb : CellText.body? (g.text c) with
    | none => exact number_text_ne_circular _
    | some body =>
      simp only
      rcases he : Formula.Expr.ofBody room body with f | e
      · rw [Formula.verdict_of_error he]
        simp [CellValue.ofVerdict, CellValue.number]
      · have hcells : Formula.RelatedOn (fun x y => x = y ∧ x ≠ .error .circular) e.cells
            (g.meaning room) (g.meaning room) := by
          intro d hd
          refine ⟨rfl, ?_⟩
          by_cases hf : CellText.isFormula (g.text d) = true
          · have hdep := (dependsOn_iff hb he).2 ⟨hf, hd⟩
            exact ih d hdep fun hdc => h (.of_dependsOn hdep hdc)
          · rw [meaning_of_not_isFormula hf]
            exact number_text_ne_circular _
        have hrelated := Formula.Expr.denote_related congruence_ne_circular e hcells
        rw [Formula.verdict_of_ofBody he]
        split
        · exact number_result_ne_circular (hrelated.single congruence_ne_circular).2
        · simp [CellValue.ofVerdict, CellValue.number]

end Grid

end Spreadsheet
