import Mathlib
import Spreadsheet.Proofs.Formula.Literal
import Spreadsheet.Proofs.Sheet.Containment
import Spreadsheet.Proofs.Sheet.Locality

/-!
# Literals and cells with their digits

A literal is not checked to be a number that a double can hold, and the text of a cell is. If a
double can hold it, a formula and the one with a reference to a cell with the digits in the stead of
the literal go the same way, whatever is read and in which order: recursion, walks and failures end
alike and leave the same results. If not, the formula goes on with an infinity, and the reference
with a missing number.

* `Grid.Refers`: two grids that differ in such a formula; **`Refers.cellValue_lockstep`**,
  **`Refers.walk_lockstep`**, **`Refers.display_lockstep`**: they are read in lockstep;
* `Sheet.Refers`, `Refers.after`: two sheets, after any readings;
* `display_reciprocal`: one divided by a number that is too large;
* **`display_literal`**: when a literal counts as much as a cell with its digits.
-/

namespace Spreadsheet

open ExceptT (Lockstep)
open Formula (CellValue Context Expr Failure Lexeme Literal Names Surroundings Token Written)
open Reference (Parts)

variable {g g' : Grid} {room : Nat} {E K c : Cell} {n : Literal} {p : Parts} {body body' : String}
variable {C : Context} {e e' : Expr}

/-! ## Grids -/

/-- Nothing is known about a cell. -/
def Results.Unknown (K : Cell) (r : Results) : Prop := r.memo[K]? = none

theorem Results.Unknown.memoize {r : Results} (h : r.Unknown K) (hc : c ≠ K) (v : CellValue) :
    (r.memoize c v).Unknown K := by
  rw [Unknown, Results.getElem?_memoize, if_neg hc]
  exact h

/-- Formulas that are evaluated in lockstep, or fail alike to be accepted. -/
theorem evaluate_lockstep {answer answer' : Nat → Cell → Evaluation CellValue}
    (h : (∃ f, Expr.ofBody room body = .error f ∧ Expr.ofBody room body' = .error f) ∨
      ∃ e e', Expr.ofBody room body = .ok e ∧ Expr.ofBody room body' = .ok e' ∧
        Lockstep (Results.Unknown K)
          (e.value ⟨answer, fun level => MonadExcept.ofExcept (Formula.enter room level)⟩)
          (e'.value ⟨answer', fun level => MonadExcept.ofExcept (Formula.enter room level)⟩)) :
    Lockstep (Results.Unknown K) (evaluate room c body answer) (evaluate room c body' answer') := by
  unfold evaluate
  refine Lockstep.tryCatch ?_ fun f => ?_
  · rcases h with ⟨f, hf, hf'⟩ | ⟨e, e', he, he', hvalue⟩
    · rw [hf, hf']
      exact .throw f
    · rw [he, he']
      simp only [MonadExcept.ofExcept, pure_bind]
      exact hvalue.bind fun x => Lockstep.modify_bind (fun _ hr => hr) (.pure _)
  · cases f with
    | rejected q => exact Lockstep.modify_bind (fun _ hr => hr) (.pure _)
    | tooDeep | tooLong => exact .throw _

namespace Grid

theorem mem_within_self {d : Cell} (hd : d ∈ g.within c c) : d = c := by
  simp only [within, List.mem_flatMap, List.mem_map, Formula.mem_span] at hd
  obtain ⟨i, hi, j, hj, rfl⟩ := hd
  have hrow : i = c.row := by omega
  have hcol : j = c.col := by omega
  rw [hrow, hcol]

/-- Grids that differ in the formula of one cell only: it refers to another cell in the stead of a
literal, whose digits are the text of that cell. -/
structure Refers (g g' : Grid) (E K : Cell) (n : Literal) (p : Parts) (C : Context)
    (body body' : String) (e' : Expr) : Prop where
  size : g'.size = g.size
  other {c : Cell} : c ≠ E → g'.text c = g.text c
  whole : CellText.body? (g.text E) = some body
  whole' : CellText.body? (g'.text E) = some body'
  digits : g.text K = String.ofList n.chars
  target : p.target = K
  referring : Formula.Referring n p C body body' e'

namespace Refers

variable (h : g.Refers g' E K n p C body body' e')
include h

theorem not_isFormula : ¬ CellText.isFormula (g.text K) = true := by
  rw [h.digits]
  exact Formula.not_isFormula_literal h.referring.formed

theorem ne : K ≠ E := by
  rintro rfl
  exact h.not_isFormula (CellText.isFormula_iff.2 ⟨_, h.whole⟩)

theorem ne_of_isFormula (hc : CellText.isFormula (g.text c) = true) : c ≠ K := by
  rintro rfl
  exact h.not_isFormula hc

/-- Texts that are no formulas are the same. -/
theorem text_eq (hc : ¬ CellText.isFormula (g.text c) = true) : g'.text c = g.text c :=
  h.other fun hE => hc (hE ▸ CellText.isFormula_iff.2 ⟨_, h.whole⟩)

theorem isFormula_eq (c : Cell) :
    CellText.isFormula (g'.text c) = CellText.isFormula (g.text c) := by
  by_cases hc : c = E
  · subst hc
    rw [CellText.isFormula_iff.2 ⟨_, h.whole⟩, CellText.isFormula_iff.2 ⟨_, h.whole'⟩]
  · rw [h.other hc]

/-- The cell with the digits is read as their text. -/
theorem cellValue_target (room : Nat) (path : List Cell) :
    Lockstep (Results.Unknown K) (pure (.text (String.ofList n.chars)))
      (g'.cellValue room path K) := by
  intro r hr
  have hf : ¬ CellText.isFormula (g'.text K) = true := by
    rw [h.isFormula_eq]
    exact h.not_isFormula
  rw [cellValue_of_not_isFormula hf hr, h.other h.ne, h.digits]
  exact ⟨rfl, hr⟩

/-- **The formula of a cell and the one in its stead are evaluated in lockstep**, if references are
answered so. -/
theorem evaluate {answer answer' : Nat → Cell → Evaluation CellValue} {b : String}
    (hanswer : ∀ level d, Lockstep (Results.Unknown K) (answer level d) (answer' level d))
    (htarget : ∀ level, Lockstep (Results.Unknown K) (pure (.text (String.ofList n.chars)))
      (answer' level K)) (hb : CellText.body? (g.text c) = some b) (room : Nat) :
    ∃ b', CellText.body? (g'.text c) = some b' ∧ Lockstep (Results.Unknown K)
      (Spreadsheet.evaluate room c b answer) (Spreadsheet.evaluate room c b' answer') := by
  have hagree : Surroundings.Agree (Results.Unknown K)
      ⟨answer, fun level => MonadExcept.ofExcept (Formula.enter room level)⟩
      ⟨answer', fun level => MonadExcept.ofExcept (Formula.enter room level)⟩ :=
    ⟨hanswer, fun level => .ofExcept _⟩
  by_cases hc : c = E
  · subst hc
    obtain rfl : b = body := Option.some.inj (hb.symm.trans h.whole)
    refine ⟨body', h.whole', evaluate_lockstep ?_⟩
    rcases h.referring.ofBody room with ⟨he, he'⟩ | ⟨hf, hf'⟩
    · exact .inr ⟨_, e', he, he', h.referring.value_lockstep hagree (h.target ▸ htarget)⟩
    · exact .inl ⟨.tooDeep, hf, hf'⟩
  · refine ⟨b, by rw [h.other hc, hb], evaluate_lockstep ?_⟩
    cases he : Expr.ofBody room b with
    | error f => exact .inl ⟨f, rfl, rfl⟩
    | ok e => exact .inr ⟨e, e, rfl, rfl, Expr.value_lockstep (Expr.eval_lockstep hagree e 0)⟩

/-- **Values by recursion.** -/
theorem cellValue_lockstep (room : Nat) : ∀ path c,
    Lockstep (Results.Unknown K) (g.cellValue room path c) (g'.cellValue room path c) := by
  induction room using Nat.strong_induction_on with
  | _ room ih =>
  intro path c
  rw [cellValue, cellValue]
  refine Lockstep.get.bind fun r => ?_
  cases r.memo[c]? with
  | some v => exact .pure v
  | none =>
    cases hb : CellText.body? (g.text c) with
    | none =>
      have hf : ¬ CellText.isFormula (g.text c) = true := by simp [CellText.isFormula, hb]
      rw [h.text_eq hf, hb]
      exact .pure _
    | some b =>
      have hf : CellText.isFormula (g.text c) = true := CellText.isFormula_iff.2 ⟨b, hb⟩
      obtain ⟨b', hb'⟩ := CellText.isFormula_iff.1 ((h.isFormula_eq c).trans hf)
      rw [hb']
      simp only
      split
      · exact .pure _
      · split
        · exact .throw _
        · rename_i hroom
          have hanswer (level : Nat) (d : Cell) : Lockstep (Results.Unknown K)
              (g.cellValue (room - referenceCost level) (c :: path) d)
              (g'.cellValue (room - referenceCost level) (c :: path) d) :=
            ih _ (by unfold referenceCost; omega) (c :: path) d
          obtain ⟨b'', hb'', heval⟩ :=
            h.evaluate hanswer (fun level => h.cellValue_target _ _) hb room
          obtain rfl : b'' = b' := Option.some.inj (hb''.symm.trans hb')
          exact heval.bind fun v =>
            Lockstep.modify_bind (fun r hr => hr.memoize (h.ne_of_isFormula hf) v) (.pure v)

theorem boundedValue_lockstep (room : Nat) (path : List Cell) (c : Cell) :
    Lockstep (Results.Unknown K) (g.boundedValue room path c) (g'.boundedValue room path c) := by
  unfold boundedValue formulaValue
  cases hb : CellText.body? (g.text c) with
  | none =>
    have hf : ¬ CellText.isFormula (g.text c) = true := by simp [CellText.isFormula, hb]
    rw [h.text_eq hf, hb]
    exact .pure _
  | some b =>
    have hanswer (level : Nat) (d : Cell) : Lockstep (Results.Unknown K)
        (g.cellValue (room - referenceCost level) (c :: path) d)
        (g'.cellValue (room - referenceCost level) (c :: path) d) := h.cellValue_lockstep _ _ _
    obtain ⟨b', hb', heval⟩ := h.evaluate hanswer (fun level => h.cellValue_target _ _) hb room
    rw [hb']
    refine heval.tryCatch fun f => ?_
    cases f with
    | tooDeep => exact Lockstep.modify_bind (fun _ hr => hr) (.pure _)
    | rejected | tooLong => exact .throw _

/-- Among cells that are not the one with the digits, the same ones are found for both formulas. -/
theorem dependencies_alike (room : Nat) (c : Cell) :
    (∃ f, g.dependencies room ((CellText.body? (g.text c)).getD "") = .error f ∧
      g'.dependencies room ((CellText.body? (g'.text c)).getD "") = .error f) ∨
    ∃ found found', g.dependencies room ((CellText.body? (g.text c)).getD "") = .ok found ∧
      g'.dependencies room ((CellText.body? (g'.text c)).getD "") = .ok found' ∧
      ∀ left : Std.HashSet Cell, K ∉ left →
        found.filter left.contains = found'.filter left.contains := by
  have hsame := dependencies_of_size h.size room
  by_cases hc : c = E
  · subst hc
    rw [h.whole, h.whole', Option.getD_some, Option.getD_some, hsame]
    rcases h.referring.ofBody room with ⟨he, he'⟩ | ⟨hf, hf'⟩
    · right
      refine ⟨_, _, dependencies_of_ofBody he, dependencies_of_ofBody he', fun left hK => ?_⟩
      have hplaces := Expr.flatMap_corners_unplaced fun p q => g.within p.target q.target
      have hnone : (g.within K K).filter left.contains = [] := by
        refine List.filter_eq_nil_iff.2 fun d hd hleft => hK ?_
        rw [← mem_within_self hd]
        exact Std.HashSet.mem_iff_contains.2 hleft
      obtain ⟨front, back, hfill⟩ := C.corners_fill
      rw [← hplaces e', h.referring.tree, hplaces, hfill, hfill]
      simp [Expr.corners, h.target, hnone]
    · have hempty {b : String} (hb : Expr.ofBody room b = .error .tooDeep) :
          g.dependencies room b = .ok [] := by
        rw [dependencies, hb]
      exact .inr ⟨[], [], hempty hf, hempty hf', fun _ _ => rfl⟩
  · rw [h.other hc, hsame]
    cases g.dependencies room ((CellText.body? (g.text c)).getD "") with
    | error f => exact .inl ⟨f, rfl, rfl⟩
    | ok found => exact .inr ⟨found, found, rfl, rfl, fun _ _ => rfl⟩

theorem formulas_eq : g'.formulas = g.formulas := by
  simp only [formulas, h.size, h.isFormula_eq]

/-- **Walks.** -/
theorem walk_lockstep (room : Nat) {unvisited : Std.HashSet Cell} (hK : K ∉ unvisited) :
    ∀ path {stack : List Visit}, (∀ c, .leave c ∈ stack → c ≠ K) →
      Lockstep (Results.Unknown K) (g.walk room unvisited path stack)
        (g'.walk room unvisited path stack) := by
  -- entering a cell lengthens the stack, and leaves fewer cells to be entered
  induction hn : unvisited.size using Nat.strong_induction_on generalizing unvisited with
  | _ n ihn =>
  intro path stack hstack
  induction stack generalizing path with
  | nil =>
    rw [walk, walk]
    exact .pure ()
  | cons visit stack ih =>
    have hrest : ∀ c, .leave c ∈ stack → c ≠ K := fun c hc => hstack c (.tail _ hc)
    cases visit with
    | leave c =>
      rw [walk, walk]
      exact (h.boundedValue_lockstep room path.tail c).bind fun v =>
        Lockstep.modify_bind (fun r hr => hr.memoize (hstack c List.mem_cons_self) v) (ih _ hrest)
    | enter c =>
      rw [walk, walk]
      by_cases hc : c ∈ unvisited
      · rw [dif_pos hc, dif_pos hc]
        refine Lockstep.get.bind fun r => ?_
        split
        · exact ih path hrest
        · have hleft : K ∉ unvisited.erase c := fun hmem => hK (Std.HashSet.mem_erase.1 hmem).2
          have hne : c ≠ K := fun heq => hK (heq ▸ hc)
          rcases h.dependencies_alike room c with ⟨f, hf, hf'⟩ | ⟨found, found', hf, hf', hsame⟩
          · rw [hf, hf']
            exact .throw f
          · rw [hf, hf']
            simp only [MonadExcept.ofExcept, pure_bind, hsame _ hleft]
            refine ihn _ (hn ▸ size_erase_lt hc) hleft rfl _ fun d hd => ?_
            rcases List.mem_append.1 hd with hd | hd
            · obtain ⟨x, -, hx⟩ := List.mem_map.1 hd
              cases hx
            · rcases List.mem_cons.1 hd with hd | hd
              · exact Visit.leave.inj hd ▸ hne
              · exact hrest d hd
      · rw [dif_neg hc, dif_neg hc]
        exact ih path hrest

theorem valueAt_lockstep (room : Nat) (c : Cell) :
    Lockstep (Results.Unknown K) (g.valueAt room c) (g'.valueAt room c) := by
  unfold valueAt
  refine (h.cellValue_lockstep room [] c).tryCatch fun f => ?_
  cases f with
  | tooDeep =>
    have hK : K ∉ g.formulas := fun hmem => h.not_isFormula (mem_formulas.1 hmem)
    have hwalk : Lockstep (Results.Unknown K) (g.walk room g.formulas [] [.enter c])
        (g'.walk room g.formulas [] [.enter c]) :=
      h.walk_lockstep room hK [] fun d hd => by simp at hd
    rw [h.formulas_eq]
    exact hwalk.bind fun _ => Lockstep.get.bind fun r => .pure _
  | rejected | tooLong => exact .throw _

/-- **What cells show.** -/
theorem display_lockstep (room : Nat) (c : Cell) :
    Lockstep (Results.Unknown K) (g.display room c) (g'.display room c) := by
  unfold display
  rw [h.isFormula_eq]
  split
  · exact (h.valueAt_lockstep room c).map _
  · rename_i hf
    rw [h.text_eq hf]
    exact .pure _

end Refers

end Grid

/-! ## Sheets -/

namespace Sheet

/-- Sheets whose grids differ in a formula with a literal, and on which the same is known. -/
structure Refers (s s' : Sheet) (E K : Cell) (n : Literal) (p : Parts) (C : Context)
    (body body' : String) (e' : Expr) : Prop where
  grid : s.grid.Refers s'.grid E K n p C body body' e'
  results : s'.results = s.results
  unknown : s.results.Unknown K

variable {s s' : Sheet}

/-- A computation in lockstep on both sheets. -/
theorem Refers.run {α : Type} (h : s.Refers s' E K n p C body body' e') {x : Grid → Evaluation α}
    (hx : Lockstep (Results.Unknown K) (x s.grid) (x s'.grid)) :
    (s'.run x).1 = (s.run x).1 ∧ (s.run x).2.Refers (s'.run x).2 E K n p C body body' e' := by
  obtain ⟨hsame, hknown⟩ := hx s.results h.unknown
  unfold Sheet.run
  rw [h.results, ← hsame]
  exact ⟨rfl, h.grid, rfl, hknown⟩

theorem Refers.perform (h : s.Refers s' E K n p C body body' e') {command : Command}
    (hcommand : command.IsReading) (room : Nat) :
    (s.perform room command).Refers (s'.perform room command) E K n p C body body' e' := by
  cases command with
  | value c => exact (h.run (h.grid.valueAt_lockstep room c)).2
  | display c => exact (h.run (h.grid.display_lockstep room c)).2
  | invalidate =>
    refine ⟨h.grid, congrArg Results.invalidate h.results, ?_⟩
    simp [Results.Unknown, Sheet.perform, invalidate, Results.invalidate]
  | set | resize | addRow | addColumn | removeRow | removeColumn | load | reset => cases hcommand

theorem Refers.after {history : List Command} (h : s.Refers s' E K n p C body body' e')
    (hhistory : ∀ command ∈ history, command.IsReading) (room : Nat) :
    (s.after room history).Refers (s'.after room history) E K n p C body body' e' := by
  induction history generalizing s s' with
  | nil => exact h
  | cons command history ih =>
    obtain ⟨hcommand, hhistory⟩ := List.forall_mem_cons.1 hhistory
    exact ih (h.perform hcommand room) hhistory

/-- Both formulas put into a cell. -/
theorem refers_put (hE : E ∈ s.size) (hne : K ≠ E) (hK : s.text K = String.ofList n.chars)
    (htarget : p.target = K) {cs cs' : List Char}
    (h : Formula.Referring n p C (String.ofList cs) (String.ofList cs') e') :
    (s.put E (String.ofList ('=' :: cs)) hE).Refers (s.put E (String.ofList ('=' :: cs')) hE)
      E K n p C (String.ofList cs) (String.ofList cs') e' := by
  have hwhole : CellText.body? (String.ofList ('=' :: cs)) = some (String.ofList cs) :=
    Expr.body?_of_parse h.parse
  have hwhole' : CellText.body? (String.ofList ('=' :: cs')) = some (String.ofList cs') :=
    Expr.body?_of_parse h.parse'
  refine ⟨⟨rfl, fun hc => ?_, ?_, ?_, ?_, htarget, h⟩, ?_, ?_⟩
  · rw [text_put, text_put, if_neg hc, if_neg hc]
  · rw [text_put, if_pos rfl, hwhole]
  · rw [text_put, if_pos rfl, hwhole']
  · rw [text_put, if_neg hne]
    exact hK
  · simp only [put, CellText.isFormula, hwhole, hwhole', Option.isSome_some, if_true]
  · simp [Results.Unknown, put, Results.invalidate]

/-! ## Numbers that are not finite -/

theorem display_combine_of_not_isFinite (h : n.value.isFinite = false) :
    (CellValue.result (Formula.Operator.div.combine (.ok Literal.one.value)
      (.ok n.value))).display = "0" := by
  obtain ⟨sign, hsign⟩ := (Decimal.isInf_iff _).1
    (Decimal.isInf_of_not_isFinite h (Decimal.isNaN_nearest _ _))
  rw [hsign]
  cases sign <;> decide +kernel

/-- One divided by an operand that reads no formulas. -/
theorem Coherent.display_reciprocal (hs : s.Coherent room) (hroom : 2 ≤ room) (hE : E ∈ s.size)
    {l : Lexeme} {t : Expr} (hl : l.Formed) (ht : Token.operand? ⟨l, 0⟩ = some t)
    (hlevels : t.levels = 1) (hdepth : ∀ ρ, t.depth ρ = 1) (hvalid : t.Valid false)
    (hcells : ∀ c ∈ t.cells, c ≠ E ∧ ¬ CellText.isFormula (s.grid.text c) = true)
    {y : Formula.Outcome} (hy : ∀ ρ : Cell → CellValue,
      (∀ c ∈ t.cells, ρ c = .text (s.grid.text c)) → (t.denote ρ).single = y) :
    ((s.put E (String.ofList ('=' :: '1' :: '/' :: l.chars)) hE).run
      fun g => g.display room E).1 =
        .ok (CellValue.result
          (Formula.Operator.div.combine (.ok Literal.one.value) y)).display := by
  obtain ⟨e, he, htree, -⟩ := Formula.ofBody_reciprocal hl ht hlevels hvalid hroom
  generalize hs' : s.put E (String.ofList ('=' :: '1' :: '/' :: l.chars)) hE = s'
  have hcoherent : s'.Coherent room := hs' ▸ hs.put _ hE
  have htext (c : Cell) (hc : c ∈ t.cells) : s'.grid.text c = s.grid.text c := by
    rw [← hs', text_put, if_neg (hcells c hc).1]
  have hb : CellText.body? (s'.grid.text E) = some (String.ofList ('1' :: '/' :: l.chars)) := by
    rw [← hs', text_put, if_pos rfl]
    exact Expr.body?_of_parse (Expr.ofBody_eq_ok_iff.1 he).1
  have hstands (ρ : Cell → CellValue) := Expr.standsFor_of_unplaced ρ htree
  have hread : ∀ c ∈ e.cells, c ∈ t.cells ∧ ¬ CellText.isFormula (s'.grid.text c) = true := by
    intro c hc
    have hc' : c ∈ t.cells := by
      simpa using ((hstands fun _ => .failed).cells hc).resolve_left List.not_mem_nil
    rw [htext c hc']
    exact ⟨hc', (hcells c hc').2⟩
  have hcycle : ¬ s'.grid.ReachesCycle room E :=
    Grid.not_reachesCycle_of_cells hb he fun c hc hf => absurd hf (hread c hc).2
  have hreadable (f : Failure) : ¬ s'.grid.Overlong room E f := fun hlong => by
    obtain ⟨c, hc, hlong'⟩ := hlong.exists_mem_cells hb he
    exact (hread c hc).2 hlong'.isFormula
  have hsingle : (t.denote (s'.grid.meaning room)).single = y := hy _ fun c hc => by
    have hf : ¬ CellText.isFormula (s'.grid.text c) = true := htext c hc ▸ (hcells c hc).2
    rw [Grid.meaning_of_not_isFormula hf, htext c hc]
  have hfits : e.depth (s'.grid.meaning room) ≤ room := by
    refine (hstands _).depth.trans ?_
    simp only [Expr.depth, hdepth]
    split <;> omega
  rw [hcoherent.display_eq_meaning hreadable hcycle, Grid.meaning_of_body? hcycle hb, Grid.verdict,
    Formula.verdict_of_ofBody he, if_pos hfits, (hstands _).denote, ← hsingle]
  rfl

theorem Coherent.display_reciprocal_literal (hs : s.Coherent room) (hroom : 2 ≤ room)
    (hE : E ∈ s.size) (hformed : (Lexeme.number n).Formed) (hfinite : n.value.isFinite = false) :
    ((s.put E (String.ofList ('=' :: '1' :: '/' :: n.chars)) hE).run
      fun g => g.display room E).1 = .ok "0" := by
  refine (hs.display_reciprocal hroom hE (l := .number n) hformed rfl rfl (fun _ => rfl) trivial
    (fun c hc => ?_) fun _ _ => rfl).trans (congrArg _ (display_combine_of_not_isFinite hfinite))
  simp at hc

theorem Coherent.display_reciprocal_cell (hs : s.Coherent room) (hroom : 2 ≤ room)
    (hE : E ∈ s.size) (hformed : (Lexeme.number n).Formed) (hfinite : n.value.isFinite = false)
    (hne : K ≠ E) (hK : s.text K = String.ofList n.chars) (hp : Written p) (hnames : Names p)
    (htarget : p.target = K) :
    ((s.put E (String.ofList ('=' :: '1' :: '/' :: p.chars)) hE).run
      fun g => g.display room E).1 = .ok "#VALUE!" := by
  have hdigits : s.grid.text K = String.ofList n.chars := hK
  have hcells : ∀ c ∈ (Expr.cell p 0).cells, c = K := fun c hc => by simpa [htarget] using hc
  have hread : K ∈ (Expr.cell p 0).cells := by simp [htarget]
  refine (hs.display_reciprocal (y := .error .value) hroom hE (l := .cell p) hp rfl rfl
    (fun _ => rfl) hnames (fun c hc => ?_) fun ρ hρ => ?_).trans rfl
  · rw [hcells c hc, hdigits]
    exact ⟨hne, Formula.not_isFormula_literal hformed⟩
  · rw [Expr.denote, Formula.Operand.single, htarget, hρ K hread, hdigits, CellValue.number,
      Formula.ofText_literal hformed, Formula.checked_of_not_isFinite hfinite]

/-- The literal of the number ten to the power of four hundred. -/
def hugeLiteral : Literal := ⟨'1' :: List.replicate 400 '0', []⟩

theorem formed_hugeLiteral : (Lexeme.number hugeLiteral).Formed := by
  refine ⟨List.cons_ne_nil _ _, fun c hc => ?_, fun c hc => absurd hc List.not_mem_nil⟩
  rcases List.mem_cons.1 hc with rfl | hc
  · rfl
  · rw [List.eq_of_mem_replicate hc]
    rfl

theorem isFinite_hugeLiteral : hugeLiteral.value.isFinite = false := by decide +kernel

/-- A sheet of two cells, the second one of which has a text. -/
theorem exists_reachable_text (t : String) : ∃ s : Sheet, s.Reachable Formula.roomLimit ∧
    (⟨0, 0⟩ : Cell) ∈ s.size ∧ ∀ c, s.text c = if c = ⟨0, 1⟩ then t else "" := by
  generalize hs : Sheet.empty ⟨1, 2, Nat.one_pos, Nat.two_pos⟩ = s
  have hreachable : s.Reachable Formula.roomLimit := hs ▸ .start _
  have hc : (⟨0, 1⟩ : Cell) ∈ s.size := hs ▸ (by decide)
  have hc' : (⟨0, 0⟩ : Cell) ∈ s.size := hs ▸ (by decide)
  refine ⟨_, hreachable.perform (.set ⟨0, 1⟩ t), ?_, fun c => ?_⟩
  · rw [perform_set Formula.roomLimit hc]
    exact hc'
  · rw [Sheet.text, text_perform_set hc, ← hs, Sheet.empty, Grid.text_empty]

end Sheet

end Spreadsheet
