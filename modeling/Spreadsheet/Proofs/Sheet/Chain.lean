import Spreadsheet.Proofs.Formula.Naming
import Spreadsheet.Proofs.Formula.Occurrence
import Spreadsheet.Proofs.Formula.Safety
import Spreadsheet.Proofs.Sheet.History
import Spreadsheet.Proofs.Sheet.Locality
import Spreadsheet.Proofs.Sheet.Unreadable

/-!
# Chains of deep formulas

Minus signs in front of a reference take a level of nesting each. A chain of such formulas is read
from its far end without much room, each cell being known when the next one is read; read from its
near end it may take more room than there is.

* `minuses`, `Expr.negated`: a reference behind minus signs; `ofBody_minuses`;
* `Expr.eval_negated_meets`, **`Grid.cellValue_negated_meets`**: the cell is asked for, and an error
  or a lack of room there is passed on;
* `Grid.Chained`: a chain that leads to a formula that cannot be read; `Chained.exists_after`: every
  cell of it shows an error if the next one is known; `Chained.exists_display_error`: from nothing,
  its first cell cannot be shown.
-/

namespace Spreadsheet

open Formula (CellValue Expr Failure Names Written)
open Reference (Parts)

namespace Formula

variable {p : Parts} {room n : Nat}

/-- A reference behind minus signs. -/
def minuses (n : Nat) (p : Parts) : List Char := List.replicate n '-' ++ p.chars

/-- A tree behind minus signs. -/
def Expr.negated : Nat → Expr → Expr
  | 0, e => e
  | n + 1, e => .signed .negative (.negated n e)

/-- The tokens of a reference behind minus signs, wherever they stand. -/
def minusTokens (n : Nat) (p : Parts) : List Token :=
  List.replicate n (Symbol.minus.at 0) ++ [⟨.cell p, 0⟩]

theorem laid_minuses (hp : Written p) (n : Nat) :
    Laid true (minuses n p) ((minusTokens n p).map (·.lexeme)) := by
  induction n with
  | zero =>
    have hlast : Laid true (p.chars ++ []) [.cell p] := .token (l := .cell p) hp (.nil false)
    rwa [List.append_nil] at hlast
  | succ n ih => exact .symbol true .minus ih

theorem makes_negated (p : Parts) (n : Nat) :
    Makes .factor (minusTokens n p) (.negated n (.cell p 0)) := by
  induction n with
  | zero => exact ⟨.primary (.cell p 0), rfl, rfl⟩
  | succ n ih => exact ih.signed .negative 0

theorem levels_negated (n : Nat) (e : Expr) : (Expr.negated n e).levels = e.levels + n := by
  induction n with
  | zero => rfl
  | succ n ih => rw [Expr.negated, Expr.levels, ih, Nat.add_assoc]

theorem valid_negated (hnames : Names p) (n : Nat) :
    (Expr.negated n (.cell p 0)).Valid false := by
  induction n with
  | zero => exact hnames
  | succ n ih => exact ih

theorem corners_negated (n : Nat) (e : Expr) : (Expr.negated n e).corners = e.corners := by
  induction n with
  | zero => rfl
  | succ n ih => exact ih

/-- **A reference behind minus signs** is accepted if there is a level for each of them. -/
theorem ofBody_minuses (hp : Written p) (hnames : Names p) (n : Nat) :
    ∃ e, e.unplaced = (Expr.negated n (.cell p 0)).unplaced ∧ ∀ room,
      Expr.ofBody room (String.ofList (minuses n p)) =
        if n < room then .ok e else .error .tooDeep := by
  obtain ⟨e, hparse, htree⟩ := (makes_negated p n).expression.parse (laid_minuses hp n)
  have hstands := Expr.standsFor_of_unplaced (fun _ => .failed) htree
  have hlevels : e.levels = n + 1 := by
    rw [Expr.levels_of_unplaced htree, levels_negated]
    exact Nat.add_comm 1 n
  refine ⟨e, htree, fun room => ?_⟩
  rw [Expr.ofBody_of_valid hparse (hstands.valid (valid_negated hnames n)), hlevels]
  rfl

theorem mem_cells_minuses {e : Expr} {d : Cell}
    (htree : e.unplaced = (Expr.negated n (.cell p 0)).unplaced) : d ∈ e.cells ↔ d = p.target := by
  have hcells : (Expr.negated n (.cell p 0)).cells = [p.target] := by
    rw [Expr.cells, corners_negated, ← Expr.cells, Expr.cells_cell]
  rw [← List.mem_singleton, ← hcells]
  have hthere := (Expr.standsFor_of_unplaced (fun _ => .failed) htree).cells (c := d)
  have hback := (Expr.standsFor_of_unplaced (fun _ => .failed) htree.symm).cells (c := d)
  simp only [List.not_mem_nil, false_or] at hthere hback
  exact ⟨hthere, hback⟩

theorem body?_minuses (hp : Written p) (n : Nat) :
    CellText.body? (String.ofList ('=' :: minuses n p)) = some (String.ofList (minuses n p)) := by
  obtain ⟨e, hparse, -⟩ := (makes_negated p n).expression.parse (laid_minuses hp n)
  exact Expr.body?_of_parse hparse

/-- The cell is asked for at the level behind the signs. -/
theorem Expr.eval_negated_meets {σ : Type} {s : σ} {P : CellValue → σ → Prop}
    {E : Failure → σ → Prop} {cell : Nat → Cell → ExceptT Failure (StateM σ) CellValue}
    (hnames : Names p) {level : Nat} (hn : level + n < room)
    (h : (cell (level + n) p.target).Meets s P E) :
    ((Expr.negated n (.cell p 0)).eval
      ⟨cell, fun level => MonadExcept.ofExcept (enter room level)⟩ level).Meets s
        (fun x s' => ∃ v y, P v s' ∧ x = .number y ∧
          ∀ code, v.number = .error code → y = .error code) E := by
  have henter : enter room level = .ok () := if_pos (by omega)
  induction n generalizing level with
  | zero =>
    obtain ⟨r, hr, htarget⟩ := hnames.resolve 0
    simp only [Expr.negated, Expr.eval, henter, hr, htarget, ExceptT.meets_bind,
      ExceptT.meets_ofExcept, ExceptT.meets_pure]
    exact h.imp (fun v s' hv => ⟨v, _, hv, rfl, fun _ hcode => hcode⟩) fun _ _ => id
  | succ n ih =>
    have hinner : ((Expr.negated n (.cell p 0)).eval
        ⟨cell, fun level => MonadExcept.ofExcept (enter room level)⟩ (level + 1)).Meets s _ E :=
      ih (by omega) (by rwa [Nat.add_right_comm, Nat.add_assoc]) (if_pos (by omega))
    simp only [Expr.negated, Expr.eval, henter, ExceptT.meets_bind, ExceptT.meets_ofExcept]
    refine hinner.imp ?_ fun _ _ => id
    rintro _ s' ⟨v, y, hv, rfl, hcode⟩
    exact ⟨v, _, hv, rfl, fun code hv' => by rw [hcode code hv']; rfl⟩

theorem Expr.value_minuses_meets {σ : Type} {s : σ} {P : CellValue → σ → Prop}
    {E : Failure → σ → Prop} {cell : Nat → Cell → ExceptT Failure (StateM σ) CellValue} {e : Expr}
    (hnames : Names p) (htree : e.unplaced = (Expr.negated n (.cell p 0)).unplaced) (hn : n < room)
    (h : (cell n p.target).Meets s P E) :
    (e.value ⟨cell, fun level => MonadExcept.ofExcept (enter room level)⟩).Meets s
      (fun y s' => ∃ v, P v s' ∧ ∀ code, v.number = .error code → y = .error code) E := by
  have hvalid := valid_negated hnames n
  have hstands := Expr.standsFor_of_unplaced (fun _ => .failed) htree
  rw [← Expr.value_unplaced _ (Expr.names_of_valid e false (hstands.valid hvalid)), htree,
    Expr.value_unplaced _ (Expr.names_of_valid _ false hvalid), Expr.value, ExceptT.meets_bind]
  rw [← Nat.zero_add n] at hn h
  refine (Expr.eval_negated_meets hnames hn h).imp ?_ fun _ _ => id
  rintro _ s' ⟨v, y, hv, rfl, hcode⟩
  exact ⟨v, hv, hcode⟩

end Formula

namespace Grid

variable {g : Grid} {p : Parts} {room n : Nat} {c : Cell} {path : List Cell} {r : Results}

/-- **A cell with a reference behind minus signs**, the cell that it refers to having an error, or
failing for lack of room. -/
theorem cellValue_negated_meets {P : Results → Prop} {E : Failure → Results → Prop}
    (code : Formula.ErrorCode) (hp : Written p) (hnames : Names p) (hmemo : r.memo[c]? = none)
    (hpath : c ∉ path) (htext : g.text c = String.ofList ('=' :: Formula.minuses n p))
    (hn : n < room) (hE : ∀ q r', ¬ E (.rejected q) r')
    (h : (g.cellValue (room - referenceCost n) (c :: path) p.target).Meets r
      (fun v r' => v.number = .error code ∧ P r') E) :
    (g.cellValue room path c).Meets r
      (fun v r' => v = .result (.error code) ∧ ∃ r₁, P r₁ ∧ r' = (r₁.succeed c).memoize c v) E := by
  obtain ⟨e, htree, he⟩ := Formula.ofBody_minuses hp hnames n
  have hroom : room ≠ 0 := by omega
  rw [cellValue, ExceptT.meets_bind, ExceptT.meets_get, hmemo, htext, Formula.body?_minuses hp]
  simp only [if_neg hpath, dif_neg hroom, evaluate, he, if_pos hn, MonadExcept.ofExcept, pure_bind,
    ExceptT.meets_bind, ExceptT.meets_tryCatch, ExceptT.meets_modify, ExceptT.meets_pure]
  refine (Formula.Expr.value_minuses_meets hnames htree hn h).imp ?_ fun f r' hf => ?_
  · rintro y r' ⟨v, ⟨hv, hP⟩, hcode⟩
    rw [hcode code hv]
    exact ⟨rfl, r', hP, rfl⟩
  · cases f with
    | rejected q => exact absurd hf (hE q r')
    | tooDeep | tooLong => exact hf

theorem reads_minuses_iff (hp : Written p) (hnames : Names p)
    (htext : g.text c = String.ofList ('=' :: Formula.minuses n p)) (hn : n < room) {d : Cell} :
    g.Reads room c d ↔ d = p.target := by
  obtain ⟨e, htree, he⟩ := Formula.ofBody_minuses hp hnames n
  have hb : CellText.body? (g.text c) = some (String.ofList (Formula.minuses n p)) := by
    rw [htext, Formula.body?_minuses hp]
  exact (reads_iff hb ((he room).trans (if_pos hn))).trans (Formula.mem_cells_minuses htree)

/-- A reference behind more minus signs than there is room for. -/
theorem cellValue_minuses_meets (hp : Written p) (hnames : Names p) (hmemo : r.memo[c]? = none)
    (hpath : c ∉ path) (htext : g.text c = String.ofList ('=' :: Formula.minuses n p))
    (hn : room ≤ n) :
    (g.cellValue room path c).Meets r (fun _ _ => False) fun f r' => f = .tooDeep ∧ r' = r := by
  obtain ⟨e, -, he⟩ := Formula.ofBody_minuses hp hnames n
  rw [cellValue, ExceptT.meets_bind, ExceptT.meets_get, hmemo, htext, Formula.body?_minuses hp]
  simp only [if_neg hpath]
  split
  · exact ⟨rfl, rfl⟩
  · simp only [evaluate, he, if_neg (Nat.not_lt.2 hn), ExceptT.meets_bind,
      ExceptT.meets_tryCatch, ExceptT.meets_ofExcept]
    exact ⟨rfl, rfl⟩

theorem cellValue_of_known {v : CellValue} (h : r.memo[c]? = some v) :
    (g.cellValue room path c).Meets r (fun v' r' => v' = v ∧ r' = r) fun _ _ => False := by
  rw [cellValue, ExceptT.meets_bind, ExceptT.meets_get, h]
  exact ⟨rfl, rfl⟩

theorem display_meets_of_cellValue {v : CellValue} {P : Results → Prop}
    (hf : CellText.isFormula (g.text c) = true)
    (h : (g.cellValue room [] c).Meets r (fun v' r' => v' = v ∧ P r') fun _ _ => False) :
    (g.display room c).Meets r (fun t r' => t = v.display ∧ P r') fun _ _ => False := by
  rw [display, if_pos hf, ExceptT.meets_map, valueAt, ExceptT.meets_tryCatch]
  exact h.imp (fun v' r' hv => ⟨congrArg _ hv.1, hv.2⟩) fun _ _ => False.elim

/-! ## A chain of ten cells -/

/-- A reference to a cell of the first row, by its column. -/
def firstRow (i : Nat) : Parts := ⟨false, [Char.ofNat ('A'.toNat + i)], false, ['1']⟩

theorem written_firstRow {i : Nat} (hi : i < 26) : Written (firstRow i) := by
  refine Formula.written_single ?_ rfl
  interval_cases i <;> rfl

theorem resolve?_firstRow {i : Nat} (hi : i < 26) :
    (firstRow i).resolve? = .ok (some ⟨⟨0, i⟩, false, false⟩) := by
  interval_cases i <;> rfl

theorem target_firstRow {i : Nat} (hi : i < 26) : (firstRow i).target = ⟨0, i⟩ :=
  Formula.target_of_resolve? (resolve?_firstRow hi)

/-- Grids whose first row begins with deep formulas that refer to the next cell each. The formula
behind them has an error on its left side, whatever its right side is: a reference to a cell that
cannot be read. -/
structure Chained (g : Grid) : Prop where
  deep {i : Nat} : i < 8 →
    g.text ⟨0, i⟩ = String.ofList ('=' :: Formula.minuses 390 (firstRow (i + 1)))
  stop : g.text ⟨0, 8⟩ = "=1/0+J1"
  unread : g.text ⟨0, 9⟩ = String.ofList ('=' :: zerosInFront.chars)

/-- The tree of the formula behind the deep ones. -/
def stopTree : Expr :=
  .binary .add (.binary .div (.number ⟨['1'], []⟩) (.number ⟨['0'], []⟩)) (.cell (firstRow 9) 4)

theorem ofBody_stop (h : 3 ≤ room) : Expr.ofBody room "1/0+J1" = .ok stopTree := by
  have hparse : Expr.parse "1/0+J1" = .ok stopTree := by cbv
  exact Expr.ofBody_eq_ok_iff.2 ⟨hparse, ⟨⟨trivial, trivial⟩, _, rfl⟩, h⟩

theorem body?_stop : CellText.body? "=1/0+J1" = some "1/0+J1" := by decide

/-- The left side is an error, and the right side is not looked at. -/
theorem cellValue_stop_meets (h : 3 ≤ room) (hmemo : r.memo[c]? = none) (hpath : c ∉ path)
    (htext : g.text c = "=1/0+J1") :
    (g.cellValue room path c).Meets r
      (fun v r' => v = .result (.error .value) ∧ r' = (r.succeed c).memoize c v)
      fun _ _ => False := by
  have hroom : room ≠ 0 := by omega
  have henter (level : Nat) (hlevel : level < 3) : Formula.enter room level = .ok () :=
    if_pos (by omega)
  have hdiv : Formula.Operator.div.apply (Formula.Literal.value ⟨['1'], []⟩)
      (Formula.Literal.value ⟨['0'], []⟩) = .error .value := by decide
  rw [cellValue, ExceptT.meets_bind, ExceptT.meets_get, hmemo, htext, body?_stop]
  simp only [if_neg hpath, dif_neg hroom, evaluate, ofBody_stop h, MonadExcept.ofExcept,
    pure_bind, Expr.value, stopTree, Expr.eval, henter 0 (by decide), henter (0 + 1) (by decide),
    henter (0 + 1 + 1) (by decide), Formula.Operand.scalar, hdiv, ExceptT.meets_bind,
    ExceptT.meets_tryCatch, ExceptT.meets_modify, ExceptT.meets_pure]
  exact ⟨trivial, trivial⟩

namespace Chained

variable (h : g.Chained) {i : Nat} {d : Cell}
include h

theorem unreadable : ∃ f, g.Unreadable Formula.roomLimit ⟨0, 9⟩ f := by
  have hb : CellText.body? (g.text ⟨0, 9⟩) = some (String.ofList zerosInFront.chars) := by
    rw [h.unread, Formula.body?_reference written_zerosInFront]
  exact ⟨_, _, _, hb, Formula.Expr.ofBody_of_overlong written_zerosInFront
    (Nat.lt_of_not_le not_short_zerosInFront) (by decide), rfl⟩

/-- Every formula of the chain reads the next cell and no other one. -/
theorem reads_iff (hi : i < 9) : g.Reads Formula.roomLimit ⟨0, i⟩ d ↔ d = ⟨0, i + 1⟩ := by
  by_cases hdeep : i < 8
  · have hread := reads_minuses_iff (written_firstRow (by omega)) ⟨_, resolve?_firstRow (by omega)⟩
      (h.deep hdeep) (d := d) (by decide : 390 < Formula.roomLimit)
    rw [target_firstRow (by omega)] at hread
    exact_mod_cast hread
  · obtain rfl : i = 8 := by omega
    have hb : CellText.body? (g.text ⟨0, 8⟩) = some "1/0+J1" := by rw [h.stop, body?_stop]
    have hcells : stopTree.cells = [⟨0, 9⟩] := by
      simp [stopTree, target_firstRow]
    rw [Nat.cast_ofNat, Grid.reads_iff hb (ofBody_stop (by decide)), hcells, List.mem_singleton]
    norm_num

theorem isFormula (hi : i < 10) : CellText.isFormula (g.text ⟨0, i⟩) = true := by
  by_cases hlast : i < 9
  · exact ((h.reads_iff hlast).2 rfl).isFormula
  · obtain rfl : i = 9 := by omega
    obtain ⟨f, hf⟩ := h.unreadable
    exact hf.isFormula

/-- One more row leaves the chain as it is. -/
theorem addRow : g.addRow.Chained := by
  have htext {i : Nat} (hi : i < 10) : g.addRow.text ⟨0, i⟩ = g.text ⟨0, i⟩ := by
    have hmem := Size.mem_iff.1 (mem_of_isFormula (h.isFormula hi))
    refine (text_resize ..).trans (if_pos (Size.mem_iff.2 ?_))
    simp only at hmem ⊢
    omega
  refine ⟨fun {i} hi => (htext (by omega)).trans (h.deep hi), ?_, ?_⟩
  · exact (htext (i := 8) (by decide)).trans h.stop
  · exact (htext (i := 9) (by decide)).trans h.unread

theorem dependsOn (hi : i < 9) : g.DependsOn Formula.roomLimit ⟨0, i⟩ ⟨0, (i + 1 : Nat)⟩ :=
  dependsOn_iff_reads.2 ⟨h.isFormula (by omega), (h.reads_iff hi).2 (by push_cast; rfl)⟩

theorem overlong : ∃ f, g.Overlong Formula.roomLimit ⟨0, 0⟩ f := by
  obtain ⟨f, hf⟩ := h.unreadable
  have hlead {i : Nat} (hi : i ≤ 9) :
      Relation.ReflTransGen (g.DependsOn Formula.roomLimit) ⟨0, 0⟩ ⟨0, i⟩ := by
    induction i with
    | zero => exact .refl
    | succ i ih => exact (ih (by omega)).tail (h.dependsOn hi)
  exact ⟨f, ⟨0, 9⟩, hlead (i := 9) le_rfl, hf⟩

theorem not_reachesCycle (hi : i < 10) : ¬ g.ReachesCycle Formula.roomLimit ⟨0, i⟩ := by
  induction hn : 9 - i generalizing i with
  | zero =>
    obtain rfl : i = 9 := by omega
    obtain ⟨f, hf⟩ := h.unreadable
    exact hf.not_reachesCycle
  | succ n ih =>
    intro hcycle
    obtain ⟨d, hdep, hd⟩ := hcycle.exists_dependsOn
    rw [(h.reads_iff (by omega)).1 (dependsOn_iff_reads.1 hdep).2] at hd
    exact ih (i := i + 1) (by omega) (by omega) (by exact_mod_cast hd)

/-- **There is too little room for the chain**, read from its near end with nothing known. -/
theorem exhausted (hr : ∀ d : Cell, r.memo[d]? = none) :
    (g.cellValue Formula.roomLimit [] ⟨0, 0⟩).run r = (.error .tooDeep, r) := by
  have hpass {room : Nat} {path : List Cell} {i : Nat} (hi : i < 2) (hpath : ⟨0, i⟩ ∉ path)
      (hroom : 390 < room)
      (hnext : (g.cellValue (room - referenceCost 390) (⟨0, i⟩ :: path) ⟨0, (i + 1 : Nat)⟩).Meets r
        (fun _ _ => False) fun f r' => f = .tooDeep ∧ r' = r) :
      (g.cellValue room path ⟨0, i⟩).Meets r
        (fun _ _ => False) fun f r' => f = .tooDeep ∧ r' = r := by
    rw [← target_firstRow (i := i + 1) (by omega)] at hnext
    exact (cellValue_negated_meets (P := fun _ => False) .value
      (written_firstRow (by omega)) ⟨_, resolve?_firstRow (by omega)⟩ (hr _) hpath
      (h.deep (by omega)) hroom (by simp) (hnext.imp (fun _ _ => False.elim) fun _ _ => id)).imp
        (fun _ _ ⟨_, _, hfalse, _⟩ => hfalse) fun _ _ => id
  have hlast : (g.cellValue (Formula.roomLimit - referenceCost 390 - referenceCost 390)
      [⟨0, 1⟩, ⟨0, 0⟩] ⟨0, 2⟩).Meets r (fun _ _ => False) fun f r' => f = .tooDeep ∧ r' = r :=
    cellValue_minuses_meets (written_firstRow (i := 3) (by decide))
      ⟨_, resolve?_firstRow (by decide)⟩ (hr _) (by decide) (h.deep (i := 2) (by decide))
      (by decide)
  have hfirst := hpass (i := 0) (by decide) List.not_mem_nil (by decide)
    (hpass (i := 1) (by decide) (by decide) (by decide) hlast)
  rcases hrun : (g.cellValue Formula.roomLimit [] ⟨0, 0⟩).run r with ⟨f | v, r'⟩
  · obtain ⟨rfl, rfl⟩ := hfirst.of_run_error hrun
    rfl
  · exact (hfirst.of_run_ok hrun).elim

theorem exists_display_error (hr : r.Sound g Formula.roomLimit)
    (hnone : ∀ d : Cell, r.memo[d]? = none) :
    ∃ f, ((g.display Formula.roomLimit ⟨0, 0⟩).run r).1 = .error f := by
  obtain ⟨f, hf⟩ := h.overlong
  exact Grid.exists_display_error hr hnone (h.exhausted hnone) hf

/-- **There is room enough for every formula of it**, the next one being known. -/
theorem display_meets (hi : i < 9) (hmemo : r.memo[(⟨0, i⟩ : Cell)]? = none)
    (hnext : i < 8 → r.memo[(⟨0, (i + 1 : Nat)⟩ : Cell)]? = some (.result (.error .value))) :
    (g.display Formula.roomLimit ⟨0, i⟩).Meets r
      (fun t r' => t = "#VALUE!" ∧ ∀ d : Cell, r'.memo[d]? =
        if ⟨0, i⟩ = d then some (.result (.error .value)) else r.memo[d]?) fun _ _ => False := by
  refine display_meets_of_cellValue (v := .result (.error .value)) (h.isFormula (by omega)) ?_
  have hkept {v : CellValue} {r' : Results} (hv : v = .result (.error .value))
      (hr' : r' = (r.succeed ⟨0, i⟩).memoize ⟨0, i⟩ v) : v = .result (.error .value) ∧
        ∀ d : Cell, r'.memo[d]? =
          if ⟨0, i⟩ = d then some (.result (.error .value)) else r.memo[d]? := by
    subst hr' hv
    exact ⟨rfl, fun d => Results.getElem?_memoize ..⟩
  by_cases hdeep : i < 8
  · have hknown : (g.cellValue (Formula.roomLimit - referenceCost 390) [⟨0, i⟩]
        ⟨0, (i + 1 : Nat)⟩).Meets r (fun v r' => v = .result (.error .value) ∧ r' = r)
        fun _ _ => False := cellValue_of_known (hnext hdeep)
    rw [← target_firstRow (i := i + 1) (by omega)] at hknown
    refine (cellValue_negated_meets (P := fun r' => r' = r) .value
      (written_firstRow (by omega)) ⟨_, resolve?_firstRow (by omega)⟩ hmemo List.not_mem_nil
      (h.deep hdeep) (by decide) (fun _ _ => id)
      (hknown.imp (fun v r' ⟨hv, hr'⟩ => ⟨hv ▸ rfl, hr'⟩) fun _ _ => id)).imp ?_ fun _ _ => id
    rintro v r' ⟨hv, _, rfl, hr'⟩
    exact hkept hv hr'
  · obtain rfl : i = 8 := by omega
    exact (cellValue_stop_meets (by decide) hmemo List.not_mem_nil h.stop).imp
      (fun v r' ⟨hv, hr'⟩ => hkept hv hr') fun _ _ => id

/-- **Readings of the chain from its far end** go through, however many there are. -/
theorem exists_after {k : Nat} (hk : k ≤ 9) : ∃ history r,
    (Sheet.mk g {}).after Formula.roomLimit history = ⟨g, r⟩ ∧ ∀ i : Nat,
      r.memo[(⟨0, i⟩ : Cell)]? =
        if 9 ≤ i + k ∧ i < 9 then some (.result (.error .value)) else none := by
  induction k with
  | zero =>
    refine ⟨[], {}, rfl, fun i => ?_⟩
    rw [if_neg (by omega)]
    exact Std.HashMap.getElem?_empty
  | succ k ih =>
    obtain ⟨history, r, hafter, hmemo⟩ := ih (by omega)
    obtain ⟨t, r', hrun, -, hmemo'⟩ := (h.display_meets (i := 8 - k) (r := r) (by omega)
      ((hmemo _).trans (if_neg (by omega))) fun _ => (hmemo _).trans (if_pos (by omega))).exists_ok
    refine ⟨history ++ [.display ⟨0, (8 - k : Nat)⟩], r', ?_, fun i => ?_⟩
    · unfold Sheet.after at hafter ⊢
      rw [List.foldl_append, hafter]
      simp only [List.foldl_cons, List.foldl_nil, Sheet.perform, Sheet.run, hrun]
    · have hcell : (⟨0, (8 - k : Nat)⟩ : Cell) = ⟨0, i⟩ ↔ 8 - k = i := by
        simp only [Cell.mk.injEq, true_and]
        exact Int.ofNat_inj
      rw [hmemo', hmemo]
      simp only [hcell]
      by_cases hi : 8 - k = i
      · rw [if_pos hi, if_pos (by omega)]
      · rw [if_neg hi]
        exact if_congr (by omega) rfl rfl

end Chained

/-- A chain of ten cells and nothing else. -/
def chain : Grid :=
  let deep (i : Nat) : String := String.ofList ('=' :: Formula.minuses 390 (firstRow (i + 1)))
  .ofRows [(List.range 8).map deep ++ ["=1/0+J1", String.ofList ('=' :: zerosInFront.chars)]]

theorem chained_chain : chain.Chained where
  deep {i} hi := by interval_cases i <;> rfl
  stop := rfl
  unread := rfl

end Grid

end Spreadsheet
