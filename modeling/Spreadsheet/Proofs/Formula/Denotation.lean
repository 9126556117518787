import Mathlib.Data.List.Basic
import Mathlib.Data.List.Forall2
import Spreadsheet.Formula.Eval

/-!
# What a formula denotes

The value of a formula as a plain function of the values of cells: every part of the tree has a
value, whatever stands beside it, and of several errors the leftmost one counts. Nothing is kept,
nothing is left out and nothing fails.

* `Expr.denote`, `Expr.denoteAll`: the value of a tree and of arguments;
* `Expr.depth`: how many levels of nesting an evaluation from left to right goes down;
* `Expr.cells`: the cells that a tree reads;
* `Congruence`: relations between outcomes that every operation respects; **`Expr.denote_related`**:
  related values of cells give related values of trees;
* **`Expr.cells_ok_of_denote`**: a number comes from numbers only.
-/

namespace Spreadsheet

/-- The cell that a written reference names. -/
def Reference.Parts.target (p : Reference.Parts) : Cell :=
  match p.resolve? with
  | .ok (some r) => r.cell
  | _ => ⟨-1, -1⟩

namespace Formula

/-! ## Values of trees -/

/-- The number of an operand that stands alone; a range has none. -/
def Operand.single : Operand → Outcome
  | .number x => x
  | .range _ => .error .value

/-- An operation on two outcomes; an error on the left counts before one on the right. -/
def Operator.combine (op : Operator) : Outcome → Outcome → Outcome
  | .error code, _ => .error code
  | .ok _, .error code => .error code
  | .ok x, .ok y => op.apply x y

/-- A function of any name on operands. -/
def applyNamed (name : List Char) (args : List Operand) : Outcome :=
  match Function.ofName? (upperName name) with
  | none => .error .value
  | some f => f.apply args

mutual

/-- What a tree denotes, given the values of cells. -/
def Expr.denote (ρ : Cell → CellValue) : Expr → Operand
  | .number n => .number (.ok n.value)
  | .cell parts _ => .number (ρ parts.target).number
  | .range first last _ =>
    .range ((rectangle first.target last.target).map fun c => (ρ c).number)
  | .signed s e => .number ((e.denote ρ).single.map s.apply)
  | .binary op l r => .number (op.combine (l.denote ρ).single (r.denote ρ).single)
  | .call name args => .number (applyNamed name (Expr.denoteAll ρ args))

/-- What arguments denote. -/
def Expr.denoteAll (ρ : Cell → CellValue) : List Expr → List Operand
  | [] => []
  | e :: es => e.denote ρ :: Expr.denoteAll ρ es

end

mutual

/-- The levels of nesting that an evaluation goes down. The right side of an operation is not
looked at behind an error on its left. -/
def Expr.depth (ρ : Cell → CellValue) : Expr → Nat
  | .number _ | .cell .. | .range .. => 1
  | .signed _ e => e.depth ρ + 1
  | .binary _ l r =>
    match (l.denote ρ).single with
    | .error _ => l.depth ρ + 1
    | .ok _ => max (l.depth ρ) (r.depth ρ) + 1
  | .call _ args => max 1 (Expr.depthAll ρ args)

/-- The levels of nesting of arguments, from that of their call on. -/
def Expr.depthAll (ρ : Cell → CellValue) : List Expr → Nat
  | [] => 0
  | e :: es => max (e.depth ρ + 2) (Expr.depthAll ρ es)

end

theorem Expr.one_le_depth (ρ : Cell → CellValue) (e : Expr) : 1 ≤ e.depth ρ := by
  cases e <;> simp only [Expr.depth] <;> first | omega | (split <;> omega)

theorem Expr.depth_binary_of_error {ρ : Cell → CellValue} {l : Expr} {code : ErrorCode}
    (op : Operator) (r : Expr) (h : (l.denote ρ).single = .error code) :
    (Expr.binary op l r).depth ρ = l.depth ρ + 1 := by
  simp only [Expr.depth, h]

theorem Expr.depth_binary_of_ok {ρ : Cell → CellValue} {l : Expr} {x : Float} (op : Operator)
    (r : Expr) (h : (l.denote ρ).single = .ok x) :
    (Expr.binary op l r).depth ρ = max (l.depth ρ) (r.depth ρ) + 1 := by
  simp only [Expr.depth, h]

theorem Expr.depth_left_lt (ρ : Cell → CellValue) (op : Operator) (l r : Expr) :
    l.depth ρ < (Expr.binary op l r).depth ρ := by
  cases h : (l.denote ρ).single with
  | error code =>
    rw [Expr.depth_binary_of_error op r h]
    omega
  | ok x =>
    rw [Expr.depth_binary_of_ok op r h]
    omega

/-! ## Cells that are read -/

/-- The cells of the rectangles with given corners. -/
def cornerCells (corners : List (Reference.Parts × Reference.Parts × Nat)) : List Cell :=
  corners.flatMap fun p => rectangle p.1.target p.2.1.target

/-- The cells that a tree reads. -/
def Expr.cells (e : Expr) : List Cell := cornerCells e.corners

/-- The cells that arguments read. -/
def Expr.cellsAll (es : List Expr) : List Cell := cornerCells (Expr.cornersOfList es)

theorem cornerCells_append (a b : List (Reference.Parts × Reference.Parts × Nat)) :
    cornerCells (a ++ b) = cornerCells a ++ cornerCells b := List.flatMap_append ..

theorem span_self (n : Int) : span n n = [n] := by
  simp [span, List.range_succ]

theorem rectangle_self (c : Cell) : rectangle c c = [c] := by
  simp [rectangle, span_self]

theorem mem_span {a b n : Int} : n ∈ span a b ↔ a ≤ n ∧ n ≤ b := by
  simp only [span, List.mem_map, List.mem_range]
  constructor
  · rintro ⟨i, hi, rfl⟩; omega
  · rintro ⟨h1, h2⟩; exact ⟨(n - a).toNat, by omega, by omega⟩

theorem mem_rectangle {a b c : Cell} : c ∈ rectangle a b ↔
    (min a.row b.row ≤ c.row ∧ c.row ≤ max a.row b.row) ∧
      min a.col b.col ≤ c.col ∧ c.col ≤ max a.col b.col := by
  simp only [rectangle, List.mem_flatMap, List.mem_map, mem_span]
  constructor
  · rintro ⟨r, hr, k, hk, rfl⟩; exact ⟨hr, hk⟩
  · rintro ⟨hr, hk⟩; exact ⟨c.row, hr, c.col, hk, rfl⟩

@[simp] theorem Expr.cells_number (n : Literal) : (Expr.number n).cells = [] := rfl

@[simp] theorem Expr.cells_cell (parts : Reference.Parts) (position : Nat) :
    (Expr.cell parts position).cells = [parts.target] := by
  simp [Expr.cells, Expr.corners, cornerCells, rectangle_self]

@[simp] theorem Expr.cells_range (first last : Reference.Parts) (position : Nat) :
    (Expr.range first last position).cells = rectangle first.target last.target := by
  simp [Expr.cells, Expr.corners, cornerCells]

@[simp] theorem Expr.cells_signed (s : Sign) (e : Expr) : (Expr.signed s e).cells = e.cells := rfl

@[simp] theorem Expr.cells_binary (op : Operator) (l r : Expr) :
    (Expr.binary op l r).cells = l.cells ++ r.cells := cornerCells_append ..

@[simp] theorem Expr.cells_call (name : List Char) (args : List Expr) :
    (Expr.call name args).cells = Expr.cellsAll args := rfl

@[simp] theorem Expr.cellsAll_nil : Expr.cellsAll [] = [] := rfl

@[simp] theorem Expr.cellsAll_cons (e : Expr) (es : List Expr) :
    Expr.cellsAll (e :: es) = e.cells ++ Expr.cellsAll es := cornerCells_append ..

/-! ## Relations between outcomes -/

/-- A relation between outcomes that numbers and missing numbers have to themselves, and that
relates numbers to nothing else. -/
structure Congruence (R : Outcome → Outcome → Prop) : Prop where
  ok (x : Float) : R (.ok x) (.ok x)
  value : R (.error .value) (.error .value)
  eq_of_ok {x : Float} {b : Outcome} : R (.ok x) b → b = .ok x
  error_of_error {code : ErrorCode} {b : Outcome} : R (.error code) b → ∃ code', b = .error code'

/-- Two operands are alike in that their numbers are related. -/
def Operand.Related (R : Outcome → Outcome → Prop) : Operand → Operand → Prop
  | .number x, .number y => R x y
  | .range xs, .range ys => List.Forall₂ R xs ys
  | _, _ => False

variable {R : Outcome → Outcome → Prop}

theorem congruence_eq : Congruence Eq where
  ok _ := rfl
  value := rfl
  eq_of_ok h := h.symm
  error_of_error h := ⟨_, h.symm⟩

theorem Operand.Related.single (hR : Congruence R) {x y : Operand} (h : x.Related R y) :
    R x.single y.single := by
  cases x <;> cases y <;> first | exact h | exact hR.value | exact h.elim

theorem Operand.Related.outcomes {x y : Operand} (h : x.Related R y) :
    List.Forall₂ R x.outcomes y.outcomes := by
  cases x <;> cases y
  · exact .cons h .nil
  · exact h.elim
  · exact h.elim
  · exact h

theorem Congruence.checked (hR : Congruence R) (x : Float) : R (checked x) (checked x) := by
  unfold Formula.checked
  split
  · exact hR.ok x
  · exact hR.value

theorem Congruence.map (hR : Congruence R) (f : Float → Float) {x y : Outcome} (h : R x y) :
    R (x.map f) (y.map f) := by
  cases x with
  | ok a => obtain rfl := hR.eq_of_ok h; exact hR.ok (f a)
  | error code => obtain ⟨code', rfl⟩ := hR.error_of_error h; exact h

theorem Congruence.apply (hR : Congruence R) (op : Operator) (x y : Float) :
    R (op.apply x y) (op.apply x y) := by
  cases op <;> simp only [Operator.apply]
  · exact hR.checked _
  · exact hR.checked _
  · exact hR.checked _
  · split
    · exact hR.value
    · exact hR.checked _

theorem Congruence.combine (hR : Congruence R) (op : Operator) {x x' y y' : Outcome}
    (hx : R x x') (hy : R y y') : R (op.combine x y) (op.combine x' y') := by
  cases x with
  | error code => obtain ⟨code', rfl⟩ := hR.error_of_error hx; exact hx
  | ok a =>
    obtain rfl := hR.eq_of_ok hx
    cases y with
    | error code => obtain ⟨code', rfl⟩ := hR.error_of_error hy; exact hy
    | ok b => obtain rfl := hR.eq_of_ok hy; exact hR.apply op a b

theorem Congruence.reduce (hR : Congruence R) (f : Function) (xs : List Float) :
    R (f.reduce xs) (f.reduce xs) := by
  cases f <;> simp only [Function.reduce]
  · exact hR.checked _
  · exact hR.ok _
  · exact hR.ok _
  · cases xs with
    | nil => exact hR.ok _
    | cons x xs => exact hR.checked _

theorem collect_cons (x : Outcome) (xs : List Outcome) :
    collect (x :: xs) = (x >>= Formula.checked) >>= fun a => (collect xs).map (a :: ·) := by
  rw [collect, List.mapM_cons]
  rcases h : (x >>= Formula.checked) with _ | a
  · rfl
  · change (do let as ← List.mapM (fun y => y >>= Formula.checked) xs; pure (a :: as)) = _
    unfold collect
    rcases List.mapM (fun y => y >>= Formula.checked) xs with _ | as <;> rfl

/-- Of related lists either both hold the same finite numbers, or both have a first error, and
these are related. -/
theorem Congruence.collect (hR : Congruence R) {xs ys : List Outcome} (h : List.Forall₂ R xs ys) :
    (∃ as, collect xs = .ok as ∧ collect ys = .ok as) ∨
      ∃ code code', collect xs = .error code ∧ collect ys = .error code' ∧
        R (.error code) (.error code') := by
  induction h with
  | nil => exact .inl ⟨[], rfl, rfl⟩
  | @cons x y xs ys hxy _ ih =>
    simp only [collect_cons]
    cases x with
    | error code =>
      obtain ⟨code', rfl⟩ := hR.error_of_error hxy
      exact .inr ⟨code, code', rfl, rfl, hxy⟩
    | ok a =>
      obtain rfl := hR.eq_of_ok hxy
      rcases ha : Formula.checked a with code | b
      · have : code = .value := by
          unfold Formula.checked at ha; split at ha <;> simp_all
        subst this
        exact .inr ⟨.value, .value, by simp [bind, Except.bind, ha],
          by simp [bind, Except.bind, ha],
          hR.value⟩
      · rcases ih with ⟨as, h1, h2⟩ | ⟨code, code', h1, h2, h3⟩
        · exact .inl ⟨b :: as, by simp [bind, Except.bind, ha, h1, Except.map],
            by simp [bind, Except.bind, ha, h2, Except.map]⟩
        · exact .inr ⟨code, code', by simp [bind, Except.bind, ha, h1, Except.map],
            by simp [bind, Except.bind, ha, h2, Except.map], h3⟩

theorem Congruence.applyNamed (hR : Congruence R) (name : List Char) {xs ys : List Operand}
    (h : List.Forall₂ (Operand.Related R) xs ys) : R (applyNamed name xs) (applyNamed name ys) := by
  unfold Formula.applyNamed
  cases Function.ofName? (upperName name) with
  | none => exact hR.value
  | some f =>
    have hl : List.Forall₂ R (xs.flatMap Operand.outcomes) (ys.flatMap Operand.outcomes) := by
      induction h with
      | nil => exact .nil
      | cons hxy _ ih => exact List.rel_append hxy.outcomes ih
    simp only [Function.apply]
    rcases hR.collect hl with ⟨as, h1, h2⟩ | ⟨code, code', h1, h2, h3⟩
    · rw [h1, h2]; exact hR.reduce f as
    · rw [h1, h2]; exact h3

/-! ## Related cells give related trees -/

/-- Two ways of giving values to some cells are related. -/
def RelatedOn (R : Outcome → Outcome → Prop) (cells : List Cell) (ρ σ : Cell → CellValue) : Prop :=
  ∀ c ∈ cells, R (ρ c).number (σ c).number

mutual

/-- **Related values of the cells that a tree reads give related values of the tree.** -/
theorem Expr.denote_related (hR : Congruence R) {ρ σ : Cell → CellValue} :
    ∀ e : Expr, RelatedOn R e.cells ρ σ → (e.denote ρ).Related R (e.denote σ)
  | .number n, _ => hR.ok n.value
  | .cell parts position, h => h _ (by simp)
  | .range first last position, h => by
    simp only [Expr.denote, Operand.Related, List.forall₂_map_left_iff, List.forall₂_map_right_iff]
    exact List.forall₂_same.2 fun c hc => h c (by simpa using hc)
  | .signed s e, h => hR.map s.apply ((Expr.denote_related hR e h).single hR)
  | .binary op l r, h =>
    hR.combine op
      ((Expr.denote_related hR l fun c hc => h c (by simp [hc])).single hR)
      ((Expr.denote_related hR r fun c hc => h c (by simp [hc])).single hR)
  | .call name args, h => hR.applyNamed name (Expr.denoteAll_related hR args h)

theorem Expr.denoteAll_related (hR : Congruence R) {ρ σ : Cell → CellValue} :
    ∀ es : List Expr, RelatedOn R (Expr.cellsAll es) ρ σ →
      List.Forall₂ (Operand.Related R) (Expr.denoteAll ρ es) (Expr.denoteAll σ es)
  | [], _ => .nil
  | e :: es, h =>
    .cons (Expr.denote_related hR e fun c hc => h c (by simp [hc]))
      (Expr.denoteAll_related hR es fun c hc => h c (by simp [hc]))

end

theorem Congruence.error_iff (hR : Congruence R) {x y : Outcome} (h : R x y) :
    (∃ code, x = .error code) ↔ ∃ code, y = .error code := by
  cases x with
  | ok a => obtain rfl := hR.eq_of_ok h; rfl
  | error code => exact ⟨fun _ => hR.error_of_error h, fun _ => ⟨code, rfl⟩⟩

mutual

/-- Related values of cells make an evaluation go down equally far. -/
theorem Expr.depth_related (hR : Congruence R) {ρ σ : Cell → CellValue} :
    ∀ e : Expr, RelatedOn R e.cells ρ σ → e.depth ρ = e.depth σ
  | .number _, _ | .cell .., _ | .range .., _ => rfl
  | .signed _ e, h => congrArg (· + 1) (Expr.depth_related hR e h)
  | .binary _ l r, h => by
    have hl : RelatedOn R l.cells ρ σ := fun c hc => h c (by simp [hc])
    have hr : RelatedOn R r.cells ρ σ := fun c hc => h c (by simp [hc])
    have hx := hR.error_iff ((Expr.denote_related hR l hl).single hR)
    simp only [Expr.depth]
    rw [Expr.depth_related hR l hl, Expr.depth_related hR r hr]
    rcases h1 : (l.denote ρ).single with code | a <;> rcases h2 : (l.denote σ).single with code' | b
    · rfl
    · simp [h1, h2] at hx
    · simp [h1, h2] at hx
    · rfl
  | .call _ args, h => congrArg (max 1) (Expr.depthAll_related hR args h)

theorem Expr.depthAll_related (hR : Congruence R) {ρ σ : Cell → CellValue} :
    ∀ es : List Expr, RelatedOn R (Expr.cellsAll es) ρ σ →
      Expr.depthAll ρ es = Expr.depthAll σ es
  | [], _ => rfl
  | e :: es, h => by
    have he : RelatedOn R e.cells ρ σ := fun c hc => h c (by simp [hc])
    have hes : RelatedOn R (Expr.cellsAll es) ρ σ := fun c hc => h c (by simp [hc])
    simp only [Expr.depthAll, Expr.depth_related hR e he, Expr.depthAll_related hR es hes]

end

/-! ## Numbers come from numbers -/

/-- An outcome that is a number. -/
def IsNumber (x : Outcome) : Prop := ∃ a, x = .ok a

theorem isNumber_of_combine {op : Operator} {x y : Outcome} (h : IsNumber (op.combine x y)) :
    IsNumber x ∧ IsNumber y := by
  obtain ⟨a, h⟩ := h
  cases x with
  | error code => simp [Operator.combine] at h
  | ok b =>
    cases y with
    | error code => simp [Operator.combine] at h
    | ok c => exact ⟨⟨b, rfl⟩, c, rfl⟩

theorem isNumber_of_map {f : Float → Float} {x : Outcome} (h : IsNumber (x.map f)) :
    IsNumber x := by
  obtain ⟨a, h⟩ := h
  cases x with
  | error code => simp [Except.map] at h
  | ok b => exact ⟨b, rfl⟩

theorem isNumber_outcomes_of_single {x : Operand} (h : IsNumber x.single) :
    ∀ y ∈ x.outcomes, IsNumber y := by
  cases x with
  | number y => simpa [Operand.outcomes, Operand.single] using h
  | range ys => obtain ⟨a, h⟩ := h; simp [Operand.single] at h

theorem isNumber_of_collect {xs : List Outcome} {as : List Float} (h : collect xs = .ok as) :
    ∀ x ∈ xs, IsNumber x := by
  induction xs generalizing as with
  | nil => simp
  | cons x xs ih =>
    rw [collect_cons] at h
    cases x with
    | error code => simp [bind, Except.bind] at h
    | ok a =>
      rcases hc : collect xs with code | bs
      · rw [hc] at h
        rcases ha : Formula.checked a with code' | b <;>
          simp [bind, Except.bind, ha, Except.map] at h
      · intro y hy
        rcases List.mem_cons.1 hy with rfl | hy
        · exact ⟨a, rfl⟩
        · exact ih hc y hy

theorem isNumber_of_applyNamed {name : List Char} {args : List Operand}
    (h : IsNumber (applyNamed name args)) : ∀ x ∈ args.flatMap Operand.outcomes, IsNumber x := by
  obtain ⟨a, h⟩ := h
  unfold applyNamed at h
  cases hf : Function.ofName? (upperName name) with
  | none => simp [hf] at h
  | some f =>
    simp only [hf, Function.apply] at h
    rcases hc : collect (args.flatMap Operand.outcomes) with code | as
    · rw [hc] at h; simp [bind, Except.bind] at h
    · exact isNumber_of_collect hc

mutual

/-- **If all numbers of a tree's value are numbers, so are all cells that it reads.** -/
theorem Expr.cells_ok_of_denote {ρ : Cell → CellValue} :
    ∀ e : Expr, (∀ x ∈ (e.denote ρ).outcomes, IsNumber x) → ∀ c ∈ e.cells, IsNumber (ρ c).number
  | .number _, _, c, hc => by simp at hc
  | .cell parts position, h, c, hc => by
    obtain rfl : c = parts.target := by simpa using hc
    exact h _ (by simp [Expr.denote, Operand.outcomes])
  | .range first last position, h, c, hc =>
    h _ (by
      simp only [Expr.denote, Operand.outcomes, List.mem_map]
      exact ⟨c, by simpa using hc, rfl⟩)
  | .signed s e, h, c, hc => by
    refine Expr.cells_ok_of_denote e ?_ c hc
    have h' : IsNumber ((e.denote ρ).single.map s.apply) :=
      h _ (by simp [Expr.denote, Operand.outcomes])
    exact isNumber_outcomes_of_single (isNumber_of_map h')
  | .binary op l r, h, c, hc => by
    have h' := isNumber_of_combine (h (op.combine (l.denote ρ).single (r.denote ρ).single)
      (by simp [Expr.denote, Operand.outcomes]))
    rw [Expr.cells_binary, List.mem_append] at hc
    rcases hc with hc | hc
    · exact Expr.cells_ok_of_denote l (isNumber_outcomes_of_single h'.1) c hc
    · exact Expr.cells_ok_of_denote r (isNumber_outcomes_of_single h'.2) c hc
  | .call name args, h, c, hc => by
    have h' : IsNumber (applyNamed name (Expr.denoteAll ρ args)) :=
      h _ (by simp [Expr.denote, Operand.outcomes])
    exact Expr.cellsAll_ok_of_denoteAll args (isNumber_of_applyNamed h') c hc

theorem Expr.cellsAll_ok_of_denoteAll {ρ : Cell → CellValue} :
    ∀ es : List Expr, (∀ x ∈ (Expr.denoteAll ρ es).flatMap Operand.outcomes, IsNumber x) →
      ∀ c ∈ Expr.cellsAll es, IsNumber (ρ c).number
  | [], _, c, hc => by simp at hc
  | e :: es, h, c, hc => by
    simp only [Expr.denoteAll, List.flatMap_cons, List.mem_append] at h
    rw [Expr.cellsAll_cons, List.mem_append] at hc
    rcases hc with hc | hc
    · exact Expr.cells_ok_of_denote e (fun x hx => h x (.inl hx)) c hc
    · exact Expr.cellsAll_ok_of_denoteAll es (fun x hx => h x (.inr hx)) c hc

end

end Formula

end Spreadsheet
