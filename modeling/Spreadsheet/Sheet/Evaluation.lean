import Spreadsheet.CellText
import Spreadsheet.Grid
import Spreadsheet.Sheet.Results
import Std.Data.HashSet

/-!
# Evaluating cells

The value of a cell is its text, or the result of its formula. A formula cell is evaluated when it
is first asked for and its value is kept. On the way the cells being evaluated form a path; a
reference back into it is a circular one.

Asking recursively takes room for every cell of a chain of references (`cellValue`). If there is
not enough, the cells that a formula depends on are evaluated before it, in a walk over the graph
of references with a stack of its own (`walk`), so that no chain is too long (`valueAt`).
-/

namespace Spreadsheet

open Formula (CellValue Expr Failure rectangle span)

namespace Grid

/-! ## By recursion -/

/-- The room that a reference at a level of nesting takes before its cell is evaluated. -/
def referenceCost (level : Nat) : Nat := level + 6

/-- The value of a cell that is referred to by the first cell of a path, each cell of which is
referred to by the next one. -/
def cellValue (g : Grid) (room : Nat) (path : List Cell) (c : Cell) : Evaluation CellValue := do
  match (← get).memo[c]? with
  | some v => return v
  | none =>
    match CellText.body? (g.text c) with
    | none => return .text (g.text c)
    | some body =>
      if c ∈ path then return .result (.error .circular)
      else if _h : room = 0 then throw .tooDeep
      else
        let v ← evaluate room c body fun level c' =>
          cellValue g (room - referenceCost level) (c :: path) c'
        modify (·.memoize c v)
        return v
termination_by room
decreasing_by unfold referenceCost; omega

/-- The value of a formula cell that is not known yet, its references answered by recursion. -/
def formulaValue (g : Grid) (room : Nat) (path : List Cell) (c : Cell) (body : String) :
    Evaluation CellValue :=
  evaluate room c body fun level c' => g.cellValue (room - referenceCost level) (c :: path) c'

/-! ## Dependencies first -/

/-- The cells of the rectangle between two corners that are in the grid, row by row. -/
def within (g : Grid) (a b : Cell) : List Cell :=
  (span (min a.row b.row) (min (max a.row b.row) (g.size.rows - 1))).flatMap fun r =>
    (span (min a.col b.col) (min (max a.col b.col) (g.size.cols - 1))).map fun c => ⟨r, c⟩

/-- The cells in the grid that a formula refers to, in reading order; none if it is rejected or
too deep. -/
def dependencies (g : Grid) (room : Nat) (body : String) : Except Failure (List Cell) :=
  match Expr.ofBody room body with
  | .error (.tooLong e) => .error (.tooLong e)
  | .error _ => .ok []
  | .ok e => do return (← e.references).flatMap fun (first, last) => g.within first.cell last.cell

/-- The formula cells of a grid. -/
def formulas (g : Grid) : Std.HashSet Cell :=
  Std.HashSet.ofList (g.size.toList.filter fun c => CellText.isFormula (g.text c))

/-- The value of a formula cell whose dependencies are known or on the path. If its formula alone
is too deep, that is noted. -/
def boundedValue (g : Grid) (room : Nat) (path : List Cell) (c : Cell) : Evaluation CellValue :=
  match CellText.body? (g.text c) with
  | none => return .text (g.text c)
  | some body =>
    tryCatch (g.formulaValue room path c body) fun
      | .tooDeep => do
        modify (·.fail c .tooDeep)
        return .failed
      | f => throw f

/-- A step of a walk that is still to be taken. -/
inductive Visit where
  /-- Look at a cell and what it depends on. -/
  | enter (c : Cell)
  /-- Evaluate a cell, all it depends on being known or on the path. -/
  | leave (c : Cell)

/-- Walk over the graph of references depth first, evaluating every cell after those it depends
on. Of the formula cells the unvisited ones have not been entered yet. -/
def walk (g : Grid) (room : Nat) (unvisited : Std.HashSet Cell) (path : List Cell) :
    List Visit → Evaluation Unit
  | [] => return ()
  | .leave c :: stack => do
    let v ← g.boundedValue room path.tail c
    modify (·.memoize c v)
    walk g room unvisited path.tail stack
  | .enter c :: stack => do
    if _h : c ∈ unvisited then
      if (← get).memo.contains c then walk g room unvisited path stack
      else
        let found ← MonadExcept.ofExcept (g.dependencies room ((CellText.body? (g.text c)).getD ""))
        let left := unvisited.erase c
        walk g room left (c :: path)
          ((found.filter left.contains).map .enter ++ .leave c :: stack)
    else walk g room unvisited path stack
termination_by stack => (unvisited.size, stack.length)
decreasing_by
  · exact Prod.Lex.right _ (by simp)
  · exact Prod.Lex.right _ (by simp)
  · refine Prod.Lex.left _ _ ?_
    have := Std.HashSet.isEmpty_eq_false_iff_exists_mem.2 ⟨c, _h⟩
    rw [Std.HashSet.isEmpty_eq_size_eq_zero] at this
    rw [Std.HashSet.size_erase, if_pos _h]
    simp at this
    omega
  · exact Prod.Lex.right _ (by simp)

/-! ## Any cell -/

/-- The value of a cell, however long the chain of cells that it depends on. -/
def valueAt (g : Grid) (room : Nat) (c : Cell) : Evaluation CellValue :=
  tryCatch (g.cellValue room [] c) fun
    | .tooDeep => do
      g.walk room g.formulas [] [.enter c]
      return (← get).memo.getD c .failed
    | f => throw f

/-- The value of a formula that stands in no cell. -/
def bodyValue (g : Grid) (room : Nat) (body : String) : Evaluation Formula.Outcome := do
  let e ← MonadExcept.ofExcept (Expr.ofBody room body)
  e.value ⟨fun level c => g.valueAt (room - referenceCost level) c,
    fun level => MonadExcept.ofExcept (Formula.enter room level)⟩

end Grid

end Spreadsheet
