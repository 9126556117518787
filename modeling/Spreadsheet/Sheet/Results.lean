import Spreadsheet.Formula.Eval
import Std.Data.HashMap

/-!
# Results of formulas

What is known about the formula cells of a grid: the values computed since the grid last changed,
and for every cell whose formula could not be evaluated the reason.

* `Results` and its two tables; `Evaluation`: a computation that uses and extends results, which
  stay even if it fails;
* `evaluate`: the formula of one cell, given how its references are answered.
-/

namespace Spreadsheet

open Formula (CellValue Expr Surroundings)

/-- What is known about formula cells. -/
structure Results where
  /-- The values of cells. -/
  memo : Std.HashMap Cell CellValue := ∅
  /-- Why cells have no value. -/
  failures : Std.HashMap Cell Formula.Failure := ∅

namespace Results

/-- Keep the value of a cell. -/
def memoize (r : Results) (c : Cell) (v : CellValue) : Results :=
  { r with memo := r.memo.insert c v }

/-- Note why a cell has no value. -/
def fail (r : Results) (c : Cell) (f : Formula.Failure) : Results :=
  { r with failures := r.failures.insert c f }

/-- A cell has a value. -/
def succeed (r : Results) (c : Cell) : Results :=
  { r with failures := r.failures.erase c }

/-- Forget all values. -/
def invalidate (r : Results) : Results := { r with memo := ∅ }

end Results

/-- A computation on results, which stay even if it fails. -/
abbrev Evaluation := ExceptT Formula.Failure (StateM Results)

/-- Evaluate the body of a formula cell. A rejected formula is noted with its reason; other
failures are passed on. -/
def evaluate (room : Nat) (c : Cell) (body : String)
    (answer : (level : Nat) → Cell → Evaluation CellValue) : Evaluation CellValue :=
  tryCatch
    (do
      let e ← MonadExcept.ofExcept (Expr.ofBody room body)
      let x ← e.value ⟨answer, fun level => MonadExcept.ofExcept (Formula.enter room level)⟩
      modify (·.succeed c)
      return .result x)
    fun
      | .rejected r => do
        modify (·.fail c (.rejected r))
        return .failed
      | f => throw f

end Spreadsheet
