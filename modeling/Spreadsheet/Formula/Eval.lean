import Spreadsheet.Formula.Function

/-!
# Evaluation

A tree is evaluated from left to right. An error on the left of an operation is its value, and the
right is not looked at; all arguments of a call are evaluated. Where the cells come from is a
parameter: `Surroundings` answers references and is told of every level of nesting.

* `CellValue`: what a cell holds for those that refer to it;
* `rectangle`: the cells between two corners, row by row;
* `Expr.eval`: the value of a tree; `Expr.value`: of a whole formula.
-/

namespace Spreadsheet.Formula

/-! ## Values of cells -/

/-- What a cell holds for those that refer to it. -/
inductive CellValue where
  /-- A text that is no formula. -/
  | text (s : String)
  /-- The result of a formula. -/
  | result (x : Outcome)
  /-- A formula that is rejected. -/
  | failed

/-- The number that a reference to a cell counts as. -/
def CellValue.number : CellValue → Outcome
  | .text s => ofText s
  | .result x => x >>= checked
  | .failed => .error .value

/-- Consecutive integers between two, both included. -/
def span (a b : Int) : List Int := (List.range (b - a + 1).toNat).map fun (i : Nat) => a + i

/-- The cells of the rectangle between two corners, row by row. -/
def rectangle (a b : Cell) : List Cell :=
  (span (min a.row b.row) (max a.row b.row)).flatMap fun r =>
    (span (min a.col b.col) (max a.col b.col)).map fun c => ⟨r, c⟩

/-! ## Operations -/

/-- A sign on a number. -/
def Sign.apply : Sign → Float → Float
  | .positive, x => x
  | .negative, x => -x

/-- An operation on two numbers; nothing may be divided by zero. -/
def Operator.apply : Operator → Float → Float → Outcome
  | .add, x, y => checked (x + y)
  | .sub, x, y => checked (x - y)
  | .mul, x, y => checked (x * y)
  | .div, x, y => if y == 0.0 then .error .value else checked (x / y)

/-! ## Trees -/

/-- Where a formula stands: how its references are answered, and what becomes of its levels of
nesting. Levels count from zero at the root. -/
structure Surroundings (m : Type → Type) where
  /-- The value of a cell that is referred to at a level. -/
  cell : (level : Nat) → Cell → m CellValue
  /-- A level is reached. -/
  enter : (level : Nat) → m Unit

section

variable {m : Type → Type} [Monad m] [MonadExceptOf Failure m]

/-- The number of an operand; a range has none. -/
def Operand.scalar : Operand → m Outcome
  | .number x => pure x
  | .range _ => throw (.rejected .misplacedRange)

mutual

/-- The value of a tree at a level of nesting. -/
def Expr.eval (env : Surroundings m) (level : Nat) : Expr → m Operand
  | .number n => do
    env.enter level
    return .number (.ok n.value)
  | .cell parts position => do
    env.enter level
    let r ← MonadExcept.ofExcept (resolve position parts)
    return .number (← env.cell level r.cell).number
  | .range first last position => do
    env.enter level
    let first ← MonadExcept.ofExcept (resolve position first)
    let last ← MonadExcept.ofExcept (resolve position last)
    let xs ← (rectangle first.cell last.cell).mapM fun c =>
      CellValue.number <$> env.cell (level + 1) c
    return .range xs
  | .signed sign e => do
    env.enter level
    let x ← (← e.eval env (level + 1)).scalar
    return .number (x.map sign.apply)
  | .binary op l r => do
    env.enter level
    match ← (← l.eval env (level + 1)).scalar with
    | .error code => return .number (.error code)
    | .ok x =>
      match ← (← r.eval env (level + 1)).scalar with
      | .error code => return .number (.error code)
      | .ok y => return .number (op.apply x y)
  | .call name args => do
    env.enter level
    match Function.ofName? (upperName name) with
    | none => throw (.rejected (.unknownFunction (upperName name)))
    | some f => return .number (f.apply (← Expr.evalArguments env (level + 2) args))

/-- The values of the arguments of a call. -/
def Expr.evalArguments (env : Surroundings m) (level : Nat) : List Expr → m (List Operand)
  | [] => pure []
  | e :: es => do
    let x ← e.eval env level
    let xs ← Expr.evalArguments env level es
    return x :: xs

end

/-- The value of a formula. -/
def Expr.value (env : Surroundings m) (e : Expr) : m Outcome := do
  (← e.eval env 0).scalar

end

end Spreadsheet.Formula
