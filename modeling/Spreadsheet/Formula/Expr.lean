import Spreadsheet.Formula.Token

/-!
# Expressions

The tree of a formula: numbers, references, signs, the four operations and function calls.
Parentheses leave no trace in it. References stand in the tree as they are written, with the place
of their token.

* `Expr`; `Expr.functions` and `Expr.references` list what a tree calls and reads, left to right.
-/

namespace Spreadsheet.Formula

open Reference (Parts)

/-- A sign in front of an operand. -/
inductive Sign where
  | positive
  | negative
  deriving DecidableEq, Repr

/-- An operation between two operands. -/
inductive Operator where
  | add
  | sub
  | mul
  | div
  deriving DecidableEq, Repr

/-- The tree of a formula. -/
inductive Expr where
  | number (n : Literal)
  | cell (parts : Parts) (position : Nat)
  | range (first last : Parts) (position : Nat)
  | signed (sign : Sign) (operand : Expr)
  | binary (op : Operator) (left right : Expr)
  | call (name : List Char) (args : List Expr)
  deriving Repr

mutual

/-- The names of the functions that a tree calls, in upper case, callers before their arguments. -/
def Expr.functions : Expr → List String
  | .number _ | .cell .. | .range .. => []
  | .signed _ e => e.functions
  | .binary _ l r => l.functions ++ r.functions
  | .call name args => upperName name :: Expr.functionsOfList args

/-- The names of the functions that trees call. -/
def Expr.functionsOfList : List Expr → List String
  | [] => []
  | e :: es => e.functions ++ Expr.functionsOfList es

end

mutual

/-- The rectangles that a tree reads, as their two corners and the place of their token. -/
def Expr.corners : Expr → List (Parts × Parts × Nat)
  | .number _ => []
  | .cell parts position => [(parts, parts, position)]
  | .range first last position => [(first, last, position)]
  | .signed _ e => e.corners
  | .binary _ l r => l.corners ++ r.corners
  | .call _ args => Expr.cornersOfList args

/-- The rectangles that trees read. -/
def Expr.cornersOfList : List Expr → List (Parts × Parts × Nat)
  | [] => []
  | e :: es => e.corners ++ Expr.cornersOfList es

end

/-- The references that a tree reads, two for every rectangle. -/
def Expr.references (e : Expr) : Except Failure (List (Reference × Reference)) :=
  e.corners.mapM fun (first, last, position) => do
    return (← resolve position first, ← resolve position last)

end Spreadsheet.Formula
