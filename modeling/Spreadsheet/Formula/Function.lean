import Spreadsheet.Formula.Check
import Spreadsheet.Formula.Number

/-!
# Functions

Every function reduces a list of numbers to one. Its arguments are single numbers and the cells of
ranges, read from left to right as one list; the first error in it is the result.

* `Operand`: a number or the numbers of a range; `flatten` lists those of several operands;
* `Function.reduce`: what a function makes of finite numbers; none of them makes zero;
* `Function.apply`: a function on its arguments.
-/

namespace Spreadsheet.Formula

/-- What an argument evaluates to. -/
inductive Operand where
  | number (x : Outcome)
  | range (xs : List Outcome)

/-- The numbers of an operand. -/
def Operand.outcomes : Operand → List Outcome
  | number x => [x]
  | range xs => xs

/-- All finite numbers, or the first error. -/
def collect (xs : List Outcome) : Except ErrorCode (List Float) := xs.mapM (· >>= checked)

/-- The sum, added up from zero from left to right. -/
def sumOf (xs : List Float) : Float := xs.foldl (· + ·) 0.0

/-- The first of the numbers that no later one is less than; zero if there are none. -/
def leastOf : List Float → Float
  | [] => 0.0
  | x :: xs => xs.foldl (fun best y => if y < best then y else best) x

/-- The first of the numbers that no later one is greater than; zero if there are none. -/
def greatestOf : List Float → Float
  | [] => 0.0
  | x :: xs => xs.foldl (fun best y => if best < y then y else best) x

/-- What a function makes of numbers. -/
def Function.reduce : Function → List Float → Outcome
  | .sum, xs => checked (sumOf xs)
  | .min, xs => .ok (leastOf xs)
  | .max, xs => .ok (greatestOf xs)
  | .average, [] => .ok 0.0
  | .average, xs => checked (sumOf xs / Float.ofNat xs.length)

/-- What a function makes of its arguments. -/
def Function.apply (f : Function) (args : List Operand) : Outcome := do
  f.reduce (← collect (args.flatMap Operand.outcomes))

end Spreadsheet.Formula
