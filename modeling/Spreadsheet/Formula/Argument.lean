import Spreadsheet.Formula.Function
import Spreadsheet.Json.Basic

/-!
# Functions on any values

Functions also take values that come from outside: texts, numbers of either kind, error codes and
lists. A text counts as it does in a cell; a truth value, nothing at all, or a list inside a list is
no number; an integer beyond the range of doubles cannot be taken at all.

* `Json.number`: what a value counts as;
* `Argument`, `Function.applyTo`: a function on such values.
-/

namespace Spreadsheet

/-- An integer lies beyond the range of doubles. -/
structure Formula.Overflow where
  deriving DecidableEq, Repr

namespace Formula

/-- The wording of an overflow. -/
def Overflow.message (_ : Overflow) : String := "int too large to convert to float"

/-- The double nearest to an integer. -/
def ofInt (n : Int) : Except Overflow Float :=
  let x := Decimal.nearest n.natAbs 0
  if x.isFinite then .ok (if n < 0 then -x else x) else .error ⟨⟩

/-- What a value counts as. -/
def ofJson : Json → Except Overflow Outcome
  | .int n => do return .ok (← ofInt n)
  | .float x => .ok (checked x)
  | .string s => .ok (ofText s)
  | .null | .bool _ | .array _ | .object _ => .ok (.error .value)

/-- An argument from outside. -/
inductive Argument where
  | value (v : Json)
  | error (code : ErrorCode)
  | list (items : List Argument)

/-- What an argument counts as if it stands alone. -/
def Argument.number : Argument → Except Overflow Outcome
  | value v => ofJson v
  | error code => .ok (.error code)
  | list _ => .ok (.error .value)

/-- The values of an argument. -/
def Argument.items : Argument → List Argument
  | list items => items
  | a => [a]

/-- All numbers, or the first error; values behind an error are not looked at. -/
def numbers : List Argument → Except Overflow (Except ErrorCode (List Float))
  | [] => .ok (.ok [])
  | a :: rest => do
    match ← a.number with
    | .error code => return .error code
    | .ok x => return (← numbers rest).map (x :: ·)

/-- What a function makes of arguments from outside. -/
def Function.applyTo (f : Function) (args : List Argument) : Except Overflow Outcome := do
  return (← numbers (args.flatMap Argument.items)) >>= f.reduce

end Formula

end Spreadsheet
