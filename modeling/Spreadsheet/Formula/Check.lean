import Spreadsheet.Formula.Parser

/-!
# Checking formulas

A tree is accepted if its functions exist, its row numbers are not zero and a range stands only
directly as an argument of a function. Callers are checked before their arguments and left before
right; the first fault found counts.

Each level of the tree takes room, of which there is a limited amount; a tree that needs more is too
deep. The limits are parameters, `roomLimit` is the amount at hand.

* `Function`: the table of functions;
* `Expr.check`: one tree; `Expr.ofBody`: parsing and checking together.
-/

namespace Spreadsheet.Formula

/-! ## The table of functions -/

/-- A function of the formula language. -/
inductive Function where
  | sum
  | min
  | max
  | average
  deriving DecidableEq, Repr

namespace Function

/-- Every function, in the order of their names. -/
def all : List Function := [average, max, min, sum]

/-- The name of a function. -/
def name : Function → String
  | sum => "SUM"
  | min => "MIN"
  | max => "MAX"
  | average => "AVERAGE"

/-- The function of a name; upper and lower case differ. -/
def ofName? (name : String) : Option Function := all.find? (·.name == name)

theorem ofName?_name (f : Function) : ofName? f.name = some f := by cases f <;> rfl

end Function

/-! ## Checking -/

/-- The levels of nesting that there is room for. -/
def roomLimit : Nat := 960

/-- Accept a level of nesting if there is room for it. -/
def enter (room level : Nat) : Except Failure Unit :=
  if level < room then .ok () else .error .tooDeep

mutual

/-- Check a tree at a level of nesting; a range is accepted as an argument only. -/
def Expr.check (room level : Nat) (isArgument : Bool) : Expr → Except Failure Unit
  | .number _ => enter room level
  | .cell parts position => do
    enter room level
    let _ ← resolve position parts
  | .range first last position => do
    enter room level
    let _ ← resolve position first
    let _ ← resolve position last
    if isArgument then return () else throw (.rejected .misplacedRange)
  | .signed _ e => do
    enter room level
    e.check room (level + 1) false
  | .binary _ l r => do
    enter room level
    l.check room (level + 1) false
    r.check room (level + 1) false
  | .call name args => do
    enter room level
    match Function.ofName? (upperName name) with
    | none => throw (.rejected (.unknownFunction (upperName name)))
    | some _ => Expr.checkArguments room (level + 1) args

/-- Check the arguments of a call. -/
def Expr.checkArguments (room level : Nat) : List Expr → Except Failure Unit
  | [] => .ok ()
  | e :: es => do
    e.check room level true
    Expr.checkArguments room level es

end

/-- The tree of a formula body, parsed and checked within some room. -/
def Expr.ofBody (room : Nat) (body : String) : Except Failure Expr := do
  match Expr.parse body with
  | .error r => throw (.rejected r)
  | .ok e =>
    e.check room 0 false
    return e

end Spreadsheet.Formula
