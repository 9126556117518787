import Spreadsheet.Formula.Expr

/-!
# Parsing formulas

Expressions are sums of products of signed operands; an operand is a number, a reference, a
function call with arguments between commas, or an expression in parentheses. Operations of one
rank group to the left.

Parsing reads one token at a time and keeps what is still open on a stack of frames, so neither
long nor deeply nested bodies need deep recursion, and the first token that cannot follow is
reported even if the body could not be cut any further.

* `Frame`: what an operand is waited for by; `State`: what may come next;
* `State.step`: one token; `State.finish`: the end of the body;
* `Expr.parse`: a whole body.
-/

namespace Spreadsheet.Formula

/-- A part of an expression that an operand completes. -/
inductive Frame where
  /-- A sign and its operand. -/
  | sign (s : Sign)
  /-- An operation whose left side is known. -/
  | operation (op : Operator) (left : Expr)
  /-- An expression in parentheses. -/
  | paren
  /-- An argument of a call; the arguments before it are in reverse order. -/
  | call (name : List Char) (args : List Expr)

/-- What has been read, and what may come next. -/
inductive State where
  /-- An operand has to come. -/
  | operand (stack : List Frame)
  /-- A function name has been read; its arguments have to come. -/
  | arguments (name : List Char) (stack : List Frame)
  /-- An operand is complete. -/
  | complete (e : Expr) (stack : List Frame)

/-! ## Completing frames -/

/-- An operand with the signs in front of it. -/
def applySigns (e : Expr) : List Frame → Expr × List Frame
  | .sign s :: stack => applySigns (.signed s e) stack
  | stack => (e, stack)

/-- The operation binds as tightly as a product. -/
def Operator.isProduct : Operator → Bool
  | .mul | .div => true
  | .add | .sub => false

/-- The product that an operand ends. -/
def endProduct (e : Expr) : List Frame → Expr × List Frame
  | .operation op left :: stack =>
    if op.isProduct then endProduct (.binary op left e) stack else (e, .operation op left :: stack)
  | stack => (e, stack)

/-- The sum that an operand ends. -/
def endSum (e : Expr) : List Frame → Expr × List Frame
  | .operation op left :: stack => endSum (.binary op left e) stack
  | stack => (e, stack)

/-- The state after a complete operand without its signs. -/
def State.ofPrimary (e : Expr) (stack : List Frame) : State :=
  let (e, stack) := applySigns e stack
  .complete e stack

/-! ## Reading tokens -/

/-- The sign of a symbol. -/
def Sign.ofSymbol? : Symbol → Option Sign
  | .plus => some .positive
  | .minus => some .negative
  | _ => none

/-- The operation of a symbol. -/
def Operator.ofSymbol? : Symbol → Option Operator
  | .plus => some .add
  | .minus => some .sub
  | .times => some .mul
  | .slash => some .div
  | _ => none

/-- A symbol where an operand has to come. -/
def State.openWith (stack : List Frame) (s : Symbol) : Option State :=
  match Sign.ofSymbol? s with
  | some sign => some (.operand (.sign sign :: stack))
  | none =>
    match s, stack with
    | .openParen, _ => some (.operand (.paren :: stack))
    | .closeParen, .call name [] :: stack => some (.ofPrimary (.call name []) stack)
    | _, _ => none

/-- A symbol after a complete operand. -/
def State.closeWith (e : Expr) (stack : List Frame) (s : Symbol) : Option State :=
  match Operator.ofSymbol? s with
  | some op =>
    let (e, stack) := if op.isProduct then endProduct e stack else endSum e stack
    some (.operand (.operation op e :: stack))
  | none =>
    match s, endSum e stack with
    | .closeParen, (e, .paren :: stack) => some (.ofPrimary e stack)
    | .closeParen, (e, .call name args :: stack) =>
      some (.ofPrimary (.call name (e :: args).reverse) stack)
    | .comma, (e, .call name args :: stack) => some (.operand (.call name (e :: args) :: stack))
    | _, _ => none

/-- Read one token; none if it cannot come here. -/
def State.step : State → Token → Option State
  | .operand stack, ⟨lexeme, position⟩ =>
    match lexeme with
    | .number n => some (.ofPrimary (.number n) stack)
    | .cell parts => some (.ofPrimary (.cell parts position) stack)
    | .range first last => some (.ofPrimary (.range first last position) stack)
    | .name letters => some (.arguments letters stack)
    | .symbol s => State.openWith stack s
  | .arguments name stack, ⟨.symbol .openParen, _⟩ => some (.operand (.call name [] :: stack))
  | .arguments .., _ => none
  | .complete e stack, ⟨.symbol s, _⟩ => State.closeWith e stack s
  | .complete .., _ => none

/-- Read tokens up to the first one that cannot follow. -/
def State.run : State → List Token → Except Rejection State
  | s, [] => .ok s
  | s, t :: ts =>
    match s.step t with
    | some s => s.run ts
    | none => .error (.unexpectedToken t.lexeme.text t.position)

/-- The expression of a state at the end of the body, if nothing is open. -/
def State.finish? : State → Option Expr
  | .complete e stack =>
    match endSum e stack with
    | (e, []) => some e
    | _ => none
  | _ => none

/-- The tree of a body, not yet checked. -/
def Expr.parse (body : String) : Except Rejection Expr := do
  let lexed := lex body
  let state ← (State.operand []).run lexed.tokens
  match lexed.stuck?, state.finish? with
  | some (c, position), _ => throw (.unexpectedCharacter c position)
  | none, some e => return e
  | none, none => throw (.unexpectedEnd body.length)

end Spreadsheet.Formula
