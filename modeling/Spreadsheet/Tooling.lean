import Spreadsheet.Formula.Check

/-!
# Looking at formulas

What an editor shows about a formula that is being typed, without storing it: its tokens and the
functions that it calls, or the first thing wrong with it. Bad characters and row numbers count
before the order of the tokens.

* `Formula.examine`.
-/

namespace Spreadsheet.Formula

/-- What is known about an accepted formula. -/
structure Examination where
  tokens : List Token
  functions : List String

/-- A text without the equals sign in front. -/
def dropEquals (text : String) : String :=
  match text.toList with
  | '=' :: body => String.ofList body
  | _ => text

/-- Look at a formula with or without its leading equals sign. -/
def examine (room : Nat) (text : String) : Except Failure Examination := do
  let body := dropEquals text
  let tokens ← tokenize body
  let e ← Expr.ofBody room body
  return ⟨tokens.map (·.1), e.functions⟩

end Spreadsheet.Formula
