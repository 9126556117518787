import Spreadsheet.Decimal.Integer

/-!
# What can be wrong with a formula

A formula is rejected for what it says (`Rejection`), whatever the grid holds; each rejection has a
wording and, if it is found at one place, a position. Beyond that a formula can be nested too
deeply to be worked on, and a row number in it can be too long to be read (`Failure`).

Positions count characters of the body from zero.
-/

namespace Spreadsheet.Formula

/-- Why the text of a formula is no formula. -/
inductive Rejection where
  /-- No token starts with this character. -/
  | unexpectedCharacter (c : Char) (position : Nat)
  /-- The token cannot follow those before it. -/
  | unexpectedToken (text : String) (position : Nat)
  /-- The body stops in the middle. -/
  | unexpectedEnd (position : Nat)
  /-- A row number is zero; the position is that of the whole token. -/
  | invalidReference (text : String) (position : Nat)
  /-- There is no function of this name. -/
  | unknownFunction (name : String)
  /-- A range stands where a number is needed. -/
  | misplacedRange
  deriving DecidableEq, Repr

namespace Rejection

/-- The wording, without the position. -/
def message : Rejection → String
  | unexpectedCharacter c _ => "Unexpected character " ++ String.singleton c
  | unexpectedToken text _ => "Unexpected token " ++ text
  | unexpectedEnd _ => "Unexpected end"
  | invalidReference text _ => "Invalid reference " ++ text
  | unknownFunction name => "Unknown function " ++ name
  | misplacedRange => "Invalid range in expression"

/-- The place of the fault, where it has one. -/
def position? : Rejection → Option Nat
  | unexpectedCharacter _ p | unexpectedToken _ p | unexpectedEnd p | invalidReference _ p => some p
  | unknownFunction _ | misplacedRange => none

/-- The wording with the position behind it. -/
def description (r : Rejection) : String :=
  match r.position? with
  | some p => r.message ++ " (at position " ++ toString p ++ ")"
  | none => r.message

end Rejection

/-- Why a formula has no value. -/
inductive Failure where
  /-- Its text is rejected. -/
  | rejected (r : Rejection)
  /-- It is nested more deeply than there is room to work on. -/
  | tooDeep
  /-- An integer in it has too many digits. -/
  | tooLong (e : Decimal.TooLong)
  deriving DecidableEq, Repr

/-- The wording of a formula nested too deeply. -/
def tooDeepMessage : String := "Maximum evaluation depth exceeded"

/-- The wording of a failure. -/
def Failure.message : Failure → String
  | .rejected r => r.description
  | .tooDeep => tooDeepMessage
  | .tooLong e => e.message

end Spreadsheet.Formula
