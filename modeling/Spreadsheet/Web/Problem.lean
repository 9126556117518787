import Spreadsheet.Json.Printer
import Spreadsheet.Json.Whole

/-!
# What is wrong with requests

A request that is not of the right form is answered with all that is wrong with it: for each part,
what is wrong, where it stands, and what was found there.

* `Problem`; `Problem.json`: a problem as an object;
* `Checked`: a value, or the problems with it; `Checked.both`: two of them, with all problems.
-/

namespace Spreadsheet.Web

namespace Problem

/-- What can be wrong with a part of a request. -/
inductive Kind where
  /-- It is not there. -/
  | missing
  | noText
  | noWhole (e : Json.NoWhole)
  | noList
  /-- It is no object. -/
  | noFields
  deriving DecidableEq, Repr

/-- The name of a problem. -/
def Kind.name : Kind → String
  | missing => "missing"
  | noText => "string_type"
  | noWhole .otherKind => "int_type"
  | noWhole .malformed => "int_parsing"
  | noWhole .halves => "string_unicode"
  | noWhole .tooLong => "int_parsing_size"
  | noWhole .fraction => "int_from_float"
  | noWhole .infinite => "finite_number"
  | noList => "list_type"
  | noFields => "model_attributes_type"

/-- The wording of a problem. -/
def Kind.message : Kind → String
  | missing => "Field required"
  | noText => "Input should be a valid string"
  | noWhole .otherKind => "Input should be a valid integer"
  | noWhole .malformed =>
    "Input should be a valid integer, unable to parse string as an integer"
  | noWhole .halves =>
    "Input should be a valid string, unable to parse raw data as a unicode string"
  | noWhole .tooLong => "Unable to parse input string as an integer, exceeded maximum size"
  | noWhole .fraction => "Input should be a valid integer, got a number with a fractional part"
  | noWhole .infinite => "Input should be a finite number"
  | noList => "Input should be a valid list"
  | noFields => "Input should be a valid dictionary or object to extract fields from"

end Problem

/-- What is wrong with a part of a request. -/
structure Problem where
  kind : Problem.Kind
  /-- The names and indexes that lead to the part. -/
  place : List Json
  /-- What was found there; the whole body if the part is missing. -/
  found : Json

/-- A problem as an object. -/
def Problem.json (p : Problem) : Json :=
  .object [("type", .string p.kind.name), ("loc", .array p.place), ("msg", .string p.kind.message),
    ("input", p.found)]

/-! ## Checks -/

/-- A value, or all that is wrong with it. -/
abbrev Checked (α : Type) := Except (List Problem) α

namespace Checked

/-- Two values, or all that is wrong with either. -/
def both {α β : Type} : Checked α → Checked β → Checked (α × β)
  | .ok a, .ok b => .ok (a, b)
  | .ok _, .error ps => .error ps
  | .error ps, .ok _ => .error ps
  | .error ps, .error qs => .error (ps ++ qs)

/-- All values, or all that is wrong with any. -/
def all {α : Type} : List (Checked α) → Checked (List α)
  | [] => .ok []
  | a :: rest => (both a (all rest)).map fun (a, rest) => a :: rest

theorem both_eq_ok {α β : Type} {a : Checked α} {b : Checked β} {x : α × β}
    (h : both a b = .ok x) : a = .ok x.1 ∧ b = .ok x.2 := by
  cases a <;> cases b <;> simp_all [both] <;> simp [← h]

end Checked

end Spreadsheet.Web
