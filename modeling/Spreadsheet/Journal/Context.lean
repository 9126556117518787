import Spreadsheet.Json.Basic

/-!
# Contexts of events

An event carries fields with details. Texts that users typed can be of any length, so long strings
among them are cut; those in a list inside a list are left alone.

* `cut`: one string; `truncate`: the fields of a context.
-/

namespace Spreadsheet.Journal

/-- The greatest length of a string that is not cut. -/
def maxLength : Nat := 256

/-- What stands behind a string that was cut. -/
def cutMark : String := "...[truncated]"

/-- A string, cut if it is too long. -/
def cut (s : String) : String :=
  if s.length ≤ maxLength then s else String.ofList (s.toList.take maxLength) ++ cutMark

mutual

/-- The fields of a context with their strings cut. -/
def truncate : List (String × Json) → List (String × Json)
  | [] => []
  | (k, v) :: rest => (k, truncateValue v) :: truncate rest

/-- The value of a field with its strings cut. -/
def truncateValue : Json → Json
  | .object fields => .object (truncate fields)
  | .array items => .array (truncateItems items)
  | .string s => .string (cut s)
  | v => v

/-- The items of a list with their strings cut; a list among them stays as it is. -/
def truncateItems : List Json → List Json
  | [] => []
  | .object fields :: rest => .object (truncate fields) :: truncateItems rest
  | .string s :: rest => .string (cut s) :: truncateItems rest
  | v :: rest => v :: truncateItems rest

end

end Spreadsheet.Journal
