import Spreadsheet.Decimal.Integer
import Spreadsheet.Json.Basic

/-!
# Values that can be written

Arrays and objects can be nested in each other without bound and integers can have any number of
digits, but texts of values cannot: the depth of what is written is as limited as that of what is
read, and so are the digits of an integer.

* `all`: a test of a value and of all values inside it;
* `depth`: how deeply a value is nested; `isShort`: integers that can be written.
-/

namespace Spreadsheet.Json

mutual

/-- A value and every value inside it pass a test. -/
def all (p : Json → Bool) : Json → Bool
  | array items => p (array items) && allItems p items
  | object fields => p (object fields) && allFields p fields
  | v => p v

/-- The items of an array and every value inside them pass a test. -/
def allItems (p : Json → Bool) : List Json → Bool
  | [] => true
  | v :: vs => v.all p && allItems p vs

/-- The values of the fields of an object and every value inside them pass a test. -/
def allFields (p : Json → Bool) : List (String × Json) → Bool
  | [] => true
  | (_, v) :: rest => v.all p && allFields p rest

end

mutual

/-- The greatest number of arrays and objects inside each other. -/
def depth : Json → Nat
  | array items => itemsDepth items + 1
  | object fields => fieldsDepth fields + 1
  | _ => 0

/-- The depth of the items of an array. -/
def itemsDepth : List Json → Nat
  | [] => 0
  | v :: vs => max v.depth (itemsDepth vs)

/-- The depth of the values of the fields of an object. -/
def fieldsDepth : List (String × Json) → Nat
  | [] => 0
  | (_, v) :: rest => max v.depth (fieldsDepth rest)

end

/-- The value itself is no integer with too many digits. -/
def isShort : Json → Bool
  | int n => n.natAbs < Nat.pow 10 Decimal.maxDigits
  | _ => true

end Spreadsheet.Json
