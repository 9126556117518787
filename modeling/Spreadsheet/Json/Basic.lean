import Spreadsheet.Fields
import Spreadsheet.Value

/-!
# JSON values

Values of the data format in which sheets, settings and events are exchanged. The fields of an
object keep the order in which they were first given. Whole numbers and numbers with a point are
told apart.

* `Json`; `Json.get?`: a field of an object;
* `Json.value`: a value as any other from outside; `Json.cellText`: what becomes of it in a cell.
-/

namespace Spreadsheet

/-- A JSON value. -/
inductive Json where
  | null
  | bool (b : Bool)
  | int (n : Int)
  | float (x : Float)
  | string (s : String)
  | array (items : List Json)
  | object (fields : List (String × Json))
  deriving Inhabited, Repr

namespace Json

/-- The value of a field of an object. -/
def get? (key : String) : Json → Option Json
  | object fields => Fields.get? key fields
  | _ => none

/-! ## As a value from outside -/

mutual

/-- A value as one from outside. -/
def value : Json → Value
  | null => .null
  | bool b => .bool b
  | int n => .int n
  | float x => .float x
  | string s => .string s
  | array items => .list (values items)
  | object fields => .map (fieldValues fields)

/-- The items of an array as values from outside. -/
def values : List Json → List Value
  | [] => []
  | v :: vs => v.value :: values vs

/-- The fields of an object as those of a mapping. -/
def fieldValues : List (String × Json) → List (Value × Value)
  | [] => []
  | (k, v) :: rest => (.string k, v.value) :: fieldValues rest

end

/-- The name of the kind of a value, as messages give it. -/
def kind (v : Json) : String := v.value.kind

/-- A value written out inside another one. -/
def inline (v : Json) : String := v.value.inline

/-- The text of a value as such: strings stand for themselves. -/
def plain (v : Json) : String := v.value.plain

/-- The text that a value is in a cell; none at all is the empty text. -/
def cellText (v : Json) : String := v.value.cellText

end Json

end Spreadsheet
