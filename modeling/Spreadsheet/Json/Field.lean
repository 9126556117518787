import Spreadsheet.Json.Whole

/-!
# Reading fields

How the fields of records are read: a text has to be a string, and details have to be an object.

* `Json.text?`, `Json.optionalText?`, `Json.whole?`, `Json.fields?`: the kinds of fields.
-/

namespace Spreadsheet.Json

/-- A field that is a text. -/
def text? : Json → Option String
  | string s => some s
  | _ => none

/-- A field that is a text or nothing. -/
def optionalText? : Json → Option (Option String)
  | null => some none
  | string s => some (some s)
  | _ => none

/-- A field that is an object. -/
def fields? : Json → Option (List (String × Json))
  | object fields => some fields
  | _ => none

/-- A field that is a whole number. -/
def whole? (v : Json) : Option Int := v.whole.toOption

end Spreadsheet.Json
