import Spreadsheet.Json.Basic
import Spreadsheet.Text.Units

/-!
# Writing JSON

A value is written on one line. On the lines of a log there is a space behind every comma and
colon, the fields of objects are sorted by name, and every character other than the printable ones
of ASCII is escaped. An answer to a request has no needless characters: no spaces, the fields as
they come, and only those characters escaped that cannot stand in a string.

* `Style`: `Style.line`, `Style.dense`;
* `escapeChar`: one character of a string; `write`: a value; `Json.text`: a value on a line.
-/

namespace Spreadsheet.Json

/-- How values are written. -/
structure Style where
  comma : String
  colon : String
  /-- The fields of objects are sorted by name. -/
  sorted : Bool
  /-- Only characters of ASCII are written. -/
  ascii : Bool

/-- The style of the lines of a log. -/
def Style.line : Style := ⟨", ", ": ", true, true⟩

/-- The style without needless characters. -/
def Style.dense : Style := ⟨",", ":", false, false⟩

/-- The escapes that have letters. -/
def shortEscapes : List (Char × Char) :=
  [('"', '"'), ('\\', '\\'), ('\n', 'n'), ('\r', 'r'), ('\t', 't'), ('\x0C', 'f'), ('\x08', 'b')]

/-- One character of a string. -/
def escapeChar (style : Style) (c : Char) : List Char :=
  match shortEscapes.lookup c with
  | some e => ['\\', e]
  | none =>
    if ' ' ≤ c && (c ≤ '~' || !style.ascii) then [c]
    else (Text.units c).flatMap fun u => '\\' :: 'u' :: Text.hex 4 u

/-- A string between quotes. -/
def quoted (style : Style) (s : String) : String :=
  String.ofList ('"' :: s.toList.flatMap (escapeChar style) ++ ['"'])

/-- The name of a number: the shortest digits that denote it, or the names of the others. -/
def floatText (x : Float) : String :=
  if x.isFinite then Decimal.text x
  else if x.isNaN then "NaN" else if x < 0.0 then "-Infinity" else "Infinity"

/-- Characters that are not behind others in the order of dictionaries, by their code points. -/
def inOrder : List Char → List Char → Bool
  | [], _ => true
  | _ :: _, [] => false
  | a :: as, b :: bs =>
    let m := Text.codePoint a
    let n := Text.codePoint b
    decide (m < n) || (m == n && inOrder as bs)

/-- A name is not behind another one. -/
def nameLe (a b : String) : Bool := inOrder a.toList b.toList

mutual

/-- A value on one line. -/
def write (style : Style) : Json → String
  | null => "null"
  | bool b => if b then "true" else "false"
  | int n => toString n
  | float x => floatText x
  | string s => quoted style s
  | array items => "[" ++ style.comma.intercalate (writeItems style items) ++ "]"
  | object fields =>
    let written := writeFields style fields
    let ordered := if style.sorted then written.mergeSort fun a b => nameLe a.1 b.1 else written
    "\x7b" ++ style.comma.intercalate
      (ordered.map fun (k, v) => quoted style k ++ style.colon ++ v) ++ "\x7d"

/-- The items of an array. -/
def writeItems (style : Style) : List Json → List String
  | [] => []
  | v :: vs => v.write style :: writeItems style vs

/-- The fields of an object with their values as text. -/
def writeFields (style : Style) : List (String × Json) → List (String × String)
  | [] => []
  | (k, v) :: rest => (k, v.write style) :: writeFields style rest

end

/-- A value on a line of a log. -/
def text (v : Json) : String := v.write Style.line

end Spreadsheet.Json
