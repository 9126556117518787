import Spreadsheet.Yaml.Document

/-!
# Reading YAML

Settings and grids are kept as YAML: lists and mappings by indentation or between brackets and
braces, with scalars that say by their spelling what they are.

* `Yaml.read`: the value that a text writes.
-/

namespace Spreadsheet.Yaml

/-- A character that may stand in a text. -/
def isAllowed (c : Char) : Bool :=
  c == '\t' || c == '\n' || c == '\r' || (' ' ≤ c && c ≤ '~') || c == '\u0085'
    || ('\u00A0' ≤ c && c ≤ '\uFFFD') || '\uFFFF' < c

/-- A text with every kind of line end made a line feed. -/
def unifyLineEnds : List Char → List Char
  | [] => []
  | '\r' :: '\n' :: cs => '\n' :: unifyLineEnds cs
  | c :: cs => (if c == '\r' then '\n' else c) :: unifyLineEnds cs

/-- The value that a text writes. -/
def read (text : String) : Except Failure Value := do
  let cs := unifyLineEnds text.toList
  if cs.all isAllowed then (← Node.ofTokens (Token.ofText cs)).value else throw .malformed

end Spreadsheet.Yaml
