/-!
# Lines of a text

A text is cut into lines at every character that ends one: line feeds and carriage returns, alone
or together, vertical tabs, form feeds, the separators of files, groups and records, the next-line
control, and the line and paragraph separators. An end of line at the end of the text starts no new
line.

* `isLineEnd`; `lines`.
-/

namespace Spreadsheet.Text

/-- A character that ends a line. -/
def isLineEnd (c : Char) : Bool :=
  ('\n' ≤ c && c ≤ '\r') || ('\x1c' ≤ c && c ≤ '\x1e') || c == '\u0085' || c == '\u2028'
    || c == '\u2029'

/-- The lines of a text that starts within a line, the characters of which so far are given in
reverse. -/
def linesFrom (line : List Char) : List Char → List (List Char)
  | [] => if line.isEmpty then [] else [line.reverse]
  | '\r' :: '\n' :: cs => line.reverse :: linesFrom [] cs
  | c :: cs =>
    if isLineEnd c then line.reverse :: linesFrom [] cs else linesFrom (c :: line) cs

/-- The lines of a text, without their ends. -/
def lines (cs : List Char) : List (List Char) := linesFrom [] cs

end Spreadsheet.Text
