/-!
# Places in a text

YAML is read line by line and column by column: how far a line is indented says what belongs
together. A mark of byte order has no width.

* `isSpace`, `isBreak`: what separates words and lines;
* `Position`, `Position.after`: the place behind characters;
* `startsDocument`: the marks between documents.
-/

namespace Spreadsheet.Yaml

/-- A character between words. -/
def isSpace (c : Char) : Bool := c == ' ' || c == '\t'

/-- A character that ends a line. -/
def isBreak (c : Char) : Bool := c == '\n' || c == '\u0085' || c == '\u2028' || c == '\u2029'

/-- The end of a line as it counts in a scalar: the separators of lines and paragraphs are kept. -/
def breakText (c : Char) : Char := if c == '\u0085' then '\n' else c

/-- A text that ends or goes on with a space or a new line. -/
def endsHere : List Char → Bool
  | [] => true
  | c :: _ => isSpace c || isBreak c

/-- A line that starts with the mark of a document's start or end. -/
def startsDocument : List Char → Bool
  | '-' :: '-' :: '-' :: cs | '.' :: '.' :: '.' :: cs => endsHere cs
  | _ => false

/-- A place in a text. -/
structure Position where
  index : Nat := 0
  line : Nat := 0
  column : Nat := 0
  deriving DecidableEq, Repr

namespace Position

/-- The place behind a character. -/
def next (p : Position) (c : Char) : Position :=
  if isBreak c then ⟨p.index + 1, p.line + 1, 0⟩
  else ⟨p.index + 1, p.line, if c == '\uFEFF' then p.column else p.column + 1⟩

/-- The place behind the first characters of a text, and the rest of the text. -/
def after (p : Position) : (width : Nat) → List Char → Position × List Char
  | 0, cs => (p, cs)
  | _, [] => (p, [])
  | width + 1, c :: cs => (p.next c).after width cs

end Position

end Spreadsheet.Yaml
