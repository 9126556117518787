import Spreadsheet.Yaml.Position

/-!
# Gaps inside scalars

A scalar may go on over several lines. Spaces around the end of a line mean nothing; one end of a
line is a space, and of several all but the first are kept.

* `Gap`: what lies between two words of a scalar; `Gap.space`, `Gap.lineEnd`: a gap that goes on;
* `Gap.fill`: what a gap is in the text.
-/

namespace Spreadsheet.Yaml

/-- What lies between two words of a scalar, the last character first. -/
inductive Gap where
  | none
  /-- Spaces on a line. -/
  | spaces (held : List Char)
  /-- Ends of lines: the first one, unless it was escaped, and those behind it. -/
  | lines (first? : Option Char) (kept : List Char)
  deriving DecidableEq, Repr

namespace Gap

/-- A gap with another space. -/
def space (c : Char) : Gap → Gap
  | none => spaces [c]
  | spaces held => spaces (c :: held)
  | lines first? kept => lines first? kept

/-- A gap with another end of a line. -/
def lineEnd (c : Char) : Gap → Gap
  | none | spaces _ => lines (some (breakText c)) []
  | lines first? kept => lines first? (breakText c :: kept)

/-- The text so far, the last character first, with a gap behind it. -/
def fill (text : List Char) : Gap → List Char
  | none => text
  | spaces held => held ++ text
  | lines first? kept =>
    match first? with
    | .none => kept ++ text
    | some c =>
      if c != '\n' then kept ++ c :: text else if kept.isEmpty then ' ' :: text else kept ++ text

/-- The gap goes over the end of a line. -/
def isLines : Gap → Bool
  | lines .. => true
  | _ => false

end Gap

end Spreadsheet.Yaml
