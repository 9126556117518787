import Spreadsheet.Yaml.Gap

/-!
# Plain scalars

A scalar without quotes goes on up to a comment, a colon with a space behind it, a tab or, inside
brackets and braces, any punctuation. It goes over lines that are indented further than what it
belongs to, up to a mark between documents.

* `startsPlain`: where a plain scalar may start; `endsPlain`: where it ends;
* `Plain`, `plain`: a plain scalar, with how wide it is.
-/

namespace Spreadsheet.Yaml

/-- Punctuation inside brackets and braces. -/
def isFlow (c : Char) : Bool := [',', '[', ']', '\x7b', '\x7d'].contains c

/-- A character that starts something other than a plain scalar. -/
def isIndicator (c : Char) : Bool :=
  ['#', '&', '*', '!', '|', '>', '\'', '"', '%', '@', '\x60'].contains c

/-- A plain scalar may start here. -/
def startsPlain (inFlow : Bool) : List Char → Bool
  | [] => false
  | c :: cs =>
    if c == '-' then !endsHere cs
    else if c == '?' || c == ':' then !inFlow && !endsHere cs
    else !(isSpace c || isBreak c || isFlow c || isIndicator c)

/-- A plain scalar ends before a character, given what is behind that. -/
def endsPlain (inFlow : Bool) (c : Char) (cs : List Char) : Bool :=
  isSpace c || isBreak c || (c == ':' && (endsHere cs || (inFlow && cs.head?.any isFlow)))
    || (inFlow && (isFlow c || c == '?'))

/-- A plain scalar and the gap behind it. -/
structure Plain where
  text : String
  /-- How many characters they are together. -/
  width : Nat
  /-- The gap goes over the end of a line. -/
  endsLine : Bool
  deriving DecidableEq, Repr

/-- A plain scalar, given its text so far, the last character first, its width so far, the gap
behind that, and how far the line is indented. -/
def plainFrom (inFlow : Bool) (indent : Int) (text : List Char) (width column : Nat) (gap : Gap) :
    List Char → Plain
  | [] => ⟨String.ofList text.reverse, width, gap.isLines⟩
  | c :: cs =>
    if c == ' ' then plainFrom inFlow indent text (width + 1) (column + 1) (gap.space c) cs
    else if isBreak c then
      if startsDocument cs then ⟨String.ofList text.reverse, width + 1, true⟩
      else plainFrom inFlow indent text (width + 1) 0 (gap.lineEnd c) cs
    else if endsPlain inFlow c cs || (gap != .none && c == '#')
        || (gap.isLines && !inFlow && column < indent) then
      ⟨String.ofList text.reverse, width, gap.isLines⟩
    else plainFrom inFlow indent (c :: gap.fill text) (width + 1) 0 .none cs

/-- The plain scalar that a text starts with. Its lines are indented at least as far as is given. -/
def plain (inFlow : Bool) (indent : Int) (cs : List Char) : Plain :=
  plainFrom inFlow indent [] 0 0 .none cs

/-! ## Examples -/

example : plain false 0 "a b #c".toList = ⟨"a b", 4, false⟩ := by decide
example : plain true 0 "a:b, c".toList = ⟨"a:b", 3, false⟩ := by decide
example : plain false 1 "a\n b\nc".toList = ⟨"a b", 5, true⟩ := by decide

end Spreadsheet.Yaml
