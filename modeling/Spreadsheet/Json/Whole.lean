import Spreadsheet.Decimal.Binary
import Spreadsheet.Decimal.Lenient
import Spreadsheet.Json.Basic
import Spreadsheet.Text.Unwritable

/-!
# Whole numbers in fields

A field that is a whole number may also be given as a truth value, as a number with nothing behind
its point, or as a string. At best the string is digits with no needless zeros in front, behind a
minus sign if the number is negative. What else may stand there is taken off in this order: margins,
a plus sign, zeros and underscores in front of the number, zeros behind a point together with the
point, and underscores between digits.

* `plainWhole`: a string without anything needless;
* `afterZeros?`, `dropFraction`, `joinDigits`: what is taken off;
* `wholeOfText`: the number that a string writes; `whole`: the number that a field is.
-/

namespace Spreadsheet.Json

/-- Why a field is no whole number. -/
inductive NoWhole where
  /-- It is of another kind. -/
  | otherKind
  /-- It is a string that does not have the form of one. -/
  | malformed
  /-- It is a string with halves of pairs in it. -/
  | halves
  /-- It is too long or too large. -/
  | tooLong
  /-- There is something behind its point. -/
  | fraction
  /-- It is an infinity or no number at all. -/
  | infinite
  deriving DecidableEq, Repr

/-! ## Strings -/

/-- The number of a text with nothing needless in it. -/
def plainWhole (cs : List Char) : Except NoWhole Int :=
  let negative := cs.head? == some '-'
  let digits := if negative then cs.drop 1 else cs
  if digits.isEmpty || !digits.all Char.isDigit || (digits.head? == some '0' && digits != ['0'])
  then .error .malformed
  else if Decimal.maxDigits < cs.length then .error .tooLong
  else .ok (if negative then -(Decimal.ofDigits digits : Int) else Decimal.ofDigits digits)

/-- A digit other than zero, or a minus sign. -/
def startsNumber (c : Char) : Bool := c == '-' || (c.isDigit && c != '0')

/-- The text from its number on, given the character in front, which is kept before a point and at
the end of the text. -/
def afterZerosFrom? (last : Char) : List Char → Option (List Char)
  | [] => some [last]
  | c :: cs =>
    if c == '0' || c == '_' then afterZerosFrom? c cs
    else if startsNumber c then some (c :: cs)
    else if c == '.' then some (last :: c :: cs)
    else none

/-- The text without the zeros and underscores in front of its number; a zero has to come first if
there are any. -/
def afterZeros? : List Char → Option (List Char)
  | [] => none
  | c :: cs =>
    if c == '0' then afterZerosFrom? c cs else if startsNumber c then some (c :: cs) else none

/-- A text without a point that has zeros, and only zeros, behind it. -/
def dropFraction (cs : List Char) : List Char :=
  match cs.reverse.dropWhile (· == '0') with
  | '.' :: rest => if cs.getLast? == some '0' then rest.reverse else cs
  | _ => cs

/-- A text without the underscores between digits; another underscore remains. -/
def joinDigits (afterDigit : Bool) : List Char → List Char
  | [] => []
  | '_' :: c :: cs =>
    if afterDigit && c.isDigit then c :: joinDigits true cs else '_' :: c :: cs
  | c :: cs => c :: joinDigits c.isDigit cs

/-- A text without margins and without a plus sign; behind the plus sign there is no minus sign. -/
def trimmed? (cs : List Char) : Option (List Char) :=
  let isMargin := Decimal.Lenient.isMargin
  match ((cs.dropWhile isMargin).reverse.dropWhile isMargin).reverse with
  | '+' :: '-' :: _ => none
  | '+' :: cs => some cs
  | cs => some cs

/-- The whole number that a string writes. -/
def wholeOfText (s : String) : Except NoWhole Int :=
  let cs := s.toList
  if (Text.unwritable? s).isSome then .error .halves
  else match plainWhole cs with
    | .error .malformed =>
      match (trimmed? cs).bind afterZeros? with
      | some cs => plainWhole (joinDigits false (dropFraction cs))
      | none => .error .malformed
    | n => n

/-! ## Fields -/

/-- Numbers with a point are taken as whole ones below this magnitude. -/
def wholeBelow : Float := 9223372036854775808.0

/-- The whole number that a field is. -/
def whole : Json → Except NoWhole Int
  | int n => .ok n
  | bool b => .ok (if b then 1 else 0)
  | float x =>
    match Decimal.Binary.ofFloat? x with
    | none => .error .infinite
    | some b =>
      if !b.isWhole then .error .fraction
      else if x.abs < wholeBelow then .ok b.truncated
      else .error .tooLong
  | string s => wholeOfText s
  | _ => .error .otherKind

/-! ## Examples -/

example : (wholeOfText " +0_-1 ").toOption = some (-1) := by decide
example : (wholeOfText "1_000.00").toOption = some 1000 := by decide
example : (wholeOfText "2.").toOption = none := by decide
example : (wholeOfText "-01").toOption = none := by decide

end Spreadsheet.Json
