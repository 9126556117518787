import Spreadsheet.Decimal.Numeral
import Spreadsheet.Text.Blank
import Spreadsheet.Text.Digit
import Spreadsheet.Text.Quoted

/-!
# Lenient numerals

Numbers in settings and on the command line may have blanks around them, digits of any script, and
single underscores between digits. Numbers with a point may also be infinite or no number at all,
by name.

* `clean`: the text without margins, with plain digits;
* `joinDigits?`: without its underscores;
* `readInt`, `readFloat`: the two kinds of numbers; `Failure.showing`: a failure that shows
  something else than the text.
-/

namespace Spreadsheet.Decimal.Lenient

/-- Why a text is not read as a number. -/
inductive Failure where
  /-- It is no whole number; this is how it is shown. -/
  | notInteger (shown : String)
  /-- It is no number; this is how it is shown. -/
  | notNumber (shown : String)
  /-- It has too many digits. -/
  | tooLong (e : TooLong)
  deriving DecidableEq, Repr

/-- The wording of a failure; a long text is cut in the first. -/
def Failure.message : Failure → String
  | notInteger shown =>
    "invalid literal for int() with base 10: " ++ String.ofList (shown.toList.take 200)
  | notNumber shown => "could not convert string to float: " ++ shown
  | tooLong e => e.message

/-- A failure at something that is shown in its own way. -/
def Failure.showing (shown : String) : Failure → Failure
  | notInteger _ => notInteger shown
  | notNumber _ => notNumber shown
  | tooLong e => tooLong e

/-- A blank that may stand around a number; the separators of records and fields may not. -/
def isMargin (c : Char) : Bool := Text.isBlank c && !('\x1c' ≤ c && c ≤ '\x1f')

/-- A digit of any script as a plain one. -/
def plainDigit (c : Char) : Char :=
  match Text.digit? c with
  | some n => Char.ofNat (48 + n)
  | none => c

/-- A text without margins, its digits plain. -/
def clean (text : String) : List Char :=
  (((text.toList.dropWhile isMargin).reverse.dropWhile isMargin).reverse).map plainDigit

/-- Digits without the underscores among them, if each of these stands between two digits; the
first argument says whether a digit stands in front. -/
def joinDigits? (afterDigit : Bool) : List Char → Option (List Char)
  | [] => some []
  | '_' :: c :: cs =>
    if afterDigit && c.isDigit then (joinDigits? true cs).map (c :: ·) else none
  | c :: cs => if c == '_' then none else (joinDigits? c.isDigit cs).map (c :: ·)

/-- The whole number that a text is. -/
def readInt (text : String) : Except Failure Int :=
  let (negative, cs) := takeSign (clean text)
  let run := cs.takeWhile fun c => c.isDigit || c == '_'
  match joinDigits? false run with
  | none | some [] => .error (.notInteger (Text.quote text))
  | some digits =>
    match readNat digits with
    | .error e => .error (.tooLong e)
    | .ok n =>
      if run.length = cs.length then .ok (if negative then -(n : Int) else n)
      else .error (.notInteger (Text.quote text))

/-- The number of a name, either case. -/
def namedFloat? (cs : List Char) : Option Float :=
  let name := String.ofList (cs.map Char.toLower)
  if name = "inf" ∨ name = "infinity" then some (1.0 / 0.0)
  else if name = "nan" then some (0.0 / 0.0)
  else none

/-- The number that a text is. -/
def readFloat (text : String) : Except Failure Float :=
  match joinDigits? false (clean text) with
  | none => .error (.notNumber (Text.quote text))
  | some cs =>
    match Numeral.read? cs with
    | some n => .ok n.value
    | none =>
      let (negative, name) := takeSign cs
      match namedFloat? name with
      | some x => .ok (if negative then -x else x)
      | none => .error (.notNumber (Text.quote text))

end Spreadsheet.Decimal.Lenient
