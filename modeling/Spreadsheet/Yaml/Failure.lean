import Spreadsheet.Calendar
import Spreadsheet.Decimal.Lenient

/-!
# Why YAML is not read

A text may not have the form of YAML. If it has, one of its scalars may still spell a number, a
character or a time that there is not.

* `Failure`; `Failure.message`; `Failure.isBadValue`.
-/

namespace Spreadsheet.Yaml

/-- Why a text is not read as YAML. -/
inductive Failure where
  /-- It does not have the form of YAML. -/
  | malformed
  /-- Its values are nested too deeply. -/
  | tooDeep
  /-- There is no character of this code point. -/
  | noCharacter
  /-- A code point is beyond all that are counted. -/
  | farCharacter
  /-- A number is spelled wrongly. -/
  | badNumber (e : Decimal.Lenient.Failure)
  /-- The digits of a number are none of its base. -/
  | badDigits (base : Nat) (text : String)
  /-- Nothing is there to be a number. -/
  | noNumber
  /-- A number is too large. -/
  | tooLarge
  /-- What is said to be a truth value is none. -/
  | noTruth (text : String)
  /-- There is no such day or time. -/
  | calendar (e : Calendar.Failure)
  /-- What is said to be a time is none. -/
  | noTime

/-- The wording of a failure. -/
def Failure.message : Failure → String
  | malformed => "Invalid YAML"
  | tooDeep => "maximum recursion depth exceeded"
  | noCharacter => "chr() arg not in range(0x110000)"
  | farCharacter => "Python int too large to convert to C int"
  | badNumber e => e.message
  | badDigits base text =>
    "invalid literal for int() with base " ++ toString base ++ ": "
      ++ String.ofList ((Text.quote text).toList.take 200)
  | noNumber => "string index out of range"
  | tooLarge => "int too large to convert to float"
  | noTruth text => Text.quote text
  | calendar e => e.message
  | noTime => "'NoneType' object has no attribute 'groupdict'"

/-- The text or a value in it is wrong, and it is not that there is none or that it goes too far. -/
def Failure.isBadValue : Failure → Bool
  | malformed | noCharacter | badNumber _ | badDigits .. | calendar _ => true
  | tooDeep | farCharacter | noNumber | tooLarge | noTruth _ | noTime => false

end Spreadsheet.Yaml
