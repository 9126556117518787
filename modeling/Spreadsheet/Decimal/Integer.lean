/-!
# Decimal integers

Integers are read and written in decimal with at most `maxDigits` digits, leading zeros counted and
a sign not. A longer text is no number too large but a refusal of its own (`TooLong`): reading says
how many digits there were, writing does not.

* `ofDigits`: the value of a list of digits;
* `readNat`, `writeInt`: the limited conversions; `readNat_of_length_le` and `readNat_of_lt_length`
  say when reading is refused.
-/

namespace Spreadsheet.Decimal

/-- The most digits an integer may have in text. -/
def maxDigits : Nat := 4300

/-- An integer has more digits than may be converted. -/
inductive TooLong where
  /-- A text with this many digits was to be read. -/
  | reading (digits : Nat)
  /-- A number was to be written. -/
  | writing
  deriving DecidableEq, Repr

/-- The wording of a refusal. -/
def TooLong.message : TooLong → String
  | .reading digits =>
    "Exceeds the limit (4300 digits) for integer string conversion: value has "
      ++ toString digits ++ " digits; use sys.set_int_max_str_digits() to increase the limit"
  | .writing =>
    "Exceeds the limit (4300 digits) for integer string conversion; "
      ++ "use sys.set_int_max_str_digits() to increase the limit"

/-- The value of a list of digits `0` to `9`, the first the most significant. -/
def ofDigits (ds : List Char) : Nat := ds.foldl (fun n c => 10 * n + (c.toNat - 48)) 0

/-- The number that a list of digits writes, if there are not too many. -/
def readNat (ds : List Char) : Except TooLong Nat :=
  if ds.length ≤ maxDigits then .ok (ofDigits ds) else .error (.reading ds.length)

/-- The digits of an integer, after a minus sign if it is negative, if there are not too many. -/
def writeInt (n : Int) : Except TooLong String :=
  if n.natAbs < Nat.pow 10 maxDigits then .ok (toString n) else .error .writing

/-! ## Small laws -/

theorem readNat_of_length_le {ds : List Char} (h : ds.length ≤ maxDigits) :
    readNat ds = .ok (ofDigits ds) := by simp [readNat, h]

theorem readNat_of_lt_length {ds : List Char} (h : maxDigits < ds.length) :
    readNat ds = .error (.reading ds.length) := by simp [readNat, Nat.not_le.2 h]

@[simp] theorem ofDigits_nil : ofDigits [] = 0 := rfl

theorem ofDigits_append (ds : List Char) (c : Char) :
    ofDigits (ds ++ [c]) = 10 * ofDigits ds + (c.toNat - 48) := by simp [ofDigits]

end Spreadsheet.Decimal
