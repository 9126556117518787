import Spreadsheet.Decimal.Reading
import Spreadsheet.Text.Base64
import Spreadsheet.Text.Hex
import Spreadsheet.Value
import Spreadsheet.Yaml.Failure
import Spreadsheet.Yaml.Timestamp

/-!
# Kinds of scalars

A plain scalar is nothing at all, a truth value, a whole number, a number with a point, a time, or
else a text, by the way it is spelled. Underscores in numbers mean nothing. Whole numbers may be
binary, octal with a leading zero, hexadecimal, or in base 60 between colons. Any scalar may be told
by a tag what it is; then its text need not have the right form.

* `Kind`; `Kind.ofPlain`: the kind of a plain scalar;
* `Kind.value`: the value of a scalar of a kind.
-/

namespace Spreadsheet.Yaml

/-- What a scalar is. -/
inductive Kind where
  | nothing
  | truth
  | whole
  | pointed
  | time
  | text
  /-- Bytes in base 64; only a tag says so. -/
  | bytes
  /-- The mark of a merge, as a key. -/
  | merge
  /-- The mark of a default, as a key. -/
  | default
  /-- Something that is told to be a list, a set or a mapping. -/
  | misfit
  /-- Something that no value is made of. -/
  | unknown
  deriving DecidableEq, Repr

namespace Scalar

/-! ## Spellings -/

/-- The spellings of nothing. -/
def nothingNames : List String := ["", "~", "null", "Null", "NULL"]

/-- The spellings of true. -/
def trueNames : List String := ["yes", "Yes", "YES", "true", "True", "TRUE", "on", "On", "ON"]

/-- The spellings of false. -/
def falseNames : List String := ["no", "No", "NO", "false", "False", "FALSE", "off", "Off", "OFF"]

/-- Whether a text has a minus sign, and the rest after its sign. -/
def takeSign : List Char → Bool × List Char
  | '-' :: cs => (true, cs)
  | '+' :: cs => (false, cs)
  | cs => (false, cs)

/-- Characters of a kind and underscores, the first of which may be restricted further. -/
def isRun (first rest : Char → Bool) : List Char → Bool
  | [] => false
  | c :: cs => first c && cs.all fun c => c == '_' || rest c

/-- A digit other than zero. -/
def isNonzero (c : Char) : Bool := c.isDigit && c != '0'

/-- A digit of a base up to sixteen. -/
def isDigitIn (base : Nat) (c : Char) : Bool := (Text.hexValue? c).any (· < base)

/-- Part of a number in base 60: at most two digits, below 60. -/
def isSixtieth : List Char → Bool
  | [c] => c.isDigit
  | [c, d] => '0' ≤ c && c ≤ '5' && d.isDigit
  | _ => false

/-- Digits of a base and underscores. -/
def areDigitsIn (base : Nat) (cs : List Char) : Bool :=
  !cs.isEmpty && cs.all fun c => c == '_' || isDigitIn base c

/-- A spelling of a whole number behind its sign. -/
def isWhole (cs : List Char) : Bool :=
  match cs with
  | '0' :: 'b' :: ds => areDigitsIn 2 ds
  | '0' :: 'x' :: ds => areDigitsIn 16 ds
  | '0' :: ds => ds.isEmpty || areDigitsIn 8 ds
  | _ =>
    match cs.splitOn ':' with
    | first :: rest => isRun isNonzero Char.isDigit first && rest.all isSixtieth
    | [] => false

/-- A spelling of an exponent, or nothing: the letter, a sign and digits. -/
def isExponent : List Char → Bool
  | [] => true
  | e :: sign :: ds =>
    (e == 'e' || e == 'E') && (sign == '+' || sign == '-') && !ds.isEmpty && ds.all Char.isDigit
  | _ => false

/-- A spelling of a number with a point, behind its sign; without digits in front of the point it
has no sign. -/
def isPointed (signed : Bool) (cs : List Char) : Bool :=
  let isFraction (c : Char) : Bool := c.isDigit || c == '_'
  match cs.dropWhile (· != '.') with
  | '.' :: after =>
    let exponent := after.dropWhile isFraction
    match (cs.takeWhile (· != '.')).splitOn ':' with
    | [[]] => !signed && after.head?.any Char.isDigit && isExponent exponent
    | [ds] => isRun Char.isDigit Char.isDigit ds && isExponent exponent
    | first :: rest =>
      isRun Char.isDigit Char.isDigit first && rest.all isSixtieth && exponent.isEmpty
    | [] => false
  | _ => false

/-- The spellings of an infinity behind its sign. -/
def infinityNames : List String := [".inf", ".Inf", ".INF"]

/-- The spellings of what is no number. -/
def nanNames : List String := [".nan", ".NaN", ".NAN"]

end Scalar

open Scalar in
/-- The kind of a plain scalar. -/
def Kind.ofPlain (s : String) : Kind :=
  let cs := s.toList
  let unsigned := (takeSign cs).2
  if nothingNames.contains s then .nothing
  else if trueNames.contains s || falseNames.contains s then .truth
  else if isPointed (cs != unsigned) unsigned || nanNames.contains s
      || infinityNames.contains (String.ofList unsigned) then .pointed
  else if isWhole unsigned then .whole
  else if (Timestamp.read? cs).any (·.isPlain) then .time
  else if s == "<<" then .merge
  else if s == "=" then .default
  else .text

namespace Scalar

/-! ## Values -/

/-- Characters without underscores. -/
def bare (cs : List Char) : List Char := cs.filter (· != '_')

/-- The number that digits write in a base; digits beyond nine are letters. -/
def inBase (base : Nat) (cs : List Char) : Except Failure Nat :=
  if !cs.isEmpty && cs.all (isDigitIn base) then
    .ok (cs.foldl (fun n c => base * n + (Text.hexValue? c).getD 0) 0)
  else .error (.badDigits base (String.ofList cs))

/-- A number in base ten, spelled as leniently as in settings. -/
def integer (cs : List Char) : Except Failure Int :=
  (Decimal.Lenient.readInt (String.ofList cs)).mapError .badNumber

/-- A number with a point, spelled as leniently as in settings. -/
def number (cs : List Char) : Except Failure Float :=
  (Decimal.Lenient.readFloat (String.ofList cs)).mapError .badNumber

/-- The magnitude of a whole number without underscores. -/
def magnitude (cs : List Char) : Except Failure Int :=
  match cs with
  | [] => .error .noNumber
  | ['0'] => .ok 0
  | '0' :: 'b' :: ds => (inBase 2 ds).map Int.ofNat
  | '0' :: 'x' :: ds => (inBase 16 ds).map Int.ofNat
  | '0' :: _ => (inBase 8 cs).map Int.ofNat
  | _ => do
    if cs.contains ':' then
      return (← (cs.splitOn ':').mapM integer).foldl (fun n part => 60 * n + part) 0
    else integer cs

/-- A whole number. -/
def whole (s : String) : Except Failure Int := do
  let cs := bare s.toList
  if cs.isEmpty then throw .noNumber
  let (negative, cs) := takeSign cs
  let n ← magnitude cs
  return if negative then -n else n

/-- The number that parts write in base 60, the last part first: each counts sixty times as much as
the one before. -/
def sixties (total : Float) (unit : Nat) : List Float → Except Failure Float
  | [] => .ok total
  | part :: rest =>
    let u := Decimal.nearest unit 0
    if u.isFinite then sixties (total + part * u) (60 * unit) rest else .error .tooLarge

/-- A number with a point. -/
def pointed (s : String) : Except Failure Float := do
  let cs := (bare s.toList).map Char.toLower
  if cs.isEmpty then throw .noNumber
  let (negative, cs) := takeSign cs
  let signed (x : Float) : Float := if negative then -x else x
  if cs = ".inf".toList then return signed (1.0 / 0.0)
  else if cs = ".nan".toList then return 0.0 / 0.0
  else if cs.contains ':' then
    return signed (← sixties 0.0 1 (← (cs.splitOn ':').mapM number).reverse)
  else return signed (← number cs)

/-- A truth value, in any case. -/
def truth (s : String) : Except Failure Bool :=
  let name := String.ofList (s.toList.map Char.toLower)
  if trueNames.contains name then .ok true
  else if falseNames.contains name then .ok false
  else .error (.noTruth name)

/-- A day, or a time on a day. -/
def time (s : String) : Except Failure Value :=
  match Timestamp.read? s.toList with
  | none => .error .noTime
  | some t =>
    match t.time? with
    | none => (t.date.check.mapError .calendar).map .date
    | some time => ((Timestamp.moment t.date time).check.mapError .calendar).map .moment

/-- Bytes in base 64; all characters are of ASCII. -/
def bytes (s : String) : Except Failure (List UInt8) :=
  match Text.Base64.decode? s.toList with
  | some bs => if s.toList.all (·.toNat < 128) then .ok bs else .error .malformed
  | none => .error .malformed

end Scalar

/-- The value of a scalar of a kind. -/
def Kind.value (kind : Kind) (s : String) : Except Failure Value :=
  match kind with
  | .nothing => .ok .null
  | .truth => (Scalar.truth s).map .bool
  | .whole => (Scalar.whole s).map .int
  | .pointed => (Scalar.pointed s).map .float
  | .time => Scalar.time s
  | .text => .ok (.string s)
  | .bytes => (Scalar.bytes s).map .bytes
  | .misfit => .ok .null
  | .merge | .default | .unknown => .error .malformed

/-! ## Examples -/

example : Kind.ofPlain "0x_" = .whole := by decide
example : Kind.ofPlain "1:30" = .whole := by decide
example : Kind.ofPlain "0:30" = .text := by decide
example : Kind.ofPlain "-.5" = .text := by decide

end Spreadsheet.Yaml
