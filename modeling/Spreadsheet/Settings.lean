import Spreadsheet.Decimal.Lenient
import Spreadsheet.Formula.Argument
import Spreadsheet.Grid
import Spreadsheet.Yaml.Failure

/-!
# Settings of the editor

Settings come as fields of any kind. The extent of the grid and the delay before a recompute are
converted to numbers and checked; everything else stays as it was given.

* `Settings`; `Settings.ofFields`: conversion and checks;
* `Settings.Failure`: the ways in which settings are refused;
* `wholeDelay?`: a delay in whole milliseconds.
-/

namespace Spreadsheet

/-- Checked settings. -/
structure Settings where
  /-- The extent of an empty grid. -/
  size : Size
  /-- How long a recompute is put off, in milliseconds. -/
  delay : Float
  /-- All fields, with the numbers in place of what was given for them. -/
  fields : Fields Value

namespace Settings

/-- Why settings are refused. -/
inductive Failure where
  /-- A field is missing. -/
  | missing (key : String)
  /-- A text is no number. -/
  | badNumber (e : Decimal.Lenient.Failure)
  /-- A value of this kind cannot be a whole number. -/
  | neverInteger (kind : String)
  /-- A value of this kind cannot be a number. -/
  | neverNumber (kind : String)
  /-- What is no number cannot be made whole. -/
  | nanInteger
  /-- An infinity cannot be made whole. -/
  | infiniteInteger
  /-- An integer is beyond the range of doubles. -/
  | overflow (e : Formula.Overflow)
  /-- A grid has at least one row and one column. -/
  | badSize (rows cols : Int)
  /-- The number of rows or columns has too many digits to be told. -/
  | longSize
  /-- A delay is not negative. -/
  | negativeDelay (delay : Float)
  /-- A directory is given as a value of this kind. -/
  | neverPath (kind : String)
  /-- A directory is given as bytes. -/
  | bytesPath
  /-- A directory is that of a user who is not known. -/
  | noHome
  /-- A file of settings holds no fields. -/
  | noMapping (path : String)
  /-- A file of settings cannot be read. -/
  | unreadable (e : Yaml.Failure)

/-- The wording of a failure. -/
def Failure.message : Failure → String
  | missing key => Text.quote key
  | badNumber e => e.message
  | neverInteger kind =>
    "int() argument must be a string, a bytes-like object or a real number, not " ++ Text.quote kind
  | neverNumber kind =>
    "float() argument must be a string or a real number, not " ++ Text.quote kind
  | nanInteger => "cannot convert float NaN to integer"
  | infiniteInteger => "cannot convert float infinity to integer"
  | overflow e => e.message
  | badSize rows cols =>
    "rows and cols must be >= 1, got " ++ toString rows ++ "x" ++ toString cols
  | longSize => Decimal.TooLong.writing.message
  | negativeDelay delay => "recalc_delay_ms must be >= 0, got " ++ Decimal.text delay
  | neverPath kind => "expected str, bytes or os.PathLike object, not " ++ kind
  | bytesPath =>
    "argument should be a str object or an os.PathLike object returning str, not <class 'bytes'>"
  | noHome => "Could not determine home directory."
  | noMapping path => path ++ " must contain a mapping"
  | unreadable e => e.message

/-- A value is wrong, and it is not that there is none or that its kind has no such values. -/
def Failure.isBadValue : Failure → Bool
  | badNumber _ | nanInteger | badSize .. | longSize | negativeDelay _ | noMapping _ => true
  | unreadable e => e.isBadValue
  | missing _ | neverInteger _ | neverNumber _ | neverPath _ | bytesPath | noHome | infiniteInteger
  | overflow _ => false

/-! ## Conversions -/

/-- What bytes write, read as a text of ASCII; other bytes are refused. -/
def ofBytes {α : Type} (read : String → Except Decimal.Lenient.Failure α)
    (refuse : String → Decimal.Lenient.Failure) (bs : List UInt8) : Except Failure α :=
  let shown := Text.quoteBytes bs
  if bs.all (· < 128) then
    (read (String.ofList (bs.map fun b => Char.ofNat b.toNat))).mapError fun e =>
      .badNumber (e.showing shown)
  else .error (.badNumber (refuse shown))

/-- A value as a whole number; what a double has behind the point is dropped. -/
def toInteger : Value → Except Failure Int
  | .int n => .ok n
  | .bool b => .ok (if b then 1 else 0)
  | .float x =>
    match Decimal.Binary.ofFloat? x with
    | some b => .ok b.truncated
    | none => .error (if x.isNaN then .nanInteger else .infiniteInteger)
  | .string s => (Decimal.Lenient.readInt s).mapError .badNumber
  | .bytes bs => ofBytes Decimal.Lenient.readInt .notInteger bs
  | v => .error (.neverInteger v.kind)

/-- A value as a double. -/
def toNumber : Value → Except Failure Float
  | .int n => (Formula.ofInt n).mapError .overflow
  | .bool b => .ok (if b then 1.0 else 0.0)
  | .float x => .ok x
  | .string s => (Decimal.Lenient.readFloat s).mapError .badNumber
  | .bytes bs => ofBytes Decimal.Lenient.readFloat .notNumber bs
  | v => .error (.neverNumber v.kind)

/-! ## Checks -/

/-- The value of a field that has to be there. -/
def require (key : String) (fields : Fields Value) : Except Failure Value :=
  match Fields.get? key fields with
  | some v => .ok v
  | none => .error (.missing key)

/-- The failure of a size that no grid has. -/
def sizeFailure (rows cols : Int) : Failure :=
  match Decimal.writeInt rows, Decimal.writeInt cols with
  | .ok _, .ok _ => .badSize rows cols
  | _, _ => .longSize

/-- Settings from fields, converted and checked in this order: the extent first, then the delay. -/
def ofFields (fields : Fields Value) : Except Failure Settings := do
  let rows ← toInteger (← require "rows" fields)
  let cols ← toInteger (← require "cols" fields)
  let size ← (Grid.checkSize rows cols).mapError fun _ => sizeFailure rows cols
  let delay ← toNumber (← require "recalc_delay_ms" fields)
  if delay < 0.0 then throw (.negativeDelay delay)
  return ⟨size, delay, Fields.put "recalc_delay_ms" (.float delay)
    (Fields.put "cols" (.int cols) (Fields.put "rows" (.int rows) fields))⟩

/-- The fields that count, with the values they have unless others are given. -/
def defaults : Fields Value :=
  [("rows", .int 30), ("cols", .int 12), ("recalc_delay_ms", .int 16), ("log_dir", .null),
    ("logging_fsync", .bool false), ("logging_tail_bytes", .int 2097152)]

/-- The least number of whole milliseconds that is not shorter than a delay; none if the delay
never ends. -/
def wholeDelay? (delay : Float) : Option Nat :=
  match Decimal.Binary.ofFloat? delay with
  | none => none
  | some b =>
    if b.negative then some 0
    else if 0 ≤ b.exponent then some (b.mantissa * Nat.pow 2 b.exponent.toNat)
    else
      let unit : Nat := Nat.pow 2 (-b.exponent).toNat
      some ((b.mantissa + unit - 1) / unit)

end Settings

end Spreadsheet
