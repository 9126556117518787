import Spreadsheet.Calendar
import Spreadsheet.Decimal.Binary
import Spreadsheet.Decimal.Integer
import Spreadsheet.Decimal.Layout
import Spreadsheet.Text.Quoted

/-!
# Values from outside

What settings and cells may be given: nothing at all, truth values, numbers, texts, bytes, days,
moments, and pairs, lists, sets and mappings of such values. A mapping has any values as keys. A
cell holds texts only, so a value that is put into one becomes a text.

* `Value`; `Value.kind`: the name of its kind; `Value.shortKind`: the last part of it;
* `Value.inline`: a value inside another one; `Value.cellText?`: what becomes of it in a cell;
* `Value.isSameKey`: two keys are one; `Value.isEmpty`: a value that says nothing.
-/

namespace Spreadsheet

/-- A value from outside. -/
inductive Value where
  | null
  | bool (b : Bool)
  | int (n : Int)
  | float (x : Float)
  | string (s : String)
  | date (d : Date)
  | moment (m : Moment)
  | bytes (bs : List UInt8)
  | pair (first second : Value)
  | list (items : List Value)
  | set (items : List Value)
  | map (fields : List (Value × Value))
  deriving Inhabited, Repr

namespace Value

/-- The name of the kind of a value, as messages give it. -/
def kind : Value → String
  | null => "NoneType"
  | bool _ => "bool"
  | int _ => "int"
  | float _ => "float"
  | string _ => "str"
  | date _ => "datetime.date"
  | moment _ => "datetime.datetime"
  | bytes _ => "bytes"
  | pair _ _ => "tuple"
  | list _ => "list"
  | set _ => "set"
  | map _ => "dict"

/-- The last part of the name of a kind. -/
def shortKind : Value → String
  | date _ => "date"
  | moment _ => "datetime"
  | v => v.kind

/-- A value that says nothing. -/
def isEmpty : Value → Bool
  | null | bool false | bytes [] | list [] | set [] | map [] | string "" => true
  | int n => n == 0
  | float x => x == 0.0
  | _ => false

/-! ## As text -/

mutual

/-- A value written out inside another one. -/
def inline : Value → String
  | null => "None"
  | bool true => "True"
  | bool false => "False"
  | int n => toString n
  | float x => Decimal.text x
  | string s => Text.quote s
  | date d => d.inline
  | moment m => m.inline
  | bytes bs => Text.quoteBytes bs
  | pair a b => "(" ++ a.inline ++ ", " ++ b.inline ++ ")"
  | list items => "[" ++ ", ".intercalate (inlineItems items) ++ "]"
  | set [] => "set()"
  | set items => "\x7b" ++ ", ".intercalate (inlineItems items) ++ "\x7d"
  | map fields => "\x7b" ++ ", ".intercalate (inlineFields fields) ++ "\x7d"

/-- The items of a list or set, written out. -/
def inlineItems : List Value → List String
  | [] => []
  | v :: vs => v.inline :: inlineItems vs

/-- The fields of a mapping, written out. -/
def inlineFields : List (Value × Value) → List String
  | [] => []
  | (k, v) :: rest => (k.inline ++ ": " ++ v.inline) :: inlineFields rest

end

/-- The text of a value as such: texts stand for themselves. -/
def plain : Value → String
  | string s => s
  | date d => d.text
  | moment m => m.text
  | v => v.inline

/-- The text that a value is in a cell; none at all is the empty text. -/
def cellText : Value → String
  | null => ""
  | v => v.plain

mutual

/-- A whole number in a value has too many digits to be written. -/
def isTooLong : Value → Bool
  | int n => (Decimal.writeInt n).toOption.isNone
  | pair a b => a.isTooLong || b.isTooLong
  | list items | set items => anyTooLong items
  | map fields => anyFieldTooLong fields
  | _ => false

/-- A whole number in one of several values has too many digits. -/
def anyTooLong : List Value → Bool
  | [] => false
  | v :: vs => v.isTooLong || anyTooLong vs

/-- A whole number in one of several fields has too many digits. -/
def anyFieldTooLong : List (Value × Value) → Bool
  | [] => false
  | (k, v) :: rest => k.isTooLong || v.isTooLong || anyFieldTooLong rest

end

/-- The text that a value is in a cell, unless a number in it is too long. -/
def cellText? (v : Value) : Except Decimal.TooLong String :=
  if v.isTooLong then .error .writing else .ok v.cellText

/-! ## Keys -/

/-- The whole number that a value is, if it is one: truth values are 0 and 1, and a number with a
point is one if there is nothing behind it. -/
def whole? : Value → Option Int
  | int n => some n
  | bool b => some (if b then 1 else 0)
  | float x => do
    let b ← Decimal.Binary.ofFloat? x
    if b.isWhole then some b.truncated else none
  | _ => none

/-- Two keys are one: they are the same number, text, bytes, or point in time. -/
def isSameKey (a b : Value) : Bool :=
  match a, b with
  | null, null => true
  | string s, string t => s == t
  | bytes b, bytes c => b == c
  | date d, date e => d == e
  | moment m, moment n => m.isSame n
  | float x, float y => x == y || (x.isNaN && y.isNaN)
  | a, b =>
    match a.whole?, b.whole? with
    | some m, some n => m == n
    | _, _ => false

/-- Fields with the value of a key replaced, or added behind the others. -/
def put (key value : Value) : List (Value × Value) → List (Value × Value)
  | [] => [(key, value)]
  | (k, v) :: rest => if k.isSameKey key then (k, value) :: rest else (k, v) :: put key value rest

/-- The fields of a mapping that have texts as keys. -/
def fields (entries : List (Value × Value)) : List (String × Value) :=
  entries.filterMap fun (k, v) => match k with
    | string s => some (s, v)
    | _ => none

end Value

end Spreadsheet
