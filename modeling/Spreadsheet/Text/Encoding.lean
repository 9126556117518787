import Spreadsheet.Text.Units

/-!
# Encodings of texts

A text that starts with a character of ASCII shows by the zeros among its first bytes how wide its
units are and which of their bytes comes first. Texts of wide units may hold halves of pairs on
their own.

* `Encoding`; `Encoding.ofBytes`: the encoding of a text; `Encoding.decode?`: its characters.
-/

namespace Spreadsheet.Text

/-- How characters are written as bytes. -/
inductive Encoding where
  | utf8
  /-- Units of two bytes; of a unit the high byte or the low one comes first. -/
  | utf16 (highFirst : Bool)
  /-- Units of four bytes. -/
  | utf32 (highFirst : Bool)
  deriving DecidableEq, Repr

namespace Encoding

/-- The encoding of a text that starts with a character of ASCII. -/
def ofBytes : List UInt8 → Encoding
  | 0 :: b :: _ :: _ :: _ => if b = 0 then .utf32 true else .utf16 true
  | _ :: 0 :: c :: d :: _ => if c = 0 ∧ d = 0 then .utf32 false else .utf16 false
  | [0, _] => .utf16 true
  | [_, 0] => .utf16 false
  | _ => .utf8

/-- The number that bytes write, the first of them the highest. -/
def ofBytesHighFirst (bytes : List UInt8) : Nat := bytes.foldl (fun n b => 256 * n + b.toNat) 0

/-- The number that bytes write. -/
def number (highFirst : Bool) (bytes : List UInt8) : Nat :=
  ofBytesHighFirst (if highFirst then bytes else bytes.reverse)

/-- Bytes as units of two; none if one is left over. -/
def units16? (highFirst : Bool) : List UInt8 → Option (List Nat)
  | [] => some []
  | a :: b :: rest => (units16? highFirst rest).map (number highFirst [a, b] :: ·)
  | _ => none

/-- Bytes as code points of four; none if some are left over or there is no such code point. -/
def units32? (highFirst : Bool) : List UInt8 → Option (List Nat)
  | [] => some []
  | a :: b :: c :: d :: rest =>
    let n := number highFirst [a, b, c, d]
    if n < 0x110000 then (units32? highFirst rest).map (n :: ·) else none
  | _ => none

/-- A text without the mark that may stand in front of it. -/
def dropMark : List Char → List Char
  | '\uFEFF' :: cs => cs
  | cs => cs

/-- The characters that bytes write. -/
def decode? (bytes : ByteArray) : Encoding → Option (List Char)
  | .utf8 => (String.fromUTF8? bytes).map (dropMark ·.toList)
  | .utf16 highFirst => (units16? highFirst bytes.toList).map ofUnits
  | .utf32 highFirst => (units32? highFirst bytes.toList).map (·.map ofUnit)

end Encoding

end Spreadsheet.Text
