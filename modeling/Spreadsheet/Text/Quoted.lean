import Spreadsheet.Text.Hex
import Spreadsheet.Text.Printable
import Spreadsheet.Text.Units

/-!
# Quoted texts

How a text is shown inside a message: between single quotes, or between double quotes if it holds a
single quote and no double one. A backslash and the quote in use are escaped, line ends and tabs
have their letters, and every other unprintable character is written by its code point.

* `quoteFor`: the quote in use;
* `escape`: one character; `quote`: the whole text; `quoteBytes`: bytes.
-/

namespace Spreadsheet.Text

/-- The quote around a text: the single one unless only the double one saves escapes. -/
def quoteFor (cs : List Char) : Char :=
  if cs.contains '\'' && !cs.contains '"' then '"' else '\''

/-- An unprintable character by its code point, with the fewest of two, four or eight digits. -/
def escapeCode (c : Char) : List Char :=
  let n := codePoint c
  if n < 0x100 then '\\' :: 'x' :: hex 2 n
  else if n < 0x10000 then '\\' :: 'u' :: hex 4 n
  else '\\' :: 'U' :: hex 8 n

/-- One character of a quoted text. -/
def escape (mark : Char) (c : Char) : List Char :=
  if c == mark || c == '\\' then ['\\', c]
  else if c == '\t' then ['\\', 't']
  else if c == '\n' then ['\\', 'n']
  else if c == '\r' then ['\\', 'r']
  else if isPrintable c then [c]
  else escapeCode c

/-- A text as it is shown inside a message. -/
def quote (s : String) : String :=
  let mark := quoteFor s.toList
  String.ofList (mark :: s.toList.flatMap (escape mark) ++ [mark])

/-- A byte of quoted bytes: one of ASCII as its character, another one by its number. -/
def escapeByte (mark : Char) (b : UInt8) : List Char :=
  let c := Char.ofNat b.toNat
  if b < 128 then escape mark c else escapeCode c

/-- Bytes as they are shown inside a message: like a text, behind a letter. -/
def quoteBytes (bytes : List UInt8) : String :=
  let mark := quoteFor (bytes.map fun b => Char.ofNat b.toNat)
  String.ofList ('b' :: mark :: bytes.flatMap (escapeByte mark) ++ [mark])

/-! ## Examples -/

example : quote "A1" = "'A1'" := by decide +kernel
example : quote "it's" = "\"it's\"" := by decide +kernel
example : quote "\tb\\" = "'\\tb\\\\'" := by decide +kernel
example : quoteBytes [104, 105, 0, 255] = "b'hi\\x00\\xff'" := by decide +kernel

end Spreadsheet.Text
