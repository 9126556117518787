import Spreadsheet.Text.Hex
import Spreadsheet.Text.Utf8

/-!
# Query strings

The part of an address behind the question mark: names and values between ampersands. A plus sign
is a space and a percent sign starts a byte in two hexadecimal digits; the bytes are read as UTF-8.

* `Query.parse`: all pairs; `Query.get?`: the last value of a name.
-/

namespace Spreadsheet.Web.Query

/-- The bytes of an escaped text; a percent sign without two digits behind it stands for itself. -/
def unescape : List Char → List UInt8
  | [] => []
  | '%' :: a :: b :: cs =>
    match Text.ofHex? [a, b] with
    | some n => n.toUInt8 :: unescape cs
    | none => 37 :: unescape (a :: b :: cs)
  | '+' :: cs => 32 :: unescape cs
  | c :: cs => (String.singleton c).toUTF8.toList ++ unescape cs
termination_by cs => cs.length

/-- An escaped text, read. -/
def read (cs : List Char) : String := String.ofList (Text.ofUtf8 (unescape cs))

/-- The pairs of a query. A name without an equals sign has the empty value. -/
def parse (query : String) : List (String × String) :=
  ((query.toList.splitOn '&').filter (!·.isEmpty)).map fun pair =>
    (read (pair.takeWhile (· != '=')), read ((pair.dropWhile (· != '=')).drop 1))

/-- The last value of a name. -/
def get? (name : String) (pairs : List (String × String)) : Option String :=
  pairs.reverse.lookup name

end Spreadsheet.Web.Query
