import Spreadsheet.Journal.Record
import Spreadsheet.Json.Limits
import Spreadsheet.Json.Printer
import Spreadsheet.Json.Reader
import Spreadsheet.Text.Blank
import Spreadsheet.Text.Lines
import Spreadsheet.Text.Utf8

/-!
# The log

The journal keeps its records in a file, one JSON text a line, new ones at the end. Reading looks at
the last bytes of the file only, from the first line that starts among them, and skips lines that
are no JSON. The newest record comes first.

* `Log`; `Log.write`: a record at the end;
* `Log.tail`: the bytes that are looked at; `Log.values`: the values on their lines;
* `Log.recent`: the newest records that match a filter.
-/

namespace Spreadsheet.Journal

/-- A log file and how much of it is read. -/
structure Log where
  /-- The bytes of the file, if there is one. -/
  content? : Option (List UInt8) := none
  /-- The place of the file is taken, so that it can be neither written nor read. -/
  blocked : Bool := false
  /-- How many bytes at the end are looked at. -/
  tailBytes : Int

namespace Log

/-- Why the log cannot be used. -/
inductive Failure where
  /-- The place of the file is taken. -/
  | blocked
  /-- A value of this kind has no fields to filter by. -/
  | noFields (kind : String)
  /-- A line holds values nested too deeply, or was to hold them. -/
  | tooDeep
  /-- A line holds an integer with too many digits, or was to hold it. -/
  | tooLong (e : Decimal.TooLong)

/-- The wording of a failure. -/
def Failure.message : Failure → String
  | blocked => "Is a directory"
  | noFields kind => Text.quote kind ++ " object has no attribute 'get'"
  | tooDeep => "maximum recursion depth exceeded"
  | tooLong e => e.message

/-- The name of the file of a log in its directory. -/
def fileName : String := "events.ndjson"

/-- The bytes looked at unless another number is given. -/
def defaultTailBytes : Int := 2097152

/-- The most records that are read at once. -/
def maxRead : Int := 2000

/-! ## Writing -/

/-- The bytes of a text. -/
def bytesOf (s : String) : List UInt8 := s.toUTF8.toList

/-- A log with bytes at its end. -/
def append (l : Log) (bytes : List UInt8) : Except Failure Log :=
  if l.blocked then .error .blocked
  else .ok { l with content? := some (l.content?.getD [] ++ bytes) }

/-- The line of a record that is written at a time. -/
def lineOf (r : Record) (now : String) : String := (r.json now).text ++ "\n"

/-- Why a value cannot be written on a line, if there is a reason. -/
def refusal? (v : Json) : Option Failure :=
  if Json.depthLimit < v.depth then some .tooDeep
  else if v.all Json.isShort then none
  else some (.tooLong .writing)

/-- A log with a record at its end, written at a time, unless the record cannot be written. -/
def write (l : Log) (r : Record) (now : String) : Except Failure Log :=
  match refusal? (r.json now) with
  | some e => .error e
  | none => l.append (bytesOf (lineOf r now))

/-- A log with an event at its end. An event that cannot be written is lost. -/
def emit (l : Log) (now : String) (e : Event) : Log :=
  (l.write (.ofEvent e) now).toOption.getD l

/-! ## Reading -/

/-- The bytes after the first line end; all of them if there is none. -/
def fromLineStart (bytes : List UInt8) : List UInt8 :=
  match bytes.dropWhile (· != 10) with
  | _ :: rest => rest
  | [] => bytes

/-- The bytes that are looked at. -/
def tail (l : Log) : List UInt8 :=
  let bytes := l.content?.getD []
  if (bytes.length : Int) ≤ l.tailBytes then bytes
  else fromLineStart (bytes.drop (bytes.length - l.tailBytes).toNat)

/-- The lines that are looked at, but for blank ones. -/
def tailLines (l : Log) : List (List Char) :=
  (Text.lines (Text.ofUtf8 l.tail)).filter fun line => !line.all Text.isBlank

/-- What a line holds; nothing if it is no JSON. -/
def valueOf? (line : List Char) : Except Failure (Option Json) :=
  match Json.read (String.ofList line) with
  | .ok v => .ok (some v)
  | .error .malformed => .ok none
  | .error .tooDeep => .error .tooDeep
  | .error (.tooLong e) => .error (.tooLong e)

/-- Which records are wanted; an empty text is no wish. -/
structure Filter where
  level : String := ""
  type : String := ""

/-- A field of a value has the wanted text. -/
def hasField (key wanted : String) (v : Json) : Except Failure Bool :=
  if wanted.isEmpty then .ok true
  else match v with
    | .object fields => .ok (match Fields.get? key fields with
      | some (.string s) => s == wanted
      | _ => false)
    | v => .error (.noFields v.kind)

/-- A value is wanted. -/
def Filter.accepts (f : Filter) (v : Json) : Except Failure Bool := do
  if ← hasField "level" f.level v then hasField "event_type" f.type v else return false

/-- The wanted values on lines, in order. -/
def values (f : Filter) : List (List Char) → Except Failure (List Json)
  | [] => .ok []
  | line :: lines => do
    match ← valueOf? line with
    | none => values f lines
    | some v => if ← f.accepts v then return v :: (← values f lines) else values f lines

/-- The first values of a list; a negative number says how many to leave out at its end. -/
def firstOf {α : Type} (limit : Int) (xs : List α) : List α :=
  if 0 ≤ limit then xs.take limit.toNat else xs.take (xs.length + limit).toNat

/-- The newest wanted values, the newest first. -/
def recent (l : Log) (f : Filter) (limit : Int) : Except Failure (List Json) := do
  if l.blocked then throw .blocked
  return firstOf (min limit maxRead) (← values f l.tailLines).reverse

end Log

end Spreadsheet.Journal
