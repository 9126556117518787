import Spreadsheet.Path
import Spreadsheet.Settings
import Spreadsheet.Yaml.Reader

/-!
# Files of settings

Settings are kept in a file of fields, put over the default ones; fields of other names count for
nothing, and so does an empty file. The directory of the log is meant from where the file is, unless
it is said to be in the directory of a user.

* `Settings.ofFile`: the settings of a file; `Settings.fileName`: its usual name.
-/

namespace Spreadsheet.Settings

/-- The name of the file of settings in a directory. -/
def fileName : String := "minisheet.yaml"

/-- The fields of a file. -/
def fieldsOf (path : String) (text : String) : Except Failure (Fields Value) := do
  let v ← (Yaml.read text).mapError .unreadable
  if v.isEmpty then return []
  else match v with
    | .map entries => return Value.fields entries
    | _ => throw (.noMapping path)

/-- The directory of the log, seen from the file of settings. -/
def logPath (homes : Fields String) (path : String) : Value → Except Failure Value
  | .null => .ok .null
  | .string s =>
    match Path.expand? homes s with
    | some s => .ok (.string (Path.join (Path.parent path) s))
    | none => .error .noHome
  | .bytes _ => .error .bytesPath
  | v => .error (.neverPath v.shortKind)

/-- The settings of a file at a path, given its text if it is there, and where users have their
directories. -/
def ofFile (homes : Fields String) (path : String) (text? : Option String) :
    Except Failure Settings :=
  match text? with
  | none => ofFields defaults
  | some text => do
    let known := (← fieldsOf (Path.normalize path) text).filter fun (k, _) =>
      (Fields.get? k defaults).isSome
    let fields := Fields.override defaults known
    let dir ← logPath homes path (← require "log_dir" fields)
    ofFields (Fields.put "log_dir" dir fields)

/-- How many bytes of the log are looked at; the default if nothing is given. -/
def tailBytes (s : Settings) (default : Int) : Except Failure Int :=
  match Fields.get? "logging_tail_bytes" s.fields with
  | none | some .null => .ok default
  | some v => toInteger v

end Spreadsheet.Settings
