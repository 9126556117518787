import Spreadsheet.CommandLine.Command
import Spreadsheet.SettingsFile
import Spreadsheet.Text.Control
import Spreadsheet.Text.Unwritable
import Spreadsheet.Web.Server

/-!
# Running commands

A command reads files and writes lines. What it needs of the files is a parameter, so that commands
can be run on any store of files.

* `Files`; `CommandLine.Exit`: what a command wrote and how it ended; `CommandLine.Failure`: what
  can go wrong within;
* `CommandLine.runCommand`: a command; `CommandLine.run`: arguments.
-/

namespace Spreadsheet

/-- A store of files. -/
structure Files (m : Type → Type) where
  isDirectory : (path : String) → m Bool
  /-- The bytes of a file, if there is one. -/
  read? : (path : String) → m (Option (List UInt8))
  /-- The directories of users; the one who runs commands has the empty name. -/
  homes : Fields String := []

namespace CommandLine

/-- What goes wrong within a command, beyond what it is meant to tell. -/
inductive Failure where
  /-- A directory is to be read. -/
  | directory
  /-- The log is to be kept in a directory, and there is a file at its path. -/
  | fileExists (path : String)
  /-- The log is to be kept in a directory below a file. -/
  | belowFile (path : String)
  /-- A path has a character that none may have. -/
  | badPath
  | settings (e : Settings.Failure)
  | log (e : Journal.Log.Failure)
  | editor (e : Editor.Failure)
  /-- The level of an event is a number of this kind. -/
  | numericLevel (kind : String)
  /-- The level of an event is of this kind, which has no place in a column. -/
  | noLevel (kind : String)
  /-- A grid holds a value that is none. -/
  | yaml (e : Yaml.Failure)
  /-- A number in a grid is too long. -/
  | tooLong (e : Decimal.TooLong)
  /-- A line cannot be written. -/
  | unwritable (e : Text.Unwritable)
  /-- Nobody listens to the web here. -/
  | noServer

/-- The wording of a failure. -/
def Failure.message : Failure → String
  | directory => "Is a directory"
  | fileExists path => "[Errno 17] File exists: " ++ Text.quote path
  | belowFile path => "[Errno 20] Not a directory: " ++ Text.quote path
  | badPath => "embedded null byte"
  | settings e => e.message
  | log e => e.message
  | editor e => e.message
  | numericLevel kind => "Unknown format code 's' for object of type " ++ Text.quote kind
  | noLevel kind => "unsupported format string passed to " ++ kind ++ ".__format__"
  | yaml e => e.message
  | tooLong e => e.message
  | unwritable e => e.message
  | noServer => "Cannot listen for requests"

/-- How a command ended. -/
inductive Exit where
  /-- It ended with this code and wrote these texts to the output and as errors. -/
  | ended (code : Nat) (out err : String)
  /-- The arguments write no command. -/
  | misused
  /-- It went wrong within. -/
  | failed (e : Failure)

/-- A text without control sequences. -/
def plainText (s : String) : String := String.ofList (Text.plain s.toList)

/-- Lines as they are written, each with its end. -/
def writeLines : List String → Except Text.Unwritable String
  | [] => .ok ""
  | line :: rest => do
    let line := plainText line
    if let some e := Text.unwritable? line then throw e
    return line ++ "\n" ++ (← writeLines rest)

/-- A command that ends well and writes lines. -/
def Exit.done (lines : List String) : Exit :=
  match writeLines lines with
  | .ok out => .ended 0 out ""
  | .error e => .failed (.unwritable e)

/-- A command that ends with a message. -/
def complain (message : String) : Exit := .ended 1 "" (Text.nameHalves (plainText message) ++ "\n")

/-- A command that is refused with a reason. -/
def refused (reason : String) : Exit := complain ("Error: " ++ reason)

/-- A text without the tabs at its end. -/
def dropTabs (s : String) : String := String.ofList (s.toList.reverse.dropWhile (· == '\t')).reverse

section

variable {m : Type → Type} [Monad m] (files : Files m)

/-- There is something at a path. -/
def isPresent (path : String) : m Bool := do
  return (← files.isDirectory path) || (← files.read? path).isSome

/-- The text of a file. -/
def readText? (path : String) : m (Option String) := do
  return (← files.read? path).map fun bytes => String.ofList (Text.ofUtf8 bytes)

/-! ## Grids -/

/-- The rows of a grid. -/
def rows? : Value → Option (List (List Value))
  | .list items => items.mapM fun
    | .list row => some row
    | _ => none
  | _ => none

/-- The rows of a grid in a file: a list of rows, or a mapping with one. -/
def rowsOf (path text : String) : Except Exit (List (List String)) :=
  match Yaml.read text with
  | .error .malformed => .error (refused ("Invalid YAML in " ++ path))
  | .error e => .error (.failed (.yaml e))
  | .ok v =>
    let v := match v with
      | .map entries => (Fields.get? "rows" (Value.fields entries)).getD .null
      | v => v
    match v, rows? v with
    | .null, _ => .ok []
    | _, some rows =>
      (rows.mapM (List.mapM Value.cellText?)).mapError fun e => .failed (.tooLong e)
    | _, none => .error (refused (path ++ " must contain a list of rows"))

/-- The rows of the grid at a path. -/
def readRows (path : String) : m (Except Exit (List (List String))) := do
  match ← readText? files path with
  | none => return .error (.failed .directory)
  | some text => return rowsOf path text

/-! ## Commands -/

/-- The value of a formula on a grid. -/
def eval (formula : String) (rows : List (List String)) : Exit :=
  let (value, _) := (Sheet.ofRows rows).run fun g =>
    g.bodyValue Formula.roomLimit (Formula.dropEquals formula)
  match value with
  | .ok x => .done [(Formula.CellValue.result x).display]
  | .error (.tooLong e) => .failed (.editor (.tooLong e))
  | .error f => complain f.message

/-- What the cells of a grid show, and on request why some of them fail. -/
def printGrid (settings : Settings) (rows : List (List String)) (errors : Bool) : Exit :=
  let view : Editor.Action Editor.View := do
    Editor.load rows
    Editor.view
  match (view.run.run (Editor.empty settings false)).1 with
  | .error e => .failed (.editor e)
  | .ok v =>
    let cells := v.cells.map fun row => dropTabs ("\t".intercalate row)
    let failures := v.errors.map fun (name, _, message) => name ++ ": " ++ message
    .done (cells ++ if errors && !failures.isEmpty then "" :: failures else [])

/-- Settings that are refused: for a value that is told to the user, else within. -/
def badSettings (e : Settings.Failure) : Exit :=
  if e.isBadValue then refused e.message else .failed (.settings e)

/-- The settings of a file, or of the file in a directory. -/
def readSettings (config? : Option String) : m (Except Exit Settings) := do
  match config? with
  | none => return (Settings.ofFields Settings.defaults).mapError badSettings
  | some path =>
    let path := if ← files.isDirectory path then Path.join path Settings.fileName else path
    if ← files.isDirectory path then return .error (.failed .directory)
    else return (Settings.ofFile files.homes path (← readText? files path)).mapError badSettings

/-- The text of a field of an event; empty if it is missing. -/
def fieldText (key : String) (fields : List (String × Json)) : String :=
  ((Fields.get? key fields).map Json.plain).getD ""

/-- The level of an event in its column. -/
def levelText (fields : List (String × Json)) : Except Failure String :=
  match Fields.get? "level" fields with
  | none => .ok (Usage.padRight 7 "")
  | some (.string s) => .ok (Usage.padRight 7 s)
  | some v =>
    match v with
    | .bool _ | .int _ | .float _ => .error (.numericLevel v.kind)
    | v => .error (.noLevel v.kind)

/-- The line of an event. -/
def eventLine : Json → Except Failure String
  | .object fields => do
    let code := match Fields.get? "error_code" fields with
      | some v => if v.value.isEmpty then "" else " [" ++ v.plain ++ "]"
      | none => ""
    return fieldText "ts" fields ++ "  " ++ (← levelText fields) ++ "  "
      ++ fieldText "event_type" fields ++ code ++ "  " ++ fieldText "message" fields
  | v => .error (.log (.noFields v.kind))

/-- The newest events of a log. -/
def events (log : Journal.Log) (filter : Journal.Log.Filter) (limit : Int) (json : Bool) :
    Exit :=
  match log.recent filter limit with
  | .error e => .failed (.log e)
  | .ok [] => .done ["No events found."]
  | .ok records =>
    if json then .done (records.map Json.text)
    else match records.mapM eventLine with
      | .ok lines => .done lines
      | .error e => .failed e

/-- The newest events of the log that settings name. -/
def readEvents (settings : Settings) (filter : Journal.Log.Filter) (limit : Int) (json : Bool) :
    m Exit := do
  match Fields.get? "log_dir" settings.fields with
  | some (.string dir) =>
    match settings.tailBytes Journal.Log.defaultTailBytes with
    | .error e => return .failed (.settings e)
    | .ok tailBytes =>
      let path := Path.join dir Journal.Log.fileName
      if dir.contains '\x00' then return .failed .badPath
      else if (← files.read? dir).isSome then return .failed (.fileExists dir)
      else if (← (Path.ancestors dir).filterMapM files.read?).length ≠ 0 then
        return .failed (.belowFile dir)
      else if ← files.isDirectory path then return .failed .directory
      else return events { content? := ← files.read? path, tailBytes } filter limit json
  | _ => return refused "Event logging is disabled (no log_dir configured)"

/-- Run a command the path of which leads to something. -/
def runCommand : Command → m Exit
  | .version => return .done [Web.programName ++ ", version " ++ Web.version]
  | .help none => return .ended 0 Usage.overview ""
  | .help (some u) => return .ended 0 u.text ""
  | .eval formula none => return eval formula []
  | .eval formula (some path) => do
    match ← readRows files path with
    | .ok rows => return eval formula rows
    | .error e => return e
  | .shift body d =>
    return match Formula.shiftFormula d body with
      | .ok s => .done [s]
      | .error e => .failed (.editor (.tooLong e))
  | .print path errors => do
    match Settings.ofFields Settings.defaults, ← readRows files path with
    | .ok settings, .ok rows => return printGrid settings rows errors
    | .error e, _ => return badSettings e
    | _, .error e => return e
  | .functions => return .done (Formula.Function.all.map (·.name))
  | .events config? level? type limit json => do
    match ← readSettings files config? with
    | .error e => return e
    | .ok settings =>
      readEvents files settings ⟨(level?.map (·.text)).getD "", type⟩ limit json
  | .serve config? => do
    match ← readSettings files config? with
    | .error e => return e
    | .ok _ => return .failed .noServer

/-- Why a path leads nowhere, if it does not. -/
def pathFault? (path : String) : m (Option Exit) := do
  if path.contains '\x00' then return some (.failed .badPath)
  else if let some e := Text.unwritable? path then return some (.failed (.unwritable e))
  else if ← isPresent files path then return none
  else return some .misused

/-- Run what arguments write. A path among them has to lead to something. -/
def run (args : List String) : m Exit := do
  match Command.parse? args with
  | none => return .misused
  | some c =>
    match ← (c.path?.mapM (pathFault? files) : m (Option (Option Exit))) with
    | some (some e) => return e
    | _ => runCommand files c

end

end CommandLine

end Spreadsheet
