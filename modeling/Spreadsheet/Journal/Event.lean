import Spreadsheet.Journal.Context

/-!
# Events

What the editor tells about itself: recomputes, failing formulas, changes of the grid and pasted
blocks. An event has a level and a type, a message, fields with details, and sometimes a code.

* `Level`, `EventType`, their names and the way back;
* `Event`; `Event.record`: the record of an event in the journal.
-/

namespace Spreadsheet.Journal

/-- How serious an event is. -/
inductive Level where
  | info
  | warning
  | error
  deriving DecidableEq, Repr

/-- What an event is about. -/
inductive EventType where
  | recalcCompleted
  | recalcFailed
  | formulaError
  | gridChanged
  | gridLoaded
  | gridReset
  | pasteApplied
  deriving DecidableEq, Repr

/-- The name of a level. -/
def Level.text : Level → String
  | info => "info"
  | warning => "warning"
  | error => "error"

/-- The name of a type. -/
def EventType.text : EventType → String
  | recalcCompleted => "recalc_completed"
  | recalcFailed => "recalc_failed"
  | formulaError => "formula_error"
  | gridChanged => "grid_changed"
  | gridLoaded => "grid_loaded"
  | gridReset => "grid_reset"
  | pasteApplied => "paste_applied"

/-- The level of a name. -/
def Level.ofText? (s : String) : Option Level := [info, warning, error].find? (·.text == s)

/-- The type of a name. -/
def EventType.ofText? (s : String) : Option EventType :=
  [recalcCompleted, recalcFailed, formulaError, gridChanged, gridLoaded, gridReset,
    pasteApplied].find? (·.text == s)

theorem Level.ofText?_text (l : Level) : ofText? l.text = some l := by cases l <;> rfl

theorem EventType.ofText?_text (t : EventType) : ofText? t.text = some t := by cases t <;> rfl

/-- The wording for a value that names no type. -/
def badTypeMessage (v : Json) : String := v.inline ++ " is not a valid EventType"

/-- An event. -/
structure Event where
  level : Level
  type : EventType
  message : String
  context : List (String × Json) := []
  code? : Option String := none

/-- The code of a failed recompute. -/
def recalcException : String := "recalc_exception"

/-- The code of a failing formula. -/
def formulaParseError : String := "formula_parse_error"

/-- The version of the form of records. -/
def schemaVersion : Int := 1

/-- A text or nothing. -/
def ofText? : Option String → Json
  | some s => .string s
  | none => .null

/-- The record of an event at a time, its context as it is. -/
def Event.record (e : Event) (version : Int) (time : String) : Json :=
  .object [("schema_version", .int version), ("ts", .string time), ("level", .string e.level.text),
    ("event_type", .string e.type.text), ("context", .object e.context),
    ("message", .string e.message), ("error_code", ofText? e.code?)]

/-- An event with the long strings of its context cut. -/
def Event.cut (e : Event) : Event := { e with context := truncate e.context }

end Spreadsheet.Journal
