import Spreadsheet.Journal.Event
import Spreadsheet.Json.Field

/-!
# Records of events

An event is kept as a record: an object with the event, the version of its form and a time. Records
also come from outside as fields, of which only the level and the type have to be there.

* `Record`; `Record.ofFields?`: a record from outside; `Record.json`: its object.
-/

namespace Spreadsheet.Journal

/-- An event with a version and, unless it is the present, a time. -/
structure Record where
  version : Int := schemaVersion
  time? : Option String := none
  event : Event

/-- The record of an event that the editor tells of: its long strings are cut. -/
def Record.ofEvent (e : Event) : Record where
  event := e.cut

/-- A field that may be missing; one that is there has to be read. -/
def optionalField {α : Type} (key : String) (fields : List (String × Json)) (default : α)
    (read? : Json → Option α) : Option α :=
  match Fields.get? key fields with
  | none => some default
  | some v => read? v

/-- A record from fields, if these are of the right kinds. -/
def Record.ofFields? (fields : List (String × Json)) : Option Record := do
  let version ← optionalField "schema_version" fields schemaVersion Json.whole?
  let time? ← optionalField "ts" fields none fun v => v.text?.map some
  let level ← Level.ofText? (← (← Fields.get? "level" fields).text?)
  let type ← EventType.ofText? (← (← Fields.get? "event_type" fields).text?)
  let context ← optionalField "context" fields [] Json.fields?
  let message ← optionalField "message" fields "" Json.text?
  let code? ← optionalField "error_code" fields none Json.optionalText?
  return ⟨version, time?, { level, type, message, context, code? }⟩

/-- An event from outside: its message and code are checked, and an empty context is none. -/
def Event.ofFields? (level : Level) (type : EventType) (message context code : Json) :
    Option Event := do
  let context ← match context with
    | .null | .bool false | .array [] | .string "" => some []
    | .int n => if n = 0 then some [] else none
    | .float x => if x == 0.0 then some [] else none
    | v => v.fields?
  return { level, type, message := ← message.text?, context, code? := ← code.optionalText? }

mutual

/-- A value as a record keeps it: infinities and what is no number are left out. -/
def kept : Json → Json
  | .float x => if x.isFinite then .float x else .null
  | .array items => .array (keptItems items)
  | .object fields => .object (keptFields fields)
  | v => v

/-- The items of a list as a record keeps them. -/
def keptItems : List Json → List Json
  | [] => []
  | v :: vs => kept v :: keptItems vs

/-- The fields of an object as a record keeps them. -/
def keptFields : List (String × Json) → List (String × Json)
  | [] => []
  | (k, v) :: rest => (k, kept v) :: keptFields rest

end

/-- The object of a record that is written at a time. -/
def Record.json (r : Record) (now : String) : Json :=
  kept (r.event.record r.version (r.time?.getD now))

end Spreadsheet.Journal
