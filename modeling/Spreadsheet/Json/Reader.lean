import Spreadsheet.Json.Token

/-!
# Reading JSON

A JSON text holds one value. It is read token by token with the open arrays and objects on a stack;
the first token that cannot follow, or the place where no token starts, ends the reading, whichever
comes first. Of fields of one name the last value counts, at the place of the first.

* `Frame`, `State`, `State.step`: one token;
* `Json.read`: a whole text.
-/

namespace Spreadsheet.Json

/-- An array or object that is still open. -/
inductive Frame where
  /-- The items so far, the last one first. -/
  | array (items : List Json)
  /-- The fields so far, and the name of the one whose value is being read. -/
  | object (fields : List (String × Json)) (key : String)

/-- What has been read, and what may come next. -/
inductive State where
  /-- A value has to come. -/
  | value (stack : List Frame)
  /-- An array has been opened. -/
  | arrayStart (stack : List Frame)
  /-- An object has been opened. -/
  | objectStart (stack : List Frame)
  /-- The name of another field has to come. -/
  | key (fields : List (String × Json)) (stack : List Frame)
  /-- The name of a field has been read. -/
  | afterKey (fields : List (String × Json)) (key : String) (stack : List Frame)
  /-- A value is complete. -/
  | complete (v : Json) (stack : List Frame)

/-- The greatest number of arrays and objects inside each other. -/
def depthLimit : Nat := 980

/-- A token where a value has to come. -/
def State.startValue (stack : List Frame) : Token → Except Failure State
  | .scalar v => .ok (.complete v stack)
  | .string s => .ok (.complete (.string s) stack)
  | .openArray => if stack.length < depthLimit then .ok (.arrayStart stack) else .error .tooDeep
  | .openObject => if stack.length < depthLimit then .ok (.objectStart stack) else .error .tooDeep
  | _ => .error .malformed

/-- Read one token. -/
def State.step : State → Token → Except Failure State
  | .value stack, t => State.startValue stack t
  | .arrayStart stack, .closeArray => .ok (.complete (.array []) stack)
  | .arrayStart stack, t => State.startValue (.array [] :: stack) t
  | .objectStart stack, .closeObject => .ok (.complete (.object []) stack)
  | .objectStart stack, .string s => .ok (.afterKey [] s stack)
  | .key fields stack, .string s => .ok (.afterKey fields s stack)
  | .afterKey fields k stack, .colon => .ok (.value (.object fields k :: stack))
  | .complete v (.array items :: stack), .comma => .ok (.value (.array (v :: items) :: stack))
  | .complete v (.array items :: stack), .closeArray =>
    .ok (.complete (.array (v :: items).reverse) stack)
  | .complete v (.object fields k :: stack), .comma => .ok (.key (Fields.put k v fields) stack)
  | .complete v (.object fields k :: stack), .closeObject =>
    .ok (.complete (.object (Fields.put k v fields)) stack)
  | _, _ => .error .malformed

/-- The value of a state at the end of the text, if nothing is open. -/
def State.finish? : State → Option Json
  | .complete v [] => some v
  | _ => none

/-- Read a whole text. -/
def read (text : String) : Except Failure Json := do
  let (tokens, stuck?) := lex text.toList
  let state ← tokens.foldlM State.step (.value [])
  match stuck?, state.finish? with
  | some f, _ => throw f
  | none, some v => return v
  | none, none => throw .malformed

end Spreadsheet.Json
