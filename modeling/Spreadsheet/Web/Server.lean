import Spreadsheet.Editor.Operation
import Spreadsheet.Journal.Log
import Spreadsheet.Tooling
import Spreadsheet.Formula.Shift
import Spreadsheet.Web.Answer
import Spreadsheet.Web.Body
import Spreadsheet.Web.Query
import Spreadsheet.Web.Route

/-!
# The editor on the web

Requests are answered by one editor, one after another. A request whose body is not of the right
form is refused before anything is done; an operation that the editor refuses is a bad request.
Events go to the log, if there is one.

* `Request`, `Server`;
* `Server.handle`: one request; `Server.advance`: time that passes between requests.
-/

namespace Spreadsheet.Web

open Journal (Log)

/-- A request. -/
structure Request where
  method : String
  path : String
  query : String := ""
  body : ByteArray := .empty

/-- An editor and its log. -/
structure Server where
  editor : Editor
  log? : Option Log := none

/-- An answer that ends a request early, or the rest of the request. -/
abbrev Handler := ExceptT Answer (StateM Server)

/-- The name and version that the index gives. -/
def programName : String := "minisheet"

/-- The version of the program. -/
def version : String := "0.1.0"

namespace Server

/-! ## Answers -/

/-- A refused request with its reason. -/
def refuse (status : Nat) (reason : String) : Answer :=
  .value status (.object [("detail", .string reason)])

/-- A number that a field holds. -/
def ofNat (n : Nat) : Json := .int n

/-- A view of the editor as an object. -/
def viewFields (v : Editor.View) : List (String × Json) :=
  [("rows", ofNat v.size.rows), ("cols", ofNat v.size.cols),
    ("cells", .array (v.cells.map fun row => .array (row.map .string))),
    ("errors", .array (v.errors.map fun (name, c, message) =>
      .object [("addr", .string name), ("row", .int c.row), ("col", .int c.col),
        ("message", .string message)])),
    ("active", Journal.ofText? v.active?), ("calc_state", .string v.state.text),
    ("last_error", Journal.ofText? v.lastError?)]

/-- A token as an object. -/
def tokenJson (t : Formula.Token) : Json :=
  .object [("kind", .string t.lexeme.kind), ("text", .string t.lexeme.text),
    ("position", ofNat t.position)]

/-- What is known about a formula as an object; there is none if a row number is too long. -/
def examination (text : String) : Except Decimal.TooLong Json :=
  match Formula.examine Formula.roomLimit text with
  | .ok e => .ok (.object [("ok", .bool true), ("tokens", .array (e.tokens.map tokenJson)),
      ("functions", .array (e.functions.map .string))])
  | .error (.tooLong e) => .error e
  | .error (.rejected r) => .ok (rejection r.message r.position?)
  | .error .tooDeep => .ok (rejection Formula.tooDeepMessage none)
where
  /-- A rejected formula. -/
  rejection (message : String) (position? : Option Nat) : Json :=
    .object [("ok", .bool false), ("error", .string message),
      ("position", (position?.map ofNat).getD .null)]

/-- The names of the functions. -/
def functionNames : Json := .array (Formula.Function.all.map (.string ·.name))

/-! ## The editor and the log -/

/-- Do something with the editor; its events go to the log. -/
def act {α : Type} (now : String) (x : Editor.Action α) : StateM Server (Except Editor.Failure α) :=
  fun s =>
    let (answer, editor) := x.run.run s.editor
    (answer, {
      editor := { editor with events := [], shown := [] }
      log? := s.log?.map fun log => editor.events.foldl (Log.emit · now) log })

/-- The answer to a request that the editor refuses. -/
def refusal : Editor.Failure → Answer
  | .noEntry => .failed (.editor .noEntry)
  | .noColumn => .failed (.editor .noColumn)
  | e => refuse 400 e.message

/-- Do something with the editor; a refusal is a bad request. -/
def attempt {α : Type} (now : String) (x : Editor.Action α) : Handler α := do
  match ← act now x with
  | .ok a => return a
  | .error e => throw (refusal e)

/-- What the user sees. -/
def view (now : String) : Handler (List (String × Json)) := viewFields <$> attempt now Editor.view

/-! ## Bodies -/

/-- What a body holds, if it is of the right form. -/
def body {α : Type} (r : Request) (read : Fields Json → Checked α) : Handler α := do
  match Body.read r.body with
  | .error .malformed => throw (.unprocessable [])
  | .error .unreadable => throw (refuse 400 "There was an error parsing the body")
  | .ok v =>
    match Body.fields v >>= read with
    | .ok a => return a
    | .error problems => throw (.unprocessable problems)

/-- The address in a body. -/
def address (r : Request) : Handler String := body r (Body.required "addr" Body.text)

/-- The address and the text in a body. -/
def entry (r : Request) : Handler (String × String) :=
  body r fun fields =>
    (Body.required "addr" Body.text fields).both (Body.required "text" Body.text fields)

/-- The operation on the extent that a request names. -/
def change (now : String) (r : Request) (add remove : Editor.Action Unit) : Handler Unit := do
  let action ← body r (Body.required "action" Body.text)
  if action = "add" then attempt now add
  else if action = "remove" then attempt now remove
  else throw (refuse 400 ("Unknown action: " ++ Text.quote action))

/-- The newest events that a query asks for. -/
def events (query : List (String × String)) : Handler Json := do
  let limit ← match Query.get? "limit" query with
    | none => pure 200
    | some s => match Json.wholeOfText s with
      | .ok n => if 1 ≤ n ∧ n ≤ Log.maxRead then pure n else throw (.unprocessable [])
      | .error _ => throw (.unprocessable [])
  match (← get).log? with
  | none => return .array []
  | some log =>
    let filter : Log.Filter :=
      ⟨(Query.get? "level" query).getD "", (Query.get? "event_type" query).getD ""⟩
    match log.recent filter limit with
    | .ok records => return .array records
    | .error e => throw (.failed (.log e))

/-- A value that there is unless a number is too long. -/
def orFail {α : Type} : Except Decimal.TooLong α → Handler α
  | .ok a => return a
  | .error e => throw (.failed (.editor (.tooLong e)))

/-! ## Requests -/

/-- The value that a route answers with. -/
def run (now : String) (r : Request) : Route → Handler Json
  | .index => return .object [("name", .string programName), ("version", .string version)]
  | .sheet => .object <$> view now
  | .edit => do
    let (addr, text) ← entry r
    attempt now do Editor.edit (← Editor.cellAt addr) text
    return .object [("addr", .string addr), ("pending", .bool (← get).editor.timer.pending)]
  | .focus => do
    let addr ← address r
    let text ← attempt now do Editor.beginEdit (← Editor.cellAt addr)
    return .object [("addr", .string addr), ("text", .string text)]
  | .blur => do
    let _ ← attempt now Editor.endEdit
    .object <$> view now
  | .rows => do
    change now r Editor.addRow Editor.removeRow
    .object <$> view now
  | .cols => do
    change now r Editor.addColumn Editor.removeColumn
    .object <$> view now
  | .resize => do
    let (rows, cols) ← body r fun fields =>
      (Body.required "rows" Body.whole fields).both (Body.required "cols" Body.whole fields)
    attempt now (Editor.resize rows cols)
    .object <$> view now
  | .load => do
    let rows ← body r (Body.required "rows" Body.rows)
    attempt now (Editor.load (rows.map fun row => row.map Json.cellText))
    .object <$> view now
  | .reset => do
    attempt now Editor.reset
    .object <$> view now
  | .copy => do
    let addr ← address r
    let text ← attempt now do Editor.copy (← Editor.cellAt addr)
    return .object [("addr", .string addr), ("text", .string text)]
  | .cut => do
    let addr ← address r
    let text ← attempt now do Editor.cut (← Editor.cellAt addr)
    return .object [("addr", .string addr), ("text", .string text)]
  | .paste => do
    let (addr, text) ← entry r
    let written ← attempt now do Editor.paste (← Editor.cellAt addr) text
    return .object ((← view now) ++ [("written", ofNat written)])
  | .validate => do
    let text ← body r (Body.required "text" Body.text)
    orFail (examination text)
  | .shift => do
    let (text, rows, cols) ← body r fun fields =>
      (Body.required "text" Body.text fields).both
        ((Body.optional "d_row" 0 Body.whole fields).both
          (Body.optional "d_col" 0 Body.whole fields))
    return .object [("text", .string (← orFail (Formula.shiftFormula ⟨rows, cols⟩ text)))]
  | .functions => return functionNames
  | .events => events (Query.parse r.query)

/-- An address without the slashes at its end, or with one if it has none. -/
def otherForm (path : String) : String :=
  if path.endsWith "/" then String.ofList (path.toList.reverse.dropWhile (· == '/')).reverse
  else path ++ "/"

/-- Answer a request at a time. An address with a slash too many or too few leads to the right
one. -/
def handle (now : String) (r : Request) : StateM Server Answer := do
  match Route.ofPath? r.path with
  | none =>
    if (Route.ofPath? (otherForm r.path)).isSome then return .redirected
    else return refuse 404 "Not Found"
  | some route =>
    if r.method ≠ route.method then return refuse 405 "Method Not Allowed"
    else match ← (run now r route).run with
      | .ok v => return Answer.sent (.value 200 v)
      | .error answer => return answer.sent

/-- Time passes. -/
def advance (now : String) (ms : Nat) : StateM Server Unit := do
  let _ ← act now (Editor.request (.advance ms))

/-- A server with a new editor, if the settings allow it. -/
def new (settings : Settings) (clocked : Bool) (log? : Option Log) : Server :=
  ⟨.empty settings clocked, log?⟩

end Server

end Spreadsheet.Web
