import Spreadsheet.Editor.Basic
import Spreadsheet.Journal.Log
import Spreadsheet.Web.Problem

/-!
# Answers to requests

An answer is a status with a value in JSON. A value is written as it is sent, string by string; what
tells of a refusal is written as a whole first. Halves of pairs cannot be written, nor can numbers
be told of that have no place in JSON, so an answer with one of these is none.

* `Answer`, `Failure`;
* `Answer.sent`: what becomes of an answer when it is sent.
-/

namespace Spreadsheet.Web

/-- What goes wrong within a request and is no fault of its sender's. -/
inductive Failure where
  | editor (e : Editor.Failure)
  | log (e : Journal.Log.Failure)
  /-- A string of the answer cannot be written. -/
  | string (e : Text.Unwritable)
  /-- What tells of a refusal cannot be written. -/
  | refusal (e : Text.Unwritable)
  /-- A refusal would have to tell of an infinity or of what is no number. -/
  | infinite

/-- The wording of a failure. -/
def Failure.message : Failure → String
  | editor e => e.message
  | log e => e.message
  | string e => "Error serializing to JSON: UnicodeEncodeError: " ++ e.message
  | refusal e => e.message
  | infinite => "Out of range float values are not JSON compliant"

/-- An answer to a request. -/
inductive Answer where
  /-- A status and a value. -/
  | value (status : Nat) (body : Json)
  /-- The request is not of the right form. -/
  | unprocessable (problems : List Problem)
  /-- What was asked for is at another address. -/
  | redirected
  /-- The request went wrong within. -/
  | failed (e : Failure)

namespace Answer

mutual

/-- The first halves in the strings of a value. -/
def unwritable? : Json → Option Text.Unwritable
  | .string s => Text.unwritable? s
  | .array items => unwritableItem? items
  | .object fields => unwritableField? fields
  | _ => none

/-- The first halves in the items of a list. -/
def unwritableItem? : List Json → Option Text.Unwritable
  | [] => none
  | v :: vs => unwritable? v <|> unwritableItem? vs

/-- The first halves in the fields of an object. -/
def unwritableField? : List (String × Json) → Option Text.Unwritable
  | [] => none
  | (k, v) :: rest => Text.unwritable? k <|> unwritable? v <|> unwritableField? rest

end

mutual

/-- All numbers in a value have a place in JSON. -/
def isFinite : Json → Bool
  | .float x => x.isFinite
  | .array items => areFinite items
  | .object fields => areFieldsFinite fields
  | _ => true

/-- All numbers in the items of a list have a place in JSON. -/
def areFinite : List Json → Bool
  | [] => true
  | v :: vs => isFinite v && areFinite vs

/-- All numbers in the fields of an object have a place in JSON. -/
def areFieldsFinite : List (String × Json) → Bool
  | [] => true
  | (_, v) :: rest => isFinite v && areFieldsFinite rest

end

/-- What tells of problems with a request. -/
def details (problems : List Problem) : Json :=
  .object [("detail", .array (problems.map Problem.json))]

/-- What becomes of an answer when it is sent. -/
def sent : Answer → Answer
  | value status body =>
    if status = 200 then
      match unwritable? body with
      | some e => failed (.string e)
      | none => value status body
    else match Text.unwritable? (body.write Json.Style.dense) with
      | some e => failed (.refusal e)
      | none => value status body
  | unprocessable problems =>
    if isFinite (details problems) then
      match Text.unwritable? ((details problems).write Json.Style.dense) with
      | some e => failed (.refusal e)
      | none => unprocessable problems
    else failed .infinite
  | answer => answer

end Answer

end Spreadsheet.Web
