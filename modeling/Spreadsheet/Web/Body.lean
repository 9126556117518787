import Spreadsheet.Json.Reader
import Spreadsheet.Text.Encoding
import Spreadsheet.Web.Problem

/-!
# Bodies of requests

The body of a request is an object in JSON. Of its fields those that count are checked, all of them
before any is used; others mean nothing.

* `Body.read`: the value in a body;
* `Body.text`, `Body.whole`, `Body.rows`: what a field may be;
* `Body.required`, `Body.optional`: a field of a body.
-/

namespace Spreadsheet.Web.Body

/-- Why a body holds no value. -/
inductive Failure where
  /-- It does not have the form of JSON. -/
  | malformed
  /-- It cannot be read at all. -/
  | unreadable
  deriving DecidableEq, Repr

/-- The value in a body; an empty body holds none. -/
def read (bytes : ByteArray) : Except Failure Json :=
  if bytes.isEmpty then .ok .null
  else match (Text.Encoding.ofBytes bytes.toList).decode? bytes with
    | none => .error .unreadable
    | some cs =>
      match Json.read (String.ofList cs) with
      | .ok v => .ok v
      | .error .malformed => .error .malformed
      | .error _ => .error .unreadable

/-- The place of a body. -/
def place : List Json := [.string "body"]

/-- The fields of a body. -/
def fields : Json → Checked (Fields Json)
  | .object fields => .ok fields
  | .null => .error [⟨.missing, place, .null⟩]
  | v => .error [⟨.noFields, place, v⟩]

/-! ## Kinds of fields -/

/-- A text. -/
def text (place : List Json) : Json → Checked String
  | .string s => .ok s
  | v => .error [⟨.noText, place, v⟩]

/-- A whole number. -/
def whole (place : List Json) (v : Json) : Checked Int :=
  v.whole.mapError fun e => [⟨.noWhole e, place, v⟩]

/-- A list. -/
def list (place : List Json) : Json → Checked (List Json)
  | .array items => .ok items
  | v => .error [⟨.noList, place, v⟩]

/-- A list of lists. -/
def rows (place : List Json) (v : Json) : Checked (List (List Json)) := do
  let items ← list place v
  Checked.all ((List.range items.length).zipWith (fun i v => list (place ++ [.int i]) v) items)

/-! ## Fields -/

/-- A field that has to be there. -/
def required {α : Type} (key : String) (read : List Json → Json → Checked α)
    (fields : Fields Json) : Checked α :=
  match Fields.get? key fields with
  | some v => read (place ++ [.string key]) v
  | none => .error [⟨.missing, place ++ [.string key], .object fields⟩]

/-- A field that has a value without being there. -/
def optional {α : Type} (key : String) (default : α) (read : List Json → Json → Checked α)
    (fields : Fields Json) : Checked α :=
  match Fields.get? key fields with
  | some v => read (place ++ [.string key]) v
  | none => .ok default

end Spreadsheet.Web.Body
