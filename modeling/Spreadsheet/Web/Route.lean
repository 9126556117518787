/-!
# Addresses of the editor on the web

Every operation of the editor has an address and is asked for with one method.

* `Route`, `Route.path`, `Route.method`; `Route.ofPath?`: the route at an address.
-/

namespace Spreadsheet.Web

/-- What can be asked for. -/
inductive Route where
  | index
  | sheet
  | edit
  | focus
  | blur
  | rows
  | cols
  | resize
  | load
  | reset
  | copy
  | cut
  | paste
  | validate
  | shift
  | functions
  | events
  deriving DecidableEq, Repr

namespace Route

/-- Every route. -/
def all : List Route :=
  [index, sheet, edit, focus, blur, rows, cols, resize, load, reset, copy, cut, paste, validate,
    shift, functions, events]

/-- The address of a route. -/
def path : Route → String
  | index => "/"
  | sheet => "/api/sheet"
  | edit => "/api/sheet/edit"
  | focus => "/api/sheet/focus"
  | blur => "/api/sheet/blur"
  | rows => "/api/sheet/rows"
  | cols => "/api/sheet/cols"
  | resize => "/api/sheet/resize"
  | load => "/api/sheet/load"
  | reset => "/api/sheet/reset"
  | copy => "/api/clipboard/copy"
  | cut => "/api/clipboard/cut"
  | paste => "/api/clipboard/paste"
  | validate => "/api/formula/validate"
  | shift => "/api/formula/shift"
  | functions => "/api/formula/functions"
  | events => "/api/events"

/-- The method of a route: what only looks is got, everything else is posted. -/
def method : Route → String
  | index | sheet | functions | events => "GET"
  | _ => "POST"

/-- The route at an address. -/
def ofPath? (path : String) : Option Route := all.find? (·.path == path)

theorem ofPath?_path (r : Route) : ofPath? r.path = some r := by cases r <;> rfl

end Route

end Spreadsheet.Web
