/-!
# How commands are used

Every command has options, which may stand anywhere among its arguments, and at most one argument
of its own. All this is told on request; no line of that is wider than a page.

* `Usage`; `Usage.all`: all commands; `Usage.ofName?`: the command of a name;
* `Usage.text`, `Usage.overview`: what is told about a command, and about all of them.
-/

namespace Spreadsheet.CommandLine

/-- An option of a command. -/
structure OptionUsage where
  name : String
  /-- What its value is, if it takes one. -/
  value? : Option String := none
  about : String

/-- An option with what its value is. -/
def OptionUsage.row (o : OptionUsage) : String × String :=
  (o.name ++ (o.value?.map (" " ++ ·)).getD "", o.about)

/-- How a command is used. -/
structure Usage where
  name : String
  argument? : Option String := none
  /-- What the command does. -/
  about : String
  options : List OptionUsage := []

namespace Usage

/-- The option that asks how a command is used. -/
def help : OptionUsage := { name := "--help", about := "Show this message and exit." }

/-- The option that asks for the version. -/
def version : OptionUsage := { name := "--version", about := "Show the version and exit." }

/-- The value of a formula. -/
def eval : Usage where
  name := "eval"
  argument? := some "FORMULA"
  about := "Evaluate FORMULA (with or without the leading '=') and print the result."
  options := [⟨"--grid", some "PATH", "YAML grid the formula may reference."⟩]

/-- The events of the log. -/
def events : Usage where
  name := "events"
  about := "Show the structured event log."
  options := [⟨"--config", some "PATH", "Config file or directory."⟩,
    ⟨"--level", some "[info|warning|error]", "Filter by level."⟩,
    ⟨"--type", some "TEXT", "Filter by event type."⟩,
    ⟨"--limit", some "INTEGER", "Maximum events to show."⟩,
    ⟨"--json", none, "Output raw JSON lines."⟩]

/-- The names of the functions. -/
def functions : Usage where
  name := "functions"
  about := "List the available formula functions."

/-- The editor on the web. -/
def serve : Usage where
  name := "serve"
  about := "Serve the editor API."
  options := [⟨"--config", some "PATH", "Config file or directory."⟩,
    ⟨"--host", some "TEXT", "Host to bind to."⟩,
    ⟨"--port", some "INTEGER", "Port (auto-select if omitted)."⟩,
    ⟨"--no-open", none, "Don't auto-open browser."⟩]

/-- A formula that is moved. -/
def shift : Usage where
  name := "shift"
  argument? := some "BODY"
  about := "Print BODY with relative references moved by the given offsets."
  options := [⟨"--rows", some "INTEGER", "Row offset."⟩,
    ⟨"--cols", some "INTEGER", "Column offset."⟩]

/-- A grid with its values. -/
def print : Usage where
  name := "show"
  argument? := some "GRID_FILE"
  about := "Print the evaluated GRID_FILE as tab-separated rows."
  options := [⟨"--errors", none, "List cells whose formula failed."⟩]

/-- All commands, sorted by name. -/
def all : List Usage := [eval, events, functions, serve, shift, print]

/-- The command of a name. -/
def ofName? (name : String) : Option Usage := all.find? (·.name == name)

theorem ofName?_name {u : Usage} (h : u ∈ all) : (ofName? u.name).map (·.name) = some u.name := by
  simp only [all, List.mem_cons, List.not_mem_nil, or_false] at h
  rcases h with rfl | rfl | rfl | rfl | rfl | rfl <;> rfl

/-! ## What is told -/

/-- The name of the program where it tells how it is used. -/
def program : String := "main"

/-- How wide a page is. -/
def pageWidth : Nat := 78

/-- A text filled up with spaces. -/
def padRight (width : Nat) (s : String) : String :=
  s ++ String.ofList (List.replicate (width - s.length) ' ')

/-- Two columns. -/
def columns (rows : List (String × String)) : String :=
  let width := (rows.map (·.1.length)).foldl max 0 + 2
  String.join (rows.map fun (a, b) => "  " ++ padRight width a ++ b ++ "\n")

/-- A text under a title. -/
def titled (title text : String) : String := "\n" ++ title ++ ":\n" ++ text

/-- What is told about a command. -/
def text (u : Usage) : String :=
  "Usage: " ++ program ++ " " ++ u.name ++ " [OPTIONS]"
    ++ (u.argument?.map (" " ++ ·)).getD "" ++ "\n\n  " ++ u.about ++ "\n"
    ++ titled "Options" (columns ((u.options ++ [help]).map (·.row)))

/-- As many words as there is room for. -/
def fitting (room : Nat) : List String → List String
  | [] => []
  | w :: ws => if w.length ≤ room then w :: fitting (room - w.length - 1) ws else []

/-- A text cut between two words to a width. -/
def shortened (width : Nat) (s : String) : String :=
  if s.length ≤ width then s
  else " ".intercalate (fitting (width - 3) (s.splitOn " ")) ++ "..."

/-- What is told about all commands. -/
def overview : String :=
  let width := pageWidth - 6 - (all.map (·.name.length)).foldl max 0
  "Usage: " ++ program ++ " [OPTIONS] COMMAND [ARGS]...\n\n"
    ++ "  minisheet -- spreadsheet formula engine with a browser editor API.\n"
    ++ titled "Options" (columns ([version, help].map (·.row)))
    ++ titled "Commands" (columns (all.map fun u => (u.name, shortened width u.about)))

end Usage

end Spreadsheet.CommandLine
