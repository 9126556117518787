import Spreadsheet.CommandLine.Usage
import Spreadsheet.Decimal.Lenient
import Spreadsheet.Formula.Shift
import Spreadsheet.Journal.Event

/-!
# Commands

What can be asked for on the command line: the value of a formula, a shifted formula, an evaluated
grid, the names of the functions, the events of the log, the editor on the web, and how all of these
are used. Options stand anywhere among the arguments of a command; an argument of two dashes ends
them. In front of the command there are options as well, of which the first one counts.

* `Command`; `Command.parse?`: the command that arguments write.
-/

namespace Spreadsheet

/-- A command. -/
inductive Command where
  | version
  /-- How a command is used, or all of them. -/
  | help (usage? : Option CommandLine.Usage)
  | eval (formula : String) (grid? : Option String)
  | shift (body : String) (offset : Offset)
  | print (path : String) (errors : Bool)
  | functions
  | events (config? : Option String) (level? : Option Journal.Level) (type : String)
      (limit : Int) (json : Bool)
  | serve (config? : Option String)

namespace Command

open CommandLine (Usage)

/-- The path among the arguments of a command that has to lead to something. -/
def path? : Command → Option String
  | .eval _ grid? => grid?
  | .print path _ => some path
  | .events config? .. | .serve config? => config?
  | _ => none

/-! ## Options -/

/-- The options and the other arguments of a command. -/
structure Arguments where
  options : List (String × String)
  positional : List String

/-- Whether an argument is an option: a dash with something behind it. -/
def isOption (arg : String) : Bool := arg.startsWith "-" && arg.length > 1

/-- Sort arguments into options and others. Of the options the first list takes values and the
second takes none. -/
def sort (valued flags : List String) : List String → Option Arguments
  | [] => some ⟨[], []⟩
  | "--" :: rest => some ⟨[], rest⟩
  | arg :: rest =>
    let name := String.ofList (arg.toList.takeWhile (· != '='))
    if !isOption arg then
      (sort valued flags rest).map fun a => { a with positional := arg :: a.positional }
    else if name != arg then
      if valued.contains name then
        let value := String.ofList (arg.toList.drop (name.length + 1))
        (sort valued flags rest).map fun a => { a with options := (name, value) :: a.options }
      else none
    else if flags.contains arg then
      (sort valued flags rest).map fun a => { a with options := (arg, "") :: a.options }
    else if valued.contains arg then
      match rest with
      | value :: rest =>
        (sort valued flags rest).map fun a => { a with options := (arg, value) :: a.options }
      | [] => none
    else none

/-- The arguments of a command, sorted by its options. -/
def arguments? (u : Usage) (args : List String) : Option Arguments :=
  let (valued, flags) := (u.options ++ [Usage.help]).partition (·.value?.isSome)
  sort (valued.map (·.name)) (flags.map (·.name)) args

/-- The last value of an option. -/
def Arguments.get? (a : Arguments) (name : String) : Option String := a.options.reverse.lookup name

/-- The last value of an option as a number. -/
def Arguments.int? (a : Arguments) (name : String) (default : Int) : Option Int :=
  match a.get? name with
  | none => some default
  | some v => (Decimal.Lenient.readInt v).toOption

/-- An option is among the arguments. -/
def Arguments.has (a : Arguments) (name : String) : Bool := (a.get? name).isSome

/-- There is no argument that is no option. -/
def Arguments.none? (a : Arguments) : Option Unit := if a.positional.isEmpty then some () else none

/-- The only argument that is no option. -/
def Arguments.one? (a : Arguments) : Option String :=
  match a.positional with
  | [arg] => some arg
  | _ => none

/-! ## Commands -/

/-- The command of a name with its arguments. -/
def ofArguments? (name : String) (a : Arguments) : Option Command := do
  match name with
  | "eval" => return .eval (← a.one?) (a.get? "--grid")
  | "shift" => return .shift (← a.one?) ⟨← a.int? "--rows" 0, ← a.int? "--cols" 0⟩
  | "show" => return .print (← a.one?) (a.has "--errors")
  | "functions" =>
    a.none?
    return .functions
  | "events" =>
    a.none?
    let level? ← match a.get? "--level" with
      | none => some none
      | some s => (Journal.Level.ofText? s).map some
    return .events (a.get? "--config") level? ((a.get? "--type").getD "") (← a.int? "--limit" 100)
      (a.has "--json")
  | "serve" =>
    a.none?
    let _ ← a.int? "--port" 0
    return .serve (a.get? "--config")
  | _ => none

/-- The command of a usage with its arguments; one that asks how it is used needs no others. -/
def ofUsage? (u : Usage) (args : List String) : Option Command := do
  let a ← arguments? u args
  if a.has Usage.help.name then return .help (some u) else ofArguments? u.name a

/-- What the first of the options in front of a command asks for, with what is behind them; none if
one of them is unknown. -/
def leading? : List String → Option (Option Command × List String)
  | [] => some (none, [])
  | "--" :: rest => some (none, rest)
  | arg :: rest =>
    if !isOption arg then some (none, arg :: rest)
    else do
      let asked ← if arg = Usage.version.name then some .version
        else if arg = Usage.help.name then some (.help none) else none
      let (_, rest) ← leading? rest
      return (some asked, rest)

/-- The command that arguments write; none if they write none. Behind two dashes there may be
options again in place of a command. -/
def parse? (args : List String) : Option Command := do
  match ← leading? args with
  | (some c, _) => return c
  | (none, []) => none
  | (none, name :: args) =>
    match Usage.ofName? name with
    | some u => ofUsage? u args
    | none => (← leading? (name :: args)).1

end Command

end Spreadsheet
