import Spreadsheet.CommandLine.Run

/-!
# The program

The command line on the files of the system.
-/

open Spreadsheet

/-- The files of the system, given the user's directory. What is there but cannot be read is a
directory. -/
def systemFiles (home? : Option String) : Files IO where
  isDirectory path := do
    try
      let _ ← IO.FS.readBinFile path
      return false
    catch e =>
      match e with
      | .noFileOrDirectory .. => return false
      | _ => return true
  read? path := do
    try return some (← IO.FS.readBinFile path).toList
    catch _ => return none
  homes := (home?.map fun home => ("", home)).toList

/-- Run the arguments, write what is to be written, and end with the code of the outcome. -/
def main (args : List String) : IO UInt32 := do
  match ← CommandLine.run (systemFiles (← IO.getEnv "HOME")) args with
  | .ended code out err =>
    IO.print out
    IO.eprint err
    return code.toUInt32
  | .misused =>
    IO.eprintln "Usage: minisheet eval|shift|show|functions|events [OPTIONS] [ARGS]..."
    return 2
  | .failed e =>
    IO.eprintln e.message
    return 1
