import Spreadsheet.Fields

/-!
# Paths

A path is a list of names between slashes, from the root if a slash stands in front. Repeated
slashes and names that are a single point mean nothing; two points are kept. A tilde in front stands
for the directory of the user whose name is behind it.

* `Path.normalize`: the plain form of a path; `Path.join`: one path below another.
* `Path.parent`, `Path.isAbsolute`; `Path.ancestors`: all paths above a path;
* `Path.expand?`: a path with the directory of a user in place of the tilde.
-/

namespace Spreadsheet.Path

/-- The path starts at the root. -/
def isAbsolute (path : String) : Bool := path.startsWith "/"

/-- What stands for the root: one slash, or two if there are exactly two. -/
def root (path : String) : String :=
  match (path.toList.takeWhile (· == '/')).length with
  | 0 => ""
  | 2 => "//"
  | _ => "/"

/-- The names of a path. -/
def names (path : String) : List String :=
  ((path.toList.splitOn '/').map String.ofList).filter fun name => name != "" && name != "."

/-- The plain form of a root and names. -/
def ofNames (root : String) (names : List String) : String :=
  if root = "" ∧ names = [] then "." else root ++ "/".intercalate names

/-- The plain form of a path. -/
def normalize (path : String) : String := ofNames (root path) (names path)

/-- A path below another one, unless it starts at the root itself. -/
def join (parent path : String) : String :=
  if isAbsolute path then normalize path else ofNames (root parent) (names parent ++ names path)

/-- The path above the last name. -/
def parent (path : String) : String := ofNames (root path) (names path).dropLast

/-- The paths above a path, the longest last. -/
def ancestors (path : String) : List String :=
  ((List.range (names path).length).drop 1).map fun n => ofNames (root path) ((names path).take n)

/-- A path with the directory of a user in place of a tilde and the user's name; none if there is no
such user. The user who asks has the empty name. -/
def expand? (homes : Fields String) (path : String) : Option String :=
  match root path, names path with
  | "", first :: rest =>
    match first.toList with
    | '~' :: user =>
      (Fields.get? (String.ofList user) homes).map fun home =>
        ofNames (root home) (names home ++ rest)
    | _ => some path
  | _, _ => some path

end Spreadsheet.Path
