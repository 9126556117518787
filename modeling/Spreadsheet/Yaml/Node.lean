import Spreadsheet.Yaml.Scalar

/-!
# Nodes of YAML

What tokens write, before it is known whether every scalar spells a value: scalars with their kinds,
lists and mappings. A mapping may take over the fields of others; its own fields count more. A list
may stand for pairs, which are mappings of one field there, and a mapping for the set of its keys.
Values are made level by level from the top, and the first failure on the way counts.

* `Node`; `Node.ofEntries`: a mapping with what it takes over;
* `Node.faults`: the failures on each level; `Node.value`: the value, if there are none.
-/

namespace Spreadsheet.Yaml

/-- Whether a list or mapping is one by its tag as well. -/
inductive Fit where
  | fits
  /-- A list stands for pairs, a mapping for the set of its keys. -/
  | standsFor
  /-- It is told to be the other of the two, or what it is to take over is no mapping. -/
  | misfit
  /-- It is told to be something that no list or mapping is. -/
  | unknown
  deriving DecidableEq, Repr

/-- What tokens write. -/
inductive Node where
  | scalar (kind : Kind) (text : String)
  | list (fit : Fit) (items : List Node)
  | map (fit : Fit) (entries : List (Node × Node))

namespace Node

/-- What is not there. -/
def empty : Node := scalar .nothing ""

/-! ## Mappings -/

/-- The fields that are taken over from a mapping, or from several, the last ones first. -/
def inherited? : Node → Option (List (Node × Node))
  | map fit entries => if fit = .misfit then none else some entries
  | list _ items => do
    let maps ← items.mapM fun
      | map fit entries => if fit = .misfit then none else some entries
      | _ => none
    return maps.reverse.flatten
  | scalar .. => none

/-- The fields that are taken over, and those of a mapping's own, the last ones first. The mark of a
default is a text where it is a key. -/
def sortEntries? (entries : List (Node × Node)) :
    Option (List (Node × Node) × List (Node × Node)) :=
  entries.foldlM (fun (taken, own) (k, v) => match k with
    | scalar .merge _ => v.inherited?.map fun more => (taken ++ more, own)
    | scalar .default s => some (taken, (scalar .text s, v) :: own)
    | k => some (taken, (k, v) :: own)) ([], [])

/-- A mapping: what it takes over stands in front of its own fields. -/
def ofEntries (fit : Fit) (entries : List (Node × Node)) : Node :=
  match sortEntries? entries with
  | some (taken, own) => map fit (taken ++ own.reverse)
  | none => map (if fit = .unknown then fit else .misfit) entries

/-! ## Values -/

/-- The failures at a node itself. -/
def ownFaults : Node → List Failure
  | scalar kind s =>
    match kind.value s with
    | .ok _ => []
    | .error e => [e]
  | list fit _ | map fit _ => if fit = .unknown then [.malformed] else []

/-- The failures of a key; lists and mappings are none. -/
def keyFaults : Node → List Failure
  | scalar .misfit _ | list .. | map .. => [.malformed]
  | k => k.ownFaults

/-- The failures of an item that stands for a pair. -/
def pairFaults : Node → List Failure
  | map _ [(k, v)] => k.ownFaults ++ v.ownFaults
  | _ => [.malformed]

/-- The lists of two lists of lists, joined one by one. -/
def joinLevels {α : Type} : List (List α) → List (List α) → List (List α)
  | [], bs => bs
  | as, [] => as
  | a :: as, b :: bs => (a ++ b) :: joinLevels as bs

mutual

/-- The failures of what is inside a node, level by level. -/
def faults : Node → List (List Failure)
  | scalar .misfit _ | list .misfit _ | map .misfit _ => [[.malformed]]
  | scalar .. | list .unknown _ | map .unknown _ => []
  | list .fits items => items.flatMap ownFaults :: itemFaults items
  | list .standsFor items => items.flatMap pairFaults :: innerFaults items
  | map _ entries =>
    entries.flatMap (fun (k, v) => k.keyFaults ++ v.ownFaults) :: entryFaults entries

/-- The failures of what is inside items, level by level. -/
def itemFaults : List Node → List (List Failure)
  | [] => []
  | n :: rest => joinLevels n.faults (itemFaults rest)

/-- The failures of what is inside items that stand for pairs, level by level. -/
def innerFaults : List Node → List (List Failure)
  | [] => []
  | map _ entries :: rest => joinLevels (entryFaults entries) (innerFaults rest)
  | _ :: rest => innerFaults rest

/-- The failures of what is inside fields, level by level. -/
def entryFaults : List (Node × Node) → List (List Failure)
  | [] => []
  | (k, v) :: rest => joinLevels k.faults (joinLevels v.faults (entryFaults rest))

end

mutual

/-- The value of a node without failures. -/
def toValue : Node → Value
  | scalar kind s => (kind.value s).toOption.getD .null
  | list .standsFor items => .list (pairValues items)
  | list _ items => .list (itemValues items)
  | map .standsFor entries => .set ((entryValues [] entries).map (·.1))
  | map _ entries => .map (entryValues [] entries)

/-- The values of items. -/
def itemValues : List Node → List Value
  | [] => []
  | n :: rest => n.toValue :: itemValues rest

/-- The pairs that items stand for. -/
def pairValues : List Node → List Value
  | [] => []
  | map _ entries :: rest =>
    (entryValues [] entries).map (fun (k, v) => .pair k v) ++ pairValues rest
  | _ :: rest => pairValues rest

/-- The fields of a mapping with more fields put over them. -/
def entryValues (before : List (Value × Value)) : List (Node × Node) → List (Value × Value)
  | [] => before
  | (k, v) :: rest => entryValues (Value.put k.toValue v.toValue before) rest

end

/-- The value of a node, or the first failure on the way to it. -/
def value (n : Node) : Except Failure Value :=
  match n.ownFaults ++ n.faults.flatten with
  | e :: _ => .error e
  | [] => .ok n.toValue

end Node

end Spreadsheet.Yaml
