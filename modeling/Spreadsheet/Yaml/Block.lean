import Spreadsheet.Yaml.Position

/-!
# Block scalars

A scalar behind a bar or an angle bracket is the lines below it, as far as they are indented. Behind
a bar the ends of its lines are kept; behind an angle bracket the end of a line is a space, unless
the line or the next one starts with a space. A sign in the header says whether the ends of the last
lines are kept.

* `Header`, `header?`: what stands behind the bar;
* `block?`: a scalar behind its bar, with how wide it is.
-/

namespace Spreadsheet.Yaml

/-- What is to be done with the ends of the last lines. -/
inductive Chomping where
  | strip
  | clip
  | keep
  deriving DecidableEq, Repr

/-- The header of a block scalar. -/
structure Header where
  chomping : Chomping := .clip
  /-- How much further than its surroundings the scalar is indented, if that is given. -/
  indent? : Option Nat := none
  deriving DecidableEq, Repr

/-- A sign of a header. -/
def chomping? : Char → Option Chomping
  | '+' => some .keep
  | '-' => some .strip
  | _ => none

/-- The indentation that a digit of a header gives; none for a zero. -/
def indentOf? (c : Char) : Option Nat :=
  if c.isDigit && c != '0' then some (c.toNat - 48) else none

/-- The sign and the digit of a header, in any order, with how many characters they are. -/
def marks? (cs : List Char) : Option (Header × Nat) :=
  match cs with
  | [] => some ({}, 0)
  | c :: cs =>
    match chomping? c with
    | some chomping =>
      match cs with
      | d :: _ => if d.isDigit then (indentOf? d).map fun n => (⟨chomping, some n⟩, 2)
        else some (⟨chomping, none⟩, 1)
      | [] => some (⟨chomping, none⟩, 1)
    | none =>
      if c.isDigit then
        (indentOf? c).map fun n =>
          match cs.head?.bind chomping? with
          | some chomping => (⟨chomping, some n⟩, 2)
          | none => (⟨.clip, some n⟩, 1)
      else some ({}, 0)

/-- A header up to the end of its line, with its width. -/
def header? (cs : List Char) : Option (Header × Nat) := do
  let (header, width) ← marks? cs
  let cs := cs.drop width
  match cs with
  | c :: _ => if c == ' ' || isBreak c then pure () else none
  | [] => pure ()
  let spaces := (cs.takeWhile (· == ' ')).length
  let cs := cs.drop spaces
  let comment := if cs.head? == some '#' then (cs.takeWhile (!isBreak ·)).length else 0
  match cs.drop comment with
  | [] => return (header, width + spaces + comment)
  | c :: _ => if isBreak c then return (header, width + spaces + comment + 1) else none

/-! ## Lines -/

/-- Where the reading of a block scalar stands. -/
structure Below where
  /-- The ends of empty lines so far, the last one first. -/
  breaks : List Char := []
  column : Nat := 0
  width : Nat := 0
  rest : List Char

/-- Empty lines and the spaces of the line behind them, up to an indentation. -/
def Below.skip (indent : Nat) (breaks : List Char) (column width : Nat) : List Char → Below
  | [] => ⟨breaks, column, width, []⟩
  | c :: cs =>
    if c == ' ' && column < indent then skip indent breaks (column + 1) (width + 1) cs
    else if isBreak c then skip indent (breakText c :: breaks) 0 (width + 1) cs
    else ⟨breaks, column, width, c :: cs⟩

/-- Empty lines and the spaces of the line behind them, with the greatest number of spaces. -/
def Below.find (most : Nat) (breaks : List Char) (column width : Nat) :
    List Char → Nat × Below
  | [] => (most, ⟨breaks, column, width, []⟩)
  | c :: cs =>
    if c == ' ' then find (max most (column + 1)) breaks (column + 1) (width + 1) cs
    else if isBreak c then find most (breakText c :: breaks) 0 (width + 1) cs
    else (most, ⟨breaks, column, width, c :: cs⟩)

/-- The first line with something on it, and how far the scalar is indented there. -/
def Below.first (parent : Int) (indent? : Option Nat) (cs : List Char) : Nat × Below :=
  let least := max 1 (parent + 1).toNat
  match indent? with
  | some n => (least + n - 1, .skip (least + n - 1) [] 0 0 cs)
  | none =>
    let (most, below) := Below.find 0 [] 0 0 cs
    (max least most, below)

/-- The text starts with a space. -/
def startsSpace (cs : List Char) : Bool := cs.head?.any isSpace

/-- The lines of a block scalar behind a text, the last character first, with its width. -/
def blockFrom (folded : Bool) (chomping : Chomping) (indent : Nat) :
    (fuel : Nat) → (text : List Char) → Below → List Char × Nat
  | 0, text, below => (text.reverse, below.width)
  | fuel + 1, text, below =>
    let line := below.rest.takeWhile (!isBreak ·)
    let text := line.reverse ++ (below.breaks ++ text)
    match below.rest.drop line.length with
    | [] => (text.reverse, below.width + line.length)
    | c :: cs =>
      let next := Below.skip indent [] 0 (below.width + line.length + 1) cs
      if next.column = indent ∧ !next.rest.isEmpty then
        let isFolded := folded && breakText c == '\n' && !startsSpace line
          && !startsSpace next.rest
        let text := if !isFolded then breakText c :: text
          else if next.breaks.isEmpty then ' ' :: text else text
        blockFrom folded chomping indent fuel text next
      else
        let text := match chomping with
          | .strip => text
          | .clip => breakText c :: text
          | .keep => next.breaks ++ breakText c :: text
        (text.reverse, next.width)

/-- A block scalar behind its bar, with its width, if its header is one. It is indented further than
its surroundings. -/
def block? (folded : Bool) (parent : Int) (cs : List Char) : Option (String × Nat) := do
  let (header, width) ← header? cs
  let (indent, below) := Below.first parent header.indent? (cs.drop width)
  let (text, inner) :=
    if below.column = indent ∧ !below.rest.isEmpty then
      blockFrom folded header.chomping indent cs.length [] below
    else (if header.chomping = .keep then below.breaks.reverse else [], below.width)
  return (String.ofList text, width + inner)

/-! ## Examples -/

example : block? false 0 "\n  a\n  b\n".toList = some ("a\nb\n", 9) := by decide
example : block? true (-1) "-\n a\n b\n".toList = some ("a b", 8) := by decide

end Spreadsheet.Yaml
