import Spreadsheet.Text.Hex
import Spreadsheet.Text.Units

/-!
# Texts that cannot be written

Every character has its bytes in UTF-8, and a half of a pair on its own has none. A text with one is
refused where it is to be written, or else the half is written by its code point.

* `unwritable?`: the first halves in a text; `Unwritable.message`;
* `nameHalves`: a text with its halves written by their code points.
-/

namespace Spreadsheet.Text

/-- Halves next to each other in a text. -/
structure Unwritable where
  /-- The first of them. -/
  half : Nat
  /-- Its position. -/
  start : Nat
  /-- How many there are. -/
  count : Nat
  deriving DecidableEq, Repr

/-- A half by its code point. -/
def nameHalf (u : Nat) : List Char := '\\' :: 'u' :: hex 4 u

/-- The wording of a refusal. -/
def Unwritable.message (e : Unwritable) : String :=
  let halves := if e.count ≤ 1 then
      " '" ++ String.ofList (nameHalf e.half) ++ "' in position " ++ toString e.start
    else "s in position " ++ toString e.start ++ "-" ++ toString (e.start + e.count - 1)
  "'utf-8' codec can't encode character" ++ halves ++ ": surrogates not allowed"

/-- The first halves in characters, the first of which is at a position. -/
def unwritableFrom? (position : Nat) : List Char → Option Unwritable
  | [] => none
  | c :: cs =>
    match half? c with
    | some u => some ⟨u, position, 1 + (cs.takeWhile fun c => (half? c).isSome).length⟩
    | none => unwritableFrom? (position + 1) cs

/-- The first halves in a text. -/
def unwritable? (s : String) : Option Unwritable := unwritableFrom? 0 s.toList

/-- A text with its halves written by their code points. -/
def nameHalves (s : String) : String :=
  String.ofList (s.toList.flatMap fun c => ((half? c).map nameHalf).getD [c])

end Spreadsheet.Text
