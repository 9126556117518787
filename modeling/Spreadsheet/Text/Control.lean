/-!
# Control sequences

A terminal is told about colours by control sequences in the text: an escape, a bracket,
parameters, intermediate characters and a final one. In a text that goes to a file or to another
program they are left out.

* `afterSequence?`: the text behind a control sequence; `plain`: a text without any.
-/

namespace Spreadsheet.Text

/-- A parameter of a control sequence. -/
def isParameter (c : Char) : Bool := '0' ≤ c && c ≤ '?'

/-- A character between the parameters and the final one. -/
def isIntermediate (c : Char) : Bool := ' ' ≤ c && c ≤ '/'

/-- A character that ends a control sequence. -/
def isFinal (c : Char) : Bool := '@' ≤ c && c ≤ '~'

/-- What follows the control sequence that a text starts with. -/
def afterSequence? : List Char → Option (List Char)
  | '\x1b' :: '[' :: cs =>
    match (cs.dropWhile isParameter).dropWhile isIntermediate with
    | c :: rest => if isFinal c then some rest else none
    | [] => none
  | _ => none

theorem length_of_afterSequence? {cs rest : List Char} (h : afterSequence? cs = some rest) :
    rest.length < cs.length := by
  unfold afterSequence? at h
  split at h
  · next cs =>
    have hp := (cs.dropWhile_sublist isParameter).length_le
    have hi := ((cs.dropWhile isParameter).dropWhile_sublist isIntermediate).length_le
    split at h
    · next c t he =>
      simp only [Option.ite_none_right_eq_some, Option.some.injEq] at h
      rw [he] at hi
      simp only [List.length_cons] at hi ⊢
      rw [← h.2]
      omega
    · simp at h
  · simp at h

/-- A text without control sequences. -/
def plain (cs : List Char) : List Char :=
  match _h : afterSequence? cs with
  | some rest => plain rest
  | none =>
    match cs with
    | [] => []
    | c :: cs => c :: plain cs
termination_by cs.length
decreasing_by
  · exact length_of_afterSequence? _h
  · simp

example : plain ['\x1b', '[', '1', ';', '3', 'm', 'A', '\x1b', '['] = ['A', '\x1b', '['] := by
  decide +kernel

end Spreadsheet.Text
