import Spreadsheet.Text.Hex
import Spreadsheet.Text.Units
import Spreadsheet.Yaml.Failure
import Spreadsheet.Yaml.Gap

/-!
# Quoted scalars

Between single quotes every character stands for itself and a quote is written twice. Between
double quotes a backslash starts an escape: a letter, a code point, or the end of a line that means
nothing. Either goes on over lines, up to a mark between documents.

* `Escape`, `escape`: what a backslash starts;
* `quoted`: a scalar behind its opening quote, with how wide it is.
-/

namespace Spreadsheet.Yaml

/-- The letters of escapes and what they stand for. -/
def escapes : List (Char × Char) :=
  [('0', '\x00'), ('a', '\x07'), ('b', '\x08'), ('t', '\t'), ('\t', '\t'), ('n', '\n'),
    ('v', '\x0B'), ('f', '\x0C'), ('r', '\r'), ('e', '\x1B'), (' ', ' '), ('"', '"'), ('\\', '\\'),
    ('/', '/'), ('N', '\u0085'), ('_', '\u00A0'), ('L', '\u2028'), ('P', '\u2029')]

/-- The letters of escapes by code point and how many digits follow them. -/
def codeEscapes : List (Char × Nat) := [('x', 2), ('u', 4), ('U', 8)]

/-- What a backslash starts, with how many characters there are behind it. -/
inductive Escape where
  | char (c : Char) (width : Nat)
  | lineEnd

/-- The character of a code point. -/
def ofCode (code : Nat) : Except Failure Char :=
  if code < 0x110000 then .ok (Text.ofUnit code)
  else .error (if code < 0x80000000 then .noCharacter else .farCharacter)

/-- What stands behind a backslash. -/
def escape : List Char → Except Failure Escape
  | [] => .error .malformed
  | c :: cs =>
    match escapes.lookup c, codeEscapes.lookup c with
    | some d, _ => .ok (.char d 1)
    | none, some digits =>
      if (cs.take digits).length < digits then .error .malformed
      else match Text.ofHex? (cs.take digits) with
        | some code => (ofCode code).map (.char · (digits + 1))
        | none => .error .malformed
    | none, none => if isBreak c then .ok .lineEnd else .error .malformed

/-- A scalar behind its opening quote, given its text so far, the last character first, and its
width so far: its whole text and width, the closing quote included. -/
def quotedFrom (double : Bool) (text : List Char) (width : Nat) (gap : Gap) :
    List Char → Except Failure (List Char × Nat)
  | [] => .error .malformed
  | c :: cs =>
    if isSpace c then quotedFrom double text (width + 1) (gap.space c) cs
    else if isBreak c then
      if startsDocument cs then .error .malformed
      else quotedFrom double text (width + 1) (gap.lineEnd c) cs
    else
      let text := gap.fill text
      if double && c == '\\' then
        match escape cs with
        | .error e => .error e
        | .ok (.char d n) => quotedFrom double (d :: text) (width + 1 + n) .none (cs.drop n)
        | .ok .lineEnd =>
          if startsDocument (cs.drop 1) then .error .malformed
          else quotedFrom double text (width + 2) (.lines none []) (cs.drop 1)
      else if c != (if double then '"' else '\'') then
        quotedFrom double (c :: text) (width + 1) .none cs
      else if !double && cs.head? == some '\'' then
        quotedFrom double (c :: text) (width + 2) .none (cs.drop 1)
      else .ok (text.reverse, width + 1)
termination_by cs => cs.length
decreasing_by all_goals simp only [List.length_cons, List.length_drop]; omega

/-- A scalar behind its opening quote, with its width. -/
def quoted (double : Bool) (cs : List Char) : Except Failure (String × Nat) :=
  (quotedFrom double [] 0 .none cs).map fun (text, width) => (String.ofList text, width)

/-! ## Examples -/

example : (quoted false "it''s' x".toList).toOption = some ("it's", 6) := by decide +kernel
example : (quoted true "\\x41\n b\"".toList).toOption = some ("A b", 8) := by decide +kernel

end Spreadsheet.Yaml
