import Spreadsheet.Decimal.Numeral
import Spreadsheet.Json.Basic
import Spreadsheet.Text.Units

/-!
# Tokens of JSON texts

A JSON text is cut into brackets, commas, colons, strings, numbers and literal names, with spaces,
tabs and line ends between them. Infinities and the value that is no number have names as well.

* `Json.Failure`: why a text is no JSON;
* `Token`, `lex`: the tokens up to the end of the text or the first place where none starts.
-/

namespace Spreadsheet.Json

/-- Why a text is not read as JSON. -/
inductive Failure where
  /-- It does not have the form of JSON. -/
  | malformed
  /-- Its values are nested too deeply. -/
  | tooDeep
  /-- An integer in it has too many digits. -/
  | tooLong (e : Decimal.TooLong)
  deriving DecidableEq, Repr

/-- A token of a JSON text. -/
inductive Token where
  | openArray
  | closeArray
  | openObject
  | closeObject
  | comma
  | colon
  | string (s : String)
  | scalar (v : Json)

/-! ## Strings -/

/-- The character after a backslash, and what it stands for. -/
def escapes : List (Char × Char) :=
  [('"', '"'), ('\\', '\\'), ('/', '/'), ('b', '\x08'), ('f', '\x0C'), ('n', '\n'), ('r', '\r'),
    ('t', '\t')]

/-- The units of a string after its opening quote, and the text after its closing one. -/
def takeUnits : List Char → Option (List Nat × List Char)
  | [] => none
  | '"' :: rest => some ([], rest)
  | '\\' :: 'u' :: a :: b :: c :: d :: rest => do
    let u ← Text.ofHex? [a, b, c, d]
    let (us, rest) ← takeUnits rest
    return (u :: us, rest)
  | '\\' :: c :: rest => do
    let c ← escapes.lookup c
    let (us, rest) ← takeUnits rest
    return (c.toNat :: us, rest)
  | c :: rest =>
    if c.toNat < 0x20 || c == '\\' then none
    else do
      let (us, rest) ← takeUnits rest
      return (c.toNat :: us, rest)

theorem length_of_takeUnits {cs : List Char} {us : List Nat} {rest : List Char}
    (h : takeUnits cs = some (us, rest)) : rest.length < cs.length := by
  fun_induction takeUnits cs generalizing us rest with
  | case1 => simp at h
  | case2 => simp_all
  | case3 a b c d r ih =>
    simp only [bind, Option.bind_eq_some_iff, pure, Option.some.injEq, Prod.mk.injEq,
      Prod.exists] at h
    obtain ⟨_, _, us, t, ht, _, rfl⟩ := h
    have := ih ht
    simp only [List.length_cons]
    omega
  | case4 c r _ ih =>
    simp only [bind, Option.bind_eq_some_iff, pure, Option.some.injEq, Prod.mk.injEq,
      Prod.exists] at h
    obtain ⟨_, _, us, t, ht, _, rfl⟩ := h
    have := ih ht
    simp only [List.length_cons]
    omega
  | case5 => simp at h
  | case6 =>
    rename_i ih
    simp only [bind, Option.bind_eq_some_iff, pure, Option.some.injEq, Prod.mk.injEq,
      Prod.exists] at h
    obtain ⟨us, t, ht, _, rfl⟩ := h
    have := ih ht
    simp only [List.length_cons]
    omega

/-! ## Numbers -/

/-- A number as it is written. -/
structure NumberText where
  negative : Bool
  whole : List Char
  /-- The digits after the point; with none there is no point. -/
  fraction : List Char
  /-- The letter, sign and digits of the exponent. -/
  exponent : List Char

/-- The digits after a point that a text starts with, if there are any. -/
def takeFraction : List Char → List Char
  | '.' :: cs => cs.takeWhile Char.isDigit
  | _ => []

/-- The exponent that a text starts with, if there is one. -/
def takeExponent : List Char → List Char
  | e :: cs =>
    let sign := match cs with
      | '+' :: _ => ['+']
      | '-' :: _ => ['-']
      | _ => []
    let digits := (cs.drop sign.length).takeWhile Char.isDigit
    if (e == 'e' || e == 'E') && !digits.isEmpty then e :: sign ++ digits else []
  | [] => []

/-- The number that a text starts with; no zeros stand before other digits. -/
def NumberText.take? (cs : List Char) : Option NumberText :=
  let negative := cs.head? == some '-'
  let cs := if negative then cs.drop 1 else cs
  let whole := if cs.head? == some '0' then ['0'] else cs.takeWhile Char.isDigit
  let cs := cs.drop whole.length
  let fraction := takeFraction cs
  let cs := cs.drop (if fraction.isEmpty then 0 else fraction.length + 1)
  if whole.isEmpty then none else some ⟨negative, whole, fraction, takeExponent cs⟩

/-- How many characters a number has. -/
def NumberText.width (n : NumberText) : Nat :=
  (if n.negative then 1 else 0) + n.whole.length
    + (if n.fraction.isEmpty then 0 else n.fraction.length + 1) + n.exponent.length

/-- The value of a number: whole if it has neither point nor exponent. -/
def NumberText.value (n : NumberText) : Except Decimal.TooLong Json :=
  if n.fraction.isEmpty && n.exponent.isEmpty then do
    let m ← Decimal.readNat n.whole
    return .int (if n.negative then -(m : Int) else m)
  else
    let x := Decimal.ofParts n.whole n.fraction ((Decimal.readExponent? n.exponent).getD 0)
    .ok (.float (if n.negative then -x else x))

/-! ## Cutting a text -/

/-- The token of a punctuation character. -/
def punctuation? : Char → Option Token
  | '[' => some .openArray
  | ']' => some .closeArray
  | '\x7b' => some .openObject
  | '\x7d' => some .closeObject
  | ',' => some .comma
  | ':' => some .colon
  | _ => none

/-- The values that have names. -/
def names : List (List Char × Json) :=
  [("null".toList, .null), ("true".toList, .bool true), ("false".toList, .bool false),
    ("NaN".toList, .float (0.0 / 0.0)), ("Infinity".toList, .float (1.0 / 0.0)),
    ("-Infinity".toList, .float (-1.0 / 0.0))]

/-- The named value that a text starts with, with its name. -/
def takeName? (cs : List Char) : Option (List Char × Json) := names.find? (·.1.isPrefixOf cs)

/-- A character that is skipped between tokens. -/
def isSkipped (c : Char) : Bool := c == ' ' || c == '\t' || c == '\n' || c == '\r'

/-- The token that a text starts with, and the number of characters it has beyond the first. -/
def takeToken (c : Char) (cs : List Char) : Except Failure (Token × List Char) :=
  match punctuation? c with
  | some t => .ok (t, cs)
  | none =>
    if c == '"' then
      match takeUnits cs with
      | some (us, rest) => .ok (.string (String.ofList (Text.ofUnits us)), rest)
      | none => .error .malformed
    else match takeName? (c :: cs) with
      | some (name, v) => .ok (.scalar v, cs.drop (name.length - 1))
      | none =>
        match NumberText.take? (c :: cs) with
        | none => .error .malformed
        | some n =>
          match n.value with
          | .ok v => .ok (.scalar v, cs.drop (n.width - 1))
          | .error e => .error (.tooLong e)

theorem length_of_takeToken {c : Char} {cs : List Char} {t : Token} {rest : List Char}
    (h : takeToken c cs = .ok (t, rest)) : rest.length ≤ cs.length := by
  unfold takeToken at h
  split at h
  · simp_all
  · split at h
    · split at h
      · next e =>
        have := length_of_takeUnits e
        simp only [Except.ok.injEq, Prod.mk.injEq] at h
        rw [← h.2]
        omega
      · simp at h
    · split at h
      · simp only [Except.ok.injEq, Prod.mk.injEq] at h
        simp [← h.2]
      · split at h
        · simp at h
        · split at h
          · simp only [Except.ok.injEq, Prod.mk.injEq] at h
            simp [← h.2]
          · simp at h

/-- The tokens of a text up to its end, or up to a failure. -/
def lex : List Char → List Token × Option Failure
  | [] => ([], none)
  | c :: cs =>
    if isSkipped c then lex cs
    else match _h : takeToken c cs with
      | .error f => ([], some f)
      | .ok (t, rest) =>
        let (ts, f) := lex rest
        (t :: ts, f)
termination_by cs => cs.length
decreasing_by
  · simp
  · have := length_of_takeToken _h
    simp only [List.length_cons]
    omega

end Spreadsheet.Json
