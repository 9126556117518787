import Spreadsheet.Text.Hex
import Spreadsheet.Yaml.Position

/-!
# Names, tags and directives

A value may have a name in front of it, under which it can be used again, and a tag, which says
what kind of value it is. Directives in front of a document say how its tags are meant.

* `name?`: a name behind its mark; `tag?`: a tag; `directive?`: a directive; each with its width.
-/

namespace Spreadsheet.Yaml

/-- A character of a name. -/
def isNameChar (c : Char) : Bool := c.isAlphanum || c == '-' || c == '_'

/-- A text that ends or goes on with a space that is no tab, or a new line. -/
def endsWord : List Char → Bool
  | [] => true
  | c :: _ => c == ' ' || isBreak c

/-- A name behind its mark, with its width. -/
def name? (cs : List Char) : Option (String × Nat) :=
  let name := cs.takeWhile isNameChar
  let rest := cs.drop name.length
  let stops := ['?', ':', ',', ']', '\x7d', '%', '@', '\x60']
  if !name.isEmpty && (endsHere rest || rest.head?.any stops.contains) then
    some (String.ofList name, name.length)
  else none

/-! ## Tags -/

/-- A tag: a handle, unless it is given in full, and what stands behind that. -/
structure Tag where
  handle? : Option String
  suffix : String
  deriving DecidableEq, Repr

/-- A character of a tag. -/
def isTagChar (c : Char) : Bool :=
  isNameChar c || [';', '/', '?', ':', '@', '&', '=', '+', '$', ',', '.', '!', '~', '*', '\'', '(',
    ')', '[', ']'].contains c

/-- Bytes by their hexadecimal digits behind percent signs, with the text behind them. -/
def escapedBytes? : List Char → Option (List UInt8 × List Char)
  | '%' :: a :: b :: cs => do
    let n ← Text.ofHex? [a, b]
    let (bytes, rest) ← escapedBytes? cs
    return (n.toUInt8 :: bytes, rest)
  | '%' :: _ => none
  | cs => some ([], cs)

/-- The characters of a tag, with the text behind them. -/
def uri? : (fuel : Nat) → List Char → Option (List Char × List Char)
  | 0, cs => some ([], cs)
  | _, [] => some ([], [])
  | fuel + 1, c :: cs =>
    if c == '%' then do
      let (bytes, rest) ← escapedBytes? (c :: cs)
      let s ← String.fromUTF8? ⟨bytes.toArray⟩
      let (taken, rest) ← uri? fuel rest
      return (s.toList ++ taken, rest)
    else if isTagChar c then (uri? fuel cs).map fun (taken, rest) => (c :: taken, rest)
    else some ([], c :: cs)

/-- The characters of a tag, at least one, with the text behind them. -/
def someUri? (cs : List Char) : Option (String × List Char) := do
  let (taken, rest) ← uri? cs.length cs
  if taken.isEmpty then none else return (String.ofList taken, rest)

/-- The handle of a tag: an exclamation mark, or a name between two of them. -/
def handle? : List Char → Option (String × List Char)
  | '!' :: ' ' :: cs => some ("!", ' ' :: cs)
  | '!' :: cs =>
    let name := cs.takeWhile isNameChar
    match cs.drop name.length with
    | '!' :: rest => some (String.ofList ('!' :: name ++ ['!']), rest)
    | _ => none
  | _ => none

/-- A tag, with its width. -/
def tag? (cs : List Char) : Option (Tag × Nat) := do
  let (tag, rest) ← match cs with
    | '!' :: '<' :: rest => do
      match ← someUri? rest with
      | (suffix, '>' :: rest) => some (⟨none, suffix⟩, rest)
      | _ => none
    | _ =>
      let rest := cs.drop 1
      if endsHere rest then some (⟨none, "!"⟩, rest)
      else if (rest.takeWhile fun c => !(c == ' ' || isBreak c)).contains '!' then do
        let (handle, rest) ← handle? cs
        let (suffix, rest) ← someUri? rest
        some (⟨some handle, suffix⟩, rest)
      else do
        let (suffix, rest) ← someUri? rest
        some (⟨some "!", suffix⟩, rest)
  if endsWord rest then return (tag, cs.length - rest.length) else none

/-! ## Directives -/

/-- A directive in front of a document. -/
inductive Directive where
  /-- The version of YAML: its first number. -/
  | version (major : Nat)
  /-- What a handle of tags stands for. -/
  | handle (name start : String)
  /-- Any other directive means nothing. -/
  | other
  deriving DecidableEq, Repr

/-- A text behind its spaces. -/
def dropSpaces (cs : List Char) : List Char := cs.dropWhile (· == ' ')

/-- A number, with the text behind it. -/
def number? (cs : List Char) : Option (Nat × List Char) :=
  let digits := cs.takeWhile Char.isDigit
  if digits.isEmpty then none
  else some (digits.foldl (fun n c => 10 * n + (c.toNat - 48)) 0, cs.drop digits.length)

/-- What a directive of a name says, with the text behind it. -/
def directiveValue? (name : String) (cs : List Char) : Option (Directive × List Char) :=
  match name with
  | "YAML" => do
    match ← number? (dropSpaces cs) with
    | (major, '.' :: rest) =>
      let (_, rest) ← number? rest
      if endsWord rest then return (.version major, rest) else none
    | _ => none
  | "TAG" => do
    match ← handle? (dropSpaces cs) with
    | (name, ' ' :: rest) =>
      let (start, rest) ← someUri? (dropSpaces rest)
      if endsWord rest then return (.handle name start, rest) else none
    | _ => none
  | _ => some (.other, cs.dropWhile (!isBreak ·))

/-- A directive behind its percent sign, with its width. -/
def directive? (cs : List Char) : Option (Directive × Nat) := do
  let name := cs.takeWhile isNameChar
  let rest := cs.drop name.length
  if name.isEmpty || !endsWord rest then none
  else
    let (directive, rest) ← directiveValue? (String.ofList name) rest
    let rest := dropSpaces rest
    let rest := if rest.head? == some '#' then rest.dropWhile (!isBreak ·) else rest
    match rest with
    | [] => return (directive, cs.length)
    | c :: rest => if isBreak c then return (directive, cs.length - rest.length) else none

/-! ## Examples -/

example : name? "a-1]".toList = some ("a-1", 3) := by decide
example : (tag? "!!str 1".toList).map (·.2) = some 5 := by decide

end Spreadsheet.Yaml
