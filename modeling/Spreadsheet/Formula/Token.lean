import Spreadsheet.Formula.Failure
import Spreadsheet.Reference
import Spreadsheet.Decimal.Reading

/-!
# Tokens of a formula

A formula body is cut into tokens from left to right. At each place a range wins over a single
reference, a reference over a name, and every token is as long as it can be; spaces, tabs and line
ends between tokens are skipped. Where no token starts the cutting stops.

* `Lexeme`: what a token says; `Lexeme.take?` is the token that a text starts with;
* `Token`: a lexeme and its place; `Lexed`: the tokens of a body and where the cutting stopped;
* `lex`: the cutting itself;
* `tokenize`: the tokens with their values, if every one has one.
-/

namespace Spreadsheet.Formula

open Reference (Parts)

/-! ## Lexemes -/

/-- The punctuation of formulas. -/
inductive Symbol where
  | plus
  | minus
  | times
  | slash
  | openParen
  | closeParen
  | comma
  deriving DecidableEq, Repr

/-- The character of a symbol. -/
def Symbol.char : Symbol → Char
  | .plus => '+'
  | .minus => '-'
  | .times => '*'
  | .slash => '/'
  | .openParen => '('
  | .closeParen => ')'
  | .comma => ','

/-- The symbol of a character. -/
def Symbol.ofChar? : Char → Option Symbol
  | '+' => some .plus
  | '-' => some .minus
  | '*' => some .times
  | '/' => some .slash
  | '(' => some .openParen
  | ')' => some .closeParen
  | ',' => some .comma
  | _ => none

/-- A number as it is written: digits, and digits after a point unless there are none. -/
structure Literal where
  whole : List Char
  fraction : List Char
  deriving DecidableEq, Repr

/-- The characters of a number. -/
def Literal.chars (n : Literal) : List Char :=
  n.whole ++ if n.fraction.isEmpty then [] else '.' :: n.fraction

/-- The double that a number denotes; one too large denotes infinity. -/
def Literal.value (n : Literal) : Float := Decimal.ofParts n.whole n.fraction 0

/-- The longest number that a text starts with. -/
def Literal.take? (cs : List Char) : Option Literal :=
  let whole := cs.takeWhile Char.isDigit
  if whole.isEmpty then none
  else match cs.dropWhile Char.isDigit with
    | '.' :: rest => some ⟨whole, rest.takeWhile Char.isDigit⟩
    | _ => some ⟨whole, []⟩

/-- What a token says. -/
inductive Lexeme where
  | number (n : Literal)
  | cell (parts : Parts)
  | range (first last : Parts)
  | name (letters : List Char)
  | symbol (s : Symbol)
  deriving DecidableEq, Repr

namespace Lexeme

/-- The characters of a token. -/
def chars : Lexeme → List Char
  | number n => n.chars
  | cell parts => parts.chars
  | range first last => first.chars ++ ':' :: last.chars
  | name letters => letters
  | symbol s => [s.char]

/-- The name of the kind of a token; a symbol names itself. -/
def kind : Lexeme → String
  | number _ => "num"
  | cell _ => "cell"
  | range .. => "range"
  | name _ => "id"
  | symbol s => String.singleton s.char

/-- The text of a token. -/
def text (l : Lexeme) : String := String.ofList l.chars

/-- The reference or range that a text starts with, a range if possible. -/
def takeReference? (cs : List Char) : Option Lexeme :=
  match Parts.take? cs with
  | none => none
  | some first =>
    match cs.drop first.chars.length with
    | ':' :: rest =>
      match Parts.take? rest with
      | some last => some (range first last)
      | none => some (cell first)
    | _ => some (cell first)

/-- The word of letters that a text starts with. -/
def takeName? (cs : List Char) : Option Lexeme :=
  let letters := cs.takeWhile Reference.isLetter
  if letters.isEmpty then none else some (name letters)

/-- The token that a text starts with. -/
def take? (cs : List Char) : Option Lexeme :=
  takeReference? cs <|> takeName? cs <|> (Literal.take? cs).map number <|>
    (cs.head?.bind Symbol.ofChar?).map symbol

end Lexeme

/-! ## Cutting a body -/

/-- A token at its place in the body. -/
structure Token where
  lexeme : Lexeme
  position : Nat
  deriving DecidableEq, Repr

/-- The tokens of a body, and the character where the cutting stopped, if it did. -/
structure Lexed where
  tokens : List Token
  stuck? : Option (Char × Nat)
  deriving DecidableEq, Repr

/-- A character that is skipped between tokens. -/
def isSkipped (c : Char) : Bool := c == ' ' || c == '\t' || c == '\r' || c == '\n'

/-- Cut the rest of a body that starts at a position. -/
def lexFrom (position : Nat) : List Char → Lexed
  | [] => ⟨[], none⟩
  | c :: cs =>
    if isSkipped c then lexFrom (position + 1) cs
    else match Lexeme.take? (c :: cs) with
      | none => ⟨[], some (c, position)⟩
      | some l =>
        let width := l.chars.length
        let after := lexFrom (position + width) (cs.drop (width - 1))
        ⟨⟨l, position⟩ :: after.tokens, after.stuck?⟩
termination_by cs => cs.length
decreasing_by
  · simp
  · simp only [List.length_drop, List.length_cons]; omega

/-- Cut a body into tokens. -/
def lex (body : String) : Lexed := lexFrom 0 body.toList

/-! ## Values of tokens -/

/-- The reference that parts of a token denote, the token standing at a position. -/
def resolve (position : Nat) (parts : Parts) : Except Failure Reference :=
  match parts.resolve? with
  | .error e => .error (.tooLong e)
  | .ok none => .error (.rejected (.invalidReference (String.ofList parts.chars) position))
  | .ok (some r) => .ok r

/-- The value of a token. -/
inductive TokenValue where
  | number (x : Float)
  | cell (r : Reference)
  | range (first last : Reference)
  | name (upper : String)
  | punctuation

/-- A name in upper case, as functions are looked up. -/
def upperName (letters : List Char) : String := String.ofList (letters.map Char.toUpper)

/-- The value of a token, if its references are valid. -/
def Token.value (t : Token) : Except Failure TokenValue :=
  match t.lexeme with
  | .number n => .ok (.number n.value)
  | .name letters => .ok (.name (upperName letters))
  | .symbol _ => .ok .punctuation
  | .cell parts => do return .cell (← resolve t.position parts)
  | .range first last => do
    let first ← resolve t.position first
    let last ← resolve t.position last
    return .range first last

/-- The tokens of a body with their values; the first token without one decides the failure. -/
def tokenize (body : String) : Except Failure (List (Token × TokenValue)) := do
  let lexed := lex body
  let valued ← lexed.tokens.mapM fun t => do return (t, ← t.value)
  match lexed.stuck? with
  | some (c, position) => throw (.rejected (.unexpectedCharacter c position))
  | none => return valued

end Spreadsheet.Formula
