import Spreadsheet.Yaml.Block
import Spreadsheet.Yaml.Plain
import Spreadsheet.Yaml.Property
import Spreadsheet.Yaml.Quoted

/-!
# Tokens of YAML

A text is cut into scalars and the marks around them. Where a line starts says where lists and
mappings start and end: tokens are added for that. Whether a value is a key shows only at the colon
behind it, so every value that may still become one is a candidate until its line ends or too much
stands behind it; at the colon the key's token is put in front of it.

* `Token`; `Lexer`: the tokens so far and what may come next;
* `Lexer.fetch`: the next token; `Token.ofText`: all tokens, the last one telling of a failure.
-/

namespace Spreadsheet.Yaml

/-- A token. -/
inductive Token where
  | documentStart
  | documentEnd
  | textEnd
  /-- Brackets, braces and the comma between them. -/
  | openList
  | closeList
  | openMap
  | closeMap
  | comma
  /-- A list, or a mapping, by indentation. -/
  | blockList
  | blockMap
  | blockEnd
  /-- An item of a list by indentation. -/
  | dash
  | key
  | value
  | directive (d : Directive)
  | alias (name : String)
  | anchor (name : String)
  | tag (t : Tag)
  | scalar (text : String) (isPlain : Bool)
  /-- The text cannot be read on. -/
  | broken (e : Failure)

namespace Token

/-- What a token turned out to start. -/
inductive Start where
  | nothing
  | key
  /-- The first key of a mapping by indentation. -/
  | mapping

/-- The tokens that tell of what a token starts. -/
def Start.tokens : Start → List Token
  | nothing => []
  | key => [.key]
  | mapping => [.blockMap, .key]

end Token

/-- A token that may turn out to be a key. -/
structure Candidate where
  /-- How many tokens are in front of it. -/
  token : Nat
  position : Position
  /-- Nothing else may stand where it stands. -/
  required : Bool

/-- The tokens so far and the text behind them. -/
structure Lexer where
  rest : List Char
  position : Position := {}
  tokens : Array (Token.Start × Token) := #[]
  /-- How many brackets and braces are open. -/
  depth : Nat := 0
  /-- How far the innermost list or mapping by indentation is indented. -/
  indent : Int := -1
  /-- How far those around it are indented. -/
  outer : List Int := []
  /-- A key may come next. -/
  keyAllowed : Bool := true
  /-- The candidates by how many brackets and braces they are in. -/
  candidates : List (Nat × Candidate) := []

namespace Lexer

/-- A step of cutting a text into tokens. -/
abbrev Step := ExceptT Failure (StateM Lexer)

/-- The text does not have the form of YAML. -/
def refuse {α : Type} : Step α := throw .malformed

/-- Go on behind characters. -/
def advance (width : Nat) : Step Unit := modify fun s =>
  let (position, rest) := s.position.after width s.rest
  { s with position, rest }

/-- Add a token. -/
def push (t : Token) : Step Unit := modify fun s => { s with tokens := s.tokens.push (.nothing, t) }

/-- Add a token that characters write. -/
def take (width : Nat) (t : Token) : Step Unit := do
  advance width
  push t

/-- Say whether a key may come next. -/
def allowKey (allowed : Bool) : Step Unit := modify fun s => { s with keyAllowed := allowed }

/-! ## Candidates -/

/-- How far behind its start the colon of a key may stand. -/
def keyWidth : Nat := 1024

/-- The token of a candidate is no key any more. -/
def Candidate.isStale (p : Position) (c : Candidate) : Bool :=
  c.position.line != p.line || keyWidth < p.index - c.position.index

/-- Give up some candidates; one of them that is required has to be a key. -/
def giveUp (isOver : Nat → Candidate → Bool) : Step Unit := do
  let s ← get
  let (gone, left) := s.candidates.partition fun (d, c) => isOver d c
  if gone.any fun (_, c) => c.required then refuse
  else set { s with candidates := left }

/-- Give up the candidates that are no keys any more. -/
def dropStale : Step Unit := do
  let p := (← get).position
  giveUp fun _ c => Candidate.isStale p c

/-- Give up the candidate inside the innermost brackets or braces. -/
def dropCandidate : Step Unit := do
  let depth := (← get).depth
  giveUp fun d _ => d == depth

/-- The next token is a candidate, if a key may come next. -/
def addCandidate : Step Unit := do
  if (← get).keyAllowed then
    dropCandidate
    modify fun s =>
      let c : Candidate :=
        ⟨s.tokens.size, s.position, s.depth == 0 && s.indent == s.position.column⟩
      { s with candidates := (s.depth, c) :: s.candidates }

/-! ## Indentation -/

/-- The lists and mappings that a column is not indented enough for come to their ends. -/
def unindent (column : Int) : Step Unit := modify fun s =>
  if s.depth ≠ 0 then s
  else
    let ended := (s.indent :: s.outer).takeWhile (column < ·)
    let left := (s.indent :: s.outer).drop ended.length
    { s with
      tokens := s.tokens ++ Array.replicate ended.length (.nothing, .blockEnd)
      indent := left.headD (-1)
      outer := left.drop 1 }

/-- A list or mapping starts at a column, unless there is one; says whether it does. -/
def indentTo (column : Nat) : Step Bool := do
  let s ← get
  if s.indent < column then
    set { s with indent := (column : Int), outer := s.indent :: s.outer }
    return true
  else return false

/-! ## Between tokens -/

/-- The place behind spaces, comments and ends of lines, the text there, and whether a line ended in
between. -/
def skipped (inComment lineEnded : Bool) (p : Position) :
    List Char → Bool × Position × List Char
  | [] => (lineEnded, p, [])
  | c :: cs =>
    if isBreak c then skipped false true (p.next c) cs
    else if inComment || c == ' ' then skipped inComment lineEnded (p.next c) cs
    else if c == '#' then skipped true lineEnded (p.next c) cs
    else (lineEnded, p, c :: cs)

/-- Go on to the next token. -/
def skip : Step Unit := modify fun s =>
  let (position, rest) := match s.rest with
    | '\uFEFF' :: cs => if s.position.index = 0 then (s.position.next '\uFEFF', cs)
      else (s.position, s.rest)
    | _ => (s.position, s.rest)
  let (lineEnded, position, rest) := skipped false false position rest
  { s with position, rest, keyAllowed := s.keyAllowed || (lineEnded && s.depth == 0) }

/-! ## Tokens -/

/-- A bracket or brace that opens. -/
def opening (t : Token) : Step Unit := do
  addCandidate
  modify fun s => { s with depth := s.depth + 1, keyAllowed := true }
  take 1 t

/-- A bracket or brace that closes; one has to be open. -/
def closing (t : Token) : Step Unit := do
  dropCandidate
  let s ← get
  if s.depth = 0 then refuse
  else
    set { s with depth := s.depth - 1, keyAllowed := false }
    take 1 t

/-- A comma. -/
def comma : Step Unit := do
  allowKey true
  dropCandidate
  take 1 .comma

/-- A mark for which, outside brackets and braces, a list or mapping may start. -/
def startBlock (t : Token) : Step Unit := do
  let s ← get
  if s.depth = 0 then
    if !s.keyAllowed then refuse
    else if ← indentTo s.position.column then push t

/-- The dash of an item. -/
def dash : Step Unit := do
  startBlock .blockList
  allowKey true
  dropCandidate
  take 1 .dash

/-- A question mark in front of a key. -/
def key : Step Unit := do
  startBlock .blockMap
  allowKey ((← get).depth = 0)
  dropCandidate
  take 1 .key

/-- The colon between a key and its value. -/
def value : Step Unit := do
  let s ← get
  match s.candidates.lookup s.depth with
  | some c =>
    set { s with candidates := s.candidates.filter (·.1 != s.depth) }
    let starts ← if s.depth = 0 then indentTo c.position.column else pure false
    let start : Token.Start := if starts then .mapping else .key
    modify fun s => { s with tokens := s.tokens.modify c.token fun (_, t) => (start, t) }
    allowKey false
  | none =>
    startBlock .blockMap
    allowKey (s.depth = 0)
    dropCandidate
  take 1 .value

/-- A mark between documents. -/
def document (t : Token) : Step Unit := do
  unindent (-1)
  dropCandidate
  allowKey false
  take 3 t

/-- A directive. -/
def directive : Step Unit := do
  unindent (-1)
  dropCandidate
  allowKey false
  match directive? ((← get).rest.drop 1) with
  | some (d, width) => take (width + 1) (.directive d)
  | none => refuse

/-- Something in front of a value or in its place. -/
def property (read? : List Char → Option (Token × Nat)) : Step Unit := do
  addCandidate
  allowKey false
  match read? (← get).rest with
  | some (t, width) => take width t
  | none => refuse

/-- A name, behind its mark. -/
def named (t : String → Token) (cs : List Char) : Option (Token × Nat) :=
  (name? (cs.drop 1)).map fun (name, width) => (t name, width + 1)

/-- A block scalar. -/
def block (folded : Bool) : Step Unit := do
  allowKey true
  dropCandidate
  let s ← get
  match block? folded s.indent (s.rest.drop 1) with
  | some (text, width) => take (width + 1) (.scalar text false)
  | none => refuse

/-- A quoted scalar. -/
def quotedScalar (double : Bool) : Step Unit := do
  addCandidate
  allowKey false
  let (text, width) ← ExceptT.mk (pure (quoted double ((← get).rest.drop 1)))
  take (width + 1) (.scalar text false)

/-- A plain scalar. -/
def plainScalar : Step Unit := do
  addCandidate
  allowKey false
  let s ← get
  let p := plain (s.depth ≠ 0) (s.indent + 1) s.rest
  take p.width (.scalar p.text true)
  allowKey p.endsLine

/-- The end of the text. -/
def finish : Step Unit := do
  unindent (-1)
  dropCandidate
  push .textEnd

/-- The next token, at a character that is not the start of a line's mark. -/
def fetchAt (c : Char) (cs : List Char) : Step Unit := do
  let inFlow := (← get).depth ≠ 0
  if c == '[' then opening .openList
  else if c == '\x7b' then opening .openMap
  else if c == ']' then closing .closeList
  else if c == '\x7d' then closing .closeMap
  else if c == ',' then comma
  else if c == '-' && endsHere cs then dash
  else if c == '?' && (inFlow || endsHere cs) then key
  else if c == ':' && (inFlow || endsHere cs) then value
  else if c == '*' then property (named .alias)
  else if c == '&' then property (named .anchor)
  else if c == '!' then property fun cs => (tag? cs).map fun (t, width) => (.tag t, width)
  else if c == '|' && !inFlow then block false
  else if c == '>' && !inFlow then block true
  else if c == '\'' then quotedScalar false
  else if c == '"' then quotedScalar true
  else if startsPlain inFlow (c :: cs) then plainScalar
  else refuse

/-- Cut off the next token; says whether the text has come to its end. -/
def fetch : Step Bool := do
  skip
  dropStale
  let s ← get
  unindent s.position.column
  match s.rest with
  | [] =>
    finish
    return true
  | c :: cs =>
    if s.position.column = 0 && c == '%' then directive
    else if s.position.column = 0 && startsDocument (c :: cs) then
      document (if c == '-' then .documentStart else .documentEnd)
    else fetchAt c cs
    return false

/-- How many of the tokens so far are known to be keys or none. -/
def settled (s : Lexer) : Nat :=
  let left := s.candidates.filter fun (_, c) => !Candidate.isStale s.position c
  left.foldl (fun n (_, c) => min n c.token) s.tokens.size

/-- The first tokens, in order, with the keys that they turned out to be. -/
def written (count : Nat) (s : Lexer) : List Token :=
  (s.tokens.toList.take count).flatMap fun (start, t) => start.tokens ++ [t]

/-- All tokens, in at most as many steps as are given. Where it cannot go on, tokens that might
still be keys are lost. -/
def run : (fuel : Nat) → Lexer → List Token
  | 0, s => s.written s.settled ++ [.broken .malformed]
  | fuel + 1, s =>
    let settled := s.settled
    match fetch.run.run s with
    | (.ok true, s) => s.written s.tokens.size
    | (.ok false, s) => run fuel s
    | (.error e, s) => s.written settled ++ [.broken e]

end Lexer

/-- The tokens of a text. -/
def Token.ofText (cs : List Char) : List Token := Lexer.run (cs.length + 1) { rest := cs }

end Spreadsheet.Yaml
