import Spreadsheet.Yaml.Node
import Spreadsheet.Yaml.Token

/-!
# Documents

A text of YAML holds one document, with directives in front of it or not, and marks around it. The
document is one value. A value that has a name can be used again behind it.

* `Reading`: the tokens that are left, and the names so far;
* `Reading.node`: the value that tokens start with; `Node.ofTokens?`: the document.
-/

namespace Spreadsheet.Yaml

/-- The tokens that are left, and the names so far. -/
structure Reading where
  tokens : List Token
  anchors : List (String × Node) := []
  /-- What the handles of tags stand for. -/
  handles : List (String × String) := []

namespace Reading

/-- How deep values may be nested. -/
def roomForValues : Nat := 480

/-- Why it cannot go on. -/
def stuck {α : Type} (r : Reading) : Except Failure α :=
  match r.tokens with
  | .broken e :: _ => .error e
  | _ => .error .malformed

/-- What has been read without its first token. -/
def behind (r : Reading) : Reading := { r with tokens := r.tokens.drop 1 }

/-! ## Tags -/

/-- The start of the tags that YAML has for its own kinds of values. -/
def standard : String := "tag:yaml.org,2002:"

/-- What handles stand for unless directives say otherwise. -/
def standardHandles : List (String × String) := [("!", "!"), ("!!", standard)]

/-- What is in front of a value. -/
structure Properties where
  anchor? : Option String := none
  tag? : Option Tag := none

/-- A name and a tag in any order, with what is behind them. -/
def properties (r : Reading) : Properties × Reading :=
  match r.tokens with
  | .anchor a :: .tag t :: ts | .tag t :: .anchor a :: ts =>
    (⟨some a, some t⟩, { r with tokens := ts })
  | .anchor a :: ts => (⟨some a, none⟩, { r with tokens := ts })
  | .tag t :: ts => (⟨none, some t⟩, { r with tokens := ts })
  | _ => ({}, r)

/-- A tag in full. -/
def fullTag (r : Reading) (t : Tag) : Except Failure String :=
  match t.handle? with
  | none => .ok t.suffix
  | some h =>
    match r.handles.lookup h with
    | some start => .ok (start ++ t.suffix)
    | none => .error .malformed

/-- The kind of a scalar with a tag in full. -/
def kindOfTag (tag : String) : Kind :=
  let kinds : List (String × Kind) := [("null", .nothing), ("bool", .truth), ("int", .whole),
    ("float", .pointed), ("timestamp", .time), ("str", .text), ("binary", .bytes),
    ("seq", .misfit), ("omap", .misfit), ("pairs", .misfit), ("map", .misfit), ("set", .misfit)]
  ((kinds.map fun (name, kind) => (standard ++ name, kind)).lookup tag).getD .unknown

/-- The scalar of a text. A tag of a single mark says that it is as if plain. -/
def scalar (tag? : Option String) (text : String) (isPlain : Bool) : Node :=
  match tag? with
  | none => .scalar (if isPlain then Kind.ofPlain text else .text) text
  | some "!" => .scalar (Kind.ofPlain text) text
  | some tag => .scalar (kindOfTag tag) text

/-- Whether a list or mapping, of which the name is given, is one by its tag as well; it may stand
for something else by its tag if that has one of the other names. -/
def fitOfTag (tag? : Option String) (name : String) (others : List String) : Fit :=
  match tag? with
  | none | some "!" => .fits
  | some tag =>
    if tag = standard ++ name then .fits
    else if others.any fun other => tag = standard ++ other then .standsFor
    else if kindOfTag tag = .misfit then .misfit else .unknown

/-- Whether a list is one by its tag, or stands for pairs. -/
def listFit (tag? : Option String) : Fit := fitOfTag tag? "seq" ["omap", "pairs"]

/-- Whether a mapping is one by its tag, or stands for a set. -/
def mapFit (tag? : Option String) : Fit := fitOfTag tag? "map" ["set"]

/-! ## Values -/

/-- Where a value may stand. -/
inductive Place where
  /-- Inside brackets or braces. -/
  | flow
  /-- Where indentation counts. -/
  | block
  /-- Where a list may also start that is not indented further than the mapping around it. -/
  | field
  deriving DecidableEq, Repr

/-- The tokens that tell that an item by indentation is empty. -/
def endsItem : Token → Bool
  | .dash | .blockEnd => true
  | _ => false

/-- The tokens that tell that a key or value by indentation is empty. -/
def endsField : Token → Bool
  | .key | .value | .blockEnd => true
  | _ => false

/-- The tokens that tell that an item of a list that is not indented is empty. -/
def endsLevelItem (t : Token) : Bool := endsItem t || endsField t

/-- The tokens that tell that a key in brackets or braces is empty. -/
def endsFlowKey : Token → Bool
  | .value | .comma | .closeList | .closeMap => true
  | _ => false

/-- The tokens that tell that a value in brackets or braces is empty. -/
def endsFlowValue : Token → Bool
  | .comma | .closeList | .closeMap => true
  | _ => false

mutual

/-- The value that tokens start with. -/
def node (fuel room : Nat) (place : Place) (r : Reading) : Except Failure (Node × Reading) := do
  match fuel, room with
  | 0, _ | _, 0 => throw .tooDeep
  | fuel + 1, room + 1 =>
    match r.tokens with
    | .alias name :: _ =>
      match r.anchors.lookup name with
      | some n => return (n, r.behind)
      | none => throw .malformed
    | _ =>
      let (given, inner) := properties r
      let tag? ← given.tag?.mapM inner.fullTag
      if given.anchor?.any fun a => (inner.anchors.lookup a).isSome then throw .malformed
      let (n, r) ← content fuel room place tag? (given.anchor?.isSome || tag?.isSome) inner
      match given.anchor? with
      | some a =>
        if (r.anchors.lookup a).isSome then throw .malformed
        else return (n, { r with anchors := (a, n) :: r.anchors })
      | none => return (n, r)

/-- A value behind its name and tag; with either of them it may be empty. -/
def content (fuel room : Nat) (place : Place) (tag? : Option String) (mayBeEmpty : Bool)
    (r : Reading) : Except Failure (Node × Reading) := do
  match fuel with
  | 0 => throw .tooDeep
  | fuel + 1 =>
    match r.tokens, place with
    | .dash :: _, .field => levelItems fuel room (listFit tag?) [] r
    | .scalar text isPlain :: _, _ => return (scalar tag? text isPlain, r.behind)
    | .openList :: _, _ => flowItems fuel room (listFit tag?) true [] r.behind
    | .openMap :: _, _ => flowEntries fuel room (mapFit tag?) true [] r.behind
    | .blockList :: _, .block | .blockList :: _, .field =>
      items fuel room (listFit tag?) [] r.behind
    | .blockMap :: _, .block | .blockMap :: _, .field =>
      entries fuel room (mapFit tag?) [] r.behind
    | _, _ => if mayBeEmpty then return (scalar tag? "" true, r) else r.stuck

/-- A value, or an empty one before tokens that tell so. -/
def orEmpty (fuel room : Nat) (place : Place) (ends : Token → Bool) (r : Reading) :
    Except Failure (Node × Reading) := do
  match fuel with
  | 0 => throw .tooDeep
  | fuel + 1 => if r.tokens.head?.any ends then return (.empty, r) else node fuel room place r

/-- A value behind its colon; without a colon it is empty. -/
def fieldValue (fuel room : Nat) (place : Place) (ends : Token → Bool) (r : Reading) :
    Except Failure (Node × Reading) := do
  match fuel with
  | 0 => throw .tooDeep
  | fuel + 1 =>
    match r.tokens with
    | .value :: _ => orEmpty fuel room place ends r.behind
    | _ => return (.empty, r)

/-- The items of a list by indentation. -/
def items (fuel room : Nat) (fit : Fit) (before : List Node) (r : Reading) :
    Except Failure (Node × Reading) := do
  match fuel with
  | 0 => throw .tooDeep
  | fuel + 1 =>
    match r.tokens with
    | .dash :: _ =>
      let (n, r) ← orEmpty fuel room .block endsItem r.behind
      items fuel room fit (n :: before) r
    | .blockEnd :: _ => return (.list fit before.reverse, r.behind)
    | _ => r.stuck

/-- The items of a list that is not indented further than the mapping around it. -/
def levelItems (fuel room : Nat) (fit : Fit) (before : List Node) (r : Reading) :
    Except Failure (Node × Reading) := do
  match fuel with
  | 0 => throw .tooDeep
  | fuel + 1 =>
    match r.tokens with
    | .dash :: _ =>
      let (n, r) ← orEmpty fuel room .block endsLevelItem r.behind
      levelItems fuel room fit (n :: before) r
    | _ => return (.list fit before.reverse, r)

/-- The fields of a mapping by indentation. -/
def entries (fuel room : Nat) (fit : Fit) (before : List (Node × Node)) (r : Reading) :
    Except Failure (Node × Reading) := do
  match fuel with
  | 0 => throw .tooDeep
  | fuel + 1 =>
    match r.tokens with
    | .key :: _ =>
      let (k, r) ← orEmpty fuel room .field endsField r.behind
      let (v, r) ← fieldValue fuel room .field endsField r
      entries fuel room fit ((k, v) :: before) r
    | .blockEnd :: _ => return (Node.ofEntries fit before.reverse, r.behind)
    | _ => r.stuck

/-- The items of a list in brackets; a comma may stand behind the last. A key among them is a
mapping of its own. -/
def flowItems (fuel room : Nat) (fit : Fit) (isFirst : Bool) (before : List Node) (r : Reading) :
    Except Failure (Node × Reading) := do
  match fuel with
  | 0 => throw .tooDeep
  | fuel + 1 =>
    let done (r : Reading) : Except Failure (Node × Reading) :=
      return (.list fit before.reverse, r.behind)
    let r ← match r.tokens, isFirst with
      | .closeList :: _, _ | _, true => pure r
      | .comma :: _, _ => pure r.behind
      | _, _ => r.stuck
    match r.tokens with
    | .closeList :: _ => done r
    | .key :: _ =>
      let (k, r) ← orEmpty fuel (room - 1) .flow endsFlowKey r.behind
      let (v, r) ← fieldValue fuel (room - 1) .flow endsFlowValue r
      flowItems fuel room fit false (Node.ofEntries .fits [(k, v)] :: before) r
    | _ =>
      let (n, r) ← node fuel room .flow r
      flowItems fuel room fit false (n :: before) r

/-- The fields of a mapping in braces; a comma may stand behind the last. A value among them is a
key without one. -/
def flowEntries (fuel room : Nat) (fit : Fit) (isFirst : Bool) (before : List (Node × Node))
    (r : Reading) : Except Failure (Node × Reading) := do
  match fuel with
  | 0 => throw .tooDeep
  | fuel + 1 =>
    let r ← match r.tokens, isFirst with
      | .closeMap :: _, _ | _, true => pure r
      | .comma :: _, _ => pure r.behind
      | _, _ => r.stuck
    match r.tokens with
    | .closeMap :: _ => return (Node.ofEntries fit before.reverse, r.behind)
    | .key :: _ =>
      let (k, r) ← orEmpty fuel room .flow endsFlowKey r.behind
      let (v, r) ← fieldValue fuel room .flow endsFlowValue r
      flowEntries fuel room fit false ((k, v) :: before) r
    | _ =>
      let (k, r) ← node fuel room .flow r
      flowEntries fuel room fit false ((k, .empty) :: before) r

end

/-! ## Documents -/

/-- Directives, with what is behind them. -/
def directives (version? : Bool) (given : List (String × String)) :
    List Token → Except Failure (List (String × String) × List Token)
  | .directive (.version major) :: ts =>
    if version? || major != 1 then .error .malformed else directives true given ts
  | .directive (.handle name start) :: ts =>
    if (given.lookup name).isSome then .error .malformed
    else directives version? ((name, start) :: given) ts
  | .directive .other :: ts => directives version? given ts
  | ts => .ok (given ++ standardHandles, ts)

/-- The tokens that tell that a document is empty. -/
def endsDocument : Token → Bool
  | .directive _ | .documentStart | .documentEnd | .textEnd => true
  | _ => false

/-- The document of tokens, with what is behind it. -/
def document (r : Reading) : Except Failure (Node × Reading) := do
  let fuel := 8 * r.tokens.length + 8
  match r.tokens with
  | .textEnd :: _ => return (.empty, r)
  | .directive _ :: _ | .documentStart :: _ => do
    let (handles, tokens) ← directives false [] r.tokens
    match tokens with
    | .documentStart :: ts =>
      orEmpty fuel roomForValues .block endsDocument { r with tokens := ts, handles }
    | _ => Reading.stuck { r with tokens }
  | _ => node fuel roomForValues .block { r with handles := standardHandles }

end Reading

/-- The document that tokens write; there is one at most. -/
def Node.ofTokens (tokens : List Token) : Except Failure Node := do
  let (n, r) ← Reading.document { tokens }
  let rest := r.tokens.dropWhile fun
    | .documentEnd => true
    | _ => false
  match rest with
  | [.textEnd] => return n
  | _ => Reading.stuck { r with tokens := rest }

end Spreadsheet.Yaml
