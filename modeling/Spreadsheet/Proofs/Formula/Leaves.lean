import Spreadsheet.Proofs.Formula.Parsing

/-!
# What a tree lists

Going through a tree from left to right, a call before its arguments, meets the tokens of the body
in their order; punctuation leaves no trace. So whatever is listed of a tree node by node, its
leaves, the functions that it calls or the rectangles that it reads, is what the tokens of the body
list one by one.

* `Lists`: a list of a tree that tokens give one by one; **`Lists.of_derivation`**,
  **`Lists.of_parse`**: it is the list of the tokens;
* `Expr.leaves`; `Expr.leaves_of_parse`, `Expr.functions_of_parse`, `Expr.corners_of_parse`.
-/

namespace Spreadsheet.Formula

open Reference (Parts)

variable {α : Type} {g : Token → List α} {F : Expr → List α} {e : Expr} {body : String}

/-- A list of a tree that is made up of what its tokens give; punctuation gives nothing. -/
structure Lists (g : Token → List α) (F : Expr → List α) : Prop where
  number (n : Literal) (position : Nat) : F (.number n) = g ⟨.number n, position⟩
  cell (parts : Parts) (position : Nat) : F (.cell parts position) = g ⟨.cell parts, position⟩
  range (first last : Parts) (position : Nat) :
    F (.range first last position) = g ⟨.range first last, position⟩
  signed (s : Sign) (e : Expr) : F (.signed s e) = F e
  binary (op : Operator) (l r : Expr) : F (.binary op l r) = F l ++ F r
  call (name : List Char) (args : List Expr) (position : Nat) :
    F (.call name args) = g ⟨.name name, position⟩ ++ args.flatMap F
  symbol (s : Symbol) (position : Nat) : g (s.at position) = []

/-- What is listed tree by tree is the list of each tree in turn. -/
theorem eq_flatMap {G : List Expr → List α} (hnil : G [] = [])
    (hcons : ∀ e es, G (e :: es) = F e ++ G es) (es : List Expr) : G es = es.flatMap F := by
  induction es with
  | nil => exact hnil
  | cons e es ih => rw [hcons, ih, List.flatMap_cons]

/-- The tree of a category lists this. -/
def Listed (F : Expr → List α) : (k : Category) → k.Tree → List α → Prop
  | .expression, tree, as | .term, tree, as | .factor, tree, as | .primary, tree, as => F tree = as
  | .terms, tree, as | .factors, tree, as => ∀ left, F (tree left) = F left ++ as
  | .arguments, trees, as | .others, trees, as => trees.flatMap F = as

/-- **A tree lists what its tokens do.** -/
theorem Lists.of_derivation (h : Lists g F) {k : Category} (d : Derivation k) :
    Listed F k d.tree (d.tokens.flatMap g) := by
  induction d with
  | number n position => exact (h.number n position).trans (List.append_nil _).symm
  | cell parts position => exact (h.cell parts position).trans (List.append_nil _).symm
  | range first last position =>
    exact (h.range first last position).trans (List.append_nil _).symm
  | primary p ih => exact ih
  | signed sign position operand ih =>
    simp only [Listed, Derivation.tree] at ih ⊢
    simp [Derivation.tokens, h.symbol, h.signed, ih]
  | noTerms | noFactors => exact fun left => (List.append_nil _).symm
  | noArguments | noOthers => rfl
  | paren opening inner closing ih =>
    simp only [Listed, Derivation.tree] at ih ⊢
    simp [Derivation.tokens, h.symbol, ih]
  | call name position opening args closing ih =>
    simp only [Listed, Derivation.tree] at ih ⊢
    simp [Derivation.tokens, h.symbol, h.call name _ position, ih]
  | factors op hop position first more ihfirst ihmore
  | terms op hop position first more ihfirst ihmore =>
    intro left
    simp only [Listed] at ihfirst ihmore
    simp [Derivation.tokens, Derivation.tree, ihmore, h.binary, h.symbol, ihfirst]
  | term first more ihfirst ihmore | expression first more ihfirst ihmore =>
    simp only [Listed] at ihfirst ihmore ⊢
    simp [Derivation.tokens, Derivation.tree, ihmore, ihfirst]
  | arguments first more ihfirst ihmore | others comma first more ihfirst ihmore =>
    simp only [Listed] at ihfirst ihmore ⊢
    simp [Derivation.tokens, Derivation.tree, h.symbol, ihmore, ihfirst]

theorem Lists.of_parse (h : Lists g F) (he : Expr.parse body = .ok e) :
    F e = (lex body).tokens.flatMap g := by
  obtain ⟨derivation, htokens, rfl⟩ := Expr.exists_derivation he
  rw [← htokens]
  exact h.of_derivation derivation

/-! ## Leaves -/

mutual

/-- The leaves of a tree from left to right, the name of a call before its arguments. -/
def Expr.leaves : Expr → List Lexeme
  | .number n => [.number n]
  | .cell parts _ => [.cell parts]
  | .range first last _ => [.range first last]
  | .signed _ e => e.leaves
  | .binary _ l r => l.leaves ++ r.leaves
  | .call name args => .name name :: Expr.leavesOfList args

/-- The leaves of trees. -/
def Expr.leavesOfList : List Expr → List Lexeme
  | [] => []
  | e :: es => e.leaves ++ Expr.leavesOfList es

end

/-- A token that is a leaf of a tree: every one but punctuation. -/
def Token.leaf (t : Token) : List Lexeme :=
  match t.lexeme with
  | .symbol _ => []
  | l => [l]

theorem lists_leaves : Lists Token.leaf Expr.leaves where
  number _ _ := rfl
  cell _ _ := rfl
  range _ _ _ := rfl
  signed _ _ := rfl
  binary _ _ _ := rfl
  call name args _ := by
    rw [Expr.leaves, eq_flatMap (G := Expr.leavesOfList) rfl fun _ _ => rfl]
    rfl
  symbol _ _ := rfl

/-- **The leaves of a tree** are the tokens of the body. -/
theorem Expr.leaves_of_parse (h : Expr.parse body = .ok e) :
    e.leaves = (lex body).tokens.flatMap Token.leaf := lists_leaves.of_parse h

/-! ## Functions -/

/-- The function that a token names. -/
def Token.function (t : Token) : List String :=
  match t.lexeme with
  | .name letters => [upperName letters]
  | .number _ | .cell _ | .range .. | .symbol _ => []

theorem lists_functions : Lists Token.function Expr.functions where
  number _ _ := rfl
  cell _ _ := rfl
  range _ _ _ := rfl
  signed _ _ := rfl
  binary _ _ _ := rfl
  call name args _ := by
    rw [Expr.functions, eq_flatMap (G := Expr.functionsOfList) rfl fun _ _ => rfl]
    rfl
  symbol _ _ := rfl

theorem Expr.functions_of_parse (h : Expr.parse body = .ok e) :
    e.functions = (lex body).tokens.flatMap Token.function := lists_functions.of_parse h

/-! ## Rectangles -/

/-- The rectangle that a token names. -/
def Token.corners (t : Token) : List (Parts × Parts × Nat) :=
  match t.lexeme with
  | .cell parts => [(parts, parts, t.position)]
  | .range first last => [(first, last, t.position)]
  | .number _ | .name _ | .symbol _ => []

theorem lists_corners : Lists Token.corners Expr.corners where
  number _ _ := rfl
  cell _ _ := rfl
  range _ _ _ := rfl
  signed _ _ := rfl
  binary _ _ _ := rfl
  call _ args _ := eq_flatMap (G := Expr.cornersOfList) rfl (fun _ _ => rfl) args
  symbol _ _ := rfl

/-- **A tree reads what its tokens name.** -/
theorem Expr.corners_of_parse (h : Expr.parse body = .ok e) :
    e.corners = (lex body).tokens.flatMap Token.corners := lists_corners.of_parse h

end Spreadsheet.Formula
