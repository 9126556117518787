import Mathlib.Data.Set.Subsingleton
import Spreadsheet.Formula.Parser

/-!
# The grammar of formulas

An expression is a sum of terms, a term a product of factors, a factor a primary with signs in
front, and a primary a number, a reference, a call or an expression in parentheses. A derivation
says how a list of tokens is made up of these; it has one abstract tree, in which operations of one
rank group to the left and parentheses leave no trace.

* `Derivation`: derivations of every category; `Derivation.tokens`, `Derivation.tree`;
* **`Derivation.unique`**: tokens that are followed by nothing that goes on have one derivation.
-/

namespace Spreadsheet.Formula

open Reference (Parts)

/-! ## Derivations -/

/-- The categories of the grammar. -/
inductive Category where
  | expression
  /-- Further terms of a sum. -/
  | terms
  | term
  /-- Further factors of a product. -/
  | factors
  | factor
  | primary
  | arguments
  /-- Further arguments of a call. -/
  | others

/-- How tokens are derived from a category. Positions are those of the tokens. -/
inductive Derivation : Category → Type where
  | expression (first : Derivation .term) (rest : Derivation .terms) : Derivation .expression
  | noTerms : Derivation .terms
  | terms (op : Operator) (h : op.isProduct = false) (position : Nat) (first : Derivation .term)
    (rest : Derivation .terms) : Derivation .terms
  | term (first : Derivation .factor) (rest : Derivation .factors) : Derivation .term
  | noFactors : Derivation .factors
  | factors (op : Operator) (h : op.isProduct = true) (position : Nat)
    (first : Derivation .factor) (rest : Derivation .factors) : Derivation .factors
  | signed (sign : Sign) (position : Nat) (operand : Derivation .factor) : Derivation .factor
  | primary (p : Derivation .primary) : Derivation .factor
  | number (n : Literal) (position : Nat) : Derivation .primary
  | cell (parts : Parts) (position : Nat) : Derivation .primary
  | range (first last : Parts) (position : Nat) : Derivation .primary
  | call (name : List Char) (position opening : Nat) (args : Derivation .arguments)
    (closing : Nat) : Derivation .primary
  | paren (opening : Nat) (inner : Derivation .expression) (closing : Nat) : Derivation .primary
  | noArguments : Derivation .arguments
  | arguments (first : Derivation .expression) (rest : Derivation .others) : Derivation .arguments
  | noOthers : Derivation .others
  | others (comma : Nat) (first : Derivation .expression) (rest : Derivation .others) :
    Derivation .others

/-- The symbol of a sign. -/
def Sign.symbol : Sign → Symbol
  | .positive => .plus
  | .negative => .minus

/-- The symbol of an operation. -/
def Operator.symbol : Operator → Symbol
  | .add => .plus
  | .sub => .minus
  | .mul => .times
  | .div => .slash

/-- A symbol at its place. -/
def Symbol.at (s : Symbol) (position : Nat) : Token := ⟨.symbol s, position⟩

namespace Derivation

/-- The tokens that are derived. -/
def tokens : {k : Category} → Derivation k → List Token
  | _, expression first rest | _, term first rest | _, arguments first rest =>
    first.tokens ++ rest.tokens
  | _, noTerms | _, noFactors | _, noArguments | _, noOthers => []
  | _, terms op _ position first rest | _, factors op _ position first rest =>
    op.symbol.at position :: (first.tokens ++ rest.tokens)
  | _, signed sign position operand => sign.symbol.at position :: operand.tokens
  | _, primary p => p.tokens
  | _, number n position => [⟨.number n, position⟩]
  | _, cell parts position => [⟨.cell parts, position⟩]
  | _, range first last position => [⟨.range first last, position⟩]
  | _, call name position opening args closing =>
    ⟨.name name, position⟩ :: Symbol.openParen.at opening ::
      (args.tokens ++ [Symbol.closeParen.at closing])
  | _, paren opening inner closing =>
    Symbol.openParen.at opening :: (inner.tokens ++ [Symbol.closeParen.at closing])
  | _, others comma first rest => Symbol.comma.at comma :: (first.tokens ++ rest.tokens)

end Derivation

/-- What a derivation makes: a tree, a larger tree from the one on the left, or arguments. -/
abbrev Category.Tree : Category → Type
  | .expression | .term | .factor | .primary => Expr
  | .terms | .factors => Expr → Expr
  | .arguments | .others => List Expr

namespace Derivation

/-- The abstract tree of a derivation. -/
def tree : {k : Category} → Derivation k → k.Tree
  | _, expression first rest | _, term first rest => rest.tree first.tree
  | _, noTerms | _, noFactors => id
  | _, terms op _ _ first rest | _, factors op _ _ first rest =>
    fun left => rest.tree (.binary op left first.tree)
  | _, signed sign _ operand => Expr.signed sign operand.tree
  | _, primary p => p.tree
  | _, number n _ => Expr.number n
  | _, cell parts position => Expr.cell parts position
  | _, range first last position => Expr.range first last position
  | _, call name _ _ args _ => Expr.call name args.tree
  | _, paren _ inner _ => inner.tree
  | _, noArguments | _, noOthers => []
  | _, arguments first rest | _, others _ first rest => first.tree :: rest.tree

end Derivation

/-! ## Uniqueness -/

theorem Operator.symbol_injective {op op' : Operator} (h : op.symbol = op'.symbol) : op = op' := by
  cases op <;> cases op' <;> first | rfl | cases h

theorem Sign.symbol_injective {s s' : Sign} (h : s.symbol = s'.symbol) : s = s' := by
  cases s <;> cases s' <;> first | rfl | cases h

theorem Symbol.at_inj {s s' : Symbol} {p p' : Nat} : s.at p = s'.at p' ↔ s = s' ∧ p = p' := by
  simp [Symbol.at]

/-- Tokens that do not go on with a category. -/
def Stops : Category → List Token → Prop
  | .expression, ts | .terms, ts => ∀ op position us, ts ≠ (Operator.symbol op).at position :: us
  | .term, ts | .factors, ts =>
    ∀ op position us, op.isProduct = true → ts ≠ (Operator.symbol op).at position :: us
  | .factor, _ | .primary, _ => True
  | .arguments, ts | .others, ts => ∃ position us, ts = Symbol.closeParen.at position :: us

variable {rest rest' : List Token}

theorem Stops.product (h : Stops .expression rest) : Stops .term rest :=
  fun op position us _ => h op position us

theorem stops_paren (position : Nat) (us : List Token) :
    Stops .expression (Symbol.closeParen.at position :: us) := by
  intro op p us' h
  have hsymbol := (Symbol.at_inj.1 (List.cons.inj h).1).1
  cases op <;> cases hsymbol

theorem stops_comma (position : Nat) (us : List Token) :
    Stops .expression (Symbol.comma.at position :: us) := by
  intro op p us' h
  have hsymbol := (Symbol.at_inj.1 (List.cons.inj h).1).1
  cases op <;> cases hsymbol

namespace Derivation

theorem stops_terms (d : Derivation .terms) (h : Stops .expression rest) :
    Stops .term (d.tokens ++ rest) := by
  cases d with
  | noTerms => exact h.product
  | terms op hop position first more =>
    intro op' p us hop' heq
    have hsymbol := (Symbol.at_inj.1 (List.cons.inj heq).1).1
    rw [Operator.symbol_injective hsymbol] at hop
    exact Bool.false_ne_true (hop.symm.trans hop')

theorem stops_others (d : Derivation .others) (h : Stops .others rest) :
    Stops .expression (d.tokens ++ rest) := by
  cases d with
  | noOthers =>
    obtain ⟨position, us, rfl⟩ := h
    exact stops_paren position us
  | others comma first more => exact stops_comma comma _

/-- What is derived from an expression does not start with a closing parenthesis. -/
theorem tokens_ne_close : ∀ {k : Category} (d : Derivation k),
    (k = .expression ∨ k = .term ∨ k = .factor ∨ k = .primary) →
      ∀ position us, d.tokens ++ rest ≠ Symbol.closeParen.at position :: us := by
  intro k d
  induction d generalizing rest with
  | expression first more ih _ =>
    intro _ position us
    rw [tokens, List.append_assoc]
    exact ih (.inr (.inl rfl)) position us
  | term first more ih _ =>
    intro _ position us
    rw [tokens, List.append_assoc]
    exact ih (.inr (.inr (.inl rfl))) position us
  | primary p ih => exact fun _ => ih (.inr (.inr (.inr rfl)))
  | signed sign position operand =>
    intro _ p us h
    have hsymbol := (Symbol.at_inj.1 (List.cons.inj h).1).1
    cases sign <;> cases hsymbol
  | number => exact fun _ position us h => nomatch h
  | cell => exact fun _ position us h => nomatch h
  | range => exact fun _ position us h => nomatch h
  | call => exact fun _ position us h => nomatch h
  | paren => exact fun _ position us h => nomatch h
  | noTerms | terms | noFactors | factors | noArguments | arguments | noOthers | others =>
    exact fun hk => by simp at hk

theorem primary_ne_sign (p : Derivation .primary) (sign : Sign) (position : Nat) (us : List Token) :
    p.tokens ++ rest ≠ sign.symbol.at position :: us := by
  intro h
  cases p with
  | number | cell | range | call => nomatch h
  | paren =>
    have hsymbol := (Symbol.at_inj.1 (List.cons.inj h).1).1
    cases sign <;> cases hsymbol

/-- **Tokens have one derivation**, even if others follow that do not go on with it. -/
theorem unique_append : ∀ {k : Category} (d d' : Derivation k) {rest rest' : List Token},
    Stops k rest → Stops k rest' → d.tokens ++ rest = d'.tokens ++ rest' →
      d = d' ∧ rest = rest' := by
  intro k d
  -- The tokens of the first part are followed by those of the second, which do not go on with it,
  -- so the parts of both derivations are equal one after another.
  induction d with
  | expression first more ihfirst ihmore =>
    intro d' rest rest' hr hr' h
    cases d' with
    | expression first' more' =>
      simp only [tokens, List.append_assoc] at h
      obtain ⟨rfl, hmore⟩ := ihfirst first' (more.stops_terms hr) (more'.stops_terms hr') h
      obtain ⟨rfl, hrest⟩ := ihmore more' hr hr' hmore
      exact ⟨rfl, hrest⟩
  | noTerms =>
    intro d' rest rest' hr hr' h
    cases d' with
    | noTerms => exact ⟨rfl, h⟩
    | terms op hop position first more => exact absurd h (hr op position _)
  | terms op hop position first more ihfirst ihmore =>
    intro d' rest rest' hr hr' h
    cases d' with
    | noTerms => exact absurd h.symm (hr' op position _)
    | terms op' hop' position' first' more' =>
      simp only [tokens, List.cons_append, List.append_assoc, List.cons.injEq, Symbol.at_inj] at h
      obtain ⟨⟨hsymbol, rfl⟩, htail⟩ := h
      obtain rfl := Operator.symbol_injective hsymbol
      obtain ⟨rfl, hmore⟩ := ihfirst first' (more.stops_terms hr) (more'.stops_terms hr') htail
      obtain ⟨rfl, hrest⟩ := ihmore more' hr hr' hmore
      exact ⟨rfl, hrest⟩
  | term first more ihfirst ihmore =>
    intro d' rest rest' hr hr' h
    cases d' with
    | term first' more' =>
      simp only [tokens, List.append_assoc] at h
      obtain ⟨rfl, hmore⟩ := ihfirst first' trivial trivial h
      obtain ⟨rfl, hrest⟩ := ihmore more' hr hr' hmore
      exact ⟨rfl, hrest⟩
  | noFactors =>
    intro d' rest rest' hr hr' h
    cases d' with
    | noFactors => exact ⟨rfl, h⟩
    | factors op hop position first more => exact absurd h (hr op position _ hop)
  | factors op hop position first more ihfirst ihmore =>
    intro d' rest rest' hr hr' h
    cases d' with
    | noFactors => exact absurd h.symm (hr' op position _ hop)
    | factors op' hop' position' first' more' =>
      simp only [tokens, List.cons_append, List.append_assoc, List.cons.injEq, Symbol.at_inj] at h
      obtain ⟨⟨hsymbol, rfl⟩, htail⟩ := h
      obtain rfl := Operator.symbol_injective hsymbol
      obtain ⟨rfl, hmore⟩ := ihfirst first' trivial trivial htail
      obtain ⟨rfl, hrest⟩ := ihmore more' hr hr' hmore
      exact ⟨rfl, hrest⟩
  | signed sign position operand ih =>
    intro d' rest rest' _ _ h
    cases d' with
    | signed sign' position' operand' =>
      simp only [tokens, List.cons_append, List.cons.injEq, Symbol.at_inj] at h
      obtain ⟨⟨hsymbol, rfl⟩, htail⟩ := h
      obtain rfl := Sign.symbol_injective hsymbol
      obtain ⟨rfl, hrest⟩ := ih operand' trivial trivial htail
      exact ⟨rfl, hrest⟩
    | primary p => exact absurd h.symm (p.primary_ne_sign sign position _)
  | primary p ih =>
    intro d' rest rest' _ _ h
    cases d' with
    | signed sign position operand => exact absurd h (p.primary_ne_sign sign position _)
    | primary p' =>
      obtain ⟨rfl, hrest⟩ := ih p' trivial trivial h
      exact ⟨rfl, hrest⟩
  | number n position =>
    intro d' rest rest' _ _ h
    cases d' <;> simp [tokens, Symbol.at] at h
    obtain ⟨⟨rfl, rfl⟩, hrest⟩ := h
    exact ⟨rfl, hrest⟩
  | cell parts position =>
    intro d' rest rest' _ _ h
    cases d' <;> simp [tokens, Symbol.at] at h
    obtain ⟨⟨rfl, rfl⟩, hrest⟩ := h
    exact ⟨rfl, hrest⟩
  | range first last position =>
    intro d' rest rest' _ _ h
    cases d' <;> simp [tokens, Symbol.at] at h
    obtain ⟨⟨⟨rfl, rfl⟩, rfl⟩, hrest⟩ := h
    exact ⟨rfl, hrest⟩
  | call name position opening args closing ih =>
    intro d' rest rest' _ _ h
    cases d' <;> simp [tokens, Symbol.at] at h
    obtain ⟨⟨rfl, rfl⟩, rfl, hargs⟩ := h
    obtain ⟨rfl, hclosing⟩ := ih _ ⟨closing, rest, rfl⟩ ⟨_, rest', rfl⟩ hargs
    obtain ⟨rfl, hrest⟩ : _ ∧ rest = rest' := by simpa [Symbol.at] using hclosing
    exact ⟨rfl, hrest⟩
  | paren opening inner closing ih =>
    intro d' rest rest' _ _ h
    cases d' <;> simp [tokens, Symbol.at] at h
    obtain ⟨rfl, hinner⟩ := h
    obtain ⟨rfl, hclosing⟩ := ih _ (stops_paren closing rest) (stops_paren _ rest') hinner
    obtain ⟨rfl, hrest⟩ : _ ∧ rest = rest' := by simpa [Symbol.at] using hclosing
    exact ⟨rfl, hrest⟩
  | noArguments =>
    intro d' rest rest' hr hr' h
    cases d' with
    | noArguments => exact ⟨rfl, h⟩
    | arguments first more =>
      obtain ⟨position, us, rfl⟩ := hr
      simp only [tokens, List.append_assoc, List.nil_append] at h
      exact absurd h.symm (first.tokens_ne_close (.inl rfl) position us)
  | arguments first more ihfirst ihmore =>
    intro d' rest rest' hr hr' h
    cases d' with
    | noArguments =>
      obtain ⟨position, us, rfl⟩ := hr'
      simp only [tokens, List.append_assoc, List.nil_append] at h
      exact absurd h (first.tokens_ne_close (.inl rfl) position us)
    | arguments first' more' =>
      simp only [tokens, List.append_assoc] at h
      obtain ⟨rfl, hmore⟩ := ihfirst first' (more.stops_others hr) (more'.stops_others hr') h
      obtain ⟨rfl, hrest⟩ := ihmore more' hr hr' hmore
      exact ⟨rfl, hrest⟩
  | noOthers =>
    intro d' rest rest' hr hr' h
    cases d' with
    | noOthers => exact ⟨rfl, h⟩
    | others comma first more =>
      obtain ⟨position, us, rfl⟩ := hr
      simp [tokens, Symbol.at] at h
  | others comma first more ihfirst ihmore =>
    intro d' rest rest' hr hr' h
    cases d' with
    | noOthers =>
      obtain ⟨position, us, rfl⟩ := hr'
      simp [tokens, Symbol.at] at h
    | others comma' first' more' =>
      simp only [tokens, List.cons_append, List.append_assoc, List.cons.injEq, Symbol.at_inj] at h
      obtain ⟨⟨-, rfl⟩, htail⟩ := h
      obtain ⟨rfl, hmore⟩ := ihfirst first' (more.stops_others hr) (more'.stops_others hr') htail
      obtain ⟨rfl, hrest⟩ := ihmore more' hr hr' hmore
      exact ⟨rfl, hrest⟩

/-- **The grammar is unambiguous.** -/
theorem unique (d d' : Derivation .expression) (h : d.tokens = d'.tokens) : d = d' := by
  have hstops : Stops .expression [] := fun _ _ _ => nofun
  exact (unique_append d d' hstops hstops (by rw [h])).1

end Derivation

end Spreadsheet.Formula
