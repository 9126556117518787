import Spreadsheet.Proofs.Formula.Grammar
import Spreadsheet.Proofs.Formula.RowNumber

/-!
# Parsing is deriving

Reading the tokens of a derivation, with frames on the stack that its category does not complete,
leaves its tree. In the other direction the stack remembers how all that has been read is derived:
each frame of it stands for a part of a derivation that is still open, and the tokens of these
parts, put together, are the tokens read so far.

* `Derivation.run`: what reading a derivation does, by induction on it;
* `Opened`: what a stack of frames has been made of; `Reads`: a state;
* `Reads.step`, `Reads.run`: a token, and many;
* **`Expr.parse_iff_derivation`**: parsing finds the one derivation there is, and nothing else.
-/

namespace Spreadsheet.Formula

variable {s s' : State} {e : Expr} {stack : List Frame} {ts us : List Token}

/-! ## Runs -/

theorem State.run_cons_of_step {t : Token} (h : s.step t = some s') :
    s.run (t :: ts) = s'.run ts := by
  rw [State.run, h]

theorem State.run_append (h : s.run ts = .ok s') : s.run (ts ++ us) = s'.run us := by
  induction ts generalizing s with
  | nil =>
    obtain rfl := Except.ok.inj h
    rfl
  | cons t ts ih =>
    cases hstep : s.step t with
    | none => rw [State.run, hstep] at h; cases h
    | some next =>
      rw [State.run_cons_of_step hstep] at h
      rw [List.cons_append, State.run_cons_of_step hstep]
      exact ih h

/-! ## Frames

An operand completes the signs in front of it at once, a product at the end of the term and a sum
at the end of the expression. -/

/-- How early an operand completes a frame. -/
def Frame.rank : Frame → Nat
  | .sign _ => 3
  | .operation op _ => if op.isProduct then 2 else 1
  | .paren | .call .. => 0

/-- The frame on top of a stack, if there is one, has at most this rank. -/
def Below (n : Nat) : List Frame → Prop
  | [] => True
  | f :: _ => f.rank ≤ n

theorem Below.mono {m n : Nat} (h : Below m stack) (hle : m ≤ n) : Below n stack := by
  cases stack with
  | nil => trivial
  | cons f stack => exact Nat.le_trans h hle

theorem applySigns_of_below (h : Below 2 stack) : applySigns e stack = (e, stack) := by
  unfold applySigns
  split
  · exact absurd h (by simp [Below, Frame.rank])
  · rfl

theorem ofPrimary_of_below (h : Below 2 stack) : State.ofPrimary e stack = .complete e stack := by
  rw [State.ofPrimary, applySigns_of_below h]

theorem endProduct_of_below (h : Below 1 stack) : endProduct e stack = (e, stack) := by
  unfold endProduct
  split
  · rename_i op left base
    have hop : ¬ op.isProduct = true := fun hop => by simp [Below, Frame.rank, hop] at h
    rw [if_neg hop]
  · rfl

theorem endSum_of_below (h : Below 0 stack) : endSum e stack = (e, stack) := by
  unfold endSum
  split
  · rename_i op left base
    cases op <;> simp [Below, Frame.rank, Operator.isProduct] at h
  · rfl

theorem endProduct_product {op : Operator} {left : Expr} (hop : op.isProduct = true) :
    endProduct e (.operation op left :: stack) = endProduct (.binary op left e) stack := by
  rw [endProduct, if_pos hop]

theorem endProduct_endProduct (e' : Expr) :
    endProduct e' (endProduct e stack).2 = (e', (endProduct e stack).2) := by
  fun_induction endProduct e stack with
  | case1 e op left stack hop ih => exact ih
  | case2 e op left stack hop => rw [endProduct, if_neg hop]
  | case3 e stack hne =>
    rw [endProduct]
    exact hne

theorem endSum_endSum (e' : Expr) :
    endSum e' (endSum e stack).2 = (e', (endSum e stack).2) := by
  fun_induction endSum e stack with
  | case1 e op left stack ih => exact ih
  | case2 e stack hne =>
    rw [endSum]
    exact hne

/-- The end of a sum ends its last product first. -/
theorem endSum_endProduct :
    endSum (endProduct e stack).1 (endProduct e stack).2 = endSum e stack := by
  fun_induction endProduct e stack with
  | case1 e op left stack hop ih => rw [ih, endSum]
  | case2 => rfl
  | case3 => rfl

/-! ## Steps -/

theorem Operator.ofSymbol?_symbol (op : Operator) : Operator.ofSymbol? op.symbol = some op := by
  cases op <;> rfl

theorem Operator.symbol_of_ofSymbol? {op : Operator} {s : Symbol}
    (h : Operator.ofSymbol? s = some op) : op.symbol = s := by
  cases s <;> cases h <;> rfl

theorem Sign.symbol_of_ofSymbol? {sign : Sign} {s : Symbol}
    (h : Sign.ofSymbol? s = some sign) : sign.symbol = s := by
  cases s <;> cases h <;> rfl

theorem step_sign (sign : Sign) (position : Nat) :
    (State.operand stack).step (sign.symbol.at position) =
      some (.operand (.sign sign :: stack)) := by
  cases sign <;> rfl

theorem step_product {op : Operator} (hop : op.isProduct = true) (position : Nat) :
    (State.complete e stack).step (op.symbol.at position) =
      some (.operand (.operation op (endProduct e stack).1 :: (endProduct e stack).2)) := by
  show State.closeWith e stack op.symbol = _
  unfold State.closeWith
  simp only [Operator.ofSymbol?_symbol, hop, if_true]

theorem step_sum {op : Operator} (hop : op.isProduct = false) (position : Nat) :
    (State.complete e stack).step (op.symbol.at position) =
      some (.operand (.operation op (endSum e stack).1 :: (endSum e stack).2)) := by
  show State.closeWith e stack op.symbol = _
  unfold State.closeWith
  simp only [Operator.ofSymbol?_symbol, hop, Bool.false_eq_true, if_false]

theorem step_paren {e' : Expr} {base : List Frame} (position : Nat)
    (h : endSum e stack = (e', .paren :: base)) :
    (State.complete e stack).step (Symbol.closeParen.at position) = some (.ofPrimary e' base) := by
  show State.closeWith e stack .closeParen = _
  unfold State.closeWith
  simp only [Operator.ofSymbol?, h]

theorem step_call {e' : Expr} {name : List Char} {args : List Expr} {base : List Frame}
    (position : Nat) (h : endSum e stack = (e', .call name args :: base)) :
    (State.complete e stack).step (Symbol.closeParen.at position) =
      some (.ofPrimary (.call name (e' :: args).reverse) base) := by
  show State.closeWith e stack .closeParen = _
  unfold State.closeWith
  simp only [Operator.ofSymbol?, h]

theorem step_comma {e' : Expr} {name : List Char} {args : List Expr} {base : List Frame}
    (position : Nat) (h : endSum e stack = (e', .call name args :: base)) :
    (State.complete e stack).step (Symbol.comma.at position) =
      some (.operand (.call name (e' :: args) :: base)) := by
  show State.closeWith e stack .comma = _
  unfold State.closeWith
  simp only [Operator.ofSymbol?, h]

/-! ## Derivations are read -/

/-- What reading the tokens of a category does that has a tree. -/
def Reading : (k : Category) → List Token → k.Tree → Prop
  | .primary, ts, tree | .factor, ts, tree =>
    ∀ stack, (State.operand stack).run ts = .ok (.ofPrimary tree stack)
  | .factors, ts, tree => ∀ e stack, ∃ e' stack',
    (State.complete e stack).run ts = .ok (.complete e' stack') ∧
      endProduct e' stack' = (tree (endProduct e stack).1, (endProduct e stack).2)
  | .term, ts, tree => ∀ stack, Below 1 stack → ∃ e' stack',
    (State.operand stack).run ts = .ok (.complete e' stack') ∧
      endProduct e' stack' = (tree, stack)
  | .terms, ts, tree => ∀ e stack, ∃ e' stack',
    (State.complete e stack).run ts = .ok (.complete e' stack') ∧
      endSum e' stack' = (tree (endSum e stack).1, (endSum e stack).2)
  | .expression, ts, tree => ∀ stack, Below 0 stack → ∃ e' stack',
    (State.operand stack).run ts = .ok (.complete e' stack') ∧ endSum e' stack' = (tree, stack)
  | .arguments, ts, trees => ∀ name stack closing,
    (State.operand (.call name [] :: stack)).run (ts ++ [Symbol.closeParen.at closing]) =
      .ok (.ofPrimary (.call name trees) stack)
  | .others, ts, trees => ∀ e stack e' name args base closing,
    endSum e stack = (e', .call name args :: base) →
      (State.complete e stack).run (ts ++ [Symbol.closeParen.at closing]) =
        .ok (.ofPrimary (.call name ((e' :: args).reverse ++ trees)) base)

/-- **Reading a derivation** makes its tree. -/
theorem Derivation.run {k : Category} (d : Derivation k) : Reading k d.tokens d.tree := by
  induction d with
  | number n position => exact fun stack => rfl
  | cell parts position => exact fun stack => rfl
  | range first last position => exact fun stack => rfl
  | primary p ih => exact ih
  | signed sign position operand ih =>
    intro stack
    rw [tokens, State.run_cons_of_step (step_sign sign position), ih]
    rfl
  | call name position opening args closing ih =>
    intro stack
    exact ih name stack closing
  | paren opening inner closing ih =>
    intro stack
    obtain ⟨e, stack', hrun, hsum⟩ := ih (.paren :: stack) (Nat.le_refl 0)
    have hopen : (State.operand stack).step (Symbol.openParen.at opening) =
      some (.operand (.paren :: stack)) := rfl
    rw [tokens, State.run_cons_of_step hopen, State.run_append hrun,
      State.run_cons_of_step (step_paren closing hsum)]
    rfl
  | noFactors => exact fun e stack => ⟨e, stack, rfl, rfl⟩
  | factors op hop position first more ihfirst ihmore =>
    intro e stack
    have hbelow : Below 2 (.operation op (endProduct e stack).1 :: (endProduct e stack).2) := by
      simp [Below, Frame.rank, hop]
    -- The operator ends the product so far, which then waits on top of the stack.
    obtain ⟨e', stack', hrun, hproduct⟩ := ihmore first.tree
      (.operation op (endProduct e stack).1 :: (endProduct e stack).2)
    refine ⟨e', stack', ?_, ?_⟩
    · rw [tokens, State.run_cons_of_step (step_product hop position),
        State.run_append (ihfirst _), ofPrimary_of_below hbelow, hrun]
    · rw [hproduct, endProduct_product hop, endProduct_endProduct]
      rfl
  | term first more ihfirst ihmore =>
    intro stack hbelow
    obtain ⟨e', stack', hrun, hproduct⟩ := ihmore first.tree stack
    rw [endProduct_of_below hbelow] at hproduct
    refine ⟨e', stack', ?_, hproduct⟩
    rw [tokens, State.run_append (ihfirst stack), ofPrimary_of_below (hbelow.mono (by omega)),
      hrun]
  | noTerms => exact fun e stack => ⟨e, stack, rfl, rfl⟩
  | terms op hop position first more ihfirst ihmore =>
    intro e stack
    have hbelow : Below 1 (.operation op (endSum e stack).1 :: (endSum e stack).2) := by
      simp [Below, Frame.rank, hop]
    obtain ⟨e', stack', hrun, hproduct⟩ := ihfirst _ hbelow
    have hsum : endSum e' stack' =
        (.binary op (endSum e stack).1 first.tree, (endSum e stack).2) := by
      rw [← endSum_endProduct, hproduct, endSum, endSum_endSum]
    obtain ⟨e'', stack'', hrun', hsum'⟩ := ihmore e' stack'
    refine ⟨e'', stack'', ?_, ?_⟩
    · rw [tokens, State.run_cons_of_step (step_sum hop position), State.run_append hrun, hrun']
    · rw [hsum', hsum]
      rfl
  | expression first more ihfirst ihmore =>
    intro stack hbelow
    obtain ⟨e', stack', hrun, hproduct⟩ := ihfirst stack (hbelow.mono (by omega))
    obtain ⟨e'', stack'', hrun', hsum⟩ := ihmore e' stack'
    rw [← endSum_endProduct (e := e'), hproduct, endSum_of_below hbelow] at hsum
    refine ⟨e'', stack'', ?_, hsum⟩
    rw [tokens, State.run_append hrun, hrun']
  | noArguments => exact fun name stack closing => rfl
  | arguments first more ihfirst ihmore =>
    intro name stack closing
    obtain ⟨e, stack', hrun, hsum⟩ := ihfirst (.call name [] :: stack) (Nat.le_refl 0)
    rw [tokens, List.append_assoc, State.run_append hrun,
      ihmore e stack' first.tree name [] stack closing hsum]
    rfl
  | noOthers =>
    intro e stack e' name args base closing hsum
    rw [tokens, List.nil_append, State.run_cons_of_step (step_call closing hsum), tree,
      List.append_nil]
    rfl
  | others comma first more ihfirst ihmore =>
    intro e stack e' name args base closing hsum
    obtain ⟨e₁, stack₁, hrun, hsum₁⟩ := ihfirst (.call name (e' :: args) :: base) (Nat.le_refl 0)
    rw [tokens, List.cons_append, State.run_cons_of_step (step_comma comma hsum), List.append_assoc,
      State.run_append hrun, ihmore e₁ stack₁ first.tree name (e' :: args) base closing hsum₁,
      tree, List.reverse_cons, List.append_assoc]
    rfl

/-! ## What a stack is made of -/

/-- The tokens that have been read for the frames of a stack. A frame stands for the part of a
derivation in front of the operand that is waited for. -/
inductive Opened : List Token → List Frame → Prop where
  | nil : Opened [] []
  | sign {ts : List Token} {stack : List Frame} (h : Opened ts stack) (sign : Sign)
    (position : Nat) : Opened (ts ++ [sign.symbol.at position]) (.sign sign :: stack)
  | product {ts : List Token} {stack : List Frame} (h : Opened ts stack) (hbelow : Below 1 stack)
    (d : Derivation .term) (op : Operator) (hop : op.isProduct = true) (position : Nat) :
    Opened (ts ++ (d.tokens ++ [op.symbol.at position])) (.operation op d.tree :: stack)
  | sum {ts : List Token} {stack : List Frame} (h : Opened ts stack) (hbelow : Below 0 stack)
    (d : Derivation .expression) (op : Operator) (hop : op.isProduct = false) (position : Nat) :
    Opened (ts ++ (d.tokens ++ [op.symbol.at position])) (.operation op d.tree :: stack)
  | paren {ts : List Token} {stack : List Frame} (h : Opened ts stack) (position : Nat) :
    Opened (ts ++ [Symbol.openParen.at position]) (.paren :: stack)
  | call {ts : List Token} {stack : List Frame} (h : Opened ts stack) (name : List Char)
    (position opening : Nat) :
    Opened (ts ++ [⟨.name name, position⟩, Symbol.openParen.at opening]) (.call name [] :: stack)
  | argument {ts : List Token} {stack : List Frame} {name : List Char} {args : List Expr}
    (h : Opened ts (.call name args :: stack)) (d : Derivation .expression) (comma : Nat) :
    Opened (ts ++ (d.tokens ++ [Symbol.comma.at comma])) (.call name (d.tree :: args) :: stack)

namespace Derivation

theorem exists_factors_snoc (d : Derivation .factors) {op : Operator} (hop : op.isProduct = true)
    (position : Nat) (last : Derivation .factor) : ∃ d' : Derivation .factors,
      d'.tokens = d.tokens ++ op.symbol.at position :: last.tokens ∧
        ∀ left, d'.tree left = .binary op (d.tree left) last.tree := by
  match d with
  | noFactors =>
    exact ⟨factors op hop position last noFactors, by simp [tokens], fun _ => rfl⟩
  | factors op' hop' position' first more =>
    obtain ⟨more', htokens, htree⟩ := more.exists_factors_snoc hop position last
    exact ⟨factors op' hop' position' first more', by simp [tokens, htokens],
      fun left => htree _⟩

theorem exists_term_snoc (d : Derivation .term) {op : Operator} (hop : op.isProduct = true)
    (position : Nat) (last : Derivation .factor) : ∃ d' : Derivation .term,
      d'.tokens = d.tokens ++ op.symbol.at position :: last.tokens ∧
        d'.tree = .binary op d.tree last.tree := by
  cases d with
  | term first more =>
    obtain ⟨more', htokens, htree⟩ := more.exists_factors_snoc hop position last
    exact ⟨term first more', by simp [tokens, htokens], htree _⟩

theorem exists_terms_snoc (d : Derivation .terms) {op : Operator} (hop : op.isProduct = false)
    (position : Nat) (last : Derivation .term) : ∃ d' : Derivation .terms,
      d'.tokens = d.tokens ++ op.symbol.at position :: last.tokens ∧
        ∀ left, d'.tree left = .binary op (d.tree left) last.tree := by
  match d with
  | noTerms =>
    exact ⟨terms op hop position last noTerms, by simp [tokens], fun _ => rfl⟩
  | terms op' hop' position' first more =>
    obtain ⟨more', htokens, htree⟩ := more.exists_terms_snoc hop position last
    exact ⟨terms op' hop' position' first more', by simp [tokens, htokens],
      fun left => htree _⟩

theorem exists_expression_snoc (d : Derivation .expression) {op : Operator}
    (hop : op.isProduct = false) (position : Nat) (last : Derivation .term) :
    ∃ d' : Derivation .expression,
      d'.tokens = d.tokens ++ op.symbol.at position :: last.tokens ∧
        d'.tree = .binary op d.tree last.tree := by
  cases d with
  | expression first more =>
    obtain ⟨more', htokens, htree⟩ := more.exists_terms_snoc hop position last
    exact ⟨expression first more', by simp [tokens, htokens], htree _⟩

theorem exists_others_snoc (d : Derivation .others) (comma : Nat)
    (last : Derivation .expression) : ∃ d' : Derivation .others,
      d'.tokens = d.tokens ++ Symbol.comma.at comma :: last.tokens ∧
        d'.tree = d.tree ++ [last.tree] := by
  match d with
  | noOthers => exact ⟨others comma last noOthers, by simp [tokens], rfl⟩
  | others comma' first more =>
    obtain ⟨more', htokens, htree⟩ := more.exists_others_snoc comma last
    exact ⟨others comma' first more', by simp [tokens, htokens], by simp [tree, htree]⟩

end Derivation

namespace Opened

variable {name : List Char} {args : List Expr}

theorem eq_nil (h : Opened ts []) : ts = [] := by
  cases h
  rfl

theorem of_paren (h : Opened ts (.paren :: stack)) :
    ∃ front position, Opened front stack ∧ ts = front ++ [Symbol.openParen.at position] := by
  cases h with
  | paren h position => exact ⟨_, position, h, rfl⟩

/-- The arguments of a call, read up to one more expression. -/
theorem of_call (h : Opened ts (.call name args :: stack)) (last : Derivation .expression) :
    ∃ front position opening, Opened front stack ∧ ∃ first : Derivation .expression,
      ∃ more : Derivation .others,
        ts ++ last.tokens = front ++ ⟨.name name, position⟩ :: Symbol.openParen.at opening ::
          (first.tokens ++ more.tokens) ∧
        first.tree :: more.tree = (last.tree :: args).reverse := by
  generalize hstack : Frame.call name args :: stack = frames at h
  -- The arguments are derived in the order in which they were read, the stack holds them reversed.
  induction h generalizing args last with
  | nil | sign | product | sum | paren => cases hstack
  | call h name position opening =>
    cases hstack
    exact ⟨_, position, opening, h, last, .noOthers, by simp [Derivation.tokens], rfl⟩
  | argument h d comma ih =>
    cases hstack
    obtain ⟨front, position, opening, hfront, first, more, htokens, htree⟩ := ih d rfl
    obtain ⟨more', htokens', htree'⟩ := more.exists_others_snoc comma last
    refine ⟨front, position, opening, hfront, first, more', ?_, ?_⟩
    · rw [htokens', ← List.append_assoc, htokens]
      simp
    · rw [htree', List.reverse_cons, ← htree]
      rfl

/-- A factor takes the signs in front of it. -/
theorem takeSigns (h : Opened ts stack) (d : Derivation .factor) :
    ∃ front, ∃ d' : Derivation .factor, Opened front (applySigns d.tree stack).2 ∧
      Below 2 (applySigns d.tree stack).2 ∧
      d'.tree = (applySigns d.tree stack).1 ∧ ts ++ d.tokens = front ++ d'.tokens := by
  induction h generalizing d with
  | sign h sign position ih =>
    obtain ⟨front, d', hfront, hbelow, htree, htokens⟩ := ih (.signed sign position d)
    exact ⟨front, d', hfront, hbelow, htree, by rw [← htokens]; simp [Derivation.tokens]⟩
  | nil => exact ⟨_, d, .nil, trivial, rfl, rfl⟩
  | product h hbelow d₀ op hop position =>
    exact ⟨_, d, .product h hbelow d₀ op hop position,
      by simp [applySigns, Below, Frame.rank, hop], rfl, rfl⟩
  | sum h hbelow d₀ op hop position =>
    exact ⟨_, d, .sum h hbelow d₀ op hop position,
      by simp [applySigns, Below, Frame.rank, hop], rfl, rfl⟩
  | paren h position => exact ⟨_, d, .paren h position, Nat.zero_le _, rfl, rfl⟩
  | call h name position opening =>
    exact ⟨_, d, .call h name position opening, Nat.zero_le _, rfl, rfl⟩
  | argument h d₀ comma => exact ⟨_, d, .argument h d₀ comma, Nat.zero_le _, rfl, rfl⟩

/-- A factor ends a product. -/
theorem closeProduct (h : Opened ts stack) (hbelow : Below 2 stack) (d : Derivation .factor) :
    ∃ front, ∃ d' : Derivation .term, Opened front (endProduct d.tree stack).2 ∧
      Below 1 (endProduct d.tree stack).2 ∧
      d'.tree = (endProduct d.tree stack).1 ∧ ts ++ d.tokens = front ++ d'.tokens := by
  by_cases hone : Below 1 stack
  · rw [endProduct_of_below hone]
    exact ⟨ts, .term d .noFactors, h, hone, rfl, by simp [Derivation.tokens]⟩
  · -- Only an open product has rank two, and there is none below it.
    cases h with
    | product h hrest d₀ op hop position =>
      obtain ⟨d', htokens, htree⟩ := d₀.exists_term_snoc hop position d
      rw [endProduct_product hop, endProduct_of_below hrest]
      exact ⟨_, d', h, hrest, htree, by simp [htokens]⟩
    | sum h hrest d₀ op hop position => exact absurd (by simp [Below, Frame.rank, hop]) hone
    | sign => exact absurd hbelow (by simp [Below, Frame.rank])
    | nil => exact absurd trivial hone
    | paren | call | argument => exact absurd (Nat.zero_le _) hone

/-- A term ends a sum. -/
theorem closeSum (h : Opened ts stack) (hbelow : Below 1 stack) (d : Derivation .term) :
    ∃ front, ∃ d' : Derivation .expression, Opened front (endSum d.tree stack).2 ∧
      Below 0 (endSum d.tree stack).2 ∧
      d'.tree = (endSum d.tree stack).1 ∧ ts ++ d.tokens = front ++ d'.tokens := by
  by_cases hzero : Below 0 stack
  · rw [endSum_of_below hzero]
    exact ⟨ts, .expression d .noTerms, h, hzero, rfl, by simp [Derivation.tokens]⟩
  · cases h with
    | sum h hrest d₀ op hop position =>
      obtain ⟨d', htokens, htree⟩ := d₀.exists_expression_snoc hop position d
      rw [endSum, endSum_of_below hrest]
      exact ⟨_, d', h, hrest, htree, by simp [htokens]⟩
    | product h hrest d₀ op hop position =>
      exact absurd hbelow (by simp [Below, Frame.rank, hop])
    | sign => exact absurd hbelow (by simp [Below, Frame.rank])
    | nil => exact absurd trivial hzero
    | paren | call | argument => exact absurd (Nat.zero_le _) hzero

theorem closeExpression (h : Opened ts stack) (hbelow : Below 2 stack) (d : Derivation .factor) :
    ∃ front, ∃ d' : Derivation .expression, Opened front (endSum d.tree stack).2 ∧
      Below 0 (endSum d.tree stack).2 ∧
      d'.tree = (endSum d.tree stack).1 ∧ ts ++ d.tokens = front ++ d'.tokens := by
  obtain ⟨front, d₁, h₁, hbelow₁, htree₁, htokens₁⟩ := h.closeProduct hbelow d
  rw [htokens₁, ← endSum_endProduct, ← htree₁]
  exact h₁.closeSum hbelow₁ d₁

end Opened

/-! ## Everything that is read is derived -/

/-- The tokens that have been read when a state is reached. -/
def Reads (ts : List Token) : State → Prop
  | .operand stack => Opened ts stack
  | .arguments name stack =>
    ∃ front position, Opened front stack ∧ ts = front ++ [⟨.name name, position⟩]
  | .complete e stack => ∃ front, ∃ d : Derivation .factor,
    Opened front stack ∧ Below 2 stack ∧ d.tree = e ∧ ts = front ++ d.tokens

theorem Opened.ofPrimary (h : Opened ts stack) (d : Derivation .primary) :
    Reads (ts ++ d.tokens) (.ofPrimary d.tree stack) := by
  obtain ⟨front, d', hfront, hbelow, htree, htokens⟩ := h.takeSigns (.primary d)
  exact ⟨front, d', hfront, hbelow, htree, htokens⟩

theorem Opened.step {t : Token} (h : Opened ts stack)
    (hstep : (State.operand stack).step t = some s) : Reads (ts ++ [t]) s := by
  obtain ⟨lexeme, position⟩ := t
  cases lexeme with
  | number n =>
    cases hstep
    exact h.ofPrimary (.number n position)
  | cell parts =>
    cases hstep
    exact h.ofPrimary (.cell parts position)
  | range first last =>
    cases hstep
    exact h.ofPrimary (.range first last position)
  | name letters =>
    cases hstep
    exact ⟨ts, position, h, rfl⟩
  | symbol c =>
    change State.openWith stack c = some s at hstep
    unfold State.openWith at hstep
    split at hstep
    · rename_i sign hsign
      cases hstep
      rw [← Sign.symbol_of_ofSymbol? hsign]
      exact h.sign sign position
    · split at hstep
      · cases hstep
        exact h.paren position
      · rename_i name base _
        cases hstep
        cases h with
        | call h name position' opening =>
          rw [List.append_assoc]
          exact h.ofPrimary (.call name position' opening .noArguments position)
      · cases hstep

theorem Opened.operation (h : Opened ts stack) (hbelow : Below 2 stack) (d : Derivation .factor)
    (op : Operator) (position : Nat)
    (hstep : (State.complete d.tree stack).step (op.symbol.at position) = some s) :
    Reads (ts ++ d.tokens ++ [op.symbol.at position]) s := by
  by_cases hop : op.isProduct = true
  · obtain ⟨front, d', hfront, hbelow', htree, htokens⟩ := h.closeProduct hbelow d
    rw [step_product hop, ← htree] at hstep
    cases hstep
    rw [htokens, List.append_assoc]
    exact hfront.product hbelow' d' op hop position
  · rw [Bool.not_eq_true] at hop
    obtain ⟨front, d', hfront, hbelow', htree, htokens⟩ := h.closeExpression hbelow d
    rw [step_sum hop, ← htree] at hstep
    cases hstep
    rw [htokens, List.append_assoc]
    exact hfront.sum hbelow' d' op hop position

/-- What an expression closes. -/
theorem Opened.close {frames : List Frame} (h : Opened ts frames) (d : Derivation .expression)
    (hsum : endSum e stack = (d.tree, frames)) {c : Symbol} (hc : Operator.ofSymbol? c = none)
    (position : Nat) (hstep : (State.complete e stack).step (c.at position) = some s) :
    Reads (ts ++ d.tokens ++ [c.at position]) s := by
  change State.closeWith e stack c = some s at hstep
  unfold State.closeWith at hstep
  simp only [hc, hsum] at hstep
  split at hstep
  · rename_i hframes
    cases hstep
    obtain ⟨rfl, rfl⟩ := Prod.mk.inj hframes
    obtain ⟨front, opening, hfront, rfl⟩ := h.of_paren
    have hreads := hfront.ofPrimary (.paren opening d position)
    simpa [Derivation.tokens, Derivation.tree] using hreads
  · rename_i name args base hframes
    cases hstep
    obtain ⟨rfl, rfl⟩ := Prod.mk.inj hframes
    obtain ⟨front, start, opening, hfront, first, more, htokens, htrees⟩ := h.of_call d
    have hreads := hfront.ofPrimary (.call name start opening (.arguments first more) position)
    rw [← htrees, htokens]
    simpa [Derivation.tokens, Derivation.tree] using hreads
  · rename_i hframes
    cases hstep
    obtain ⟨rfl, rfl⟩ := Prod.mk.inj hframes
    rw [List.append_assoc]
    exact h.argument d position
  · cases hstep

/-- **One token** is added to what has been read. -/
theorem Reads.step {t : Token} (h : Reads ts s) (hstep : s.step t = some s') :
    Reads (ts ++ [t]) s' := by
  cases s with
  | operand stack => exact Opened.step h hstep
  | arguments name stack =>
    obtain ⟨front, position, hfront, rfl⟩ := h
    obtain ⟨lexeme, opening⟩ := t
    cases lexeme with
    | number | cell | range | name => cases hstep
    | symbol c =>
      cases c <;> cases hstep
      rw [List.append_assoc]
      exact hfront.call name position opening
  | complete e stack =>
    obtain ⟨front, d, hfront, hbelow, rfl, rfl⟩ := h
    obtain ⟨lexeme, position⟩ := t
    cases lexeme with
    | number | cell | range | name => cases hstep
    | symbol c =>
      cases hop : Operator.ofSymbol? c with
      | some op =>
        obtain rfl := Operator.symbol_of_ofSymbol? hop
        exact hfront.operation hbelow d op position hstep
      | none =>
        obtain ⟨front', d', hfront', -, htree, htokens⟩ := hfront.closeExpression hbelow d
        rw [htokens]
        exact hfront'.close d' (by rw [htree]) hop position hstep

theorem Reads.run (h : Reads ts s) (hrun : s.run us = .ok s') : Reads (ts ++ us) s' := by
  induction us generalizing ts s with
  | nil =>
    obtain rfl := Except.ok.inj hrun
    rwa [List.append_nil]
  | cons u us ih =>
    rw [State.run] at hrun
    split at hrun
    · rename_i next hstep
      have hreads := ih (h.step hstep) hrun
      rwa [List.append_assoc] at hreads
    · cases hrun

theorem Reads.finish (h : Reads ts s) (hfinish : s.finish? = some e) :
    ∃ d : Derivation .expression, d.tokens = ts ∧ d.tree = e := by
  cases s with
  | operand stack => cases hfinish
  | arguments name stack => cases hfinish
  | complete e' stack =>
    obtain ⟨front, d, hfront, hbelow, rfl, rfl⟩ := h
    obtain ⟨front', d', hfront', -, htree, htokens⟩ := hfront.closeExpression hbelow d
    rcases hsum : endSum d.tree stack with ⟨e', frames⟩
    simp only [State.finish?, hsum] at hfinish
    rw [hsum] at hfront' htree
    cases frames with
    | nil =>
      cases hfinish
      rw [hfront'.eq_nil] at htokens
      exact ⟨d', htokens.symm, htree⟩
    | cons f frames => cases hfinish

/-! ## Parsing -/

theorem Derivation.parse (d : Derivation .expression) :
    ∃ s, (State.operand []).run d.tokens = .ok s ∧ s.finish? = some d.tree := by
  obtain ⟨e, stack, hrun, hsum⟩ := d.run [] trivial
  exact ⟨_, hrun, by simp only [State.finish?, hsum]⟩

/-- What it takes to parse a body. -/
theorem Expr.parse_eq_ok {body : String} : Expr.parse body = .ok e ↔
    (lex body).stuck? = none ∧
      ∃ s, (State.operand []).run (lex body).tokens = .ok s ∧ s.finish? = some e := by
  unfold Expr.parse
  cases hrun : (State.operand []).run (lex body).tokens with
  | error r => simp [hrun, bind, Except.bind]
  | ok s =>
    simp only [hrun, bind, Except.bind, Except.ok.injEq, exists_eq_left']
    cases (lex body).stuck? with
    | some stuck => simp [throw, throwThe, MonadExceptOf.throw]
    | none =>
      cases s.finish? with
      | none => simp [throw, throwThe, MonadExceptOf.throw]
      | some e' => simp [pure, Except.pure]

theorem Expr.exists_derivation {body : String} (h : Expr.parse body = .ok e) :
    ∃ d : Derivation .expression, d.tokens = (lex body).tokens ∧ d.tree = e := by
  obtain ⟨-, s, hrun, hfinish⟩ := Expr.parse_eq_ok.1 h
  have hstart : Reads [] (.operand []) := Opened.nil
  exact (hstart.run hrun).finish hfinish

/-- **Parsing decides the grammar.** A body has a tree if it can be cut into tokens that are
derived from an expression, the tree is that of the derivation, and there is one derivation only. -/
theorem Expr.parse_iff_derivation (body : String) :
    (∀ e, Expr.parse body = .ok e ↔ (lex body).stuck? = none ∧
      ∃ d : Derivation .expression, d.tokens = (lex body).tokens ∧ d.tree = e) ∧
    {d : Derivation .expression | d.tokens = (lex body).tokens}.Subsingleton := by
  refine ⟨fun e => ⟨fun h => ?_, fun ⟨hstuck, d, htokens, htree⟩ => ?_⟩,
    fun d hd d' hd' => d.unique d' (hd.trans hd'.symm)⟩
  · exact ⟨(Expr.parse_eq_ok.1 h).1, Expr.exists_derivation h⟩
  · obtain ⟨s, hrun, hfinish⟩ := d.parse
    exact Expr.parse_eq_ok.2 ⟨hstuck, s, htokens ▸ hrun, htree ▸ hfinish⟩

end Spreadsheet.Formula
