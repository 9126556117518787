import Spreadsheet.Proofs.Formula.Context
import Spreadsheet.Proofs.Formula.Cutting
import Spreadsheet.Proofs.Formula.Naming
import Spreadsheet.Proofs.Formula.Rewriting

/-!
# Where the parts of a tree are written

Every part of the tree of a body is written in one stretch of the body, parentheses around it
included or not. The stretch is a body with the part as its tree, and if a reference is written in
its stead, the new body has the tree with the reference in the place of the part.

* `Makes`: tokens of an operand; `Surrounds`: tokens around one, with the context that they make;
* `Surrounds.makes`: an operand in its surroundings; **`Derivation.analysis`**: every part of the
  tree of an operand is an operand in surroundings;
* `Occurs`: a stretch of a text with a part; **`exists_occurs`**;
* **`Occurs.parse_part`**, **`Occurs.parse_replaced`**: the two new bodies.
-/

namespace Spreadsheet.Formula

open Reference (Parts)

variable {j k : Category} {ts us vs : List Token} {C : Context} {e s l r : Expr}

/-! ## Operands -/

/-- Tokens that make an operand of a category, and its tree. -/
def Makes : Category → List Token → Expr → Prop
  | .expression, ts, e => ∃ d : Derivation .expression, d.tokens = ts ∧ d.tree = e
  | .term, ts, e => ∃ d : Derivation .term, d.tokens = ts ∧ d.tree = e
  | .factor, ts, e => ∃ d : Derivation .factor, d.tokens = ts ∧ d.tree = e
  | .primary, ts, e => ∃ d : Derivation .primary, d.tokens = ts ∧ d.tree = e
  | .terms, _, _ | .factors, _, _ | .arguments, _, _ | .others, _, _ => False

/-- The category of an operation, which is that of its left side. -/
def Operator.whole (op : Operator) : Category := if op.isProduct then .term else .expression

/-- The category of the right side of an operation. -/
def Operator.rightSide (op : Operator) : Category := if op.isProduct then .factor else .term

variable {op : Operator}

theorem Operator.whole_product (hop : op.isProduct = true) : op.whole = .term := if_pos hop

theorem Operator.rightSide_product (hop : op.isProduct = true) : op.rightSide = .factor :=
  if_pos hop

theorem Operator.whole_sum (hop : op.isProduct = false) : op.whole = .expression :=
  if_neg (Bool.not_eq_true _ ▸ hop)

theorem Operator.rightSide_sum (hop : op.isProduct = false) : op.rightSide = .term :=
  if_neg (Bool.not_eq_true _ ▸ hop)

theorem Makes.binary (hl : Makes op.whole ts l) (hr : Makes op.rightSide us r) (position : Nat) :
    Makes op.whole (ts ++ op.symbol.at position :: us) (.binary op l r) := by
  cases hop : op.isProduct with
  | true =>
    rw [Operator.whole_product hop] at hl ⊢
    rw [Operator.rightSide_product hop] at hr
    obtain ⟨dl, rfl, rfl⟩ := hl
    obtain ⟨dr, rfl, rfl⟩ := hr
    exact dl.exists_term_snoc hop position dr
  | false =>
    rw [Operator.whole_sum hop] at hl ⊢
    rw [Operator.rightSide_sum hop] at hr
    obtain ⟨dl, rfl, rfl⟩ := hl
    obtain ⟨dr, rfl, rfl⟩ := hr
    exact dl.exists_expression_snoc hop position dr

theorem Makes.signed (h : Makes .factor ts e) (sign : Sign) (position : Nat) :
    Makes .factor (sign.symbol.at position :: ts) (.signed sign e) := by
  obtain ⟨d, htokens, htree⟩ := h
  exact ⟨.signed sign position d, congrArg _ htokens, congrArg _ htree⟩

theorem Makes.term (h : Makes .factor ts e) : Makes .term ts e := by
  obtain ⟨d, rfl, rfl⟩ := h
  exact ⟨.term d .noFactors, List.append_nil _, rfl⟩

theorem Makes.expression (h : Makes k ts e) : Makes .expression ts e := by
  have hterm {us : List Token} {e : Expr} (h : Makes .term us e) : Makes .expression us e := by
    obtain ⟨d, rfl, rfl⟩ := h
    exact ⟨.expression d .noTerms, List.append_nil _, rfl⟩
  cases k with
  | expression => exact h
  | term => exact hterm h
  | factor => exact hterm h.term
  | primary =>
    obtain ⟨d, rfl, rfl⟩ := h
    exact hterm (Makes.term ⟨.primary d, rfl, rfl⟩)
  | terms | factors | arguments | others => exact h.elim

/-- A reference is an operand of every category that has operands. -/
theorem Makes.cell (h : Makes k ts e) (p : Parts) (position : Nat) :
    Makes k [⟨.cell p, position⟩] (.cell p position) := by
  let d : Derivation .factor := .primary (.cell p position)
  cases k with
  | expression => exact ⟨.expression (.term d .noFactors) .noTerms, rfl, rfl⟩
  | term => exact ⟨.term d .noFactors, rfl, rfl⟩
  | factor => exact ⟨d, rfl, rfl⟩
  | primary => exact ⟨.cell p position, rfl, rfl⟩
  | terms | factors | arguments | others => exact h.elim

/-! ## Operands in their surroundings -/

/-- The tokens of arguments, each with the comma behind it. -/
def leading (ds : List (Derivation .expression × Nat)) : List Token :=
  ds.flatMap fun d => d.1.tokens ++ [Symbol.comma.at d.2]

/-- Tokens in front of an operand of one category and behind it that make an operand of another
category of it, and the context that its tree gets into. -/
inductive Surrounds (j : Category) : Category → List Token → List Token → Context → Prop where
  | here : Surrounds j j [] [] .hole
  | term {ts us : List Token} {C : Context} (h : Surrounds j .term ts us C) :
    Surrounds j .expression ts us C
  | factor {ts us : List Token} {C : Context} (h : Surrounds j .factor ts us C) :
    Surrounds j .term ts us C
  | primary {ts us : List Token} {C : Context} (h : Surrounds j .primary ts us C) :
    Surrounds j .factor ts us C
  | left {op : Operator} {ts us vs : List Token} {C : Context} {r : Expr}
    (h : Surrounds j op.whole ts us C) (position : Nat) (hr : Makes op.rightSide vs r) :
    Surrounds j op.whole ts (us ++ op.symbol.at position :: vs) (.left op C r)
  | right {op : Operator} {ts us vs : List Token} {C : Context} {l : Expr}
    (hl : Makes op.whole vs l) (position : Nat) (h : Surrounds j op.rightSide ts us C) :
    Surrounds j op.whole (vs ++ op.symbol.at position :: ts) us (.right op l C)
  | signed {ts us : List Token} {C : Context} (sign : Sign) (position : Nat)
    (h : Surrounds j .factor ts us C) :
    Surrounds j .factor (sign.symbol.at position :: ts) us (.signed sign C)
  | paren {ts us : List Token} {C : Context} (opening : Nat) (h : Surrounds j .expression ts us C)
    (closing : Nat) :
    Surrounds j .primary (Symbol.openParen.at opening :: ts)
      (us ++ [Symbol.closeParen.at closing]) C
  | argument {ts us : List Token} {C : Context} (name : List Char) (position opening : Nat)
    (before : List (Derivation .expression × Nat)) (h : Surrounds j .expression ts us C)
    (after : Derivation .others) (closing : Nat) :
    Surrounds j .primary
      (⟨.name name, position⟩ :: Symbol.openParen.at opening :: (leading before ++ ts))
      (us ++ (after.tokens ++ [Symbol.closeParen.at closing]))
      (.argument name (before.map (·.1.tree)) C after.tree)

/-- Arguments that follow others. -/
theorem exists_arguments (before : List (Derivation .expression × Nat))
    (d : Derivation .expression) (after : Derivation .others) : ∃ args : Derivation .arguments,
      args.tokens = leading before ++ (d.tokens ++ after.tokens) ∧
        args.tree = before.map (·.1.tree) ++ d.tree :: after.tree := by
  have hfirst : ∃ (first : Derivation .expression) (more : Derivation .others),
      first.tokens ++ more.tokens = leading before ++ (d.tokens ++ after.tokens) ∧
        first.tree :: more.tree = before.map (·.1.tree) ++ d.tree :: after.tree := by
    induction before with
    | nil => exact ⟨d, after, rfl, rfl⟩
    | cons b before ih =>
      obtain ⟨first, more, htokens, htrees⟩ := ih
      refine ⟨b.1, .others b.2 first more, ?_, ?_⟩
      · rw [Derivation.tokens, htokens]
        simp [leading]
      · rw [Derivation.tree, htrees]
        rfl
  obtain ⟨first, more, htokens, htrees⟩ := hfirst
  exact ⟨.arguments first more, htokens, htrees⟩

/-- **An operand in its surroundings** is an operand. -/
theorem Surrounds.makes (h : Surrounds j k ts us C) (hs : Makes j vs s) :
    Makes k (ts ++ (vs ++ us)) (C.fill s) := by
  induction h with
  | here => rwa [List.nil_append, List.append_nil]
  | term _ ih => exact ih.expression
  | factor _ ih => exact ih.term
  | primary _ ih =>
    obtain ⟨d, htokens, htree⟩ := ih
    exact ⟨.primary d, htokens, htree⟩
  | left _ position hr ih =>
    have hmakes := ih.binary hr position
    simpa only [List.append_assoc, Context.fill] using hmakes
  | right hl position _ ih =>
    have hmakes := hl.binary ih position
    simpa only [List.append_assoc, List.cons_append, Context.fill] using hmakes
  | signed sign position _ ih => exact ih.signed sign position
  | paren opening _ closing ih =>
    obtain ⟨d, htokens, htree⟩ := ih
    refine ⟨.paren opening d closing, ?_, htree⟩
    rw [Derivation.tokens, htokens]
    simp
  | argument name position opening before _ after closing ih =>
    obtain ⟨d, htokens, htree⟩ := ih
    obtain ⟨args, hargs, htrees⟩ := exists_arguments before d after
    refine ⟨.call name position opening args closing, ?_, ?_⟩
    · rw [Derivation.tokens, hargs, htokens]
      simp
    · rw [Derivation.tree, htrees, htree]
      rfl

/-! ## Every part is written somewhere -/

/-- The tokens of an operand, parted around a part of its tree. -/
def PartedAround (k : Category) (ts : List Token) (C : Context) (s : Expr) : Prop :=
  ∃ j before inner after,
    ts = before ++ (inner ++ after) ∧ Makes j inner s ∧ Surrounds j k before after C

/-- Tokens that make an operand, of whose tree every part is an operand in its surroundings. -/
structure Analysed (k : Category) (ts : List Token) (e : Expr) : Prop where
  makes : Makes k ts e
  around (C : Context) (s : Expr) : C.fill s = e → PartedAround k ts C s

/-- An operand is analysed if its proper parts are found. -/
theorem Makes.analysed (h : Makes k ts e)
    (hparts : ∀ C s, C.fill s = e → C ≠ .hole → PartedAround k ts C s) : Analysed k ts e where
  makes := h
  around C s hC := by
    by_cases hhole : C = .hole
    · subst hhole
      obtain rfl : s = e := hC
      exact ⟨k, [], ts, [], by simp, h, .here⟩
    · exact hparts C s hC hhole

theorem Makes.analysed_leaf (h : Makes .primary ts e)
    (hleaf : ∀ C s, Context.fill C s = e → C = .hole) : Analysed .primary ts e :=
  h.analysed fun C s hC hhole => absurd (hleaf C s hC) hhole

/-- An operand of a category that is one of another category. -/
theorem Analysed.lift (h : Analysed j ts e) (hmakes : Makes k ts e)
    (hlift : ∀ {i us vs C}, Surrounds i j us vs C → Surrounds i k us vs C) : Analysed k ts e where
  makes := hmakes
  around C s hC := by
    obtain ⟨i, before, inner, after, htokens, hinner, hsurrounds⟩ := h.around C s hC
    exact ⟨i, before, inner, after, htokens, hinner, hlift hsurrounds⟩

theorem Analysed.factor (h : Analysed .primary ts e) : Analysed .factor ts e := by
  obtain ⟨p, htokens, htree⟩ := h.makes
  exact h.lift ⟨.primary p, htokens, htree⟩ .primary

theorem Analysed.term (h : Analysed .factor ts e) : Analysed .term ts e :=
  h.lift h.makes.term .factor

theorem Analysed.expression (h : Analysed .term ts e) : Analysed .expression ts e :=
  h.lift h.makes.expression .term

theorem Analysed.signed (h : Analysed .factor ts e) (sign : Sign) (position : Nat) :
    Analysed .factor (sign.symbol.at position :: ts) (.signed sign e) := by
  refine (h.makes.signed sign position).analysed fun C s hC hhole => ?_
  cases C with
  | hole => exact absurd rfl hhole
  | left | right | argument => cases hC
  | signed sign' C =>
    obtain ⟨rfl, hoperand⟩ := Expr.signed.inj hC
    obtain ⟨j, before, inner, after, htokens, hinner, hsurrounds⟩ := h.around C s hoperand
    exact ⟨j, _, inner, after, congrArg _ htokens, hinner, hsurrounds.signed sign' position⟩

theorem Analysed.paren (h : Analysed .expression ts e) (opening closing : Nat) :
    Analysed .primary
      (Symbol.openParen.at opening :: (ts ++ [Symbol.closeParen.at closing])) e where
  makes := (Surrounds.paren opening .here closing).makes h.makes
  around C s hC := by
    obtain ⟨j, before, inner, after, rfl, hinner, hsurrounds⟩ := h.around C s hC
    exact ⟨j, _, inner, _, by simp, hinner, hsurrounds.paren opening closing⟩

theorem Analysed.binary (hl : Analysed op.whole ts l)
    (hr : Analysed op.rightSide us r) (position : Nat) :
    Analysed op.whole (ts ++ op.symbol.at position :: us) (.binary op l r) := by
  refine (hl.makes.binary hr.makes position).analysed fun C s hC hhole => ?_
  cases C with
  | hole => exact absurd rfl hhole
  | signed | argument => cases hC
  | left op' C r' =>
    cases hC
    obtain ⟨j, before, inner, after, rfl, hinner, hsurrounds⟩ := hl.around C s rfl
    exact ⟨j, before, inner, _, by simp, hinner, hsurrounds.left position hr.makes⟩
  | right op' l' C =>
    cases hC
    obtain ⟨j, before, inner, after, rfl, hinner, hsurrounds⟩ := hr.around C s rfl
    exact ⟨j, _, inner, after, by simp, hinner, .right hl.makes position hsurrounds⟩

theorem Analysed.product (hop : op.isProduct = true) (hl : Analysed .term ts l)
    (hr : Analysed .factor us r) (position : Nat) :
    Analysed .term (ts ++ op.symbol.at position :: us) (.binary op l r) := by
  rw [← Operator.whole_product hop] at hl ⊢
  rw [← Operator.rightSide_product hop] at hr
  exact hl.binary hr position

theorem Analysed.sum (hop : op.isProduct = false) (hl : Analysed .expression ts l)
    (hr : Analysed .term us r) (position : Nat) :
    Analysed .expression (ts ++ op.symbol.at position :: us) (.binary op l r) := by
  rw [← Operator.whole_sum hop] at hl ⊢
  rw [← Operator.rightSide_sum hop] at hr
  exact hl.binary hr position

/-- Arguments, parted around any one of them. -/
def PartedArguments (ts : List Token) (es : List Expr) : Prop :=
  ∀ front e back, es = front ++ e :: back →
    ∃ (before : List (Derivation .expression × Nat)) (d : Derivation .expression)
      (after : Derivation .others), ts = leading before ++ (d.tokens ++ after.tokens) ∧
        before.map (·.1.tree) = front ∧ after.tree = back ∧ Analysed .expression d.tokens e

theorem PartedArguments.call {name : List Char} {position opening closing : Nat} {es : List Expr}
    (hmakes : Makes .primary (⟨.name name, position⟩ :: Symbol.openParen.at opening ::
      (ts ++ [Symbol.closeParen.at closing])) (.call name es)) (h : PartedArguments ts es) :
    Analysed .primary (⟨.name name, position⟩ :: Symbol.openParen.at opening ::
      (ts ++ [Symbol.closeParen.at closing])) (.call name es) := by
  refine hmakes.analysed fun C s hC hhole => ?_
  cases C with
  | hole => exact absurd rfl hhole
  | signed | left | right => cases hC
  | argument name' front C back =>
    obtain ⟨rfl, hargs⟩ := Expr.call.inj hC
    obtain ⟨before, d, after, rfl, rfl, rfl, hd⟩ := h front (C.fill s) back hargs.symm
    obtain ⟨j, us, inner, vs, hinner, hmakes, hsurrounds⟩ := hd.around C s rfl
    refine ⟨j, _, inner, _, ?_, hmakes,
      hsurrounds.argument name' position opening before after closing⟩
    rw [hinner]
    simp

/-- The first argument, and those behind a comma. -/
theorem PartedArguments.cons {first : Derivation .expression} (more : Derivation .others)
    (hfirst : Analysed .expression first.tokens first.tree)
    (hmore : ∀ front e back, more.tree = front ++ e :: back →
      ∃ (comma : Nat) (before : List (Derivation .expression × Nat)) (d : Derivation .expression)
        (after : Derivation .others),
        more.tokens = Symbol.comma.at comma :: (leading before ++ (d.tokens ++ after.tokens)) ∧
          before.map (·.1.tree) = front ∧ after.tree = back ∧ Analysed .expression d.tokens e) :
    PartedArguments (first.tokens ++ more.tokens) (first.tree :: more.tree) := by
  intro front e back h
  obtain ⟨rfl, hfront⟩ | ⟨front', rfl, hfront⟩ := List.cons_eq_append_iff.1 h
  · obtain ⟨rfl, rfl⟩ := List.cons.inj hfront
    exact ⟨[], first, more, rfl, rfl, rfl, hfirst⟩
  · obtain ⟨comma, before, d, after, htokens, hbefore, hafter, hd⟩ := hmore front' e back hfront
    refine ⟨(first, comma) :: before, d, after, ?_, ?_, hafter, hd⟩
    · rw [htokens]
      simp [leading]
    · rw [List.map_cons, hbefore]

/-- What an analysis says of the tokens of a category: those that go on with a sum or a product are
analysed together with what they go on with. -/
def Analysis : (k : Category) → List Token → k.Tree → Prop
  | .expression, ts, e => Analysed .expression ts e
  | .term, ts, e => Analysed .term ts e
  | .factor, ts, e => Analysed .factor ts e
  | .primary, ts, e => Analysed .primary ts e
  | .terms, ts, grow => ∀ us l, Analysed .expression us l → Analysed .expression (us ++ ts) (grow l)
  | .factors, ts, grow => ∀ us l, Analysed .term us l → Analysed .term (us ++ ts) (grow l)
  | .arguments, ts, es => PartedArguments ts es
  | .others, ts, es => ∀ first : Derivation .expression,
    Analysed .expression first.tokens first.tree →
      PartedArguments (first.tokens ++ ts) (first.tree :: es)

/-- **Every part of the tree of a derivation is written in its tokens.** -/
theorem Derivation.analysis {k : Category} (d : Derivation k) : Analysis k d.tokens d.tree := by
  induction d with
  | number n position =>
    have hmakes : Makes .primary (number n position).tokens (.number n) :=
      ⟨.number n position, rfl, rfl⟩
    exact hmakes.analysed_leaf fun C s hC => by cases C <;> first | rfl | cases hC
  | cell p position =>
    have hmakes : Makes .primary (cell p position).tokens (.cell p position) :=
      ⟨.cell p position, rfl, rfl⟩
    exact hmakes.analysed_leaf fun C s hC => by cases C <;> first | rfl | cases hC
  | range first last position =>
    have hmakes : Makes .primary (range first last position).tokens (.range first last position) :=
      ⟨.range first last position, rfl, rfl⟩
    exact hmakes.analysed_leaf fun C s hC => by cases C <;> first | rfl | cases hC
  | primary p ih => exact Analysed.factor ih
  | signed sign position operand ih => exact Analysed.signed ih sign position
  | paren opening inner closing ih => exact Analysed.paren ih opening closing
  | call name position opening args closing ih =>
    exact PartedArguments.call ⟨.call name position opening args closing, rfl, rfl⟩ ih
  | noFactors =>
    intro us l hl
    rwa [tokens, List.append_nil]
  | factors op hop position first more ihfirst ihmore =>
    intro us l hl
    have hmore := ihmore _ _ (hl.product hop ihfirst position)
    simpa only [tokens, tree, List.append_assoc, List.cons_append] using hmore
  | term first more ihfirst ihmore => exact ihmore _ _ ihfirst.term
  | noTerms =>
    intro us l hl
    rwa [tokens, List.append_nil]
  | terms op hop position first more ihfirst ihmore =>
    intro us l hl
    have hmore := ihmore _ _ (hl.sum hop ihfirst position)
    simpa only [tokens, tree, List.append_assoc, List.cons_append] using hmore
  | expression first more ihfirst ihmore => exact ihmore _ _ ihfirst.expression
  | noArguments => exact fun front e back h => absurd h (by simp [tree])
  | arguments first more ihfirst ihmore => exact ihmore first ihfirst
  | noOthers =>
    intro first hfirst
    exact PartedArguments.cons .noOthers hfirst fun front e back h => absurd h (by simp [tree])
  | others comma next more ihnext ihmore =>
    intro first hfirst
    refine PartedArguments.cons (.others comma next more) hfirst fun front e back h => ?_
    obtain ⟨before, d, after, htokens, hbefore, hafter, hd⟩ := ihmore next ihnext front e back h
    exact ⟨comma, before, d, after, by rw [tokens, htokens], hbefore, hafter, hd⟩

/-! ## Texts of parts -/

/-- A stretch of a text, with the text in front of it and behind it, holds a part of its tree: all
three are cut into tokens where they stand, and the tokens of the stretch make the part. -/
def Occurs (front mid back : List Char) (C : Context) (s : Expr) : Prop :=
  ∃ k before inner after, lexFrom 0 front = ⟨before, none⟩ ∧
    lexFrom front.length mid = ⟨inner, none⟩ ∧
    lexFrom (front.length + mid.length) back = ⟨after, none⟩ ∧
    Makes k inner s ∧ Surrounds k .expression before after C

variable {front mid back cs : List Char} {p : Parts}

/-- **Every part of a tree is written in a stretch of its body.** -/
theorem exists_occurs {body : String} (h : Expr.parse body = .ok (C.fill s)) :
    ∃ front mid back, body = String.ofList (front ++ (mid ++ back)) ∧
      Occurs front mid back C s := by
  obtain ⟨hstuck, -⟩ := Expr.parse_eq_ok.1 h
  obtain ⟨d, hd, htree⟩ := Expr.exists_derivation h
  have hanalysed : Analysed .expression d.tokens d.tree := d.analysis
  obtain ⟨k, before, inner, after, htokens, hinner, hsurrounds⟩ :=
    hanalysed.around C s htree.symm
  rw [hd] at htokens
  obtain ⟨front, rest, hbody, hfront, hrest, -⟩ := lexFrom_split 0 body.toList before htokens
  rw [Nat.zero_add] at hrest
  have hrest' : (lexFrom front.length rest).tokens = inner ++ after := by rw [hrest]
  obtain ⟨mid, back, rfl, hmid, hback, -⟩ := lexFrom_split front.length rest inner hrest'
  rw [hrest] at hback
  refine ⟨front, mid, back, ?_, k, before, inner, after, hfront, hmid, ?_, hinner, hsurrounds⟩
  · rw [← hbody, String.ofList_toList]
  · rw [hback]
    exact congrArg _ hstuck

theorem Makes.parted (h : Makes .expression ts e) : Parted ts := by
  obtain ⟨d, rfl, rfl⟩ := h
  obtain ⟨s, hrun, -⟩ := d.parse
  exact parted_of_run hrun

/-- A text with the tokens of an expression is a body with its tree. -/
theorem Makes.parse (h : Makes .expression ts e) (hlaid : Laid true cs (ts.map (·.lexeme))) :
    ∃ e', Expr.parse (String.ofList cs) = .ok e' ∧ e'.unplaced = e.unplaced := by
  obtain ⟨d, rfl, rfl⟩ := h
  obtain ⟨s, hrun, hfinish⟩ := d.parse
  obtain ⟨hstuck, htokens⟩ := hlaid.lexFrom 0
  rw [← String.toList_ofList (l := cs)] at hstuck htokens
  refine Expr.parse_of_run hrun hfinish hstuck (htokens.trans ?_)
  rw [List.map_congr_left fun l _ => Lexeme.relabel_id l, List.map_id']

/-- **The text of a part is a body with the part as its tree.** -/
theorem Occurs.parse_part (h : Occurs front mid back C s) :
    ∃ e, Expr.parse (String.ofList mid) = .ok e ∧ e.unplaced = s.unplaced := by
  obtain ⟨k, before, inner, after, -, hmid, -, hmakes, -⟩ := h
  have hexpression := hmakes.expression
  exact hexpression.parse (laid_of_lexFrom hmid hexpression.parted).1

/-- **A reference in the stead of a part** takes its place in the tree. -/
theorem Occurs.parse_replaced (h : Occurs front mid back C s) (hp : Written p) :
    ∃ e, Expr.parse (String.ofList (front ++ (p.chars ++ back))) = .ok e ∧
      e.unplaced = (C.fill (.cell p 0)).unplaced := by
  obtain ⟨k, before, inner, after, hfront, -, hback, hmakes, hsurrounds⟩ := h
  have hwhole := (hsurrounds.makes (hmakes.cell p 0)).expression
  -- next to the part there is punctuation or nothing, so the reference ends where it is written
  obtain ⟨hbefore, hlast, hafter, hfirst⟩ := hwhole.parted.around nofun
  have hlaid := (laid_of_lexFrom hback hafter).2 hfirst
  have htoken : Laid true (p.chars ++ back) (.cell p :: after.map (·.lexeme)) :=
    .token (l := .cell p) hp hlaid
  refine hwhole.parse ?_
  rw [List.map_append]
  refine ((laid_of_lexFrom hfront hbefore).1.append htoken fun l hl => ?_).1
  rw [List.getLast?_map, Option.mem_map] at hl
  obtain ⟨u, hu, rfl⟩ := hl
  exact hlast u hu

/-! ## Bodies of formulas -/

theorem Lexeme.Formed.exists_not_isBlank {l : Lexeme} (h : l.Formed) :
    ∃ c ∈ l.chars, Text.isBlank c = false := by
  have hdigit {c : Char} (hc : c.isDigit = true) : Text.isBlank c = false :=
    Bool.eq_false_iff.2 fun hblank => not_isDigit_of_isBlank hblank hc
  have hparts {p : Parts} (hp : Written p) : ∃ c ∈ p.chars, Text.isBlank c = false := by
    obtain ⟨c, hc⟩ := List.exists_mem_of_ne_nil _ hp.digits_ne
    exact ⟨c, List.mem_append_right _ hc, hdigit (hp.digits c hc)⟩
  cases l with
  | number n =>
    obtain ⟨c, hc⟩ := List.exists_mem_of_ne_nil _ h.1
    exact ⟨c, List.mem_append_left _ hc, hdigit (h.2.1 c hc)⟩
  | cell p => exact hparts h
  | range first last =>
    obtain ⟨c, hc, hblank⟩ := hparts h.1
    exact ⟨c, List.mem_append_left _ hc, hblank⟩
  | name letters =>
    obtain ⟨c, hc⟩ := List.exists_mem_of_ne_nil _ h.1
    exact ⟨c, hc, not_isBlank_of_isLetter (h.2 c hc)⟩
  | symbol s => exact ⟨s.char, List.mem_singleton_self _, by cases s <;> decide⟩

/-- A text with a tree is the body of its formula. -/
theorem Expr.body?_of_parse (h : Expr.parse (String.ofList cs) = .ok e) :
    CellText.body? (String.ofList ('=' :: cs)) = some (String.ofList cs) := by
  obtain ⟨-, s, hrun, hfinish⟩ := Expr.parse_eq_ok.1 h
  rw [lex, String.toList_ofList] at hrun
  cases htokens : (lexFrom 0 cs).tokens with
  | nil =>
    rw [htokens] at hrun
    obtain rfl := Except.ok.inj hrun
    cases hfinish
  | cons t ts =>
    have ht : t ∈ (lexFrom 0 cs).tokens := htokens ▸ List.mem_cons_self
    have hstands := (lexFrom_stands ht).2
    obtain ⟨c, hc, hblank⟩ := hstands.formed.exists_not_isBlank
    exact CellText.body?_ofList ⟨c, List.mem_of_mem_drop (hstands.here.subset hc), hblank⟩

end Spreadsheet.Formula
