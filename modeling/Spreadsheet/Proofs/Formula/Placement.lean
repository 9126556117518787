import Spreadsheet.Proofs.Formula.Occurrence

/-!
# Where operands are written

A number, a reference or a range is an operand of one token. Wherever such a token stands in a body
that has a tree, the tree has the operand as a part, and the characters of the token, without
parentheses or blanks around them, are the stretch that it is written in.

* `Token.operand?`: tokens that are operands;
* `Surrounds.terms`, `Surrounds.factors`: surroundings that go on behind them;
* `Encloses`, **`Derivation.encloses`**: the tokens around an operand surround it;
* **`exists_surrounds`**, **`exists_occurs_token`**: the surroundings and the stretch of a token of a
  body.
-/

namespace Spreadsheet.Formula

variable {j k : Category} {ts us before after : List Token} {t : Token} {C : Context} {e s : Expr}

/-- The tree of a token that is an operand by itself. -/
def Token.operand? (t : Token) : Option Expr :=
  match t.lexeme with
  | .number n => some (.number n)
  | .cell p => some (.cell p t.position)
  | .range first last => some (.range first last t.position)
  | .name _ | .symbol _ => none

theorem operand?_at (s : Symbol) (position : Nat) : (s.at position).operand? = none := rfl

theorem Token.makes (h : t.operand? = some s) : Makes .primary [t] s := by
  obtain ⟨l, position⟩ := t
  cases l with
  | number n =>
    obtain rfl := Option.some.inj h
    exact ⟨.number n position, rfl, rfl⟩
  | cell p =>
    obtain rfl := Option.some.inj h
    exact ⟨.cell p position, rfl, rfl⟩
  | range first last =>
    obtain rfl := Option.some.inj h
    exact ⟨.range first last position, rfl, rfl⟩
  | name | symbol => cases h

/-! ## Going on -/

variable {op : Operator} {l r : Expr} {vs : List Token}

theorem Makes.product (hl : Makes .term ts l) (hop : op.isProduct = true) (position : Nat)
    (hr : Makes .factor vs r) :
    Makes .term (ts ++ op.symbol.at position :: vs) (.binary op l r) := by
  rw [← Operator.whole_product hop] at hl ⊢
  rw [← Operator.rightSide_product hop] at hr
  exact hl.binary hr position

theorem Makes.sum (hl : Makes .expression ts l) (hop : op.isProduct = false) (position : Nat)
    (hr : Makes .term vs r) :
    Makes .expression (ts ++ op.symbol.at position :: vs) (.binary op l r) := by
  rw [← Operator.whole_sum hop] at hl ⊢
  rw [← Operator.rightSide_sum hop] at hr
  exact hl.binary hr position

theorem Surrounds.product (h : Surrounds j .term ts us C) (hop : op.isProduct = true)
    (position : Nat) (hr : Makes .factor vs r) :
    Surrounds j .term ts (us ++ op.symbol.at position :: vs) (.left op C r) := by
  rw [← Operator.whole_product hop] at h ⊢
  rw [← Operator.rightSide_product hop] at hr
  exact h.left position hr

theorem Surrounds.sum (h : Surrounds j .expression ts us C) (hop : op.isProduct = false)
    (position : Nat) (hr : Makes .term vs r) :
    Surrounds j .expression ts (us ++ op.symbol.at position :: vs) (.left op C r) := by
  rw [← Operator.whole_sum hop] at h ⊢
  rw [← Operator.rightSide_sum hop] at hr
  exact h.left position hr

theorem Makes.surroundsProduct (hl : Makes .term vs l) (hop : op.isProduct = true) (position : Nat)
    (h : Surrounds j .factor ts us C) :
    Surrounds j .term (vs ++ op.symbol.at position :: ts) us (.right op l C) := by
  rw [← Operator.whole_product hop] at hl ⊢
  rw [← Operator.rightSide_product hop] at h
  exact .right hl position h

theorem Makes.surroundsSum (hl : Makes .expression vs l) (hop : op.isProduct = false)
    (position : Nat) (h : Surrounds j .term ts us C) :
    Surrounds j .expression (vs ++ op.symbol.at position :: ts) us (.right op l C) := by
  rw [← Operator.whole_sum hop] at hl ⊢
  rw [← Operator.rightSide_sum hop] at h
  exact .right hl position h

/-- Surroundings of a factor that go on with further factors. -/
theorem Surrounds.factors : ∀ {us : List Token} {C : Context},
    Surrounds j .term ts us C → ∀ d : Derivation .factors,
      ∃ C', Surrounds j .term ts (us ++ d.tokens) C' ∧ ∀ s, d.tree (C.fill s) = C'.fill s
  | us, C, h, .noFactors => ⟨C, by rwa [Derivation.tokens, List.append_nil], fun _ => rfl⟩
  | us, C, h, .factors op hop position first more => by
    obtain ⟨C', hC', hfill⟩ := (h.product hop position ⟨first, rfl, rfl⟩).factors more
    refine ⟨C', ?_, hfill⟩
    simpa only [Derivation.tokens, List.append_assoc, List.cons_append] using hC'

/-- Surroundings of a term that go on with further terms. -/
theorem Surrounds.terms : ∀ {us : List Token} {C : Context},
    Surrounds j .expression ts us C → ∀ d : Derivation .terms,
      ∃ C', Surrounds j .expression ts (us ++ d.tokens) C' ∧ ∀ s, d.tree (C.fill s) = C'.fill s
  | us, C, h, .noTerms => ⟨C, by rwa [Derivation.tokens, List.append_nil], fun _ => rfl⟩
  | us, C, h, .terms op hop position first more => by
    obtain ⟨C', hC', hfill⟩ := (h.sum hop position ⟨first, rfl, rfl⟩).terms more
    refine ⟨C', ?_, hfill⟩
    simpa only [Derivation.tokens, List.append_assoc, List.cons_append] using hC'

/-! ## Tokens around an operand -/

/-- Tokens of arguments around an operand in one of them. -/
def AmongArguments (before after : List Token) (s : Expr) (es : List Expr) : Prop :=
  ∃ (ds : List (Derivation .expression × Nat)) (C : Context) (ts us : List Token)
    (others : Derivation .others), before = leading ds ++ ts ∧ after = us ++ others.tokens ∧
      Surrounds .primary .expression ts us C ∧ es = ds.map (·.1.tree) ++ C.fill s :: others.tree

/-- What tokens around an operand are to what they make together with it. -/
def Encloses (before after : List Token) (s : Expr) : (k : Category) → k.Tree → Prop
  | .expression, e => ∃ C, Surrounds .primary .expression before after C ∧ e = C.fill s
  | .term, e => ∃ C, Surrounds .primary .term before after C ∧ e = C.fill s
  | .factor, e => ∃ C, Surrounds .primary .factor before after C ∧ e = C.fill s
  | .primary, e => ∃ C, Surrounds .primary .primary before after C ∧ e = C.fill s
  | .terms, grow => ∀ us l, Makes .expression us l →
    ∃ C, Surrounds .primary .expression (us ++ before) after C ∧ grow l = C.fill s
  | .factors, grow => ∀ us l, Makes .term us l →
    ∃ C, Surrounds .primary .term (us ++ before) after C ∧ grow l = C.fill s
  | .arguments, es => AmongArguments before after s es
  | .others, es => ∀ first : Derivation .expression,
    AmongArguments (first.tokens ++ before) after s (first.tree :: es)

/-- An operand stands in front of a place in tokens, or behind it. -/
theorem append_eq_around (h : ts ++ us = before ++ t :: after) :
    (∃ rest, ts = before ++ t :: rest ∧ after = rest ++ us) ∨
      ∃ rest, before = ts ++ rest ∧ us = rest ++ t :: after := by
  rcases List.append_eq_append_iff.1 h with ⟨rest, hbefore, hus⟩ | ⟨rest, hts, hrest⟩
  · exact .inr ⟨rest, hbefore, hus⟩
  · cases rest with
    | nil => exact .inr ⟨[], by simpa using hts.symm, hrest.symm⟩
    | cons u rest =>
      obtain ⟨rfl, rfl⟩ := List.cons.inj hrest
      exact .inl ⟨rest, hts, rfl⟩

/-- Behind a token of punctuation or a name. -/
theorem cons_eq_around {u : Token} (hu : u.operand? = none) (ht : t.operand? = some s)
    (h : u :: ts = before ++ t :: after) :
    ∃ rest, before = u :: rest ∧ ts = rest ++ t :: after := by
  cases before with
  | nil =>
    obtain ⟨rfl, -⟩ := List.cons.inj h
    rw [hu] at ht
    cases ht
  | cons v rest =>
    obtain ⟨rfl, hrest⟩ := List.cons.inj h
    exact ⟨rest, rfl, hrest⟩

/-- In front of a token of punctuation. -/
theorem snoc_eq_around {u : Token} (hu : u.operand? = none) (ht : t.operand? = some s)
    (h : ts ++ [u] = before ++ t :: after) :
    ∃ rest, after = rest ++ [u] ∧ ts = before ++ t :: rest := by
  rcases append_eq_around h with ⟨rest, hts, hafter⟩ | ⟨rest, -, hrest⟩
  · exact ⟨rest, hafter, hts⟩
  · obtain ⟨rest', -, hnil⟩ := cons_eq_around hu ht hrest
    exact absurd hnil (by simp)

theorem single_eq_around {u : Token} (h : [u] = before ++ t :: after) :
    before = [] ∧ u = t ∧ after = [] := by
  cases before with
  | nil =>
    obtain ⟨rfl, rfl⟩ := List.cons.inj h
    exact ⟨rfl, rfl, rfl⟩
  | cons v rest =>
    obtain ⟨-, hrest⟩ := List.cons.inj h
    exact absurd hrest (by simp)

theorem encloses_leaf {u : Token} (hu : u.operand? = some e) (ht : t.operand? = some s)
    (h : [u] = before ++ t :: after) : Encloses before after s .primary e := by
  obtain ⟨rfl, rfl, rfl⟩ := single_eq_around h
  exact ⟨.hole, .here, Option.some.inj (hu.symm.trans ht)⟩

/-- **The tokens around an operand surround it.** -/
theorem Derivation.encloses {k : Category} (d : Derivation k) (ht : t.operand? = some s) :
    ∀ before after, d.tokens = before ++ t :: after → Encloses before after s k d.tree := by
  induction d with
  | number n position => exact fun _ _ h => encloses_leaf rfl ht h
  | cell p position => exact fun _ _ h => encloses_leaf rfl ht h
  | range first last position => exact fun _ _ h => encloses_leaf rfl ht h
  | noFactors | noTerms | noArguments | noOthers =>
    exact fun _ _ h => absurd h.symm (List.append_ne_nil_of_right_ne_nil _ (List.cons_ne_nil _ _))
  | primary p ih =>
    intro before after h
    obtain ⟨C, hC, htree⟩ := ih before after h
    exact ⟨C, hC.primary, htree⟩
  | signed sign position operand ih =>
    intro before after h
    obtain ⟨rest, rfl, hrest⟩ := cons_eq_around (operand?_at _ _) ht h
    obtain ⟨C, hC, htree⟩ := ih rest after hrest
    exact ⟨.signed sign C, hC.signed sign position, congrArg _ htree⟩
  | paren opening inner closing ih =>
    intro before after h
    obtain ⟨rest, rfl, hrest⟩ := cons_eq_around (operand?_at _ _) ht h
    obtain ⟨rest', rfl, hinner⟩ := snoc_eq_around (operand?_at _ _) ht hrest
    obtain ⟨C, hC, htree⟩ := ih rest rest' hinner
    exact ⟨C, hC.paren opening closing, htree⟩
  | call name position opening args closing ih =>
    intro before after h
    obtain ⟨rest, rfl, hcall⟩ := cons_eq_around rfl ht h
    obtain ⟨rest', rfl, hrest⟩ := cons_eq_around (operand?_at _ _) ht hcall
    obtain ⟨behind, rfl, hargs⟩ := snoc_eq_around (operand?_at _ _) ht hrest
    obtain ⟨ds, C, us, vs, others, rfl, rfl, hC, htrees⟩ := ih rest' behind hargs
    refine ⟨.argument name (ds.map (·.1.tree)) C others.tree, ?_, congrArg _ htrees⟩
    rw [List.append_assoc]
    exact hC.argument name position opening ds others closing
  | factors op hop position first more ihfirst ihmore =>
    intro before after h us l hl
    obtain ⟨rest, rfl, hrest⟩ := cons_eq_around (operand?_at _ _) ht h
    rcases append_eq_around hrest with ⟨behind, hfirst, rfl⟩ | ⟨rest', rfl, hmore⟩
    · obtain ⟨C, hC, htree⟩ := ihfirst rest behind hfirst
      obtain ⟨C', hmore, hfill⟩ := (hl.surroundsProduct hop position hC).factors more
      exact ⟨C', hmore, by rw [← hfill, tree, htree, Context.fill]⟩
    · obtain ⟨C, hC, htree⟩ :=
        ihmore rest' after hmore _ _ (hl.product hop position ⟨first, rfl, rfl⟩)
      exact ⟨C, by simpa only [List.append_assoc, List.cons_append] using hC, htree⟩
  | terms op hop position first more ihfirst ihmore =>
    intro before after h us l hl
    obtain ⟨rest, rfl, hrest⟩ := cons_eq_around (operand?_at _ _) ht h
    rcases append_eq_around hrest with ⟨behind, hfirst, rfl⟩ | ⟨rest', rfl, hmore⟩
    · obtain ⟨C, hC, htree⟩ := ihfirst rest behind hfirst
      obtain ⟨C', hmore, hfill⟩ := (hl.surroundsSum hop position hC).terms more
      exact ⟨C', hmore, by rw [← hfill, tree, htree, Context.fill]⟩
    · obtain ⟨C, hC, htree⟩ :=
        ihmore rest' after hmore _ _ (hl.sum hop position ⟨first, rfl, rfl⟩)
      exact ⟨C, by simpa only [List.append_assoc, List.cons_append] using hC, htree⟩
  | term first more ihfirst ihmore =>
    intro before after h
    rcases append_eq_around h with ⟨behind, hfirst, rfl⟩ | ⟨rest', rfl, hmore⟩
    · obtain ⟨C, hC, htree⟩ := ihfirst before behind hfirst
      obtain ⟨C', hmore, hfill⟩ := hC.factor.factors more
      exact ⟨C', hmore, by rw [← hfill, tree, htree]⟩
    · exact ihmore rest' after hmore _ _ (Makes.term ⟨first, rfl, rfl⟩)
  | expression first more ihfirst ihmore =>
    intro before after h
    rcases append_eq_around h with ⟨behind, hfirst, rfl⟩ | ⟨rest', rfl, hmore⟩
    · obtain ⟨C, hC, htree⟩ := ihfirst before behind hfirst
      obtain ⟨C', hmore, hfill⟩ := hC.term.terms more
      exact ⟨C', hmore, by rw [← hfill, tree, htree]⟩
    · exact ihmore rest' after hmore _ _ (Makes.expression (k := .term) ⟨first, rfl, rfl⟩)
  | arguments first more ihfirst ihmore =>
    intro before after h
    rcases append_eq_around h with ⟨behind, hfirst, rfl⟩ | ⟨rest', rfl, hmore⟩
    · obtain ⟨C, hC, htree⟩ := ihfirst before behind hfirst
      exact ⟨[], C, before, behind, more, rfl, rfl, hC, by rw [tree, htree]; rfl⟩
    · exact ihmore rest' after hmore first
  | others comma next more ihnext ihmore =>
    intro before after h first
    obtain ⟨rest, rfl, hrest⟩ := cons_eq_around (operand?_at _ _) ht h
    rcases append_eq_around hrest with ⟨behind, hnext, rfl⟩ | ⟨rest', rfl, hmore⟩
    · obtain ⟨C, hC, htree⟩ := ihnext rest behind hnext
      refine ⟨[(first, comma)], C, rest, behind, more, ?_, rfl, hC, by rw [tree, htree]; rfl⟩
      simp [leading]
    · obtain ⟨ds, C, us, vs, others, hbefore, rfl, hC, htrees⟩ := ihmore rest' after hmore next
      refine ⟨(first, comma) :: ds, C, us, vs, others, ?_, rfl, hC, ?_⟩
      · simp [leading, hbefore]
      · rw [tree, htrees]
        rfl

/-! ## The stretch of a token -/

/-- A token that a text starts with is written there, and the tokens behind it are those of the
characters behind it. -/
theorem lexFrom_uncons {position : Nat} {cs : List Char}
    (h : (lexFrom position cs).tokens = t :: after) (hplace : t.position = position) :
    ∃ rest, cs = t.lexeme.chars ++ rest ∧
      lexFrom position t.lexeme.chars = ⟨[t], none⟩ ∧
      lexFrom (position + t.lexeme.chars.length) rest =
        ⟨after, (lexFrom position cs).stuck?⟩ := by
  have htake : Lexeme.take? cs = some t.lexeme := by
    have hstands := (lexFrom_stands (h ▸ List.mem_cons_self : t ∈ _)).2
    rw [hplace, Nat.sub_self, List.drop_zero] at hstands
    exact take?_eq_some_iff.2 hstands
  obtain ⟨hl, rest, rfl⟩ := formed_of_take? htake
  have hall := lexFrom_token hl.chars_ne_nil htake position
  have hfront : lexFrom position (t.lexeme.chars ++ []) = _ :=
    lexFrom_token_front hl.chars_ne_nil htake
  rw [hall] at h
  obtain ⟨ht, hafter⟩ := List.cons.inj h
  rw [List.append_nil, lexFrom, ht] at hfront
  exact ⟨rest, rfl, hfront, by rw [hall, ← hafter]⟩

/-- **Tokens of a body around an operand** surround it. -/
theorem exists_surrounds {body : String} (h : Expr.parse body = .ok e)
    (ht : t ∈ (lex body).tokens) (hs : t.operand? = some s) :
    ∃ before after C, lexFrom 0 body.toList = ⟨before ++ t :: after, none⟩ ∧
      Surrounds .primary .expression before after C ∧ e = C.fill s := by
  obtain ⟨hstuck, -⟩ := Expr.parse_eq_ok.1 h
  obtain ⟨d, hd, htree⟩ := Expr.exists_derivation h
  obtain ⟨before, after, htokens⟩ := List.append_of_mem ht
  obtain ⟨C, hC, hfill⟩ : Encloses before after s .expression d.tree :=
    d.encloses hs before after (hd.trans htokens)
  refine ⟨before, after, C, ?_, hC, htree ▸ hfill⟩
  rw [← htokens, ← hstuck]
  rfl

/-- **The stretch of an operand of one token** is the token's own. -/
theorem exists_occurs_token {body : String} (h : Expr.parse body = .ok e)
    (ht : t ∈ (lex body).tokens) (hs : t.operand? = some s) :
    ∃ front back C, body = String.ofList (front ++ (t.lexeme.chars ++ back)) ∧
      front.length = t.position ∧ e = C.fill s ∧ Occurs front t.lexeme.chars back C s := by
  obtain ⟨before, after, C, hlex, hC, hfill⟩ := exists_surrounds h ht hs
  obtain ⟨front, rest, hbody, hfront, hrest, hplace⟩ :=
    lexFrom_split 0 body.toList before (congrArg Lexed.tokens hlex)
  rw [hlex, Nat.zero_add] at hrest
  rw [Nat.zero_add] at hplace
  have hposition := hplace t rfl
  obtain ⟨back, rfl, hmid, hback⟩ := lexFrom_uncons (by rw [hrest]) hposition
  rw [hrest] at hback
  refine ⟨front, back, C, ?_, hposition.symm, hfill, .primary, before, [t], after, hfront, hmid,
    hback, Token.makes hs, hC⟩
  rw [← hbody, String.ofList_toList]

end Spreadsheet.Formula
