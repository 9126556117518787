import Spreadsheet.Formula.Parser
import Spreadsheet.Proofs.Formula.Validity

/-!
# Row numbers in texts

A text is brief if no row number in it is too long. All row numbers in the tree of a brief body can
be read: every reference of the tree is one of its tokens, and every token is a part of the text.

* `Brief`; `Brief.of_append`, `Brief.short`;
* `Lexeme.Short`, `short_of_mem_lexFrom`: tokens;
* `State.Short`, `State.Short.step`, `State.Short.run`: what has been read of a body;
* **`Expr.short_of_parse`**: trees.
-/

namespace Spreadsheet.Formula

open Reference (Parts isLetter takePin)

/-- The digits of the row number that a text starts with, with a pin before them or not. -/
def rowDigits (cs : List Char) : List Char := (takePin cs).2.takeWhile Char.isDigit

/-- No row number in a text is too long: no letter has too many digits behind it. -/
def Brief : List Char → Prop
  | [] => True
  | c :: cs => (isLetter c = true → (rowDigits cs).length ≤ Decimal.maxDigits) ∧ Brief cs

instance decidableBrief : (cs : List Char) → Decidable (Brief cs)
  | [] => inferInstanceAs (Decidable True)
  | _ :: cs =>
    have := decidableBrief cs
    inferInstanceAs (Decidable (_ ∧ _))

variable {cs ds : List Char} {p : Parts}

/-! ## Characters -/

theorem takePin_of_ne {c : Char} (h : c ≠ '$') : takePin (c :: cs) = (false, c :: cs) := by
  unfold takePin
  split
  · rename_i heq
    exact absurd (List.cons.inj heq).1 h
  · rfl

theorem ne_pin_of_isLetter {c : Char} (h : isLetter c = true) : c ≠ '$' := by
  rintro rfl
  exact absurd h (by decide)

theorem not_isDigit_of_isLetter {c : Char} (h : isLetter c = true) : ¬ c.isDigit = true := by
  intro hd
  simp only [isLetter, Char.isDigit, Bool.or_eq_true, Bool.and_eq_true, decide_eq_true_eq,
    Char.le_def, UInt32.le_iff_toNat_le] at h hd
  have h9 : ('9' : Char).val.toNat = 57 := by decide
  have hA : ('A' : Char).val.toNat = 65 := by decide
  have ha : ('a' : Char).val.toNat = 97 := by decide
  have h57 : (57 : UInt32).toNat = 57 := by decide
  omega

theorem rowDigits_of_isLetter {c : Char} (h : isLetter c = true) : rowDigits (c :: cs) = [] := by
  rw [rowDigits, takePin_of_ne (ne_pin_of_isLetter h)]
  exact List.takeWhile_cons_of_neg (not_isDigit_of_isLetter h)

/-! ## Parts of a text -/

theorem Brief.of_append (h : Brief (cs ++ ds)) : Brief ds := by
  induction cs with
  | nil => exact h
  | cons c cs ih => exact ih h.2

theorem Brief.of_suffix (h : Brief cs) (hs : ds <:+ cs) : Brief ds := by
  obtain ⟨front, rfl⟩ := hs
  exact h.of_append

/-- The digits behind a word of letters. -/
theorem Brief.rowDigits_dropWhile (h : Brief cs) (hword : cs.takeWhile isLetter ≠ []) :
    (rowDigits (cs.dropWhile isLetter)).length ≤ Decimal.maxDigits := by
  induction cs with
  | nil => exact absurd rfl hword
  | cons c cs ih =>
    by_cases hc : isLetter c = true
    · rw [List.dropWhile_cons_of_pos hc]
      by_cases hnext : cs.takeWhile isLetter = []
      · have hdrop : cs.dropWhile isLetter = cs := by
          have happend := List.takeWhile_append_dropWhile (p := isLetter) (l := cs)
          rw [hnext] at happend
          exact happend
        rw [hdrop]
        exact h.1 hc
      · exact ih h.2 hnext
    · rw [List.takeWhile_cons_of_neg hc] at hword
      exact absurd rfl hword

theorem takePin_suffix : (takePin cs).2 <:+ cs := by
  unfold takePin
  split
  · exact List.suffix_cons ..
  · exact List.suffix_refl _

theorem take?_eq_some (h : Parts.take? cs = some p) :
    p.word = (takePin cs).2.takeWhile isLetter ∧ p.word ≠ [] ∧
      p.digits = rowDigits ((takePin cs).2.dropWhile isLetter) ∧ p.digits ≠ [] := by
  unfold Parts.take? at h
  simp only at h
  split at h
  · cases h
  · rename_i hne
    rw [Bool.or_eq_true, not_or] at hne
    obtain rfl := Option.some.inj h
    exact ⟨rfl, fun he => hne.1 (List.isEmpty_iff.2 he), rfl,
      fun he => hne.2 (List.isEmpty_iff.2 he)⟩

/-- **A reference in a brief text** has a row number that can be read. -/
theorem Brief.short (h : Brief cs) (hp : Parts.take? cs = some p) : Short p := by
  obtain ⟨hword, hne, hdigits, -⟩ := take?_eq_some hp
  rw [Short, hdigits]
  exact (h.of_suffix takePin_suffix).rowDigits_dropWhile (hword ▸ hne)

/-! ## Tokens -/

/-- All row numbers in a token can be read. -/
def Lexeme.Short : Lexeme → Prop
  | cell parts => Formula.Short parts
  | range first last => Formula.Short first ∧ Formula.Short last
  | _ => True

/-- What is taken for a reference: one, or two with a colon between them. -/
theorem takeReference?_cases {l : Lexeme} (h : Lexeme.takeReference? cs = some l) :
    ∃ first, Parts.take? cs = some first ∧ (l = .cell first ∨ ∃ last rest, l = .range first last ∧
      cs.drop first.chars.length = ':' :: rest ∧ Parts.take? rest = some last) := by
  unfold Lexeme.takeReference? at h
  split at h
  · cases h
  · rename_i first hfirst
    refine ⟨first, hfirst, ?_⟩
    split at h
    · rename_i rest hrest
      split at h
      · rename_i last hlast
        exact .inr ⟨last, rest, (Option.some.inj h).symm, hrest, hlast⟩
      · exact .inl (Option.some.inj h).symm
    · exact .inl (Option.some.inj h).symm

theorem takeName?_eq_some {l : Lexeme} (h : Lexeme.takeName? cs = some l) :
    cs.takeWhile isLetter ≠ [] ∧ l = .name (cs.takeWhile isLetter) := by
  unfold Lexeme.takeName? at h
  simp only at h
  split at h
  · cases h
  · rename_i hne
    exact ⟨fun he => hne (List.isEmpty_iff.2 he), (Option.some.inj h).symm⟩

/-- **What is taken for a token**: the kinds are tried in their order. -/
theorem take?_cases {l : Lexeme} (h : Lexeme.take? cs = some l) :
    Lexeme.takeReference? cs = some l ∨ Lexeme.takeReference? cs = none ∧
      (Lexeme.takeName? cs = some l ∨ Lexeme.takeName? cs = none ∧
        ((∃ n, Literal.take? cs = some n ∧ l = .number n) ∨ Literal.take? cs = none ∧
          ∃ s, cs.head?.bind Symbol.ofChar? = some s ∧ l = .symbol s)) := by
  simpa only [Lexeme.take?, Option.orElse_eq_orElse, Option.orElse_eq_or, Option.or_eq_some_iff,
    Option.map_eq_some_iff, Option.map_eq_none_iff, eq_comm (b := l)] using h

theorem Brief.short_takeReference {l : Lexeme} (h : Brief cs)
    (hl : Lexeme.takeReference? cs = some l) : l.Short := by
  obtain ⟨first, hfirst, rfl | ⟨last, rest, rfl, hrest, hlast⟩⟩ := takeReference?_cases hl
  · exact h.short hfirst
  · have hsuffix : rest <:+ cs :=
      (List.suffix_cons ':' rest).trans (hrest ▸ List.drop_suffix _ cs)
    exact ⟨h.short hfirst, (h.of_suffix hsuffix).short hlast⟩

theorem Brief.short_take {l : Lexeme} (h : Brief cs) (hl : Lexeme.take? cs = some l) : l.Short := by
  rcases take?_cases hl with href | ⟨-, hname | ⟨-, ⟨n, -, rfl⟩ | ⟨-, s, -, rfl⟩⟩⟩
  · exact h.short_takeReference href
  · obtain ⟨-, rfl⟩ := takeName?_eq_some hname
    trivial
  · trivial
  · trivial

/-- All row numbers in the tokens of a brief text can be read. -/
theorem short_of_mem_lexFrom {position : Nat} (h : Brief cs) :
    ∀ t ∈ (lexFrom position cs).tokens, t.lexeme.Short := by
  fun_induction lexFrom position cs with
  | case1 => exact nofun
  | case2 position c cs hskip ih => exact ih h.2
  | case3 position c cs hskip ht => exact nofun
  | case4 position c cs hskip l hl width after ih =>
    refine List.forall_mem_cons.2 ⟨h.short_take hl, ih ?_⟩
    exact h.2.of_suffix (List.drop_suffix _ cs)

/-! ## Trees -/

theorem mem_cornersOfList {es : List Expr} {q : Parts × Parts × Nat} :
    q ∈ Expr.cornersOfList es ↔ ∃ e ∈ es, q ∈ e.corners := by
  induction es with
  | nil => simp [Expr.cornersOfList]
  | cons e es ih => simp [Expr.cornersOfList, ih]

theorem Expr.short_call {name : List Char} {args : List Expr} (h : ∀ e ∈ args, e.Short) :
    (Expr.call name args).Short := by
  intro q hq
  rw [Expr.corners, mem_cornersOfList] at hq
  obtain ⟨e, he, hq⟩ := hq
  exact h e he q hq

theorem Expr.short_binary {op : Operator} {l r : Expr} (hl : l.Short) (hr : r.Short) :
    (Expr.binary op l r).Short := by
  intro q hq
  rw [Expr.corners, List.mem_append] at hq
  exact hq.elim (hl q) (hr q)

theorem Expr.short_cell (hp : Formula.Short p) (position : Nat) : (Expr.cell p position).Short := by
  intro q hq
  rw [Expr.corners, List.mem_singleton] at hq
  subst hq
  exact ⟨hp, hp⟩

theorem Expr.short_range {last : Parts} (hp : Formula.Short p) (hlast : Formula.Short last)
    (position : Nat) : (Expr.range p last position).Short := by
  intro q hq
  rw [Expr.corners, List.mem_singleton] at hq
  subst hq
  exact ⟨hp, hlast⟩

/-- All row numbers in a part of an expression can be read. -/
def Frame.Short : Frame → Prop
  | sign _ | paren => True
  | operation _ left => left.Short
  | call _ args => ∀ e ∈ args, e.Short

/-- All row numbers in parts of an expression can be read. -/
def ShortStack (stack : List Frame) : Prop := ∀ f ∈ stack, f.Short

/-- All row numbers that have been read can be read. -/
def State.Short : State → Prop
  | operand stack | arguments _ stack => ShortStack stack
  | complete e stack => e.Short ∧ ShortStack stack

variable {e : Expr} {stack : List Frame}

theorem ShortStack.tail {f : Frame} (h : ShortStack (f :: stack)) : ShortStack stack :=
  (List.forall_mem_cons.1 h).2

theorem ShortStack.cons {f : Frame} (h : ShortStack stack) (hf : f.Short) :
    ShortStack (f :: stack) := List.forall_mem_cons.2 ⟨hf, h⟩

theorem short_applySigns (he : e.Short) (h : ShortStack stack) :
    (applySigns e stack).1.Short ∧ ShortStack (applySigns e stack).2 := by
  fun_induction applySigns e stack with
  | case1 e s stack ih => exact ih he h.tail
  | case2 e stack hne => exact ⟨he, h⟩

theorem short_endProduct (he : e.Short) (h : ShortStack stack) :
    (endProduct e stack).1.Short ∧ ShortStack (endProduct e stack).2 := by
  fun_induction endProduct e stack with
  | case1 e op left stack hop ih =>
    have hleft : left.Short := h _ List.mem_cons_self
    exact ih (Expr.short_binary hleft he) h.tail
  | case2 e op left stack hop => exact ⟨he, h⟩
  | case3 e stack hne => exact ⟨he, h⟩

theorem short_endSum (he : e.Short) (h : ShortStack stack) :
    (endSum e stack).1.Short ∧ ShortStack (endSum e stack).2 := by
  fun_induction endSum e stack with
  | case1 e op left stack ih =>
    have hleft : left.Short := h _ List.mem_cons_self
    exact ih (Expr.short_binary hleft he) h.tail
  | case2 e stack hne => exact ⟨he, h⟩

theorem short_ofPrimary (he : e.Short) (h : ShortStack stack) : (State.ofPrimary e stack).Short :=
  short_applySigns he h

theorem short_openWith {s : Symbol} {state : State} (h : ShortStack stack)
    (hs : State.openWith stack s = some state) : state.Short := by
  unfold State.openWith at hs
  split at hs
  · obtain rfl := Option.some.inj hs
    exact h.cons trivial
  · split at hs
    · obtain rfl := Option.some.inj hs
      exact h.cons trivial
    · obtain rfl := Option.some.inj hs
      exact short_ofPrimary (Expr.short_call nofun) h.tail
    · cases hs

theorem short_closeWith {s : Symbol} {state : State} (he : e.Short) (h : ShortStack stack)
    (hs : State.closeWith e stack s = some state) : state.Short := by
  unfold State.closeWith at hs
  obtain ⟨hsum, hopen⟩ := short_endSum he h
  split at hs
  · simp only at hs
    obtain rfl := Option.some.inj hs
    split
    · obtain ⟨hproduct, hrest⟩ := short_endProduct he h
      exact hrest.cons hproduct
    · exact hopen.cons hsum
  · split at hs
    · rename_i e' stack' hend _
      rw [hend] at hsum hopen
      obtain rfl := Option.some.inj hs
      exact short_ofPrimary hsum hopen.tail
    · rename_i e' name args stack' hend _
      rw [hend] at hsum hopen
      obtain rfl := Option.some.inj hs
      refine short_ofPrimary (Expr.short_call fun d hd => ?_) hopen.tail
      rw [List.mem_reverse, List.mem_cons] at hd
      rcases hd with rfl | hd
      · exact hsum
      · exact hopen _ List.mem_cons_self d hd
    · rename_i e' name args stack' hend _
      rw [hend] at hsum hopen
      obtain rfl := Option.some.inj hs
      refine hopen.tail.cons fun d hd => ?_
      rcases List.mem_cons.1 hd with rfl | hd
      · exact hsum
      · exact hopen _ List.mem_cons_self d hd
    · cases hs

/-- One token. -/
theorem State.Short.step {state state' : State} {t : Token} (h : state.Short)
    (ht : t.lexeme.Short) (hs : state.step t = some state') : state'.Short := by
  unfold State.step at hs
  split at hs
  · rename_i stack lexeme position
    split at hs
    · obtain rfl := Option.some.inj hs
      exact short_ofPrimary nofun h
    · obtain rfl := Option.some.inj hs
      exact short_ofPrimary (Expr.short_cell ht position) h
    · obtain rfl := Option.some.inj hs
      exact short_ofPrimary (Expr.short_range ht.1 ht.2 position) h
    · obtain rfl := Option.some.inj hs
      exact h
    · exact short_openWith h hs
  · obtain rfl := Option.some.inj hs
    exact ShortStack.cons h nofun
  · cases hs
  · exact short_closeWith h.1 h.2 hs
  · cases hs

theorem State.Short.run {state state' : State} {ts : List Token} (h : state.Short)
    (ht : ∀ t ∈ ts, t.lexeme.Short) (hs : state.run ts = .ok state') : state'.Short := by
  induction ts generalizing state with
  | nil =>
    obtain rfl := Except.ok.inj hs
    exact h
  | cons t ts ih =>
    rw [State.run] at hs
    split at hs
    · rename_i next hnext
      exact ih (h.step (ht t List.mem_cons_self) hnext)
        (fun t' ht' => ht t' (List.mem_cons_of_mem _ ht')) hs
    · cases hs

theorem State.Short.finish {state : State} (h : state.Short) (he : state.finish? = some e) :
    e.Short := by
  unfold State.finish? at he
  split at he
  · obtain ⟨hsum, -⟩ := short_endSum h.1 h.2
    split at he
    · rename_i hend
      rw [hend] at hsum
      obtain rfl := Option.some.inj he
      exact hsum
    · cases he
  · cases he

/-- **The tree of a brief body** has row numbers that can be read. -/
theorem Expr.short_of_parse {body : String} (h : Brief body.toList)
    (he : Expr.parse body = .ok e) : e.Short := by
  unfold Expr.parse at he
  simp only at he
  have hstart : (State.operand []).Short := nofun
  cases hrun : (State.operand []).run (lex body).tokens with
  | error f =>
    rw [hrun] at he
    cases he
  | ok state =>
    rw [hrun] at he
    simp only [bind, Except.bind] at he
    have hstate := hstart.run (short_of_mem_lexFrom h) hrun
    split at he
    · cases he
    · rename_i e' _ hfinish
      obtain rfl := Except.ok.inj he
      exact hstate.finish hfinish
    · cases he

end Spreadsheet.Formula
