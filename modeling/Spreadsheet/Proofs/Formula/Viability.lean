import Mathlib
import Spreadsheet.Proofs.Formula.Longest
import Spreadsheet.Proofs.Formula.Parsing

/-!
# Where a formula goes wrong

The parser reports a token as soon as no formula starts with the tokens up to it, and not before:
whatever is still open can be closed by more tokens, so every state that is reached stands for the
start of a formula. A body that is read to its end or up to a bad character is the start of one.

* `Viable`: tokens that some formula starts with;
* `Opened.viable`, `Reads.viable`: what is open can be closed;
* **`viable_iff_run`**: the parser reads just these tokens; `run_eq_error_iff`: what it reports;
* `Faulty`, **`Expr.parse_error_iff`**: what each error says about the body;
* **`Expr.parse_earliest`**: and that a bad character behind the first error changes nothing.
-/

namespace Spreadsheet.Formula

variable {s s' : State} {e : Expr} {stack : List Frame} {ts us : List Token} {r : Rejection}

/-- A formula starts with these tokens. -/
def Viable (ts : List Token) : Prop :=
  ∃ us, ∃ d : Derivation .expression, d.tokens = ts ++ us

theorem Viable.of_append (us : List Token) (h : Viable (ts ++ us)) : Viable ts := by
  obtain ⟨more, d, hd⟩ := h
  exact ⟨us ++ more, d, by rw [hd, List.append_assoc]⟩

/-! ## What is open can be closed -/

theorem applySigns_suffix : (applySigns e stack).2 <:+ stack := by
  fun_induction applySigns e stack with
  | case1 e s stack ih => exact ih.trans (List.suffix_cons _ _)
  | case2 => exact List.suffix_refl _

theorem endSum_suffix : (endSum e stack).2 <:+ stack := by
  fun_induction endSum e stack with
  | case1 e op left stack ih => exact ih.trans (List.suffix_cons _ _)
  | case2 => exact List.suffix_refl _

/-- An operand ends all signs, products and sums in front of it. -/
theorem Opened.closeOperand (h : Opened ts stack) (d : Derivation .factor) :
    ∃ front frames, ∃ d' : Derivation .expression, Opened front frames ∧ Below 0 frames ∧
      frames <:+ stack ∧ ts ++ d.tokens = front ++ d'.tokens := by
  obtain ⟨front, d₁, h₁, hbelow, -, htokens₁⟩ := h.takeSigns d
  obtain ⟨front', d₂, h₂, hzero, -, htokens₂⟩ := h₁.closeExpression hbelow d₁
  exact ⟨front', _, d₂, h₂, hzero, endSum_suffix.trans applySigns_suffix, htokens₁.trans htokens₂⟩

/-- **Behind an operand everything can be closed.** A parenthesis or a call is left open in front
of it, and what closes that is an operand for the frames below. -/
theorem Opened.viable {stack : List Frame} {ts : List Token} (h : Opened ts stack)
    (d : Derivation .factor) : Viable (ts ++ d.tokens) := by
  obtain ⟨front, frames, d', hframes, hbelow, hsuffix, htokens⟩ := h.closeOperand d
  rw [htokens]
  match frames with
  | [] => exact ⟨[], d', by rw [hframes.eq_nil, List.append_nil]; rfl⟩
  | .paren :: base =>
    have hlt : base.length < stack.length := hsuffix.length_le
    obtain ⟨outer, opening, houter, rfl⟩ := hframes.of_paren
    have hclosed := houter.viable (.primary (.paren opening d' 0))
    refine Viable.of_append [Symbol.closeParen.at 0] ?_
    simpa [Derivation.tokens] using hclosed
  | .call name args :: base =>
    have hlt : base.length < stack.length := hsuffix.length_le
    obtain ⟨outer, position, opening, houter, first, more, hcall, -⟩ := hframes.of_call d'
    have hclosed := houter.viable (.primary (.call name position opening (.arguments first more) 0))
    refine Viable.of_append [Symbol.closeParen.at 0] ?_
    rw [hcall]
    simpa [Derivation.tokens] using hclosed
  | .sign _ :: _ => exact absurd hbelow (by simp [Below, Frame.rank])
  | .operation op _ :: _ =>
    exact absurd hbelow (by cases op <;> simp [Below, Frame.rank, Operator.isProduct])
termination_by stack.length

theorem Reads.viable (h : Reads ts s) : Viable ts := by
  cases s with
  | operand stack => exact (Opened.viable h (.primary (.number ⟨['0'], []⟩ 0))).of_append _
  | arguments name stack =>
    obtain ⟨front, position, hfront, rfl⟩ := h
    have hcall := hfront.viable (.primary (.call name position 0 .noArguments 0))
    refine Viable.of_append [Symbol.openParen.at 0, Symbol.closeParen.at 0] ?_
    simpa [Derivation.tokens] using hcall
  | complete e stack =>
    obtain ⟨front, d, hfront, -, -, rfl⟩ := h
    exact hfront.viable d

/-! ## Runs -/

theorem exists_run_of_append (h : s.run (ts ++ us) = .ok s') : ∃ s₁, s.run ts = .ok s₁ := by
  cases hrun : s.run ts with
  | ok s₁ => exact ⟨s₁, rfl⟩
  | error r =>
    induction ts generalizing s with
    | nil => cases hrun
    | cons t ts ih =>
      cases hstep : s.step t with
      | none => rw [List.cons_append, State.run, hstep] at h; cases h
      | some next =>
        rw [List.cons_append, State.run_cons_of_step hstep] at h
        rw [State.run_cons_of_step hstep] at hrun
        exact ih h hrun

/-- **The parser reads just the starts of formulas.** -/
theorem viable_iff_run : Viable ts ↔ ∃ s, (State.operand []).run ts = .ok s := by
  constructor
  · rintro ⟨us, d, hd⟩
    obtain ⟨s, hrun, -⟩ := d.parse
    exact exists_run_of_append (hd ▸ hrun)
  · rintro ⟨s, hrun⟩
    have hstart : Reads [] (.operand []) := Opened.nil
    exact (hstart.run hrun).viable

/-- A run stops at the first token that cannot follow. -/
theorem run_eq_error (h : s.run ts = .error r) : ∃ before t after s₁,
    ts = before ++ t :: after ∧ s.run before = .ok s₁ ∧ s₁.step t = none ∧
      r = .unexpectedToken t.lexeme.text t.position := by
  induction ts generalizing s with
  | nil => cases h
  | cons t ts ih =>
    cases hstep : s.step t with
    | none =>
      rw [State.run, hstep] at h
      exact ⟨[], t, ts, s, rfl, rfl, hstep, (Except.error.inj h).symm⟩
    | some next =>
      rw [State.run_cons_of_step hstep] at h
      obtain ⟨before, t', after, s₁, rfl, hbefore, hnone, hr⟩ := ih h
      exact ⟨t :: before, t', after, s₁, rfl, by rwa [State.run_cons_of_step hstep], hnone, hr⟩

/-- **The token that is reported** is the first one with which no formula goes on. -/
theorem run_eq_error_iff : (State.operand []).run ts = .error r ↔ ∃ before t after,
    ts = before ++ t :: after ∧ Viable before ∧ ¬ Viable (before ++ [t]) ∧
      r = .unexpectedToken t.lexeme.text t.position := by
  constructor
  · intro h
    obtain ⟨before, t, after, s, rfl, hbefore, hnone, hr⟩ := run_eq_error h
    refine ⟨before, t, after, rfl, viable_iff_run.2 ⟨s, hbefore⟩, fun hviable => ?_, hr⟩
    obtain ⟨s', hrun⟩ := viable_iff_run.1 hviable
    rw [State.run_append hbefore, State.run, hnone] at hrun
    cases hrun
  · rintro ⟨before, t, after, rfl, hviable, hnot, rfl⟩
    obtain ⟨s, hbefore⟩ := viable_iff_run.1 hviable
    have hnone : s.step t = none := by
      cases hstep : s.step t with
      | none => rfl
      | some next =>
        refine absurd (viable_iff_run.2 ⟨next, ?_⟩) hnot
        rw [State.run_append hbefore, State.run_cons_of_step hstep, State.run]
    rw [State.run_append hbefore, State.run, hnone]

/-! ## Errors -/

variable {body : String}

/-- What is wrong with a body, by the formulas that start like it. -/
def Faulty (body : String) : Rejection → Prop
  | .unexpectedToken text p => ∃ before t after, (lex body).tokens = before ++ t :: after ∧
      t.position = p ∧ t.lexeme.text = text ∧ Longest t.lexeme (body.toList.drop p) ∧
      Viable before ∧ ¬ Viable (before ++ [t])
  | .unexpectedCharacter c p => (lex body).stuck? = some (c, p) ∧ Viable (lex body).tokens ∧
      body.toList[p]? = some c ∧ isSkipped c = false ∧
      ∀ l : Lexeme, l.Formed → ¬ l.chars <+: body.toList.drop p
  | .unexpectedEnd p => p = body.length ∧ (lex body).stuck? = none ∧ Viable (lex body).tokens ∧
      ¬ ∃ d : Derivation .expression, d.tokens = (lex body).tokens
  | .invalidReference .. | .unknownFunction _ | .misplacedRange => False

theorem finish?_eq_none_iff (hrun : (State.operand []).run ts = .ok s) :
    s.finish? = none ↔ ¬ ∃ d : Derivation .expression, d.tokens = ts := by
  constructor
  · rintro hnone ⟨d, rfl⟩
    obtain ⟨s', hrun', hfinish⟩ := d.parse
    obtain rfl := Except.ok.inj (hrun.symm.trans hrun')
    rw [hnone] at hfinish
    cases hfinish
  · intro hnot
    cases hfinish : s.finish? with
    | none => rfl
    | some e =>
      have hstart : Reads [] (.operand []) := Opened.nil
      obtain ⟨d, hd, -⟩ := (hstart.run hrun).finish hfinish
      exact absurd ⟨d, hd⟩ hnot

/-- What it takes to fail, in the order in which it is looked for. -/
theorem Expr.parse_eq_error : Expr.parse body = .error r ↔
    (State.operand []).run (lex body).tokens = .error r ∨
      (∃ s, (State.operand []).run (lex body).tokens = .ok s) ∧
        (∃ c p, (lex body).stuck? = some (c, p) ∧ r = .unexpectedCharacter c p) ∨
      (∃ s, (State.operand []).run (lex body).tokens = .ok s ∧ s.finish? = none) ∧
        (lex body).stuck? = none ∧ r = .unexpectedEnd body.length := by
  unfold Expr.parse
  cases hrun : (State.operand []).run (lex body).tokens with
  | error r' => simp [hrun, bind, Except.bind]
  | ok s =>
    simp only [hrun, bind, Except.bind, Except.ok.injEq, exists_eq_left', reduceCtorEq, false_or]
    cases (lex body).stuck? with
    | some stuck =>
      obtain ⟨c, p⟩ := stuck
      simp [throw, throwThe, MonadExceptOf.throw, eq_comm]
    | none =>
      cases s.finish? with
      | none => simp [throw, throwThe, MonadExceptOf.throw, eq_comm]
      | some e => simp [pure, Except.pure]

theorem Expr.parse_eq_unexpectedToken {text : String} {p : Nat} :
    Expr.parse body = .error (.unexpectedToken text p) ↔
      (State.operand []).run (lex body).tokens = .error (.unexpectedToken text p) := by
  simp [Expr.parse_eq_error]

/-- **Each error is reported at the first place where there is one.** -/
theorem Expr.parse_error_iff : Expr.parse body = .error r ↔ Faulty body r := by
  rw [Expr.parse_eq_error]
  constructor
  · rintro (hrun | ⟨hrun, c, p, hstuck, rfl⟩ | ⟨⟨s, hrun, hfinish⟩, hstuck, rfl⟩)
    · obtain ⟨before, t, after, htokens, hviable, hnot, rfl⟩ := run_eq_error_iff.1 hrun
      have ht : t ∈ (lex body).tokens := htokens ▸ List.mem_append_right _ List.mem_cons_self
      exact ⟨before, t, after, htokens, rfl, rfl, (lexFrom_stands ht).2, hviable, hnot⟩
    · obtain ⟨hc, hskip, hnone, -⟩ := lex_stuck hstuck
      exact ⟨hstuck, viable_iff_run.2 hrun, hc, hskip, hnone⟩
    · exact ⟨rfl, hstuck, viable_iff_run.2 ⟨s, hrun⟩, (finish?_eq_none_iff hrun).1 hfinish⟩
  · intro h
    cases r with
    | unexpectedToken text p =>
      obtain ⟨before, t, after, htokens, rfl, rfl, -, hviable, hnot⟩ := h
      exact .inl (run_eq_error_iff.2 ⟨before, t, after, htokens, hviable, hnot, rfl⟩)
    | unexpectedCharacter c p =>
      obtain ⟨hstuck, hviable, -⟩ := h
      exact .inr (.inl ⟨viable_iff_run.1 hviable, c, p, hstuck, rfl⟩)
    | unexpectedEnd p =>
      obtain ⟨rfl, hstuck, hviable, hnot⟩ := h
      obtain ⟨s, hrun⟩ := viable_iff_run.1 hviable
      exact .inr (.inr ⟨⟨s, hrun, (finish?_eq_none_iff hrun).2 hnot⟩, hstuck, rfl⟩)
    | invalidReference | unknownFunction | misplacedRange => exact h.elim

/-- **A body fails at the earliest place.** What is reported is the first token with which no
formula goes on, the first place where no token is written, or the end of a start of a formula; and
a token is reported whatever bad character follows it. -/
theorem Expr.parse_earliest (body : String) :
    (∀ r, Expr.parse body = .error r ↔ Faulty body r) ∧
    ∀ c q, (lex body).stuck? = some (c, q) → ∀ text p,
      (Expr.parse body = .error (.unexpectedToken text p) ↔
        Expr.parse (String.ofList (body.toList.take q)) = .error (.unexpectedToken text p)) := by
  refine ⟨fun r => Expr.parse_error_iff, fun c q hstuck text p => ?_⟩
  rw [Expr.parse_eq_unexpectedToken, Expr.parse_eq_unexpectedToken, (lex_stuck hstuck).2.2.2]

/-- The bad character at the end of `1 2 #` changes nothing. -/
theorem Expr.parse_earliest_bad_character : (lex "1 2 #").stuck? = some ('#', 4) ∧
    (Expr.parse "1 2 #" = .error (.unexpectedToken "2" 2) ↔
      Expr.parse (String.ofList ("1 2 #".toList.take 4)) = .error (.unexpectedToken "2" 2)) :=
  have hstuck : (lex "1 2 #").stuck? = some ('#', 4) := by cbv
  ⟨hstuck, (Expr.parse_earliest "1 2 #").2 '#' 4 hstuck "2" 2⟩

end Spreadsheet.Formula
