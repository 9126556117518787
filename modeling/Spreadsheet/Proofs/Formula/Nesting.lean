import Spreadsheet.CellText
import Spreadsheet.Proofs.Formula.Denotation
import Spreadsheet.Proofs.Formula.Validity

/-!
# Nested calls

A call takes one level of nesting when it is checked and two when it is evaluated, so that between
the two limits there are formulas which are accepted and are too deep nevertheless.

* `nested`, `Expr.nested`: the sum of a sum of … of one, as a text and as a tree;
* `parse_nested`, `ofBody_nested`: it is accepted; `depth_nested`: the levels it takes;
* `Expr.denote_nested_bind_checked`: what it denotes is an error or a finite number.
-/

namespace Spreadsheet.Formula

/-- The name of the function that is called. -/
def sumName : List Char := ['S', 'U', 'M']

/-- Calls of a function inside each other, around a one. -/
def nested : Nat → List Char
  | 0 => ['1']
  | n + 1 => sumName ++ '(' :: (nested n ++ [')'])

/-- The tree of calls inside each other. -/
def Expr.nested : Nat → Expr
  | 0 => .number ⟨['1'], []⟩
  | n + 1 => .call sumName [Expr.nested n]

/-! ## Reading -/

/-- A state after the rest of a body, from a position on, and where the cutting stopped. -/
def State.after (s : State) (position : Nat) (cs : List Char) :
    Except Rejection State × Option (Char × Nat) :=
  (s.run (lexFrom position cs).tokens, (lexFrom position cs).stuck?)

theorem State.after_cons {s s' : State} {position : Nat} {c : Char} {cs : List Char} {l : Lexeme}
    (hc : isSkipped c = false) (ht : Lexeme.take? (c :: cs) = some l)
    (hs : s.step ⟨l, position⟩ = some s') :
    s.after position (c :: cs) =
      s'.after (position + l.chars.length) (cs.drop (l.chars.length - 1)) := by
  unfold State.after
  rw [lexFrom, if_neg (by simp [hc]), ht]
  simp only [State.run, hs]

theorem take?_call (cs : List Char) :
    Lexeme.take? (sumName ++ '(' :: cs) = some (.name sumName) := by
  simp [Lexeme.take?, Lexeme.takeReference?, Reference.Parts.take?, Reference.takePin, sumName,
    Lexeme.takeName?, Reference.isLetter, Char.isDigit]

theorem take?_one (n : Nat) :
    Lexeme.take? ('1' :: List.replicate n ')') = some (.number ⟨['1'], []⟩) := by
  cases n <;> simp [Lexeme.take?, Lexeme.takeReference?, Reference.Parts.take?, Reference.takePin,
    Lexeme.takeName?, Reference.isLetter, Char.isDigit, Literal.take?, List.replicate_succ]

theorem take?_paren {s : Symbol} (hs : s = .openParen ∨ s = .closeParen) (cs : List Char) :
    Lexeme.take? (s.char :: cs) = some (.symbol s) := by
  rcases hs with rfl | rfl <;>
    simp [Lexeme.take?, Lexeme.takeReference?, Reference.Parts.take?, Reference.takePin,
      Symbol.char, Lexeme.takeName?, Reference.isLetter, Char.isDigit, Literal.take?,
      Symbol.ofChar?]

/-- The calls that are open around the inner ones. -/
def openCalls (n : Nat) : List Frame := List.replicate n (.call sumName [])

theorem ofPrimary_openCalls (e : Expr) (n : Nat) :
    State.ofPrimary e (openCalls n) = .complete e (openCalls n) := by
  cases n <;> rfl

/-- Nested calls are read one parenthesis at a time, those behind them being left. -/
theorem after_nested (n : Nat) : ∀ (position opened closed : Nat),
    (State.operand (openCalls opened)).after position (nested n ++ List.replicate closed ')') =
      (State.complete (.nested n) (openCalls opened)).after (position + (nested n).length)
        (List.replicate closed ')') := by
  induction n with
  | zero =>
    intro position opened closed
    refine State.after_cons rfl (take?_one closed) ?_
    rw [← ofPrimary_openCalls]
    rfl
  | succ n ih =>
    intro position opened closed
    have hinner : nested (n + 1) ++ List.replicate closed ')' =
        sumName ++ '(' :: (nested n ++ List.replicate (closed + 1) ')') := by
      simp [nested, List.replicate_succ]
    have hname : (State.operand (openCalls opened)).after position
        (sumName ++ '(' :: (nested n ++ List.replicate (closed + 1) ')')) = _ :=
      State.after_cons rfl (take?_call _) rfl
    have hparen : (State.arguments sumName (openCalls opened)).after (position + 3)
        ('(' :: (nested n ++ List.replicate (closed + 1) ')')) = _ :=
      State.after_cons rfl (take?_paren (.inl rfl) _) rfl
    have hstep : (State.complete (.nested n) (openCalls (opened + 1))).step
        ⟨.symbol .closeParen, position + 3 + 1 + (nested n).length⟩ =
          some (.complete (.nested (n + 1)) (openCalls opened)) :=
      congrArg some (ofPrimary_openCalls (.nested (n + 1)) opened)
    have hlength : position + (nested (n + 1)).length =
        position + 3 + 1 + (nested n).length + 1 := by
      simp only [nested, List.length_append, List.length_cons, List.length_nil, sumName]
      omega
    rw [hinner, hname]
    refine hparen.trans ((ih _ (opened + 1) (closed + 1)).trans ?_)
    refine (State.after_cons rfl (take?_paren (.inr rfl) _) hstep).trans ?_
    rw [hlength]
    rfl

/-- **Nested calls are read as they are.** -/
theorem parse_nested (n : Nat) : Expr.parse (String.ofList (nested n)) = .ok (.nested n) := by
  have h := after_nested n 0 0 0
  simp only [State.after, List.replicate_zero, List.append_nil, lexFrom, State.run] at h
  obtain ⟨hrun, hstuck⟩ := Prod.mk.inj h
  unfold Expr.parse lex
  rw [String.toList_ofList]
  change (State.operand []).run (lexFrom 0 (nested n)).tokens = _ at hrun
  simp only [hrun, hstuck]
  rfl

theorem body?_nested (n : Nat) : CellText.body? (String.ofList ('=' :: nested n)) =
    some (String.ofList (nested n)) := by
  refine CellText.body?_ofList ?_
  cases n with
  | zero => exact ⟨'1', List.mem_cons_self, by decide⟩
  | succ n => exact ⟨'S', List.mem_cons_self, by decide⟩

/-! ## Levels -/

theorem check_nested {room : Nat} (n : Nat) : ∀ (level : Nat) (isArgument : Bool),
    level + n < room → (Expr.nested n).check room level isArgument = .ok () := by
  induction n with
  | zero => intro level isArgument h; exact if_pos h
  | succ n ih =>
    intro level isArgument h
    have hname : Function.ofName? (upperName sumName) = some .sum := by decide
    have henter : enter room level = .ok () := if_pos (by omega)
    have hcheck := ih (level + 1) true (by omega)
    simp only [Expr.nested, Expr.check, henter, hname, Expr.checkArguments, hcheck]
    rfl

/-- **Nested calls are accepted** if there is a level of nesting for each of them. -/
theorem ofBody_nested {room n : Nat} (h : n < room) :
    Expr.ofBody room (String.ofList (nested n)) = .ok (.nested n) := by
  have hcheck := check_nested n 0 false (by omega : 0 + n < room)
  simp only [Expr.ofBody, parse_nested, hcheck]
  rfl

theorem depth_nested (ρ : Cell → CellValue) (n : Nat) : (Expr.nested n).depth ρ = 2 * n + 1 := by
  induction n with
  | zero => rfl
  | succ n ih =>
    simp only [Expr.nested, Expr.depth, Expr.depthAll, ih]
    omega

theorem corners_nested (n : Nat) : (Expr.nested n).corners = [] := by
  induction n with
  | zero => rfl
  | succ n ih => rw [Expr.nested, Expr.corners, Expr.cornersOfList, ih]; rfl

theorem cells_nested (n : Nat) : (Expr.nested n).cells = [] := by
  rw [Expr.cells, corners_nested]
  rfl

theorem short_nested (n : Nat) : (Expr.nested n).Short := by
  intro q hq
  rw [corners_nested] at hq
  exact absurd hq List.not_mem_nil

/-! ## Values -/

theorem checked_bind_checked (x : Float) : (checked x >>= checked) = checked x := by
  unfold checked
  split
  · next h => exact if_pos h
  · rfl

theorem sum_bind_checked (args : List Operand) :
    (Function.sum.apply args >>= checked) = Function.sum.apply args := by
  unfold Function.apply
  cases collect (args.flatMap Operand.outcomes) with
  | error code => rfl
  | ok xs => exact checked_bind_checked _

/-- What nested calls denote is an error or a finite number. -/
theorem Expr.denote_nested_bind_checked (ρ : Cell → CellValue) (n : Nat) :
    (((Expr.nested (n + 1)).denote ρ).single >>= Formula.checked) =
      ((Expr.nested (n + 1)).denote ρ).single := by
  have hname : Function.ofName? (upperName sumName) = some .sum := by decide
  rw [Expr.nested, Expr.denote, applyNamed, hname]
  exact sum_bind_checked _

end Spreadsheet.Formula
