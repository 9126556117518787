import Spreadsheet.Proofs.Formula.Layout
import Spreadsheet.Proofs.Formula.Parsing
import Spreadsheet.Proofs.Formula.Safety

/-!
# Trees with other references

The parser, the check and the evaluation look at the shape of a formula; what its references are
and where its tokens stand they only pass on. Changing the references of the tokens changes those
of the tree, a tree is accepted as it was if its references name cells as they did, and if these
are the cells that lie a fixed way from the old ones, it has the value of the old tree among cells
that are moved.

* `Expr.relabel`: other references at other places;
* `State.step_relabel`, `State.run_relabel`, **`Expr.parse_relabel`**: parsing;
* `Expr.valid_relabel`, `Expr.levels_relabel`: the check; **`Expr.eval_relabel`**: the value.
-/

namespace Spreadsheet.Formula

open Reference (Parts)

variable {f : Parts → Parts} {place : Nat → Nat}

/-! ## Relabelling -/

mutual

/-- A tree with other references at other places. -/
def Expr.relabel (f : Parts → Parts) (place : Nat → Nat) : Expr → Expr
  | .number n => .number n
  | .cell parts position => .cell (f parts) (place position)
  | .range first last position => .range (f first) (f last) (place position)
  | .signed sign e => .signed sign (e.relabel f place)
  | .binary op l r => .binary op (l.relabel f place) (r.relabel f place)
  | .call name args => .call name (Expr.relabelAll f place args)

/-- Arguments with other references at other places. -/
def Expr.relabelAll (f : Parts → Parts) (place : Nat → Nat) : List Expr → List Expr
  | [] => []
  | e :: es => e.relabel f place :: Expr.relabelAll f place es

end

/-- A tree without the places of its tokens. -/
def Expr.unplaced (e : Expr) : Expr := e.relabel id fun _ => 0

/-- A token with another reference at another place. -/
def Token.relabel (f : Parts → Parts) (place : Nat → Nat) (t : Token) : Token :=
  ⟨t.lexeme.relabel f, place t.position⟩

/-- A frame with other references. -/
def Frame.relabel (f : Parts → Parts) (place : Nat → Nat) : Frame → Frame
  | .sign s => .sign s
  | .operation op left => .operation op (left.relabel f place)
  | .paren => .paren
  | .call name args => .call name (Expr.relabelAll f place args)

/-- A state with other references. -/
def State.relabel (f : Parts → Parts) (place : Nat → Nat) : State → State
  | .operand stack => .operand (stack.map (Frame.relabel f place))
  | .arguments name stack => .arguments name (stack.map (Frame.relabel f place))
  | .complete e stack => .complete (e.relabel f place) (stack.map (Frame.relabel f place))

mutual

theorem Expr.relabel_relabel (f g : Parts → Parts) (place place' : Nat → Nat) : ∀ e : Expr,
    (e.relabel f place).relabel g place' = e.relabel (g ∘ f) (place' ∘ place)
  | .number _ | .cell .. | .range .. => rfl
  | .signed _ e => by simp only [Expr.relabel, Expr.relabel_relabel f g place place' e]
  | .binary _ l r => by
    simp only [Expr.relabel, Expr.relabel_relabel f g place place' l,
      Expr.relabel_relabel f g place place' r]
  | .call _ args => by simp only [Expr.relabel, Expr.relabelAll_relabelAll f g place place' args]

theorem Expr.relabelAll_relabelAll (f g : Parts → Parts) (place place' : Nat → Nat) :
    ∀ es : List Expr, Expr.relabelAll g place' (Expr.relabelAll f place es) =
      Expr.relabelAll (g ∘ f) (place' ∘ place) es
  | [] => rfl
  | e :: es => by
    simp only [Expr.relabelAll, Expr.relabel_relabel f g place place' e,
      Expr.relabelAll_relabelAll f g place place' es]

end

theorem Expr.relabelAll_eq_map (es : List Expr) :
    Expr.relabelAll f place es = es.map (Expr.relabel f place) := by
  induction es with
  | nil => rfl
  | cons e es ih => rw [Expr.relabelAll, ih, List.map_cons]

theorem Expr.relabelAll_reverse (es : List Expr) :
    Expr.relabelAll f place es.reverse = (Expr.relabelAll f place es).reverse := by
  rw [Expr.relabelAll_eq_map, Expr.relabelAll_eq_map, List.map_reverse]

/-! ## Parsing -/

variable {e : Expr} {stack : List Frame}

/-- A tree and a stack with other references. -/
def relabelBoth (f : Parts → Parts) (place : Nat → Nat) (p : Expr × List Frame) :
    Expr × List Frame := (p.1.relabel f place, p.2.map (Frame.relabel f place))

theorem applySigns_relabel :
    applySigns (e.relabel f place) (stack.map (Frame.relabel f place)) =
      relabelBoth f place (applySigns e stack) := by
  fun_induction applySigns e stack with
  | case1 e s stack ih =>
    rw [List.map_cons, Frame.relabel, applySigns]
    exact ih
  | case2 e stack hne =>
    cases stack with
    | nil => rfl
    | cons frame stack => cases frame <;> first | rfl | exact absurd rfl (hne _ _)

theorem endProduct_relabel :
    endProduct (e.relabel f place) (stack.map (Frame.relabel f place)) =
      relabelBoth f place (endProduct e stack) := by
  fun_induction endProduct e stack with
  | case1 e op left stack hop ih =>
    rw [List.map_cons, Frame.relabel, endProduct, if_pos hop]
    exact ih
  | case2 e op left stack hop =>
    rw [List.map_cons, Frame.relabel, endProduct, if_neg hop]
    rfl
  | case3 e stack hne =>
    cases stack with
    | nil => rfl
    | cons frame stack => cases frame <;> first | rfl | exact absurd rfl (hne _ _ _)

theorem endSum_relabel :
    endSum (e.relabel f place) (stack.map (Frame.relabel f place)) =
      relabelBoth f place (endSum e stack) := by
  fun_induction endSum e stack with
  | case1 e op left stack ih =>
    rw [List.map_cons, Frame.relabel, endSum]
    exact ih
  | case2 e stack hne =>
    cases stack with
    | nil => rfl
    | cons frame stack => cases frame <;> first | rfl | exact absurd rfl (hne _ _ _)

theorem ofPrimary_relabel :
    State.ofPrimary (e.relabel f place) (stack.map (Frame.relabel f place)) =
      (State.ofPrimary e stack).relabel f place := by
  rw [State.ofPrimary, applySigns_relabel]
  rfl

theorem openWith_relabel (s : Symbol) :
    State.openWith (stack.map (Frame.relabel f place)) s =
      (State.openWith stack s).map (State.relabel f place) := by
  cases s with
  | plus | minus | times | slash | openParen | comma => rfl
  | closeParen =>
    rcases stack with _ | ⟨frame, stack⟩
    · rfl
    · cases frame with
      | sign | operation | paren => rfl
      | call name args =>
        cases args with
        | nil => exact congrArg some (ofPrimary_relabel (e := .call name []))
        | cons e es => rfl

theorem closeWith_relabel (s : Symbol) :
    State.closeWith (e.relabel f place) (stack.map (Frame.relabel f place)) s =
      (State.closeWith e stack s).map (State.relabel f place) := by
  have hcall (name : List Char) (e : Expr) (args : List Expr) (stack : List Frame) :
      State.ofPrimary (.call name ((e.relabel f place :: Expr.relabelAll f place args).reverse))
        (stack.map (Frame.relabel f place)) =
      (State.ofPrimary (.call name (e :: args).reverse) stack).relabel f place := by
    rw [← ofPrimary_relabel, Expr.relabel, Expr.relabelAll_reverse]
    rfl
  unfold State.closeWith
  rw [endProduct_relabel, endSum_relabel]
  rcases endSum e stack with ⟨e', frames⟩
  cases s with
  | plus | minus | times | slash => rfl
  | openParen => rfl
  | closeParen =>
    rcases frames with _ | ⟨frame, frames⟩
    · rfl
    · cases frame with
      | sign | operation => rfl
      | paren => exact congrArg some ofPrimary_relabel
      | call name args => exact congrArg some (hcall name e' args frames)
  | comma =>
    rcases frames with _ | ⟨frame, frames⟩
    · rfl
    · cases frame <;> rfl

/-- **A step with other references** is the step with the references changed. -/
theorem State.step_relabel (f : Parts → Parts) (place : Nat → Nat) (s : State) (t : Token) :
    (s.relabel f place).step (t.relabel f place) = (s.step t).map (State.relabel f place) := by
  obtain ⟨lexeme, position⟩ := t
  cases s with
  | operand stack =>
    cases lexeme with
    | number n => exact congrArg some (ofPrimary_relabel (e := .number n))
    | cell parts => exact congrArg some (ofPrimary_relabel (e := .cell parts position))
    | range first last => exact congrArg some (ofPrimary_relabel (e := .range first last position))
    | name letters => rfl
    | symbol c => exact openWith_relabel c
  | arguments name stack =>
    cases lexeme with
    | number | cell | range | name => rfl
    | symbol c => cases c <;> rfl
  | complete e stack =>
    cases lexeme with
    | number | cell | range | name => rfl
    | symbol c => exact closeWith_relabel c

theorem State.run_relabel {s s' : State} {ts : List Token} (h : s.run ts = .ok s') :
    (s.relabel f place).run (ts.map (Token.relabel f place)) = .ok (s'.relabel f place) := by
  induction ts generalizing s with
  | nil =>
    obtain rfl := Except.ok.inj h
    rfl
  | cons t ts ih =>
    have hstep := State.step_relabel f place s t
    rw [List.map_cons, State.run, hstep]
    rw [State.run] at h
    cases hs : s.step t with
    | none => rw [hs] at h; cases h
    | some next => rw [hs] at h; exact ih h

/-- A run with other references comes from a run. -/
theorem State.run_of_relabel {s s₁ : State} {ts : List Token}
    (h : (s.relabel f place).run (ts.map (Token.relabel f place)) = .ok s₁) :
    ∃ s', s.run ts = .ok s' ∧ s'.relabel f place = s₁ := by
  induction ts generalizing s with
  | nil => exact ⟨s, rfl, Except.ok.inj h⟩
  | cons t ts ih =>
    have hstep := State.step_relabel f place s t
    rw [List.map_cons, State.run, hstep] at h
    rw [State.run]
    cases hs : s.step t with
    | none => rw [hs] at h; cases h
    | some next => rw [hs] at h; exact ih h

theorem State.finish?_relabel (f : Parts → Parts) (place : Nat → Nat) (s : State) :
    (s.relabel f place).finish? = s.finish?.map (Expr.relabel f place) := by
  cases s with
  | operand | arguments => rfl
  | complete e stack =>
    simp only [State.relabel, State.finish?, endSum_relabel]
    rcases endSum e stack with ⟨e', _ | ⟨frame, frames⟩⟩ <;> rfl

theorem Lexeme.relabel_id (l : Lexeme) : l.relabel id = l := by cases l <;> rfl

/-- A body with the tokens that have been read, up to their references and places. -/
theorem Expr.parse_of_run {ts : List Token} {s : State} {body : String}
    (hrun : (State.operand []).run ts = .ok s) (hfinish : s.finish? = some e)
    (hstuck : (lex body).stuck? = none)
    (htokens : (lex body).tokens.map (·.lexeme) = (ts.map (·.lexeme)).map (Lexeme.relabel f)) :
    ∃ e', Expr.parse body = .ok e' ∧ e'.unplaced = e.relabel f fun _ => 0 := by
  -- without places the tokens of the body are those that were read with their references changed
  have hsame := calc
    (lex body).tokens.map (Token.relabel id fun _ => 0)
      = ((lex body).tokens.map (·.lexeme)).map fun l => ⟨l, 0⟩ := by
        rw [List.map_map]
        refine List.map_congr_left fun t _ => ?_
        rw [Token.relabel, Lexeme.relabel_id]
        rfl
    _ = ts.map (Token.relabel f fun _ => 0) := by
        rw [htokens, List.map_map, List.map_map]
        rfl
  have hrun₀ : (State.operand []).run (ts.map (Token.relabel f fun _ => 0)) =
      .ok (s.relabel f fun _ => 0) := State.run_relabel hrun
  rw [← hsame] at hrun₀
  obtain ⟨s', hrun', hs'⟩ := State.run_of_relabel (s := .operand []) hrun₀
  have hfinish₀ := State.finish?_relabel id (fun _ => 0) s'
  rw [hs', State.finish?_relabel, hfinish] at hfinish₀
  obtain ⟨e', hfinish', heq⟩ := Option.map_eq_some_iff.1 hfinish₀.symm
  exact ⟨e', Expr.parse_eq_ok.2 ⟨hstuck, s', hrun', hfinish'⟩, heq⟩

/-- **Bodies that differ in their references** have trees that differ in their references. -/
theorem Expr.parse_relabel {body body' : String} (h : Expr.parse body = .ok e)
    (hstuck : (lex body').stuck? = none)
    (htokens : (lex body').tokens.map (·.lexeme) =
      ((lex body).tokens.map (·.lexeme)).map (Lexeme.relabel f)) :
    ∃ e', Expr.parse body' = .ok e' ∧ e'.unplaced = e.relabel f fun _ => 0 := by
  obtain ⟨-, s, hrun, hfinish⟩ := Expr.parse_eq_ok.1 h
  exact Expr.parse_of_run hrun hfinish hstuck htokens

/-! ## Checking -/

mutual

theorem Expr.levels_relabel : ∀ e : Expr, (e.relabel f place).levels = e.levels
  | .number _ | .cell .. | .range .. => rfl
  | .signed _ e => by simp only [Expr.relabel, Expr.levels, Expr.levels_relabel e]
  | .binary _ l r => by
    simp only [Expr.relabel, Expr.levels, Expr.levels_relabel l, Expr.levels_relabel r]
  | .call _ args => by simp only [Expr.relabel, Expr.levels, Expr.levelsAll_relabelAll args]

theorem Expr.levelsAll_relabelAll : ∀ es : List Expr,
    Expr.levelsAll (Expr.relabelAll f place es) = Expr.levelsAll es
  | [] => rfl
  | e :: es => by
    simp only [Expr.relabelAll, Expr.levelsAll, Expr.levels_relabel e,
      Expr.levelsAll_relabelAll es]

end

theorem Expr.levels_of_unplaced {e e' : Expr} (h : e.unplaced = e'.unplaced) :
    e.levels = e'.levels := by
  have hkept (e : Expr) : e.unplaced.levels = e.levels := Expr.levels_relabel e
  rw [← hkept e, h, hkept]

/-- A property of both corners of every rectangle that a tree reads. -/
def Expr.EachReference (P : Parts → Prop) (e : Expr) : Prop := ∀ q ∈ e.corners, P q.1 ∧ P q.2.1

mutual

/-- A tree is valid as before if the new references name cells as the old ones do. -/
theorem Expr.valid_relabel : ∀ (e : Expr) (isArgument : Bool),
    (e.EachReference fun p => Names (f p) ↔ Names p) →
      ((e.relabel f place).Valid isArgument ↔ e.Valid isArgument)
  | .number _, _, _ => .rfl
  | .cell parts position, _, h => (h (parts, parts, position) (List.mem_singleton_self _)).1
  | .range first last position, _, h => by
    have hnames := h (first, last, position) (List.mem_singleton_self _)
    exact and_congr_right fun _ => and_congr hnames.1 hnames.2
  | .signed _ e, _, h => Expr.valid_relabel e false h
  | .binary _ l r, _, h =>
    and_congr (Expr.valid_relabel l false fun q hq => h q (List.mem_append_left _ hq))
      (Expr.valid_relabel r false fun q hq => h q (List.mem_append_right _ hq))
  | .call _ args, _, h => and_congr_right fun _ => Expr.allValid_relabelAll args h

theorem Expr.allValid_relabelAll : ∀ es : List Expr,
    (∀ q ∈ Expr.cornersOfList es, (Names (f q.1) ↔ Names q.1) ∧ (Names (f q.2.1) ↔ Names q.2.1)) →
      (Expr.AllValid (Expr.relabelAll f place es) ↔ Expr.AllValid es)
  | [], _ => .rfl
  | e :: es, h =>
    and_congr (Expr.valid_relabel e true fun q hq => h q (List.mem_append_left _ hq))
      (Expr.allValid_relabelAll es fun q hq => h q (List.mem_append_right _ hq))

end

/-! ## What is read -/

mutual

theorem Expr.corners_relabel : ∀ e : Expr,
    (e.relabel f place).corners = e.corners.map fun q => (f q.1, f q.2.1, place q.2.2)
  | .number _ | .cell .. | .range .. => rfl
  | .signed _ e => Expr.corners_relabel e
  | .binary _ l r => by
    simp only [Expr.relabel, Expr.corners, Expr.corners_relabel l, Expr.corners_relabel r,
      List.map_append]
  | .call _ args => Expr.cornersOfList_relabelAll args

theorem Expr.cornersOfList_relabelAll : ∀ es : List Expr,
    Expr.cornersOfList (Expr.relabelAll f place es) =
      (Expr.cornersOfList es).map fun q => (f q.1, f q.2.1, place q.2.2)
  | [] => rfl
  | e :: es => by
    simp only [Expr.relabelAll, Expr.cornersOfList, Expr.corners_relabel e,
      Expr.cornersOfList_relabelAll es, List.map_append]

end

/-- What is gathered from references has nothing to do with their places. -/
theorem Expr.flatMap_corners_unplaced {α : Type} (gather : Parts → Parts → List α) (e : Expr) :
    e.unplaced.corners.flatMap (fun q => gather q.1 q.2.1) =
      e.corners.flatMap fun q => gather q.1 q.2.1 := by
  rw [Expr.unplaced, Expr.corners_relabel, List.flatMap_map]
  rfl

/-! ## Evaluating -/

section

variable {m : Type → Type}

/-- Surroundings among cells that are moved. -/
def Surroundings.via (env : Surroundings m) (move : Cell → Cell) : Surroundings m where
  cell level c := env.cell level (move c)
  enter := env.enter

/-- Moving cells moves the rectangles between them. -/
def MovesRectangles (move : Cell → Cell) : Prop :=
  ∀ a b, rectangle (move a) (move b) = (rectangle a b).map move

/-- The new reference names a cell where the old one does, and that is the moved one. -/
def Tracks (move : Cell → Cell) (f : Parts → Parts) (p : Parts) : Prop :=
  Names p ∧ Names (f p) ∧ (f p).target = move p.target

variable {move : Cell → Cell}

theorem Tracks.resolve {p : Parts} (h : Tracks move f p) (position position' : Nat) :
    ∃ r r', resolve position p = .ok r ∧ resolve position' (f p) = .ok r' ∧
      r'.cell = move r.cell := by
  obtain ⟨hp, hfp, htarget⟩ := h
  obtain ⟨r, hr, hcell⟩ := hp.resolve position
  obtain ⟨r', hr', hcell'⟩ := hfp.resolve position'
  exact ⟨r, r', hr, hr', by rw [hcell', htarget, hcell]⟩

mutual

/-- **A tree with references that are moved** has the value of the tree among moved cells. -/
theorem Expr.eval_relabel [Monad m] [LawfulMonad m] [MonadExceptOf Failure m]
    (hmove : MovesRectangles move) (env : Surroundings m) :
    ∀ (e : Expr) (level : Nat), e.EachReference (Tracks move f) →
      (e.relabel f place).eval env level = e.eval (env.via move) level
  | .number _, _, _ => rfl
  | .cell parts position, level, h => by
    obtain ⟨r, r', hr, hr', hcell⟩ :=
      (h (parts, parts, position) (List.mem_singleton_self _)).1.resolve position (place position)
    simp only [Expr.relabel, Expr.eval, hr, hr', MonadExcept.ofExcept, pure_bind, hcell]
    rfl
  | .range first last position, level, h => by
    obtain ⟨hfirst, hlast⟩ := h (first, last, position) (List.mem_singleton_self _)
    obtain ⟨a, a', ha, ha', hcell⟩ := hfirst.resolve position (place position)
    obtain ⟨b, b', hb, hb', hcell'⟩ := hlast.resolve position (place position)
    simp only [Expr.relabel, Expr.eval, ha, ha', hb, hb', MonadExcept.ofExcept, pure_bind, hcell,
      hcell', hmove a.cell b.cell, List.mapM_map]
    rfl
  | .signed _ e, level, h => by
    simp only [Expr.relabel, Expr.eval, Expr.eval_relabel hmove env e (level + 1) h]
    rfl
  | .binary _ l r, level, h => by
    have hl := Expr.eval_relabel hmove env l (level + 1) fun q hq =>
      h q (List.mem_append_left _ hq)
    have hr := Expr.eval_relabel hmove env r (level + 1) fun q hq =>
      h q (List.mem_append_right _ hq)
    simp only [Expr.relabel, Expr.eval, hl, hr]
    rfl
  | .call name args, level, h => by
    simp only [Expr.relabel, Expr.eval, Expr.evalArguments_relabel hmove env args (level + 2) h]
    rfl

theorem Expr.evalArguments_relabel [Monad m] [LawfulMonad m] [MonadExceptOf Failure m]
    (hmove : MovesRectangles move) (env : Surroundings m) :
    ∀ (es : List Expr) (level : Nat),
      (∀ q ∈ Expr.cornersOfList es, Tracks move f q.1 ∧ Tracks move f q.2.1) →
        Expr.evalArguments env level (Expr.relabelAll f place es) =
          Expr.evalArguments (env.via move) level es
  | [], _, _ => rfl
  | e :: es, level, h => by
    simp only [Expr.relabelAll, Expr.evalArguments,
      Expr.eval_relabel hmove env e level fun q hq => h q (List.mem_append_left _ hq),
      Expr.evalArguments_relabel hmove env es level fun q hq => h q (List.mem_append_right _ hq)]

end

end

end Spreadsheet.Formula
