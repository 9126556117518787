import Spreadsheet.Proofs.Formula.Validity
import Spreadsheet.Proofs.Meets
import Spreadsheet.Sheet.Results

/-!
# Evaluating and denoting

An evaluation of a tree asks for cells on its way, and the answers may change what is known. If
every answer is related to a value given beforehand, then so is the result to what the tree denotes;
the evaluation fails only where an answer does, or for lack of room.

* `Answers`: what is assumed of the answers to references;
* `Expr.Agrees`, `Expr.AllAgree`: a tree, or arguments, evaluated at any level;
* **`Expr.agrees`**: one case for every kind of tree; `Expr.value_meets`: whole formulas.
-/

namespace Spreadsheet.Formula

open ExceptT (meets_bind meets_map meets_ofExcept)

/-- The surroundings of a formula in a cell. -/
def surroundings (room : Nat) (answer : Nat → Cell → Evaluation CellValue) :
    Surroundings Evaluation :=
  ⟨answer, fun level => MonadExcept.ofExcept (enter room level)⟩

/-- Every question for one of some cells, asked at a level up to `top`, keeps an invariant `I`; its
answer is related to a value given beforehand, or it fails in one of the ways `Bad`. -/
def Answers (I : Results → Prop) (Bad : Failure → Prop) (R : Outcome → Outcome → Prop)
    (ρ : Cell → CellValue) (answer : Nat → Cell → Evaluation CellValue) (top : Nat)
    (cells : List Cell) : Prop :=
  ∀ c ∈ cells, ∀ level ≤ top, ∀ r, I r →
    (answer level c).Meets r (fun v r' => I r' ∧ R v.number (ρ c).number) fun f r' => I r' ∧ Bad f

variable {I : Results → Prop} {Bad : Failure → Prop} {R : Outcome → Outcome → Prop}
  {ρ : Cell → CellValue} {answer : Nat → Cell → Evaluation CellValue} {room : Nat}

theorem Answers.mono {top top' : Nat} {cells cells' : List Cell}
    (h : Answers I Bad R ρ answer top cells) (htop : top' ≤ top) (hsub : ∀ c ∈ cells', c ∈ cells) :
    Answers I Bad R ρ answer top' cells' :=
  fun c hc level hl => h c (hsub c hc) level (Nat.le_trans hl htop)

/-- How an evaluation fails: as one of its answers does, or for lack of room. -/
def FailsBy (I : Results → Prop) (Bad : Failure → Prop) (tooDeep : Prop) (f : Failure)
    (r : Results) : Prop :=
  I r ∧ (Bad f ∨ f = .tooDeep ∧ tooDeep)

theorem FailsBy.mono {p q : Prop} {f : Failure} {r : Results} (h : FailsBy I Bad p f r)
    (hpq : p → q) : FailsBy I Bad q f r :=
  ⟨h.1, h.2.imp id fun ⟨hf, hp⟩ => ⟨hf, hpq hp⟩⟩

variable {α : Type} {P : α → Results → Prop} {E : Failure → Results → Prop} {r : Results}

theorem FailsBy.of_answer {p : Prop} {f : Failure} {r : Results} (h : I r ∧ Bad f) :
    FailsBy I Bad p f r := ⟨h.1, .inl h.2⟩

/-! ## Steps of an evaluation -/

/-- Room for one more level, or not. -/
theorem meets_ofExcept_enter {σ : Type} {s : σ} {P : α → σ → Prop} {E : Failure → σ → Prop}
    {level : Nat} {k : Unit → ExceptT Failure (StateM σ) α}
    (hok : level < room → (k ()).Meets s P E) (herror : room ≤ level → E .tooDeep s) :
    ((MonadExcept.ofExcept (enter room level) : ExceptT Failure (StateM σ) Unit) >>= k).Meets s
      P E := by
  rw [meets_bind, meets_ofExcept]
  unfold enter
  by_cases hlevel : level < room
  · simp only [if_pos hlevel]
    exact hok hlevel
  · simp only [if_neg hlevel]
    exact herror (Nat.le_of_not_lt hlevel)

theorem meets_enter {level depth : Nat} {k : Unit → Evaluation α} (hr : I r) (hdepth : 1 ≤ depth)
    (h : level < room → (k ()).Meets r P (FailsBy I Bad (room < level + depth))) :
    (((surroundings room answer).enter level : Evaluation Unit) >>= k).Meets r P
      (FailsBy I Bad (room < level + depth)) :=
  meets_ofExcept_enter h fun hlevel => ⟨hr, .inr ⟨rfl, by omega⟩⟩

theorem meets_resolve {σ : Type} {s : σ} {P : α → σ → Prop} {E : Failure → σ → Prop}
    {position : Nat} {p : Reference.Parts} (hp : Names p)
    {k : Reference → ExceptT Failure (StateM σ) α}
    (h : ∀ r', r'.cell = p.target → (k r').Meets s P E) :
    ((MonadExcept.ofExcept (resolve position p) : ExceptT Failure (StateM σ) Reference) >>=
      k).Meets s P E := by
  obtain ⟨r', hr', ht⟩ := hp.resolve position
  rw [meets_bind, meets_ofExcept, hr']
  exact h r' ht

/-- The operand of a valid tree that is no argument is a number. -/
theorem Expr.denote_of_valid {e : Expr} (h : e.Valid false) :
    ∃ x, e.denote ρ = .number x := by
  cases e with
  | range => exact absurd h.1 (by simp)
  | _ => exact ⟨_, rfl⟩

theorem Operand.Related.scalar {x y : Operand} (h : x.Related R y) (hy : ∃ b, y = .number b)
    {P : Outcome → Results → Prop} (hP : R x.single y.single → P x.single r) :
    (Operand.scalar x : Evaluation Outcome).Meets r P E := by
  obtain ⟨b, rfl⟩ := hy
  cases x with
  | number a => exact hP h
  | range => exact h.elim

/-! ## Trees -/

/-- Evaluating a tree agrees with what it denotes: if answers are related to the values in `ρ`, an
evaluation with enough room ends with an operand related to what the tree denotes for `ρ`. -/
def Expr.Agrees (I : Results → Prop) (Bad : Failure → Prop) (R : Outcome → Outcome → Prop)
    (ρ : Cell → CellValue) (answer : Nat → Cell → Evaluation CellValue) (room : Nat)
    (e : Expr) : Prop :=
  ∀ (isArgument : Bool) (level : Nat) (r : Results), e.Valid isArgument →
    Answers I Bad R ρ answer (level + e.depth ρ) e.cells → I r →
      (e.eval (surroundings room answer) level).Meets r
        (fun x r' => I r' ∧ x.Related R (e.denote ρ) ∧ level + e.depth ρ ≤ room)
        (FailsBy I Bad (room < level + e.depth ρ))

/-- Evaluating the arguments of a call agrees with what they denote. -/
def Expr.AllAgree (I : Results → Prop) (Bad : Failure → Prop) (R : Outcome → Outcome → Prop)
    (ρ : Cell → CellValue) (answer : Nat → Cell → Evaluation CellValue) (room : Nat)
    (es : List Expr) : Prop :=
  ∀ (level : Nat) (r : Results), Expr.AllValid es →
    Answers I Bad R ρ answer (level + Expr.depthAll ρ es) (Expr.cellsAll es) → I r →
      (Expr.evalArguments (surroundings room answer) (level + 2) es).Meets r
        (fun xs r' => I r' ∧ List.Forall₂ (Operand.Related R) xs (Expr.denoteAll ρ es) ∧
          (es = [] ∨ level + Expr.depthAll ρ es ≤ room))
        (FailsBy I Bad (room < level + Expr.depthAll ρ es))

theorem Expr.agrees_number (hR : Congruence R) (n : Literal) :
    (Expr.number n).Agrees I Bad R ρ answer room := by
  intro _ level r _ _ hr
  simp only [Expr.eval]
  refine meets_enter hr (Expr.one_le_depth ρ _) fun h => ?_
  refine ⟨hr, hR.ok _, ?_⟩
  simp only [Expr.depth]
  omega

theorem Expr.agrees_cell (parts : Reference.Parts) (position : Nat) :
    (Expr.cell parts position).Agrees I Bad R ρ answer room := by
  intro _ level r hv ha hr
  simp only [Expr.eval]
  refine meets_enter hr (Expr.one_le_depth ρ _) fun h => ?_
  refine meets_resolve hv fun q hq => ?_
  rw [meets_bind, hq]
  refine (ha parts.target (by simp) level (by omega) r hr).imp (fun v r' ⟨hr', hv'⟩ => ?_)
    fun _ _ => .of_answer
  refine ⟨hr', hv', ?_⟩
  simp only [Expr.depth]
  omega

theorem Expr.agrees_range (first last : Reference.Parts) (position : Nat) :
    (Expr.range first last position).Agrees I Bad R ρ answer room := by
  intro _ level r hv ha hr
  simp only [Expr.eval]
  refine meets_enter hr (Expr.one_le_depth ρ _) fun h => ?_
  refine meets_resolve hv.2.1 fun q hq => ?_
  refine meets_resolve hv.2.2 fun q' hq' => ?_
  rw [hq, hq', meets_bind]
  have hdepth : (Expr.range first last position).depth ρ = 1 := by simp only [Expr.depth]
  have hall : ∀ c ∈ rectangle first.target last.target, ∀ r, I r →
      (CellValue.number <$> (surroundings room answer).cell (level + 1) c).Meets r
        (fun x r' => I r' ∧ R x (ρ c).number) (FailsBy I Bad (room < level + 1)) := by
    intro c hc r hr
    have hmem : c ∈ (Expr.range first last position).cells := by simpa using hc
    rw [meets_map]
    exact (ha c hmem (level + 1) (by omega) r hr).imp (fun _ _ => id) fun _ _ => .of_answer
  rw [hdepth]
  refine (ExceptT.Meets.mapM hall hr).imp (fun xs r' ⟨hr', hxs⟩ => ⟨hr', ?_, h⟩) fun _ _ => id
  simpa only [Expr.denote, Operand.Related, List.forall₂_map_right_iff] using hxs

theorem Expr.Agrees.signed {e : Expr} (he : e.Agrees I Bad R ρ answer room) (hR : Congruence R)
    (s : Sign) : (Expr.signed s e).Agrees I Bad R ρ answer room := by
  intro _ level r hv ha hr
  have hdepth : level + (Expr.signed s e).depth ρ = level + 1 + e.depth ρ := by
    simp only [Expr.depth]
    omega
  simp only [Expr.eval]
  refine meets_enter hr (Expr.one_le_depth ρ _) fun h => ?_
  rw [hdepth] at ha ⊢
  rw [meets_bind]
  refine (he false (level + 1) r hv ha hr).imp (fun x r' ⟨hr', hx, hroom⟩ => ?_) fun _ _ => id
  rw [meets_bind]
  refine hx.scalar (Expr.denote_of_valid hv) fun hx' => ?_
  exact ⟨hr', hR.map s.apply hx', hroom⟩

theorem Expr.Agrees.binary {l r : Expr} (hl : l.Agrees I Bad R ρ answer room)
    (hr : r.Agrees I Bad R ρ answer room) (hR : Congruence R) (op : Operator) :
    (Expr.binary op l r).Agrees I Bad R ρ answer room := by
  intro _ level r₀ hv ha hr₀
  have hleft := Expr.depth_left_lt ρ op l r
  simp only [Expr.eval]
  refine meets_enter hr₀ (Expr.one_le_depth ρ _) fun h => ?_
  rw [meets_bind]
  refine (hl false (level + 1) r₀ hv.1
    (ha.mono (by omega) fun c hc => by simp [hc]) hr₀).imp
    (fun x r₁ ⟨hr₁, hx, hroom⟩ => ?_) fun f r₁ hf => hf.mono fun h' => by omega
  rw [meets_bind]
  refine hx.scalar (Expr.denote_of_valid hv.1) fun hx' => ?_
  -- an error on the left is the result, related to the one that the tree denotes
  cases hxs : x.single with
  | error code =>
    rw [hxs] at hx'
    obtain ⟨code', hc'⟩ := hR.error_of_error hx'
    rw [hc'] at hx'
    rw [Expr.depth_binary_of_error op r hc']
    refine ⟨hr₁, ?_, by omega⟩
    simp only [Expr.denote, hc', Operator.combine, Operand.Related]
    exact hx'
  | ok a =>
    rw [hxs] at hx'
    have hl' := hR.eq_of_ok hx'
    rw [Expr.depth_binary_of_ok op r hl'] at ha ⊢
    simp only
    rw [meets_bind]
    refine (hr false (level + 1) r₁ hv.2
      (ha.mono (by omega) fun c hc => by simp [hc]) hr₁).imp
      (fun y r₂ ⟨hr₂, hy, hroom'⟩ => ?_) fun f r₂ hf => hf.mono fun h' => by omega
    rw [meets_bind]
    refine hy.scalar (Expr.denote_of_valid hv.2) fun hy' => ?_
    have hc : (Operand.number (op.combine (.ok a) y.single)).Related R
        ((Expr.binary op l r).denote ρ) := by
      simp only [Expr.denote, Operand.Related, hl']
      exact hR.combine op (hR.ok a) hy'
    cases hys : y.single with
    | error code =>
      rw [hys] at hc
      exact ⟨hr₂, hc, by omega⟩
    | ok b =>
      rw [hys] at hc
      exact ⟨hr₂, hc, by omega⟩

theorem Expr.AllAgree.call {args : List Expr} (h : Expr.AllAgree I Bad R ρ answer room args)
    (hR : Congruence R) (name : List Char) :
    (Expr.call name args).Agrees I Bad R ρ answer room := by
  rintro _ level r ⟨⟨f, hf⟩, hvs⟩ ha hr
  have hdepth : (Expr.call name args).depth ρ = max 1 (Expr.depthAll ρ args) := by
    simp only [Expr.depth]
  simp only [Expr.eval, hf]
  refine meets_enter hr (Expr.one_le_depth ρ _) fun hlevel => ?_
  rw [meets_bind]
  refine (h level r hvs (ha.mono (by omega) fun c hc => hc) hr).imp
    (fun xs r' ⟨hr', hxs, hroom⟩ => ?_) fun g r' hg => hg.mono fun h' => by omega
  refine ⟨hr', ?_, ?_⟩
  · have hcall := hR.applyNamed name hxs
    simpa only [Expr.denote, Operand.Related, applyNamed, hf] using hcall
  · rw [hdepth]
    rcases hroom with rfl | hroom
    · simp only [Expr.depthAll]
      omega
    · omega

theorem Expr.AllAgree.cons {e : Expr} {es : List Expr} (he : e.Agrees I Bad R ρ answer room)
    (hes : Expr.AllAgree I Bad R ρ answer room es) :
    Expr.AllAgree I Bad R ρ answer room (e :: es) := by
  intro level r hv ha hr
  have hdepth : Expr.depthAll ρ (e :: es) = max (e.depth ρ + 2) (Expr.depthAll ρ es) := by
    simp only [Expr.depthAll]
  simp only [Expr.evalArguments]
  rw [meets_bind]
  refine (he true (level + 2) r hv.1 (ha.mono (by omega) fun c hc => by simp [hc]) hr).imp
    (fun x r₁ ⟨hr₁, hx, hroom⟩ => ?_) fun f r₁ hf => hf.mono fun h' => by omega
  rw [meets_bind]
  refine (hes level r₁ hv.2 (ha.mono (by omega) fun c hc => by simp [hc]) hr₁).imp
    (fun xs r₂ ⟨hr₂, hxs, hroom'⟩ => ?_) fun f r₂ hf => hf.mono fun h' => by omega
  refine ⟨hr₂, .cons hx hxs, .inr ?_⟩
  rw [hdepth]
  rcases hroom' with rfl | hroom'
  · simp only [Expr.depthAll]
    omega
  · omega

mutual

/-- **Evaluation agrees with denotation.** -/
theorem Expr.agrees (hR : Congruence R) : ∀ e : Expr, e.Agrees I Bad R ρ answer room
  | .number n => Expr.agrees_number hR n
  | .cell parts position => Expr.agrees_cell parts position
  | .range first last position => Expr.agrees_range first last position
  | .signed s e => (Expr.agrees hR e).signed hR s
  | .binary op l r => (Expr.agrees hR l).binary (Expr.agrees hR r) hR op
  | .call name args => (Expr.allAgree hR args).call hR name

theorem Expr.allAgree (hR : Congruence R) :
    ∀ es : List Expr, Expr.AllAgree I Bad R ρ answer room es
  | [] => fun _ _ _ _ hr => ⟨hr, .nil, .inl rfl⟩
  | e :: es => .cons (Expr.agrees hR e) (Expr.allAgree hR es)

end

theorem Expr.value_meets (hR : Congruence R) {e : Expr} (hv : e.Valid false)
    (ha : Answers I Bad R ρ answer (e.depth ρ) e.cells) (hr : I r) :
    (e.value (surroundings room answer)).Meets r
      (fun x r' => I r' ∧ R x (e.denote ρ).single ∧ e.depth ρ ≤ room)
      (FailsBy I Bad (room < e.depth ρ)) := by
  unfold Expr.value
  rw [meets_bind]
  rw [← Nat.zero_add (e.depth ρ)] at ha
  refine (Expr.agrees hR e false 0 r hv ha hr).imp (fun x r' ⟨hr', hx, hd⟩ => ?_)
    fun f r' hf => hf.mono fun h => by omega
  exact hx.scalar (Expr.denote_of_valid hv) fun hx' => ⟨hr', hx', by omega⟩

end Spreadsheet.Formula
