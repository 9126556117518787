import Mathlib
import Spreadsheet.Proofs.Formula.Evaluation
import Spreadsheet.Proofs.Formula.Nesting

/-!
# Accepted trees are safe

What the check of a tree finds, and what it saves the evaluation from. A rejection names a fault
that stands somewhere in the tree, and a tree with a fault is never accepted, wherever that stands.
An accepted tree evaluates to a number or an error code, whatever its references are answered with;
the only other end is that its levels of nesting do not suffice.

* `Expr.places`: the parts of a tree, and which of them are arguments; `Flaw`: what can be wrong
  with a part;
* `Expr.levels`, `Expr.height`: the levels of nesting that checking and evaluating go down;
* **`Expr.checked`**: one case for every kind of tree; **`Expr.check_eq_ok_iff`**;
* **`Expr.eval_meets`**: evaluating a valid tree; **`value_safe`**: accepted bodies are safe and
  faulty ones are rejected; `value_nested_calls`: levels of nesting may not suffice.
-/

namespace Spreadsheet.Formula

open Reference (Parts)

/-! ## Faults -/

mutual

/-- The parts of a tree, itself included, each with whether it is directly an argument. -/
def Expr.places (isArgument : Bool) : Expr → List (Bool × Expr)
  | .number n => [(isArgument, .number n)]
  | .cell parts position => [(isArgument, .cell parts position)]
  | .range first last position => [(isArgument, .range first last position)]
  | .signed s e => (isArgument, .signed s e) :: e.places false
  | .binary op l r => (isArgument, .binary op l r) :: (l.places false ++ r.places false)
  | .call name args => (isArgument, .call name args) :: Expr.placesAll args

/-- The parts of arguments. -/
def Expr.placesAll : List Expr → List (Bool × Expr)
  | [] => []
  | e :: es => e.places true ++ Expr.placesAll es

end

/-- The row number of a written reference is zero. -/
def RowZero (p : Parts) : Prop := Decimal.ofDigits p.digits = 0

/-- What is wrong with a part of a tree, and how it is put. -/
inductive Flaw : Bool × Expr → Rejection → Prop where
  | cell {isArgument : Bool} {parts : Parts} {position : Nat} (h : RowZero parts) :
    Flaw (isArgument, .cell parts position)
      (.invalidReference (String.ofList parts.chars) position)
  | first {isArgument : Bool} {first last : Parts} {position : Nat} (h : RowZero first) :
    Flaw (isArgument, .range first last position)
      (.invalidReference (String.ofList first.chars) position)
  | last {isArgument : Bool} {first last : Parts} {position : Nat} (h : RowZero last) :
    Flaw (isArgument, .range first last position)
      (.invalidReference (String.ofList last.chars) position)
  | misplaced {first last : Parts} {position : Nat} :
    Flaw (false, .range first last position) .misplacedRange
  | unknown {isArgument : Bool} {name : List Char} {args : List Expr}
    (h : Function.ofName? (upperName name) = none) :
    Flaw (isArgument, .call name args) (.unknownFunction (upperName name))

theorem RowZero.not_names {p : Parts} (h : RowZero p) : ¬ Names p := by
  rintro ⟨r, hr⟩
  simp only [Parts.resolve?, bind_eq_ok] at hr
  obtain ⟨number, hnumber, hr⟩ := hr
  have hzero : number = 0 := by
    unfold Decimal.readNat at hnumber
    split at hnumber
    · exact (Except.ok.inj hnumber).symm.trans h
    · cases hnumber
  rw [if_pos hzero] at hr
  cases hr

mutual

/-- **A tree with a fault is not valid.** -/
theorem Expr.not_flaw_of_valid {place : Bool × Expr} {q : Rejection} :
    ∀ (e : Expr) (isArgument : Bool), e.Valid isArgument → place ∈ e.places isArgument →
      ¬ Flaw place q
  | .number _, _, _, hmem, hf => by
    obtain rfl := List.mem_singleton.1 hmem
    cases hf
  | .cell _ _, _, hv, hmem, hf => by
    obtain rfl := List.mem_singleton.1 hmem
    cases hf with
    | cell h => exact h.not_names hv
  | .range _ _ _, _, hv, hmem, hf => by
    obtain rfl := List.mem_singleton.1 hmem
    cases hf with
    | first h => exact h.not_names hv.2.1
    | last h => exact h.not_names hv.2.2
    | misplaced => exact Bool.false_ne_true hv.1
  | .signed _ e, _, hv, hmem, hf => by
    rcases List.mem_cons.1 hmem with rfl | hmem
    · cases hf
    · exact Expr.not_flaw_of_valid e false hv hmem hf
  | .binary _ l r, _, hv, hmem, hf => by
    rcases List.mem_cons.1 hmem with rfl | hmem
    · cases hf
    · rcases List.mem_append.1 hmem with hmem | hmem
      · exact Expr.not_flaw_of_valid l false hv.1 hmem hf
      · exact Expr.not_flaw_of_valid r false hv.2 hmem hf
  | .call _ args, _, hv, hmem, hf => by
    rcases List.mem_cons.1 hmem with rfl | hmem
    · obtain ⟨⟨f, hname⟩, -⟩ := hv
      cases hf with
      | unknown h =>
        rw [h] at hname
        cases hname
    · exact Expr.not_flaw_of_allValid args hv.2 hmem hf

theorem Expr.not_flaw_of_allValid {place : Bool × Expr} {q : Rejection} :
    ∀ es : List Expr, Expr.AllValid es → place ∈ Expr.placesAll es → ¬ Flaw place q
  | [], _, hmem, _ => absurd hmem List.not_mem_nil
  | e :: es, hv, hmem, hf => by
    rcases List.mem_append.1 hmem with hmem | hmem
    · exact Expr.not_flaw_of_valid e true hv.1 hmem hf
    · exact Expr.not_flaw_of_allValid es hv.2 hmem hf

end

/-! ## What a check finds -/

mutual

/-- The levels of nesting that a check goes down. -/
def Expr.levels : Expr → Nat
  | .number _ | .cell .. | .range .. => 1
  | .signed _ e => e.levels + 1
  | .binary _ l r => max l.levels r.levels + 1
  | .call _ args => Expr.levelsAll args + 1

/-- The levels of nesting of arguments. -/
def Expr.levelsAll : List Expr → Nat
  | [] => 0
  | e :: es => max e.levels (Expr.levelsAll es)

end

theorem Expr.one_le_levels (e : Expr) : 1 ≤ e.levels := by
  cases e <;> simp [Expr.levels]

/-- What an answer of a check of some parts says: they fit into the room, or they do not, or a
row number of theirs is too long, or one of them has the fault that is named. -/
def Found {α : Type} (fits : Prop) (corners : List (Parts × Parts × Nat))
    (places : List (Bool × Expr)) : Except Failure α → Prop
  | .ok _ => fits
  | .error .tooDeep => ¬ fits
  | .error (.tooLong _) => ∃ q ∈ corners, ¬ (Short q.1 ∧ Short q.2.1)
  | .error (.rejected q) => ∃ place ∈ places, Flaw place q

variable {α β : Type} {fits fits' : Prop} {corners corners' : List (Parts × Parts × Nat)}
  {places places' : List (Bool × Expr)} {room level : Nat}

theorem Found.imp {x : Except Failure α} (h : Found fits corners places x) (hfits : fits ↔ fits')
    (hcorners : corners ⊆ corners') (hplaces : places ⊆ places') :
    Found fits' corners' places' x := by
  match x with
  | .ok _ => exact hfits.1 h
  | .error .tooDeep => exact fun hf => h (hfits.2 hf)
  | .error (.tooLong _) =>
    obtain ⟨q, hq, hlong⟩ := h
    exact ⟨q, hcorners hq, hlong⟩
  | .error (.rejected _) =>
    obtain ⟨place, hp, hfault⟩ := h
    exact ⟨place, hplaces hp, hfault⟩

theorem Found.bind {x : Except Failure α} {k : α → Except Failure β}
    (hx : Found fits corners places x) (hk : ∀ a, Found fits' corners places (k a)) :
    Found (fits ∧ fits') corners places (x >>= k) := by
  match x with
  | .ok a => exact (hk a).imp ⟨fun h => ⟨hx, h⟩, And.right⟩ (fun _ => id) fun _ => id
  | .error .tooDeep => exact fun h => hx h.1
  | .error (.tooLong _) => exact hx
  | .error (.rejected _) => exact hx

theorem found_ok (a : α) : Found True corners places (.ok a) := trivial

theorem found_enter (room level : Nat) :
    Found (level < room) corners places (enter room level) := by
  unfold enter
  split
  · assumption
  · assumption

theorem found_resolve {position : Nat} {p : Parts}
    (hlong : ¬ Short p → ∃ q ∈ corners, ¬ (Short q.1 ∧ Short q.2.1))
    (hzero : RowZero p → ∃ place ∈ places,
      Flaw place (.invalidReference (String.ofList p.chars) position)) :
    Found True corners places (resolve position p) := by
  by_cases hshort : Short p
  · simp only [resolve, Parts.resolve?, Decimal.readNat_of_length_le hshort]
    by_cases h0 : Decimal.ofDigits p.digits = 0
    · simp only [bind, Except.bind, if_pos h0]
      exact hzero h0
    · simp only [bind, Except.bind, if_neg h0]
      trivial
  · simp only [resolve, Parts.resolve?, Decimal.readNat_of_lt_length (Nat.lt_of_not_le hshort)]
    exact hlong hshort

mutual

/-- **What a check of a tree finds.** -/
theorem Expr.checked (room : Nat) : ∀ (e : Expr) (level : Nat) (isArgument : Bool),
    Found (level + e.levels ≤ room) e.corners (e.places isArgument)
      (e.check room level isArgument)
  | .number _, level, _ => (found_enter room level).imp .rfl (fun _ => id) fun _ => id
  | .cell parts position, level, isArgument => by
    have hresolve : Found True (Expr.cell parts position).corners
        ((Expr.cell parts position).places isArgument) (resolve position parts) :=
      found_resolve (fun h => ⟨_, List.mem_cons_self, fun hs => h hs.1⟩)
        fun h => ⟨_, List.mem_cons_self, .cell h⟩
    refine ((found_enter room level).bind fun _ => hresolve.bind fun _ => found_ok ()).imp ?_
      (fun _ => id) fun _ => id
    simp only [Expr.levels, and_true]
    omega
  | .range first last position, level, isArgument => by
    have hfirst : Found True (Expr.range first last position).corners
        ((Expr.range first last position).places isArgument) (resolve position first) :=
      found_resolve (fun h => ⟨_, List.mem_cons_self, fun hs => h hs.1⟩)
        fun h => ⟨_, List.mem_cons_self, .first h⟩
    have hlast : Found True (Expr.range first last position).corners
        ((Expr.range first last position).places isArgument) (resolve position last) :=
      found_resolve (fun h => ⟨_, List.mem_cons_self, fun hs => h hs.2⟩)
        fun h => ⟨_, List.mem_cons_self, .last h⟩
    have hargument : Found True (Expr.range first last position).corners
        ((Expr.range first last position).places isArgument)
        (if isArgument then pure () else throw (.rejected .misplacedRange) :
          Except Failure Unit) := by
      cases isArgument
      · exact ⟨_, List.mem_cons_self, .misplaced⟩
      · trivial
    refine ((found_enter room level).bind fun _ => hfirst.bind fun _ => hlast.bind fun _ =>
      hargument).imp ?_ (fun _ => id) fun _ => id
    simp only [Expr.levels, and_true]
    omega
  | .signed s e, level, isArgument => by
    refine ((found_enter room level).bind fun _ => (Expr.checked room e (level + 1) false)).imp ?_
      (fun _ => id) (List.subset_cons_self _ _)
    simp only [Expr.levels]
    omega
  | .binary op l r, level, isArgument => by
    have hl := (Expr.checked room l (level + 1) false).imp .rfl
      (List.subset_append_left l.corners r.corners)
      (List.subset_append_left (l.places false) (r.places false))
    have hr := (Expr.checked room r (level + 1) false).imp .rfl
      (List.subset_append_right l.corners r.corners)
      (List.subset_append_right (l.places false) (r.places false))
    refine ((found_enter room level).bind fun _ => hl.bind fun _ => hr).imp ?_
      (fun _ => id) (List.subset_cons_self _ _)
    simp only [Expr.levels]
    omega
  | .call name args, level, isArgument => by
    simp only [Expr.check]
    cases hname : Function.ofName? (upperName name) with
    | none =>
      have hthrow : Found (level + (Expr.call name args).levels ≤ room)
          (Expr.call name args).corners ((Expr.call name args).places isArgument)
          (throw (.rejected (.unknownFunction (upperName name))) : Except Failure Unit) :=
        ⟨_, List.mem_cons_self, .unknown hname⟩
      refine ((found_enter room level).bind fun _ => hthrow).imp ?_ (fun _ => id) fun _ => id
      simp only [Expr.levels]
      omega
    | some f =>
      refine ((found_enter room level).bind fun _ => (Expr.allChecked room args (level + 1))).imp ?_
        (fun _ => id) (List.subset_cons_self _ _)
      simp only [Expr.levels]
      constructor
      · rintro ⟨hlevel, rfl | hargs⟩
        · exact hlevel
        · omega
      · exact fun h => ⟨by omega, .inr (by omega)⟩

theorem Expr.allChecked (room : Nat) : ∀ (es : List Expr) (level : Nat),
    Found (es = [] ∨ level + Expr.levelsAll es ≤ room) (Expr.cornersOfList es)
      (Expr.placesAll es) (Expr.checkArguments room level es)
  | [], level => .inl rfl
  | e :: es, level => by
    have he := (Expr.checked room e level true).imp .rfl
      (List.subset_append_left e.corners (Expr.cornersOfList es))
      (List.subset_append_left (e.places true) (Expr.placesAll es))
    have hes := (Expr.allChecked room es level).imp .rfl
      (List.subset_append_right e.corners (Expr.cornersOfList es))
      (List.subset_append_right (e.places true) (Expr.placesAll es))
    refine (he.bind fun _ => hes).imp ?_ (fun _ => id) fun _ => id
    simp only [Expr.levelsAll, reduceCtorEq, false_or]
    constructor
    · rintro ⟨hlevel, rfl | hargs⟩
      · simpa only [Expr.levelsAll, Nat.max_zero] using hlevel
      · omega
    · exact fun h => ⟨by omega, .inr (by omega)⟩

end

theorem Names.short {p : Parts} (h : Names p) : Short p := by
  obtain ⟨r, hr⟩ := h
  by_contra hlong
  rw [Parts.resolve?, Decimal.readNat_of_lt_length (Nat.lt_of_not_le hlong)] at hr
  cases hr

/-- The check of a valid tree finds nothing but that there is too little room. -/
theorem Expr.check_of_valid (room level : Nat) {e : Expr} {isArgument : Bool}
    (h : e.Valid isArgument) : e.check room level isArgument =
      if level + e.levels ≤ room then .ok () else .error .tooDeep := by
  have hfound := Expr.checked room e level isArgument
  match hcheck : e.check room level isArgument with
  | .ok () =>
    rw [hcheck] at hfound
    exact (if_pos hfound).symm
  | .error .tooDeep =>
    rw [hcheck] at hfound
    exact (if_neg hfound).symm
  | .error (.tooLong _) =>
    rw [hcheck] at hfound
    obtain ⟨q, hq, hlong⟩ := hfound
    obtain ⟨hfirst, hlast⟩ := Expr.names_of_valid e isArgument h q hq
    exact absurd ⟨hfirst.short, hlast.short⟩ hlong
  | .error (.rejected _) =>
    rw [hcheck] at hfound
    obtain ⟨place, hplace, hfault⟩ := hfound
    exact absurd hfault (Expr.not_flaw_of_valid e isArgument h hplace)

/-- **A tree is accepted if it is valid and there is room for it.** -/
theorem Expr.check_eq_ok_iff (room level : Nat) (e : Expr) (isArgument : Bool) :
    e.check room level isArgument = .ok () ↔ e.Valid isArgument ∧ level + e.levels ≤ room := by
  constructor
  · intro h
    have hfound := Expr.checked room e level isArgument
    rw [h] at hfound
    exact ⟨Expr.valid_of_check e level isArgument h, hfound⟩
  · rintro ⟨hvalid, hfits⟩
    rw [Expr.check_of_valid room level hvalid, if_pos hfits]

/-! ## Evaluation -/

mutual

/-- The most levels of nesting that an evaluation goes down. -/
def Expr.height : Expr → Nat
  | .number _ | .cell .. | .range .. => 1
  | .signed _ e => e.height + 1
  | .binary _ l r => max l.height r.height + 1
  | .call _ args => max 1 (Expr.heightAll args)

/-- The levels of nesting of arguments, from that of their call on. -/
def Expr.heightAll : List Expr → Nat
  | [] => 0
  | e :: es => max (e.height + 2) (Expr.heightAll es)

end

variable {σ : Type} {s : σ}

/-- The surroundings of a formula whose references are always answered, with a text, a number, an
error code or a failed formula; the answers may go on from each other. -/
def answering (room : Nat) (answer : Cell → StateM σ CellValue) :
    Surroundings (ExceptT Failure (StateM σ)) where
  cell _ c := ExceptT.lift (answer c)
  enter level := MonadExcept.ofExcept (enter room level)

variable {answer : Cell → StateM σ CellValue}

/-- There was not enough room for some levels of nesting. -/
def LacksRoom (room height : Nat) (f : Failure) (_ : σ) : Prop := f = .tooDeep ∧ room < height

theorem LacksRoom.mono {height height' : Nat} {f : Failure} (h : LacksRoom room height f s)
    (hle : height ≤ height') : LacksRoom room height' f s :=
  ⟨h.1, Nat.lt_of_lt_of_le h.2 hle⟩

theorem meets_level {height : Nat} {k : Unit → ExceptT Failure (StateM σ) β} {P : β → σ → Prop}
    (hheight : level < height) (h : (k ()).Meets s P (LacksRoom room height)) :
    (((answering room answer).enter level : ExceptT Failure (StateM σ) Unit) >>= k).Meets s P
      (LacksRoom room height) :=
  meets_ofExcept_enter (fun _ => h) fun hlevel => ⟨rfl, Nat.lt_of_le_of_lt hlevel hheight⟩

/-- An operand that stands alone is a number. -/
def Scalar (isArgument : Bool) (x : Operand) (_ : σ) : Prop :=
  isArgument = false → ∃ y, x = .number y

theorem scalar_number (isArgument : Bool) (y : Outcome) (s : σ) :
    Scalar isArgument (.number y) s := fun _ => ⟨y, rfl⟩

theorem Scalar.meets {x : Operand} {s' : σ} (h : Scalar false x s') {P : Outcome → σ → Prop}
    {E : Failure → σ → Prop} (hP : ∀ y, P y s) :
    (Operand.scalar x : ExceptT Failure (StateM σ) Outcome).Meets s P E := by
  obtain ⟨y, rfl⟩ := h rfl
  exact hP y

mutual

/-- **Evaluating a valid tree** ends with an operand, of one number if the tree is no argument,
unless there is not enough room. -/
theorem Expr.eval_meets : ∀ (e : Expr) (isArgument : Bool) (level : Nat) (s : σ),
    e.Valid isArgument → (e.eval (answering room answer) level).Meets s (Scalar isArgument)
      (LacksRoom room (level + e.height))
  | .number n, isArgument, level, s, _ => by
    simp only [Expr.eval, Expr.height]
    exact meets_level (Nat.lt_succ_self level) (scalar_number isArgument _ s)
  | .cell parts position, isArgument, level, s, hv => by
    simp only [Expr.eval, Expr.height]
    refine meets_level (Nat.lt_succ_self level) (meets_resolve hv fun r _ => ?_)
    rw [ExceptT.meets_bind]
    exact scalar_number isArgument _ (answer r.cell s).2
  | .range first last position, isArgument, level, s, hv => by
    obtain ⟨rfl, hfirst, hlast⟩ := hv
    simp only [Expr.eval, Expr.height]
    refine meets_level (Nat.lt_succ_self level) (meets_resolve hfirst fun r _ =>
      meets_resolve hlast fun r' _ => ?_)
    have hall : ∀ c ∈ rectangle r.cell r'.cell, ∀ s, True →
        (CellValue.number <$> (answering room answer).cell (level + 1) c).Meets s
          (fun _ _ => True ∧ True) (LacksRoom room (level + 1)) := by
      intro c _ s _
      rw [ExceptT.meets_map]
      exact ⟨trivial, trivial⟩
    rw [ExceptT.meets_bind]
    exact (ExceptT.Meets.mapM (I := fun _ => True) (R := fun _ _ => True) hall trivial).imp
      (fun xs s' _ => nofun) fun _ _ => id
  | .signed sign e, isArgument, level, s, hv => by
    simp only [Expr.eval, Expr.height]
    refine meets_level (by omega) ?_
    rw [ExceptT.meets_bind]
    refine (Expr.eval_meets e false (level + 1) s hv).imp (fun x s' hx => ?_)
      fun f s' hf => hf.mono (by omega)
    rw [ExceptT.meets_bind]
    exact hx.meets fun y => scalar_number isArgument _ s'
  | .binary op l r, isArgument, level, s, hv => by
    simp only [Expr.eval, Expr.height]
    refine meets_level (by omega) ?_
    rw [ExceptT.meets_bind]
    refine (Expr.eval_meets l false (level + 1) s hv.1).imp (fun x s' hx => ?_)
      fun f s' hf => hf.mono (by omega)
    rw [ExceptT.meets_bind]
    refine hx.meets fun y => ?_
    cases y with
    | error code => exact scalar_number isArgument _ s'
    | ok a =>
      simp only
      rw [ExceptT.meets_bind]
      refine (Expr.eval_meets r false (level + 1) s' hv.2).imp (fun x s'' hx => ?_)
        fun f s'' hf => hf.mono (by omega)
      rw [ExceptT.meets_bind]
      refine hx.meets fun z => ?_
      cases z with
      | error code => exact scalar_number isArgument _ s''
      | ok b => exact scalar_number isArgument _ s''
  | .call name args, isArgument, level, s, hv => by
    obtain ⟨⟨f, hname⟩, hargs⟩ := hv
    simp only [Expr.eval, Expr.height, hname]
    refine meets_level (by omega) ?_
    rw [ExceptT.meets_bind]
    exact (Expr.evalArguments_meets args level s hargs).imp
      (fun xs s' _ => scalar_number isArgument _ s') fun f s' hf => hf.mono (by omega)

theorem Expr.evalArguments_meets : ∀ (es : List Expr) (level : Nat) (s : σ), Expr.AllValid es →
    (Expr.evalArguments (answering room answer) (level + 2) es).Meets s (fun _ _ => True)
      (LacksRoom room (level + Expr.heightAll es))
  | [], _, _, _ => trivial
  | e :: es, level, s, hv => by
    simp only [Expr.evalArguments, Expr.heightAll]
    rw [ExceptT.meets_bind]
    refine (Expr.eval_meets e true (level + 2) s hv.1).imp (fun x s' _ => ?_)
      fun f s' hf => hf.mono (by omega)
    rw [ExceptT.meets_bind]
    exact (Expr.evalArguments_meets es level s' hv.2).imp (fun _ _ _ => trivial)
      fun f s'' hf => hf.mono (by omega)

end

theorem Expr.value_meets_of_valid {e : Expr} (hv : e.Valid false) :
    (e.value (answering room answer)).Meets s (fun _ _ => True) (LacksRoom room e.height) := by
  unfold Expr.value
  rw [ExceptT.meets_bind]
  refine (Expr.eval_meets e false 0 s hv).imp (fun x s' hx => ?_) fun f s' hf => ?_
  · exact hx.meets fun _ => trivial
  · exact hf.mono (by omega)

/-! ## Bodies -/

theorem Expr.ofBody_of_parse {body : String} {e : Expr} (h : Expr.parse body = .ok e) :
    Expr.ofBody room body = (e.check room 0 false).map fun _ => e := by
  simp only [Expr.ofBody, h]
  rfl

/-- What it takes to accept a body. -/
theorem Expr.ofBody_eq_ok_iff {body : String} {e : Expr} : Expr.ofBody room body = .ok e ↔
    Expr.parse body = .ok e ∧ e.Valid false ∧ e.levels ≤ room := by
  cases hparse : Expr.parse body with
  | error r =>
    simp only [Expr.ofBody, hparse]
    exact iff_of_false (by simp) fun h => absurd h.1 (by simp)
  | ok e' =>
    have hcheck := Expr.check_eq_ok_iff room 0 e' false
    rw [Nat.zero_add] at hcheck
    rw [Expr.ofBody_of_parse hparse, Except.ok.injEq]
    cases hresult : e'.check room 0 false with
    | error f =>
      rw [hresult] at hcheck
      refine iff_of_false (by simp [Except.map]) fun h => ?_
      obtain rfl := h.1
      exact absurd (hcheck.2 h.2) (by simp)
    | ok _ =>
      refine ⟨fun h => ?_, fun h => congrArg Except.ok h.1⟩
      obtain rfl := Except.ok.inj h
      exact ⟨rfl, hcheck.1 hresult⟩

/-- A body with a valid tree is accepted, unless its levels of nesting do not suffice. -/
theorem Expr.ofBody_of_valid {body : String} {e : Expr} (h : Expr.parse body = .ok e)
    (hvalid : e.Valid false) :
    Expr.ofBody room body = if e.levels ≤ room then .ok e else .error .tooDeep := by
  rw [Expr.ofBody_of_parse h, Expr.check_of_valid room 0 hvalid, Nat.zero_add]
  split <;> rfl

/-- **Accepted bodies are safe, and faulty ones are rejected.** An accepted body evaluates to a
number or an error code unless there is not enough room for its levels, whatever its references are
answered with. A body with a fault anywhere in its tree is not accepted; if its row numbers can be
read and there is room to check it, a fault of the tree is what it is rejected for. -/
theorem value_safe {body : String} {e : Expr} (h : Expr.parse body = .ok e) :
    (Expr.ofBody room body = .ok e →
      ∀ (σ : Type) (room' : Nat) (answer : Cell → StateM σ CellValue) (s : σ),
        (∃ x s', (e.value (answering room' answer)).run s = (.ok x, s')) ∨
          room' < e.height ∧
            ∃ s', (e.value (answering room' answer)).run s = (.error .tooDeep, s')) ∧
    ∀ place ∈ e.places false, ∀ q, Flaw place q → ∃ f, Expr.ofBody room body = .error f ∧
      (e.Short → e.levels ≤ room →
        ∃ q', f = .rejected q' ∧ ∃ place' ∈ e.places false, Flaw place' q') := by
  refine ⟨fun haccept σ room' answer s => ?_, fun place hplace q hfault => ?_⟩
  · have hmeets : (e.value (answering room' answer)).Meets s (fun _ _ => True)
        (LacksRoom room' e.height) := Expr.value_meets_of_valid (Expr.valid_of_ofBody haccept)
    rcases hrun : (e.value (answering room' answer)).run s with ⟨f | x, s'⟩
    · obtain ⟨rfl, hroom⟩ := hmeets.of_run_error hrun
      exact .inr ⟨hroom, s', rfl⟩
    · exact .inl ⟨x, s', rfl⟩
  · rw [Expr.ofBody_of_parse h]
    have hfound := Expr.checked room e 0 false
    have hreadable (hshort : e.Short) : Readable (e.check room 0 false) :=
      Expr.readable_check e 0 false hshort
    match hcheck : e.check room 0 false with
    | .ok () =>
      have hvalid := Expr.valid_of_check e 0 false hcheck
      exact absurd hfault (Expr.not_flaw_of_valid e false hvalid hplace)
    | .error f =>
      refine ⟨f, rfl, fun hshort hfits => ?_⟩
      -- with room and readable row numbers, a fault is all that a check can fail for
      rw [hcheck] at hfound
      match f with
      | .rejected q' => exact ⟨q', rfl, hfound⟩
      | .tooDeep => exact absurd (by omega) hfound
      | .tooLong t => exact absurd hcheck (hreadable hshort t)

/-- A quotient of a sum and a negated cell, its answers counted; and a call of an unknown function
behind a division by zero. -/
theorem value_safe_quotient : ∃ e e',
    Expr.parse "SUM(A1:B2)/-C3" = .ok e ∧ Expr.ofBody roomLimit "SUM(A1:B2)/-C3" = .ok e ∧
    (∃ x s', (e.value (answering roomLimit fun _ => do
      modify (· + 1)
      return CellValue.text (toString (← get)))).run 0 = (.ok x, s')) ∧
    Expr.parse "1/0+NONE(A0)" = .ok e' ∧
    (false, .call ['N', 'O', 'N', 'E'] [.cell ⟨false, ['A'], false, ['0']⟩ 9]) ∈ e'.places false ∧
    ∃ f, Expr.ofBody roomLimit "1/0+NONE(A0)" = .error f := by
  have hparse : Expr.parse "SUM(A1:B2)/-C3" = .ok (.binary .div
      (.call ['S', 'U', 'M'] [.range ⟨false, ['A'], false, ['1']⟩ ⟨false, ['B'], false, ['2']⟩ 4])
      (.signed .negative (.cell ⟨false, ['C'], false, ['3']⟩ 12))) := by cbv
  have hbody : Expr.ofBody roomLimit "SUM(A1:B2)/-C3" = .ok (.binary .div
      (.call ['S', 'U', 'M'] [.range ⟨false, ['A'], false, ['1']⟩ ⟨false, ['B'], false, ['2']⟩ 4])
      (.signed .negative (.cell ⟨false, ['C'], false, ['3']⟩ 12))) := by cbv
  have hparse' : Expr.parse "1/0+NONE(A0)" = .ok (.binary .add
      (.binary .div (.number ⟨['1'], []⟩) (.number ⟨['0'], []⟩))
      (.call ['N', 'O', 'N', 'E'] [.cell ⟨false, ['A'], false, ['0']⟩ 9])) := by cbv
  refine ⟨_, _, hparse, hbody, ?_, hparse', ?_, ?_⟩
  · refine ((value_safe hparse).1 hbody Nat roomLimit _ 0).resolve_right fun hroom => ?_
    exact absurd hroom.1 (by decide)
  · simp [Expr.places]
  · have hplace : (false, Expr.call ['N', 'O', 'N', 'E']
        [.cell ⟨false, ['A'], false, ['0']⟩ 9]) ∈ (Expr.binary .add
          (.binary .div (.number ⟨['1'], []⟩) (.number ⟨['0'], []⟩))
          (.call ['N', 'O', 'N', 'E'] [.cell ⟨false, ['A'], false, ['0']⟩ 9])).places false := by
      simp [Expr.places]
    exact Exists.imp (fun f => And.left)
      ((value_safe hparse').2 _ hplace _ (.unknown (by decide +kernel)))

/-! ## Levels that do not suffice -/

theorem eval_nested {n : Nat} : ∀ {level : Nat}, room < level + 2 * n + 1 →
    ((Expr.nested n).eval (answering room answer) level).Meets s (fun _ _ => False)
      fun f s' => f = .tooDeep ∧ s' = s := by
  induction n with
  | zero =>
    intro level h
    simp only [Expr.nested, Expr.eval]
    exact meets_ofExcept_enter (fun hlevel => absurd hlevel (by omega)) fun _ => ⟨rfl, rfl⟩
  | succ n ih =>
    intro level h
    have hname : Function.ofName? (upperName sumName) = some .sum := by decide
    simp only [Expr.nested, Expr.eval, hname, Expr.evalArguments]
    refine meets_ofExcept_enter (fun _ => ?_) fun _ => ⟨rfl, rfl⟩
    rw [ExceptT.meets_bind, ExceptT.meets_bind]
    exact (ih (by omega)).imp (fun _ _ => False.elim) fun _ _ => id

theorem run_value_nested {n : Nat} (h : room < 2 * n + 1) :
    ((Expr.nested n).value (answering room answer)).run s = (.error .tooDeep, s) := by
  have hmeets : ((Expr.nested n).value (answering room answer)).Meets s (fun _ _ => False)
      fun f s' => f = .tooDeep ∧ s' = s := by
    unfold Expr.value
    rw [ExceptT.meets_bind]
    exact (eval_nested (by omega)).imp (fun _ _ => False.elim) fun _ _ => id
  rcases hrun : ((Expr.nested n).value (answering room answer)).run s with ⟨f | x, s'⟩
  · obtain ⟨rfl, rfl⟩ := hmeets.of_run_error hrun
    rfl
  · exact (hmeets.of_run_ok hrun).elim

/-- **An accepted body for which the room does not suffice**: six hundred calls inside each other,
each of which takes one level to be checked and two to be evaluated. -/
theorem value_nested_calls :
    Expr.ofBody roomLimit (String.ofList (nested 600)) = .ok (.nested 600) ∧
      ((Expr.nested 600).value (answering roomLimit fun _ => (pure (.text "") : StateM Unit _))).run
        () = (.error .tooDeep, ()) :=
  ⟨ofBody_nested (by decide), run_value_nested (by decide)⟩

end Spreadsheet.Formula
