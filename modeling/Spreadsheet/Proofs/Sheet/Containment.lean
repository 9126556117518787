import Mathlib
import Spreadsheet.Proofs.Double
import Spreadsheet.Proofs.Formula.Safety
import Spreadsheet.Proofs.Sheet.Overlay

/-!
# Numbers that are not finite

A literal can be too large for a double, and operations can leave the range of doubles. What is not
finite goes no further than a chain of signs: operations and functions check what they return, and a
reference checks what it is answered with, so that the value of any other formula is an error or
finite, whatever the cells hold.

* `Contained`, `Infinite`; `Expr.Overflows`: signs in front of a literal that is too large;
* `contained_apply`, `Function.contained_apply`: operations and functions;
  `contained_of_collect`: what a function gets;
* **`Expr.eval_confines`**: one case for every kind of tree;
* **`value_contained`**: values of formulas, and what cells show.
-/

namespace Spreadsheet

open Formula (CellValue ErrorCode Expr Failure Function Operand Outcome)

namespace Formula

variable {x : Outcome} {y : Float} {xs : List Float}

/-! ## Outcomes -/

/-- An error or a finite number. -/
def Contained (x : Outcome) : Prop := ∀ y, x = .ok y → y.isFinite = true

/-- One of the two infinities. -/
def Infinite (x : Outcome) : Prop := ∃ y, x = .ok y ∧ y.isInf = true

theorem contained_error (code : ErrorCode) : Contained (.error code) := nofun

theorem contained_ok (h : y.isFinite = true) : Contained (.ok y) := by
  intro z hz
  rwa [← Except.ok.inj hz]

theorem contained_checked (y : Float) : Contained (checked y) := by
  unfold checked
  split
  · exact contained_ok ‹_›
  · exact contained_error _

theorem checked_of_not_isFinite (h : y.isFinite = false) : checked y = .error .value := by
  rw [checked, if_neg (by simp [h])]

theorem contained_bind_checked (x : Outcome) : Contained (x >>= checked) := by
  cases x with
  | error code => exact contained_error code
  | ok y => exact contained_checked y

/-- **A reference never reads an infinity.** -/
theorem CellValue.contained_number (v : CellValue) : Contained v.number := by
  cases v with
  | text s =>
    unfold CellValue.number ofText
    dsimp only
    split
    · exact contained_ok (by decide)
    · split
      · exact contained_checked _
      · exact contained_error _
  | result x => exact contained_bind_checked x
  | failed => exact contained_error _

theorem number_text_of_not_isFinite {s : String} {n : Decimal.Numeral}
    (h : Decimal.Numeral.read? (Text.trim s.toList) = some n) (hn : n.value.isFinite = false) :
    (CellValue.text s).number = .error .value := by
  have hne : (Text.trim s.toList).isEmpty = false := by
    cases hs : Text.trim s.toList with
    | nil => rw [hs] at h; cases h
    | cons => rfl
  simp only [CellValue.number, ofText, hne, h, Bool.false_eq_true, if_false]
  exact checked_of_not_isFinite hn

/-! ## Operations -/

theorem contained_apply (op : Operator) (a b : Float) : Contained (op.apply a b) := by
  cases op with
  | add | sub | mul => exact contained_checked _
  | div =>
    simp only [Operator.apply]
    split
    · exact contained_error _
    · exact contained_checked _

/-- What is kept of numbers, two at a time, is one of them. -/
theorem foldl_mem (better : Float → Float → Prop) [DecidableRel better] (best : Float)
    (xs : List Float) :
    xs.foldl (fun best y => if better y best then y else best) best ∈ best :: xs := by
  induction xs generalizing best with
  | nil => exact List.mem_cons_self
  | cons y xs ih =>
    rw [List.foldl_cons]
    rcases List.mem_cons.1 (ih (if better y best then y else best)) with h | h
    · rw [h]
      split <;> simp
    · exact List.mem_cons_of_mem _ (List.mem_cons_of_mem _ h)

theorem isFinite_leastOf (h : ∀ x ∈ xs, x.isFinite = true) : (leastOf xs).isFinite = true := by
  cases xs with
  | nil => decide
  | cons x xs => exact h _ (foldl_mem (· < ·) x xs)

theorem isFinite_greatestOf (h : ∀ x ∈ xs, x.isFinite = true) :
    (greatestOf xs).isFinite = true := by
  cases xs with
  | nil => decide
  | cons x xs => exact h _ (foldl_mem (· > ·) x xs)

theorem Function.contained_reduce (f : Function) (h : ∀ x ∈ xs, x.isFinite = true) :
    Contained (f.reduce xs) := by
  cases f with
  | sum => exact contained_checked _
  | min => exact contained_ok (isFinite_leastOf h)
  | max => exact contained_ok (isFinite_greatestOf h)
  | average =>
    cases xs with
    | nil => exact contained_ok (by decide)
    | cons => exact contained_checked _

/-- **A function gets finite numbers only.** -/
theorem contained_of_collect {outcomes : List Outcome} (h : collect outcomes = .ok xs) :
    ∀ x ∈ xs, x.isFinite = true := by
  induction outcomes generalizing xs with
  | nil =>
    obtain rfl : [] = xs := Except.ok.inj h
    exact fun _ hx => absurd hx List.not_mem_nil
  | cons x outcomes ih =>
    rw [collect_cons] at h
    cases hx : x >>= checked with
    | error code => rw [hx] at h; cases h
    | ok a =>
      cases hrest : collect outcomes with
      | error code => rw [hx, hrest] at h; cases h
      | ok as =>
        rw [hx, hrest] at h
        obtain rfl : a :: as = xs := Except.ok.inj h
        rintro b (_ | ⟨_, hb⟩)
        · exact contained_bind_checked x a hx
        · exact ih hrest b hb

theorem Function.apply_cases (f : Function) (args : List Operand) :
    (∃ xs, collect (args.flatMap Operand.outcomes) = .ok xs ∧ (∀ x ∈ xs, x.isFinite = true) ∧
      f.apply args = f.reduce xs) ∨
    ∃ code, collect (args.flatMap Operand.outcomes) = .error code ∧ f.apply args = .error code := by
  unfold Function.apply
  cases hcollect : collect (args.flatMap Operand.outcomes) with
  | error code => exact .inr ⟨code, rfl, rfl⟩
  | ok xs => exact .inl ⟨xs, rfl, contained_of_collect hcollect, rfl⟩

theorem Function.contained_apply (f : Function) (args : List Operand) :
    Contained (f.apply args) := by
  rcases f.apply_cases args with ⟨xs, -, hxs, h⟩ | ⟨code, -, h⟩
  · exact h ▸ f.contained_reduce hxs
  · exact h ▸ contained_error code

/-! ## Trees -/

/-- Signs, any number of them, in front of a number that is too large for a double. -/
def Expr.Overflows : Expr → Prop
  | .number n => n.value.isFinite = false
  | .signed _ e => e.Overflows
  | .cell .. | .range .. | .binary .. | .call .. => False

/-- What a tree may have as its value: an infinity if it is too large a number with signs, and an
error or a finite number otherwise. -/
def Expr.Confines (e : Expr) (x : Outcome) : Prop :=
  (e.Overflows ∧ Infinite x) ∨ (¬ e.Overflows ∧ Contained x)

theorem Expr.confines_number (n : Literal) : (Expr.number n).Confines (.ok n.value) := by
  cases h : n.value.isFinite with
  | true => exact .inr ⟨by simp [Expr.Overflows, h], contained_ok h⟩
  | false =>
    exact .inl ⟨h, n.value, rfl, Decimal.isInf_of_not_isFinite h (Decimal.isNaN_nearest _ _)⟩

/-- A sign keeps finite what is finite, and infinite what is infinite. -/
theorem Expr.Confines.signed {e : Expr} (h : e.Confines x) (s : Sign) :
    (Expr.signed s e).Confines (x.map s.apply) := by
  rcases h with ⟨hover, y, rfl, hy⟩ | ⟨hover, hx⟩
  · refine .inl ⟨hover, s.apply y, rfl, ?_⟩
    cases s with
    | positive => exact hy
    | negative => exact Decimal.isInf_neg hy
  · refine .inr ⟨hover, ?_⟩
    cases x with
    | error code => exact contained_error code
    | ok y =>
      refine contained_ok ?_
      cases s with
      | positive => exact hx y rfl
      | negative => exact (Decimal.isFinite_neg y).trans (hx y rfl)

section

variable {σ : Type} {s : σ} {room : Nat} {answer : Cell → StateM σ CellValue}

theorem Operand.meets_scalar (x : Operand) :
    (x.scalar : ExceptT Failure (StateM σ) Outcome).Meets s (fun y _ => y = x.single)
      fun _ _ => True := by
  cases x with
  | number y => exact rfl
  | range xs => trivial

/-- **What a tree evaluates to**, whatever its references are answered with. -/
theorem Expr.eval_confines : ∀ (e : Expr) (level : Nat) (s : σ),
    (e.eval (answering room answer) level).Meets s (fun x _ => e.Confines x.single)
      fun _ _ => True
  | .number n, level, s => by
    simp only [Expr.eval]
    exact ExceptT.meets_bind_of_forall fun _ _ => Expr.confines_number n
  | .cell parts position, level, s => by
    simp only [Expr.eval]
    refine ExceptT.meets_bind_of_forall fun _ _ => ExceptT.meets_bind_of_forall fun r _ =>
      ExceptT.meets_bind_of_forall fun v _ => ?_
    exact .inr ⟨id, v.contained_number⟩
  | .range first last position, level, s => by
    simp only [Expr.eval]
    refine ExceptT.meets_bind_of_forall fun _ _ => ExceptT.meets_bind_of_forall fun r _ =>
      ExceptT.meets_bind_of_forall fun r' _ => ExceptT.meets_bind_of_forall fun xs _ => ?_
    exact .inr ⟨id, contained_error _⟩
  | .signed sign e, level, s => by
    simp only [Expr.eval]
    refine ExceptT.meets_bind_of_forall fun _ s' => ?_
    rw [ExceptT.meets_bind]
    refine (Expr.eval_confines e (level + 1) s').imp (fun x s'' hx => ?_) fun _ _ => id
    rw [ExceptT.meets_bind]
    refine x.meets_scalar.imp (fun y _ hy => ?_) fun _ _ => id
    subst hy
    exact hx.signed sign
  | .binary op l r, level, s => by
    simp only [Expr.eval]
    refine ExceptT.meets_bind_of_forall fun _ _ => ExceptT.meets_bind_of_forall fun _ _ =>
      ExceptT.meets_bind_of_forall fun x _ => ?_
    cases x with
    | error code => exact .inr ⟨id, contained_error code⟩
    | ok a =>
      refine ExceptT.meets_bind_of_forall fun _ _ => ExceptT.meets_bind_of_forall fun y _ => ?_
      cases y with
      | error code => exact .inr ⟨id, contained_error code⟩
      | ok b => exact .inr ⟨id, contained_apply op a b⟩
  | .call name args, level, s => by
    simp only [Expr.eval]
    refine ExceptT.meets_bind_of_forall fun _ _ => ?_
    split
    · trivial
    · exact ExceptT.meets_bind_of_forall fun xs _ => .inr ⟨id, Function.contained_apply _ xs⟩

theorem Expr.value_confines (e : Expr) :
    (e.value (answering room answer)).Meets s (fun x _ => e.Confines x) fun _ _ => True := by
  unfold Expr.value
  rw [ExceptT.meets_bind]
  refine (e.eval_confines 0 s).imp (fun x _ hx => ?_) fun _ _ => id
  exact x.meets_scalar.imp (fun y _ hy => hy ▸ hx) fun _ _ => id

end

theorem Expr.Confines.isNaN {e : Expr} (h : e.Confines (.ok y)) : y.isNaN = false := by
  rcases h with ⟨-, z, hz, hinf⟩ | ⟨-, hfinite⟩
  · obtain rfl := Except.ok.inj hz
    exact Decimal.isNaN_of_isInf hinf
  · exact Decimal.isNaN_of_isFinite (hfinite y rfl)

/-! ## Texts -/

/-- The text of a finite number. -/
def IsNumberText (t : String) : Prop :=
  ∃ y b, y.isFinite = true ∧ Decimal.Binary.ofFloat? y = some b ∧ t = display y

theorem display_of_not_isFinite (h : y.isFinite = false) : display y = ErrorCode.value.text := by
  rw [display, (Decimal.ofFloat?_eq_none_iff y).2 h]

theorem isNumberText_display (h : y.isFinite = true) : IsNumberText (display y) := by
  cases hb : Decimal.Binary.ofFloat? y with
  | none => rw [(Decimal.ofFloat?_eq_none_iff y).1 hb] at h; cases h
  | some b => exact ⟨y, b, h, hb, rfl⟩

/-- A result looks like an error or like a finite number. -/
theorem display_result (x : Outcome) :
    (∃ code : ErrorCode, (CellValue.result x).display = code.text) ∨
      IsNumberText (CellValue.result x).display := by
  cases x with
  | error code => exact .inl ⟨code, rfl⟩
  | ok y =>
    cases h : y.isFinite with
    | true => exact .inr (isNumberText_display h)
    | false => exact .inl ⟨.value, display_of_not_isFinite h⟩

end Formula

/-! ## Cells -/

variable {room : Nat}

theorem Grid.Right.display {g : Grid} {c : Cell} {v : CellValue} (h : g.Right room c v) :
    v.display = failedText ∨ (∃ code : ErrorCode, v.display = code.text) ∨
      Formula.IsNumberText v.display := by
  obtain ⟨body, -, h⟩ := h
  split at h
  · obtain ⟨x, rfl, -⟩ := h
    exact .inr (Formula.display_result x)
  · obtain ⟨rfl, -⟩ := h
    exact .inl rfl

/-- What a formula cell shows, if it can be shown. -/
theorem Sheet.Reachable.display_cases {s : Sheet} (hs : s.Reachable room) {c : Cell}
    (hc : CellText.isFormula (s.text c) = true) :
    match (s.run fun g => g.display room c).1 with
    | .ok t => t = failedText ∨ (∃ code : ErrorCode, t = code.text) ∨ Formula.IsNumberText t
    | .error f => s.grid.Overlong room c f := by
  have hshown := hs.coherent.display_shown c
  rcases hrun : (s.run fun g => g.display room c).1 with f | t
  · rw [hrun] at hshown
    exact hshown
  · rw [hrun] at hshown
    rcases hshown with ⟨hf, -⟩ | ⟨v, hv, rfl⟩
    · exact absurd hc hf
    · exact hv.display

/-- **Numbers that are not finite are contained.** A formula that is accepted evaluates to an error
or a finite number, whatever its references are answered with, unless there is not enough room for
its levels; only a literal that is too large for a double, with signs in front of it or without, is
an infinity, and nothing is ever no number. Functions get finite numbers only, a reference to a cell
whose value is not finite reads a missing number, and a formula cell shows `ERR`, the code of an
error or a finite number. -/
theorem value_contained {body : String} {e : Expr} (h : Expr.ofBody room body = .ok e) :
    (∀ (σ : Type) (room' : Nat) (answer : Cell → StateM σ CellValue) (s : σ),
      (∃ x s', (e.value (Formula.answering room' answer)).run s = (.ok x, s') ∧
        (e.Overflows → Formula.Infinite x) ∧ (¬ e.Overflows → Formula.Contained x) ∧
        ∀ y, x = .ok y → y.isNaN = false) ∨
      (room' < e.height ∧
        ∃ s', (e.value (Formula.answering room' answer)).run s = (.error .tooDeep, s'))) ∧
    (∀ (f : Function) (args : List Operand),
      (∃ xs, Formula.collect (args.flatMap Operand.outcomes) = .ok xs ∧
        (∀ x ∈ xs, x.isFinite = true) ∧ f.apply args = f.reduce xs) ∨
      ∃ code, Formula.collect (args.flatMap Operand.outcomes) = .error code ∧
        f.apply args = .error code) ∧
    (∀ y : Float, y.isFinite = false →
      (CellValue.result (.ok y)).number = .error .value ∧
      (CellValue.result (.ok y)).display = ErrorCode.value.text) ∧
    (∀ t n, Decimal.Numeral.read? (Text.trim t.toList) = some n → n.value.isFinite = false →
      (CellValue.text t).number = .error .value) ∧
    ∀ s : Sheet, s.Reachable room → ∀ c, CellText.isFormula (s.text c) = true →
      match (s.run fun g => g.display room c).1 with
      | .ok t => t = failedText ∨ (∃ code : ErrorCode, t = code.text) ∨ Formula.IsNumberText t
      | .error f => s.grid.Overlong room c f := by
  refine ⟨fun σ room' answer s => ?_, Function.apply_cases, fun y hy => ⟨?_, ?_⟩,
    fun t n => Formula.number_text_of_not_isFinite, fun s hs c hc => hs.display_cases hc⟩
  · have hmeets : (e.value (Formula.answering room' answer)).Meets s (fun _ _ => True)
        (Formula.LacksRoom room' e.height) :=
      Expr.value_meets_of_valid (Expr.valid_of_ofBody h)
    rcases hrun : (e.value (Formula.answering room' answer)).run s with ⟨f | x, s'⟩
    · obtain ⟨rfl, hroom⟩ := hmeets.of_run_error hrun
      exact .inr ⟨hroom, s', rfl⟩
    · have hconfines : e.Confines x := e.value_confines.of_run_ok hrun
      refine .inl ⟨x, s', rfl, fun hover => ?_, fun hover => ?_, ?_⟩
      · exact (hconfines.resolve_right fun h => h.1 hover).2
      · exact (hconfines.resolve_left fun h => hover h.1).2
      · rintro y rfl
        exact hconfines.isNaN
  · exact Formula.checked_of_not_isFinite hy
  · exact Formula.display_of_not_isFinite hy

/-- A square that is too large for a double. -/
theorem value_contained_square : ∃ e, Expr.ofBody Formula.roomLimit "A1*A1" = .ok e ∧
    ∃ x, ((e.value (Formula.answering Formula.roomLimit fun _ =>
      (return .text "1e200" : StateM Unit CellValue))).run ()).1 = .ok x ∧ Formula.Contained x := by
  have hbody : Expr.ofBody Formula.roomLimit "A1*A1" = .ok (.binary .mul
      (.cell ⟨false, ['A'], false, ['1']⟩ 0) (.cell ⟨false, ['A'], false, ['1']⟩ 3)) := by cbv
  obtain ⟨hvalue, -⟩ := value_contained hbody
  rcases hvalue Unit Formula.roomLimit (fun _ => return .text "1e200") () with
    ⟨x, s', hrun, -, hcontained, -⟩ | ⟨hroom, -⟩
  · exact ⟨_, hbody, x, congrArg Prod.fst hrun, hcontained id⟩
  · exact absurd hroom (by decide)

end Spreadsheet
