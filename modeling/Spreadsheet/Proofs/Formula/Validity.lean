import Spreadsheet.Proofs.Formula.Denotation

/-!
# Accepted trees

What the check of a tree guarantees, whatever the room: its references name cells, its functions
exist and its ranges are arguments.

* `Expr.Valid`; **`Expr.valid_of_check`**;
* **`Expr.check_mono`**, `Expr.ofBody_mono`: more room changes no answer but that there is too
  little;
* `Expr.references_of_valid`: the corners of the rectangles that an accepted tree reads;
* `Expr.Short`: row numbers that can be read; `Expr.ofBody_ne_tooLong`.
-/

namespace Spreadsheet.Formula

open Reference (Parts)

/-! ## Written references -/

theorem resolve_eq_ok {position : Nat} {p : Parts} {r : Reference} :
    resolve position p = .ok r ↔ p.resolve? = .ok (some r) := by
  unfold resolve
  rcases p.resolve? with e | _ | r' <;> simp

/-- A written reference that names a cell. -/
def Names (p : Parts) : Prop := ∃ r, p.resolve? = .ok (some r)

theorem Names.resolve {p : Parts} (h : Names p) (position : Nat) :
    ∃ r, resolve position p = .ok r ∧ r.cell = p.target := by
  obtain ⟨r, hr⟩ := h
  exact ⟨r, resolve_eq_ok.2 hr, by simp [Parts.target, hr]⟩

theorem names_of_resolve {position : Nat} {p : Parts} {r : Reference}
    (h : resolve position p = .ok r) : Names p := ⟨r, resolve_eq_ok.1 h⟩

/-! ## Validity -/

mutual

/-- A tree that can be evaluated, as an argument or by itself. -/
def Expr.Valid : (isArgument : Bool) → Expr → Prop
  | _, .number _ => True
  | _, .cell parts _ => Names parts
  | isArgument, .range first last _ => isArgument = true ∧ Names first ∧ Names last
  | _, .signed _ e => e.Valid false
  | _, .binary _ l r => l.Valid false ∧ r.Valid false
  | _, .call name args => (∃ f, Function.ofName? (upperName name) = some f) ∧ Expr.AllValid args

/-- Arguments that can be evaluated. -/
def Expr.AllValid : List Expr → Prop
  | [] => True
  | e :: es => e.Valid true ∧ Expr.AllValid es

end

theorem bind_eq_ok {ε α β : Type} {x : Except ε α} {k : α → Except ε β} {b : β} :
    (x >>= k) = .ok b ↔ ∃ a, x = .ok a ∧ k a = .ok b := by
  cases x <;> simp [bind, Except.bind]

mutual

/-- **Accepted trees are valid.** -/
theorem Expr.valid_of_check {room : Nat} :
    ∀ (e : Expr) (level : Nat) (isArgument : Bool), e.check room level isArgument = .ok () →
      e.Valid isArgument
  | .number _, _, _, _ => trivial
  | .cell parts position, level, isArgument, h => by
    simp only [Expr.check, bind_eq_ok] at h
    obtain ⟨_, _, r, hr, _⟩ := h
    exact names_of_resolve hr
  | .range first last position, level, isArgument, h => by
    simp only [Expr.check, bind_eq_ok] at h
    obtain ⟨_, _, r, hr, r', hr', h⟩ := h
    refine ⟨?_, names_of_resolve hr, names_of_resolve hr'⟩
    cases isArgument
    · cases h
    · rfl
  | .signed _ e, level, _, h => by
    simp only [Expr.check, bind_eq_ok] at h
    obtain ⟨_, _, h⟩ := h
    exact Expr.valid_of_check e (level + 1) false h
  | .binary _ l r, level, _, h => by
    simp only [Expr.check, bind_eq_ok] at h
    obtain ⟨_, _, _, hl, hr⟩ := h
    exact ⟨Expr.valid_of_check l (level + 1) false hl, Expr.valid_of_check r (level + 1) false hr⟩
  | .call name args, level, _, h => by
    simp only [Expr.check, bind_eq_ok] at h
    obtain ⟨_, _, h⟩ := h
    cases hf : Function.ofName? (upperName name) with
    | none => simp [hf, throw, throwThe, MonadExceptOf.throw] at h
    | some f => rw [hf] at h; exact ⟨⟨f, hf⟩, Expr.allValid_of_check args (level + 1) h⟩

theorem Expr.allValid_of_check {room : Nat} :
    ∀ (es : List Expr) (level : Nat), Expr.checkArguments room level es = .ok () →
      Expr.AllValid es
  | [], _, _ => trivial
  | e :: es, level, h => by
    simp only [Expr.checkArguments, bind_eq_ok] at h
    obtain ⟨_, he, hes⟩ := h
    exact ⟨Expr.valid_of_check e level true he, Expr.allValid_of_check es level hes⟩

end

theorem Expr.valid_of_ofBody {room : Nat} {body : String} {e : Expr}
    (h : Expr.ofBody room body = .ok e) : e.Valid false := by
  unfold Expr.ofBody at h
  split at h
  · cases h
  · obtain ⟨_, hc, he⟩ := bind_eq_ok.1 h
    cases he
    exact Expr.valid_of_check e 0 false hc

/-! ## More room -/

/-- An answer stays what it is, unless it is that something is too deep. -/
def Persists {α : Type} (x y : Except Failure α) : Prop := x ≠ .error .tooDeep → y = x

theorem Persists.rfl {α : Type} {x : Except Failure α} : Persists x x := fun _ => Eq.refl x

theorem Persists.bind {α β : Type} {x y : Except Failure α} {k l : α → Except Failure β}
    (h : Persists x y) (hk : ∀ a, Persists (k a) (l a)) : Persists (x >>= k) (y >>= l) := by
  intro hne
  cases x with
  | error f =>
    have : y = .error f := h fun hf => hne (by cases hf; rfl)
    rw [this]; rfl
  | ok a =>
    have : y = .ok a := h (by simp)
    rw [this]; exact hk a hne

variable {room room' : Nat}

theorem enter_mono (hroom : room' ≤ room) (level : Nat) :
    Persists (enter room' level) (enter room level) := by
  intro h
  unfold enter at h ⊢
  split at h
  · rw [if_pos (by omega), if_pos ‹_›]
  · exact absurd (Eq.refl _) h

mutual

/-- **More room changes no answer of the check but that there is too little.** -/
theorem Expr.check_mono (hroom : room' ≤ room) : ∀ (e : Expr) (level : Nat) (isArgument : Bool),
    Persists (e.check room' level isArgument) (e.check room level isArgument)
  | .number _, level, _ => enter_mono hroom level
  | .cell parts position, level, _ => (enter_mono hroom level).bind fun _ => .rfl
  | .range first last position, level, _ => (enter_mono hroom level).bind fun _ => .rfl
  | .signed _ e, level, _ =>
    (enter_mono hroom level).bind fun _ => Expr.check_mono hroom e (level + 1) false
  | .binary _ l r, level, _ =>
    (enter_mono hroom level).bind fun _ =>
      (Expr.check_mono hroom l (level + 1) false).bind fun _ =>
        Expr.check_mono hroom r (level + 1) false
  | .call name args, level, _ => by
    refine (enter_mono hroom level).bind fun _ => ?_
    cases Function.ofName? (upperName name) with
    | none => exact .rfl
    | some f => exact Expr.checkArguments_mono hroom args (level + 1)

theorem Expr.checkArguments_mono (hroom : room' ≤ room) : ∀ (es : List Expr) (level : Nat),
    Persists (Expr.checkArguments room' level es) (Expr.checkArguments room level es)
  | [], _ => .rfl
  | e :: es, level =>
    (Expr.check_mono hroom e level true).bind fun _ => Expr.checkArguments_mono hroom es level

end

theorem Expr.ofBody_mono (hroom : room' ≤ room) (body : String) :
    Persists (Expr.ofBody room' body) (Expr.ofBody room body) := by
  unfold Expr.ofBody
  split
  · exact .rfl
  · rename_i e _
    exact (Expr.check_mono hroom e 0 false).bind fun _ => .rfl

/-! ## What an accepted tree reads -/

mutual

theorem Expr.names_of_valid : ∀ (e : Expr) (isArgument : Bool), e.Valid isArgument →
    ∀ q ∈ e.corners, Names q.1 ∧ Names q.2.1
  | .number _, _, _, q, hq => by simp [Expr.corners] at hq
  | .cell parts position, _, h, q, hq => by
    obtain rfl : q = (parts, parts, position) := by simpa [Expr.corners] using hq
    exact ⟨h, h⟩
  | .range first last position, _, h, q, hq => by
    obtain rfl : q = (first, last, position) := by simpa [Expr.corners] using hq
    exact h.2
  | .signed _ e, _, h, q, hq => Expr.names_of_valid e false h q hq
  | .binary _ l r, _, h, q, hq => by
    rcases List.mem_append.1 hq with hq | hq
    · exact Expr.names_of_valid l false h.1 q hq
    · exact Expr.names_of_valid r false h.2 q hq
  | .call _ args, _, h, q, hq => Expr.names_of_allValid args h.2 q hq

theorem Expr.names_of_allValid : ∀ es : List Expr, Expr.AllValid es →
    ∀ q ∈ Expr.cornersOfList es, Names q.1 ∧ Names q.2.1
  | [], _, q, hq => by simp [Expr.cornersOfList] at hq
  | e :: es, h, q, hq => by
    rcases List.mem_append.1 hq with hq | hq
    · exact Expr.names_of_valid e true h.1 q hq
    · exact Expr.names_of_allValid es h.2 q hq

end

/-- The corners that a list of written rectangles names. -/
theorem mapM_resolve {qs : List (Parts × Parts × Nat)} (h : ∀ q ∈ qs, Names q.1 ∧ Names q.2.1) :
    ∃ refs, (qs.mapM fun (first, last, position) => do
        return (← resolve position first, ← resolve position last) :
          Except Failure (List (Reference × Reference))) = .ok refs ∧
      refs.map (fun p => (p.1.cell, p.2.cell)) = qs.map fun q => (q.1.target, q.2.1.target) := by
  induction qs with
  | nil => exact ⟨[], rfl, rfl⟩
  | cons q qs ih =>
    obtain ⟨refs, h1, h2⟩ := ih fun q hq => h q (by simp [hq])
    obtain ⟨hf, hl⟩ := h q (by simp)
    obtain ⟨first, hf, hf'⟩ := hf.resolve q.2.2
    obtain ⟨last, hl, hl'⟩ := hl.resolve q.2.2
    refine ⟨(first, last) :: refs, ?_, by simp [hf', hl', h2]⟩
    rw [List.mapM_cons, h1]
    simp [hf, hl, bind, Except.bind, pure, Except.pure]

/-- **The references of an accepted tree are the corners of the cells that it reads.** -/
theorem Expr.references_of_valid {e : Expr} {isArgument : Bool} (h : e.Valid isArgument) :
    ∃ refs, e.references = .ok refs ∧
      refs.flatMap (fun p => rectangle p.1.cell p.2.cell) = e.cells := by
  obtain ⟨refs, h1, h2⟩ := mapM_resolve (Expr.names_of_valid e isArgument h)
  refine ⟨refs, h1, ?_⟩
  have := congrArg (List.flatMap fun p : Cell × Cell => rectangle p.1 p.2) h2
  simpa [List.flatMap_map, Expr.cells, cornerCells] using this

/-! ## Row numbers that can be read -/

/-- The row number of a written reference can be read. -/
def Short (p : Parts) : Prop := p.digits.length ≤ Decimal.maxDigits

/-- All row numbers in a tree can be read. -/
def Expr.Short (e : Expr) : Prop := ∀ q ∈ e.corners, Formula.Short q.1 ∧ Formula.Short q.2.1

instance (p : Parts) : Decidable (Formula.Short p) := inferInstanceAs (Decidable (_ ≤ _))

instance (e : Expr) : Decidable e.Short := inferInstanceAs (Decidable (∀ q ∈ e.corners, _))

/-- A failure is not that a number is too long. -/
def Readable {α : Type} (x : Except Failure α) : Prop := ∀ t, x ≠ .error (.tooLong t)

theorem Readable.bind {α β : Type} {x : Except Failure α} {k : α → Except Failure β}
    (hx : Readable x) (hk : ∀ a, Readable (k a)) : Readable (x >>= k) := by
  cases x with
  | error f => intro t h; exact hx t (by cases h; rfl)
  | ok a => exact hk a

theorem readable_ok {α : Type} (a : α) : Readable (.ok a) := nofun

theorem readable_rejected {α : Type} (q : Rejection) :
    Readable (.error (.rejected q) : Except Failure α) := nofun

theorem readable_enter (room level : Nat) : Readable (enter room level) := by
  intro t; unfold enter; split <;> simp

theorem readable_resolve {p : Parts} (h : Formula.Short p) (position : Nat) :
    Readable (resolve position p) := by
  intro t
  simp only [resolve, Parts.resolve?, Decimal.readNat_of_length_le h]
  by_cases h0 : Decimal.ofDigits p.digits = 0 <;> simp [bind, Except.bind, h0, pure, Except.pure]

mutual

theorem Expr.readable_check {room : Nat} : ∀ (e : Expr) (level : Nat) (isArgument : Bool),
    e.Short → Readable (e.check room level isArgument)
  | .number _, level, _, _ => readable_enter room level
  | .cell parts position, level, _, h => by
    have hq := h (parts, parts, position) (by simp [Expr.corners])
    exact (readable_enter room level).bind fun _ => (readable_resolve hq.1 _).bind fun _ =>
      readable_ok ()
  | .range first last position, level, isArgument, h => by
    have hq := h (first, last, position) (by simp [Expr.corners])
    refine (readable_enter room level).bind fun _ => (readable_resolve hq.1 _).bind fun _ =>
      (readable_resolve hq.2 _).bind fun _ => ?_
    cases isArgument
    · exact readable_rejected _
    · exact readable_ok ()
  | .signed _ e, level, _, h =>
    (readable_enter room level).bind fun _ => Expr.readable_check e (level + 1) false h
  | .binary _ l r, level, _, h => by
    have hl : l.Short := fun q hq => h q (List.mem_append_left _ hq)
    have hr : r.Short := fun q hq => h q (List.mem_append_right _ hq)
    exact (readable_enter room level).bind fun _ =>
      (Expr.readable_check l (level + 1) false hl).bind fun _ =>
        Expr.readable_check r (level + 1) false hr
  | .call name args, level, _, h => by
    refine (readable_enter room level).bind fun _ => ?_
    cases Function.ofName? (upperName name) with
    | none => exact readable_rejected _
    | some f => exact Expr.readable_checkArguments args (level + 1) h

theorem Expr.readable_checkArguments {room : Nat} : ∀ (es : List Expr) (level : Nat),
    (∀ q ∈ Expr.cornersOfList es, Formula.Short q.1 ∧ Formula.Short q.2.1) →
      Readable (Expr.checkArguments room level es)
  | [], _, _ => readable_ok ()
  | e :: es, level, h => by
    have he : e.Short := fun q hq => h q (List.mem_append_left _ hq)
    exact (Expr.readable_check e level true he).bind fun _ =>
      Expr.readable_checkArguments es level fun q hq => h q (List.mem_append_right _ hq)

end

/-- A body in whose tree all row numbers can be read is not refused for one of them. -/
theorem Expr.readable_ofBody {room : Nat} {body : String}
    (h : ∀ e, Expr.parse body = .ok e → e.Short) : Readable (Expr.ofBody room body) := by
  unfold Expr.ofBody
  split
  · exact readable_rejected _
  · rename_i e he
    exact (Expr.readable_check e 0 false (h e he)).bind fun _ => readable_ok e

end Spreadsheet.Formula
