import Spreadsheet.Proofs.Formula.Evaluation
import Spreadsheet.Proofs.Sheet.Meaning

/-!
# What is known is right

Results are sound on a grid if every value kept is the one that its cell has, and the reason noted
for its cell is the reason why it has none. The value of a cell that reaches a cycle is right up to
the error code: which one it is depends on where the cycle was entered.

* `Grid.Right`, `Results.Sound`, `Results.Extends`;
* `Grid.SelfContained`: every formula by itself has a value or is rejected; `Grid.compatible`: what
  an evaluation with other room achieves;
* **`evaluate_meets`**: one formula; **`Grid.cellValue_meets`**: asking recursively keeps results
  sound and gives right answers.
-/

namespace Spreadsheet

open Formula (CellValue Outcome Failure)

/-! ## Right values -/

/-- Two outcomes are equal, or are both errors where their codes do not matter. -/
def Formula.Agree (lenient : Prop) (x y : Outcome) : Prop :=
  x = y ∨ lenient ∧ (∃ a, x = .error a) ∧ ∃ b, y = .error b

theorem Formula.congruence_agree (lenient : Prop) : Formula.Congruence (Formula.Agree lenient) where
  ok _ := .inl rfl
  value := .inl rfl
  eq_of_ok h := h.elim Eq.symm fun ⟨_, ⟨_, h⟩, _⟩ => by cases h
  error_of_error h := h.elim (fun h => ⟨_, h.symm⟩) fun ⟨_, _, h⟩ => h

theorem Formula.Agree.mono {p q : Prop} {x y : Outcome} (h : Formula.Agree p x y) (hpq : p → q) :
    Formula.Agree q x y := h.imp id fun ⟨hp, h⟩ => ⟨hpq hp, h⟩

/-- A value is right for a formula cell. None is if a row number is too long. -/
def Grid.Right (g : Grid) (room : Nat) (c : Cell) (v : CellValue) : Prop :=
  ∃ body, CellText.body? (g.text c) = some body ∧
    match g.verdict room body with
    | .ok x => ∃ y, v = .result y ∧ Formula.Agree (g.ReachesCycle room c) y x
    | .error f => v = .failed ∧ ∀ t, f ≠ .tooLong t

/-- A value is as good as the cell's own for those that refer to the cell. -/
def Grid.Answer (g : Grid) (room : Nat) (c : Cell) (v : CellValue) : Prop :=
  Formula.Agree (g.ReachesCycle room c) v.number (g.meaning room c).number

/-- Results that are right as far as they go. -/
structure Results.Sound (g : Grid) (room : Nat) (r : Results) : Prop where
  right {c : Cell} {v : CellValue} : r.memo[c]? = some v → g.Right room c v
  reason {c : Cell} {v : CellValue} {body : String} : r.memo[c]? = some v →
    CellText.body? (g.text c) = some body →
      r.failures[c]? = Formula.reason? (g.verdict room body)

/-- Results that know more than others, about formula cells only; the reason noted for a cell stays
until its value is known. -/
structure Results.Extends (g : Grid) (r r' : Results) : Prop where
  memo {c : Cell} {v : CellValue} : r.memo[c]? = some v → r'.memo[c]? = some v
  other {c : Cell} : ¬ CellText.isFormula (g.text c) = true → r'.failures[c]? = r.failures[c]?
  kept {c : Cell} : r'.memo[c]? = none → r'.failures[c]? = r.failures[c]?

theorem Results.Extends.refl (g : Grid) (r : Results) : Results.Extends g r r :=
  ⟨id, fun _ => rfl, fun _ => rfl⟩

theorem Results.Extends.unknown {g : Grid} {r r' : Results} {c : Cell} (h : Results.Extends g r r')
    (hc : r'.memo[c]? = none) : r.memo[c]? = none :=
  Option.eq_none_iff_forall_ne_some.2 fun v hv => by
    rw [h.memo hv] at hc
    cases hc

theorem Results.Extends.trans {g : Grid} {r r' r'' : Results} (h : Results.Extends g r r')
    (h' : Results.Extends g r' r'') : Results.Extends g r r'' :=
  ⟨fun hc => h'.memo (h.memo hc), fun hc => (h'.other hc).trans (h.other hc),
    fun hc => (h'.kept hc).trans (h.kept (h'.unknown hc))⟩

variable {g : Grid} {room room' : Nat} {c : Cell} {v : CellValue} {body : String} {r r' : Results}

theorem Grid.Right.isFormula (h : g.Right room c v) : CellText.isFormula (g.text c) = true := by
  obtain ⟨body, hb, _⟩ := h
  exact CellText.isFormula_iff.2 ⟨body, hb⟩

/-- The right value of a cell that reaches no cycle is its meaning. -/
theorem Grid.Right.eq_meaning (h : g.Right room c v) (hc : ¬ g.ReachesCycle room c) :
    v = g.meaning room c := by
  obtain ⟨body, hb, h⟩ := h
  rw [Grid.meaning_of_body? hc hb]
  rcases hv : g.verdict room body with f | x
  · rw [hv] at h; exact h.1
  · rw [hv] at h
    obtain ⟨y, rfl, hy⟩ := h
    rw [CellValue.ofVerdict, hy.resolve_right fun h => hc h.1]

/-- The right value of a cell that reaches a cycle is an error or missing. -/
theorem Grid.Right.of_reachesCycle (h : g.Right room c v) (hc : g.ReachesCycle room c) :
    v = .failed ∨ ∃ code, v = .result (.error code) := by
  obtain ⟨body, hb, h⟩ := h
  rcases hv : g.verdict room body with f | x
  · rw [hv] at h; exact .inl h.1
  · rw [hv] at h
    obtain ⟨y, rfl, hy⟩ := h
    cases x with
    | ok a => exact absurd hc (Grid.not_reachesCycle_of_verdict hb hv)
    | error code =>
      rcases hy with rfl | ⟨_, ⟨code', rfl⟩, _⟩
      · exact .inr ⟨code, rfl⟩
      · exact .inr ⟨code', rfl⟩

theorem Grid.Right.answer (h : g.Right room c v) : g.Answer room c v := by
  by_cases hc : g.ReachesCycle room c
  · refine .inr ⟨hc, ?_, ?_⟩
    · rcases h.of_reachesCycle hc with rfl | ⟨code, rfl⟩
      · exact ⟨_, rfl⟩
      · exact ⟨_, rfl⟩
    · rw [Grid.meaning_of_reachesCycle hc]
      exact ⟨_, rfl⟩
  · rw [h.eq_meaning hc]
    exact .inl rfl

/-! ## Notes -/

/-- Note why a formula has no value, or that it has one. -/
def Results.note (r : Results) (c : Cell) : Except Failure Outcome → Results
  | .ok _ => r.succeed c
  | .error f => r.fail c f

@[simp] theorem Results.memo_note (r : Results) (c : Cell) (x : Except Failure Outcome) :
    (r.note c x).memo = r.memo := by cases x <;> rfl

theorem Results.failures_note (r : Results) (c d : Cell) (x : Except Failure Outcome) :
    (r.note c x).failures[d]? = if c = d then Formula.reason? x else r.failures[d]? := by
  cases x with
  | ok x =>
    simp only [note, succeed, Std.HashMap.getElem?_erase, beq_iff_eq, Formula.reason?]
  | error f =>
    simp only [note, fail, Std.HashMap.getElem?_insert, beq_iff_eq, Formula.reason?]

theorem Results.Sound.note (h : r.Sound g room) (hb : CellText.body? (g.text c) = some body) :
    (r.note c (g.verdict room body)).Sound g room where
  right hd := h.right (by simpa using hd)
  reason {d v body'} hd hb' := by
    rw [memo_note] at hd
    rw [failures_note]
    split
    · subst d
      obtain rfl : body = body' := Option.some.inj (hb.symm.trans hb')
      rfl
    · exact h.reason hd hb'

theorem Results.Sound.memoize (h : r.Sound g room) (hb : CellText.body? (g.text c) = some body)
    (hv : g.Right room c v) (hf : r.failures[c]? = Formula.reason? (g.verdict room body)) :
    (r.memoize c v).Sound g room where
  right {d w} hd := by
    simp only [Results.memoize, Std.HashMap.getElem?_insert, beq_iff_eq] at hd
    split at hd
    · subst d; cases hd; exact hv
    · exact h.right hd
  reason {d w body'} hd hb' := by
    simp only [Results.memoize, Std.HashMap.getElem?_insert, beq_iff_eq] at hd ⊢
    split at hd
    · subst d
      obtain rfl : body = body' := Option.some.inj (hb.symm.trans hb')
      exact hf
    · exact h.reason hd hb'

theorem Results.getElem?_memoize (r : Results) (c d : Cell) (v : CellValue) :
    (r.memoize c v).memo[d]? = if c = d then some v else r.memo[d]? := by
  simp [Results.memoize, Std.HashMap.getElem?_insert]

/-- The value of a formula cell becomes known, with the reason if it has none. -/
theorem Results.Extends.settle (h : r.Extends g r') (hm : r.memo[c]? = none)
    (hb : CellText.body? (g.text c) = some body) (x : Except Failure Outcome) (v : CellValue) :
    r.Extends g ((r'.note c x).memoize c v) where
  memo {d w} hd := by
    rw [getElem?_memoize, if_neg, memo_note]
    · exact h.memo hd
    · rintro rfl
      rw [hm] at hd
      cases hd
  other {d} hd := by
    have hne : c ≠ d := by
      rintro rfl
      exact hd (CellText.isFormula_iff.2 ⟨body, hb⟩)
    exact (Results.failures_note r' c d x).trans ((if_neg hne).trans (h.other hd))
  kept {d} hd := by
    rw [getElem?_memoize] at hd
    split at hd
    · cases hd
    · rename_i hne
      rw [memo_note] at hd
      exact (Results.failures_note r' c d x).trans ((if_neg hne).trans (h.kept hd))

/-! ## One formula -/

/-- The value that an evaluation gives to a formula cell, related to what its body denotes. -/
def Formula.Gives (R : Outcome → Outcome → Prop) (x : Except Failure Outcome) (v : CellValue) :
    Prop :=
  match x with
  | .ok x => ∃ y, v = .result y ∧ R y x
  | .error f => v = .failed ∧ ∃ q, f = .rejected q

/-- **Evaluating a formula.** With related answers it ends with a value related to what the body
denotes, and what that is has been noted; it fails only where an answer does, or by itself. -/
theorem evaluate_meets {I : Results → Prop} {Bad : Failure → Prop}
    {R : Outcome → Outcome → Prop} {ρ : Cell → CellValue}
    {answer : Nat → Cell → Evaluation CellValue} (hR : Formula.Congruence R)
    (hbad : ∀ q, ¬ Bad (.rejected q))
    (ha : ∀ e, Formula.Expr.ofBody room body = .ok e →
      Formula.Answers I Bad R ρ answer (e.depth ρ) e.cells)
    (hr : I r) :
    (evaluate room c body answer).Meets r
      (fun v r' => Formula.Gives R (Formula.verdict room ρ body) v ∧
        ∃ r₁, I r₁ ∧ r' = r₁.note c (Formula.verdict room ρ body))
      fun f r' => I r' ∧
        (Bad f ∨ Formula.verdict room ρ body = .error f ∧ ∀ q, f ≠ .rejected q) := by
  unfold evaluate
  rw [ExceptT.meets_tryCatch, ExceptT.meets_bind, ExceptT.meets_ofExcept]
  rcases he : Formula.Expr.ofBody room body with f | e
  · rw [Formula.verdict_of_error he]
    cases f with
    | rejected q => exact ⟨⟨rfl, q, rfl⟩, r, hr, rfl⟩
    | tooDeep => exact ⟨hr, .inr ⟨rfl, by simp⟩⟩
    | tooLong t => exact ⟨hr, .inr ⟨rfl, by simp⟩⟩
  · rw [Formula.verdict_of_ofBody he]
    simp only
    rw [ExceptT.meets_bind]
    refine (Formula.Expr.value_meets hR (Formula.Expr.valid_of_ofBody he) (ha e he) hr).imp
      (fun x r' ⟨hr', hx, hd⟩ => ?_) fun f r' ⟨hr', hf⟩ => ?_
    · rw [if_pos hd]
      exact ⟨⟨x, rfl, hx⟩, r', hr', rfl⟩
    · cases f with
      | rejected q => exact absurd (hf.resolve_left (hbad q)).1 (by simp)
      | tooDeep => exact ⟨hr', hf.imp id fun ⟨_, hd⟩ => ⟨if_neg (by omega), by simp⟩⟩
      | tooLong t => exact ⟨hr', hf.imp id fun ⟨h, _⟩ => by cases h⟩

namespace Grid

/-- What an evaluation with `room'` makes of the formulas of a grid, one with `room` makes of them
too. -/
def Compatible (g : Grid) (room room' : Nat) : Prop :=
  ∀ c body, CellText.body? (g.text c) = some body →
    (∀ e, Formula.Expr.ofBody room' body = .ok e → Formula.Expr.ofBody room body = .ok e) ∧
      ∀ ρ, Formula.Persists (Formula.verdict room' ρ body) (Formula.verdict room ρ body)

theorem compatible_of_le (h : room' ≤ room) : g.Compatible room room' := fun c body _ =>
  ⟨fun e he => (Formula.Expr.ofBody_mono h body (by rw [he]; simp)).trans he,
    fun _ => Formula.verdict_mono h⟩

/-- Every formula by itself, its references being answered at once, has a value or is rejected. -/
def SelfContained (g : Grid) (room : Nat) : Prop :=
  ∀ c body, CellText.body? (g.text c) = some body → ∀ ρ : Cell → CellValue,
    ∃ v r, (evaluate room c body fun _ d => pure (ρ d)).run {} = (.ok v, r)

theorem evaluate_pure_meets (room : Nat) (c : Cell) (body : String) (ρ : Cell → CellValue) :
    (evaluate room c body fun _ d => pure (ρ d)).Meets {}
      (fun v _ => Formula.Gives Eq (Formula.verdict room ρ body) v)
      fun f _ => Formula.verdict room ρ body = .error f ∧ ∀ q, f ≠ .rejected q := by
  have ha : ∀ top cells, Formula.Answers (fun _ => True) (fun _ => False) Eq ρ
      (fun _ d => pure (ρ d)) top cells := fun top cells d _ level _ r _ => ⟨trivial, rfl⟩
  exact (evaluate_meets Formula.congruence_eq (fun _ => not_false) (fun e _ => ha _ e.cells)
    trivial).imp (fun _ _ h => h.1) fun _ _ h => h.2.resolve_left not_false

/-- A formula that has a value or is rejected by itself denotes that value. -/
theorem SelfContained.exists_rejected (h : g.SelfContained room)
    (hb : CellText.body? (g.text c) = some body) (ρ : Cell → CellValue) {f : Failure}
    (hf : Formula.verdict room ρ body = .error f) : ∃ q, f = .rejected q := by
  obtain ⟨v, r, hrun⟩ := h c body hb ρ
  have hm := (evaluate_pure_meets room c body ρ).of_run_ok hrun
  rw [hf] at hm
  exact hm.2

theorem SelfContained.compatible (h : g.SelfContained room) (room' : Nat) :
    g.Compatible room room' := by
  rcases Nat.le_total room' room with hle | hle
  · exact compatible_of_le hle
  · intro c body hb
    have hne (ρ : Cell → CellValue) : Formula.verdict room ρ body ≠ .error .tooDeep := fun hd => by
      obtain ⟨q, hq⟩ := h.exists_rejected hb ρ hd
      cases hq
    constructor
    · intro e he
      have hbody : Formula.Expr.ofBody room body ≠ .error .tooDeep := fun hd =>
        hne (fun _ => .failed) (Formula.verdict_of_error hd)
      exact (Formula.Expr.ofBody_mono hle body hbody).symm.trans he
    · exact fun ρ _ => (Formula.verdict_mono hle (hne ρ)).symm

/-- More room changes nothing about formulas that have enough of it. -/
theorem SelfContained.verdict_eq (h : g.SelfContained room) (hle : room ≤ room')
    (hb : CellText.body? (g.text c) = some body) (ρ : Cell → CellValue) :
    Formula.verdict room' ρ body = Formula.verdict room ρ body :=
  Formula.verdict_mono hle fun hd => by
    obtain ⟨q, hq⟩ := h.exists_rejected hb ρ hd
    cases hq

/-! ## Asking recursively -/

/-- A row number in the formula of a cell is too long to be read. -/
def Unreadable (g : Grid) (room : Nat) (c : Cell) (f : Failure) : Prop :=
  ∃ body t, CellText.body? (g.text c) = some body ∧
    Formula.Expr.ofBody room body = .error (.tooLong t) ∧ f = .tooLong t

/-- References lead from a cell to one whose formula cannot be read. -/
def Overlong (g : Grid) (room : Nat) (c : Cell) (f : Failure) : Prop :=
  ∃ d, Relation.ReflTransGen (g.DependsOn room) c d ∧ g.Unreadable room d f

theorem Unreadable.isFormula {f : Failure} (h : g.Unreadable room c f) :
    CellText.isFormula (g.text c) = true := by
  obtain ⟨body, -, hb, -⟩ := h
  exact CellText.isFormula_iff.2 ⟨body, hb⟩

theorem Unreadable.overlong {f : Failure} (h : g.Unreadable room c f) : g.Overlong room c f :=
  ⟨c, .refl, h⟩

theorem Overlong.isFormula {f : Failure} (h : g.Overlong room c f) :
    CellText.isFormula (g.text c) = true := by
  obtain ⟨d, hlead, hd⟩ := h
  rcases Relation.ReflTransGen.cases_head hlead with rfl | ⟨e, hce, -⟩
  · exact hd.isFormula
  · obtain ⟨body, -, hb, -⟩ := hce.source
    exact CellText.isFormula_iff.2 ⟨body, hb⟩

theorem Overlong.of_mem_cells {d : Cell} {e : Formula.Expr} {f : Failure}
    (h : g.Overlong room d f) (hb : CellText.body? (g.text c) = some body)
    (he : Formula.Expr.ofBody room body = .ok e) (hd : d ∈ e.cells) : g.Overlong room c f := by
  have hdep := (dependsOn_iff hb he).2 ⟨h.isFormula, hd⟩
  obtain ⟨d', hlead, hd'⟩ := h
  exact ⟨d', .head hdep hlead, hd'⟩

theorem Overlong.exists_tooLong {f : Failure} (h : g.Overlong room c f) :
    ∃ t, f = .tooLong t := by
  obtain ⟨d, -, body, t, -, -, rfl⟩ := h
  exact ⟨t, rfl⟩

theorem SelfContained.not_overlong (h : g.SelfContained room) {f : Failure} :
    ¬ g.Overlong room c f := by
  rintro ⟨d, -, body, t, hb, hlong, rfl⟩
  obtain ⟨q, hq⟩ := h.exists_rejected hb (g.meaning room) (Formula.verdict_of_error hlong)
  cases hq

/-- How a cell is answered for: by its text, by its value that is then known, or, if it lies on the
path of cells being evaluated, as a circular reference. -/
def Answered (g : Grid) (path : List Cell) (c : Cell) (v : CellValue) (r : Results) : Prop :=
  (¬ CellText.isFormula (g.text c) = true ∧ v = .text (g.text c)) ∨ r.memo[c]? = some v ∨
    CellText.isFormula (g.text c) = true ∧ c ∈ path ∧ v = .result (.error .circular)

/-- Every cell of a path reaches a cell, if that one is a formula cell. -/
def Leads (g : Grid) (room : Nat) (path : List Cell) (c : Cell) : Prop :=
  CellText.isFormula (g.text c) = true → ∀ p ∈ path, Relation.TransGen (g.DependsOn room) p c

theorem Answered.answer {path : List Cell} (h : g.Answered path c v r) (hr : r.Sound g room)
    (hpath : g.Leads room path c) : g.Answer room c v := by
  rcases h with ⟨hf, rfl⟩ | hv | ⟨hf, hc, rfl⟩
  · rw [Answer, meaning_of_not_isFormula hf]
    exact .inl rfl
  · exact (hr.right hv).answer
  · have hcyc := reachesCycle_of_transGen (hpath hf c hc)
    rw [Answer, meaning_of_reachesCycle hcyc]
    exact .inl rfl

theorem Leads.cons {path : List Cell} {d : Cell} {e : Formula.Expr} (h : g.Leads room path c)
    (hb : CellText.body? (g.text c) = some body) (he : Formula.Expr.ofBody room body = .ok e)
    (hd : d ∈ e.cells) : g.Leads room (c :: path) d := by
  intro hf p hp
  have hdep := (dependsOn_iff hb he).2 ⟨hf, hd⟩
  rcases List.mem_cons.1 hp with rfl | hp
  · exact .single hdep
  · exact (h (CellText.isFormula_iff.2 ⟨body, hb⟩) p hp).tail hdep

/-- An answer to a reference is as good for the cell that refers as for the one referred to. -/
theorem Answer.agree {d : Cell} {e : Formula.Expr} (h : g.Answer room d v)
    (hb : CellText.body? (g.text c) = some body) (he : Formula.Expr.ofBody room body = .ok e)
    (hd : d ∈ e.cells) :
    Formula.Agree (g.ReachesCycle room c) v.number (g.meaning room d).number := by
  refine h.mono fun hc => ?_
  obtain ⟨d', hdd', hd'⟩ := hc.exists_dependsOn
  obtain ⟨body', _, hb', _⟩ := hdd'.source
  exact .of_dependsOn ((dependsOn_iff hb he).2 ⟨CellText.isFormula_iff.2 ⟨body', hb'⟩, hd⟩) hc

/-- What a body denotes for a compatible room is what it denotes, unless there is too little. -/
theorem Compatible.verdict_eq (h : g.Compatible room room')
    (hb : CellText.body? (g.text c) = some body)
    (hne : Formula.verdict room' (g.meaning room) body ≠ .error .tooDeep) :
    Formula.verdict room' (g.meaning room) body = g.verdict room body :=
  ((h c body hb).2 _ hne).symm

/-- The value of a formula cell that has been evaluated with right answers is right. -/
theorem right_of_gives (hb : CellText.body? (g.text c) = some body)
    (h : Formula.Gives (Formula.Agree (g.ReachesCycle room c)) (g.verdict room body) v) :
    g.Right room c v := by
  refine ⟨body, hb, ?_⟩
  rcases hv : g.verdict room body with f | x
  · rw [hv] at h
    obtain ⟨hfailed, q, rfl⟩ := h
    exact ⟨hfailed, nofun⟩
  · rw [hv] at h; exact h

/-- Asking for a cell, if its references are answered rightly: it fails as one of the answers does,
for lack of room, or as its formula does by itself. -/
theorem cellValue_meets_of_answers {path : List Cell} (Bad : Failure → Prop)
    (hcomp : g.Compatible room room') (hbad : ∀ q, ¬ Bad (.rejected q))
    (hzero : room' = 0 → Bad .tooDeep)
    (ha : 0 < room' → ∀ body e, CellText.body? (g.text c) = some body →
      Formula.Expr.ofBody room' body = .ok e →
        Formula.Answers (fun r' => r'.Sound g room ∧ r.Extends g r') Bad
          (Formula.Agree (g.ReachesCycle room c)) (g.meaning room)
          (fun level d => g.cellValue (room' - referenceCost level) (c :: path) d)
          (e.depth (g.meaning room)) e.cells) (hr : r.Sound g room) :
    (g.cellValue room' path c).Meets r
      (fun v r' => (r'.Sound g room ∧ r.Extends g r') ∧ g.Answered path c v r')
      fun f r' => (r'.Sound g room ∧ r.Extends g r') ∧ (Bad f ∨
        ∃ body, CellText.body? (g.text c) = some body ∧
          Formula.verdict room' (g.meaning room) body = .error f ∧ ∀ q, f ≠ .rejected q) := by
  rw [cellValue, ExceptT.meets_bind, ExceptT.meets_get]
  cases hm : r.memo[c]? with
  | some v => exact ⟨⟨hr, .refl g r⟩, .inr (.inl hm)⟩
  | none =>
    cases hb : CellText.body? (g.text c) with
    | none =>
      refine ⟨⟨hr, .refl g r⟩, .inl ⟨fun hf => ?_, rfl⟩⟩
      obtain ⟨body, hb'⟩ := CellText.isFormula_iff.1 hf
      rw [hb] at hb'
      cases hb'
    | some body =>
      have hf := CellText.isFormula_iff.2 ⟨body, hb⟩
      simp only
      split
      · exact ⟨⟨hr, .refl g r⟩, .inr (.inr ⟨hf, ‹_›, rfl⟩)⟩
      split
      · exact ⟨⟨hr, .refl g r⟩, .inl (hzero ‹_›)⟩
      rw [ExceptT.meets_bind]
      have hanswers := ha (Nat.pos_of_ne_zero ‹_›) body
      refine (evaluate_meets (Formula.congruence_agree _) hbad (fun e => hanswers e hb)
        ⟨hr, .refl g r⟩).imp ?_ ?_
      · rintro v r₁ ⟨hv, r₂, ⟨hr₂, hext⟩, rfl⟩
        -- there is a value, so the room was enough and the verdict is that for the larger room
        have hne : Formula.verdict room' (g.meaning room) body ≠ .error .tooDeep := fun h => by
          rw [h] at hv
          obtain ⟨_, q, hq⟩ := hv
          cases hq
        rw [hcomp.verdict_eq hb hne] at hv ⊢
        rw [ExceptT.meets_bind, ExceptT.meets_modify, ExceptT.meets_pure]
        refine ⟨⟨(hr₂.note hb).memoize hb (right_of_gives hb hv) ?_, ?_⟩, .inr (.inl ?_)⟩
        · rw [Results.failures_note, if_pos rfl]
        · exact hext.settle hm hb _ v
        · rw [Results.getElem?_memoize, if_pos rfl]
      · rintro f r₁ ⟨hr₁, hf⟩
        exact ⟨hr₁, hf.imp id fun hf => ⟨body, rfl, hf⟩⟩

/-- Answers to the references of a cell, if they are right wherever they are asked. -/
theorem answers_cellValue {path : List Cell} {body : String} {e : Formula.Expr}
    {Bad : Failure → Prop} {level₀ : Nat} (hb : CellText.body? (g.text c) = some body)
    (he : Formula.Expr.ofBody room body = .ok e) (hpath : g.Leads room path c)
    (h : ∀ d ∈ e.cells, ∀ level ≤ level₀, ∀ r₁, g.Leads room (c :: path) d → r₁.Sound g room →
      (g.cellValue (room' - referenceCost level) (c :: path) d).Meets r₁
        (fun v r' => (r'.Sound g room ∧ r₁.Extends g r') ∧ g.Answered (c :: path) d v r')
        fun f r' => (r'.Sound g room ∧ r₁.Extends g r') ∧ Bad f) :
    Formula.Answers (fun r' => r'.Sound g room ∧ r.Extends g r') Bad
      (Formula.Agree (g.ReachesCycle room c)) (g.meaning room)
      (fun level d => g.cellValue (room' - referenceCost level) (c :: path) d) level₀ e.cells := by
  intro d hd level hlevel r₁ ⟨hr₁, hext⟩
  have hlead := hpath.cons hb he hd
  refine (h d hd level hlevel r₁ hlead hr₁).imp ?_ ?_
  · rintro v r₂ ⟨⟨hr₂, hext'⟩, hv⟩
    exact ⟨⟨hr₂, hext.trans hext'⟩, (hv.answer hr₂ hlead).agree hb he hd⟩
  · rintro f r₂ ⟨⟨hr₂, hext'⟩, hf⟩
    exact ⟨⟨hr₂, hext.trans hext'⟩, hf⟩

/-- **Asking for a cell recursively** keeps results sound, and the answer is right. It fails only
for lack of room or for a row number that is too long. -/
theorem cellValue_meets (hroom : room' ≤ room ∨ g.SelfContained room) :
    ∀ {path : List Cell} {c : Cell} {r : Results}, g.Leads room path c → r.Sound g room →
      (g.cellValue room' path c).Meets r
        (fun v r' => (r'.Sound g room ∧ r.Extends g r') ∧ g.Answered path c v r')
        fun f r' => (r'.Sound g room ∧ r.Extends g r') ∧ (f = .tooDeep ∨ g.Overlong room c f) := by
  -- a reference costs room, so that less is left for the cell it refers to
  induction room' using Nat.strong_induction_on with
  | _ room' ih =>
  intro path c r hpath hr
  have hcomp : g.Compatible room room' := hroom.elim compatible_of_le fun h => h.compatible room'
  have hbad (q : Formula.Rejection) :
      ¬ (Failure.rejected q = .tooDeep ∨ g.Overlong room c (.rejected q)) :=
    fun h => by
      obtain ⟨t, ht⟩ := (h.resolve_left nofun).exists_tooLong
      cases ht
  refine (cellValue_meets_of_answers (fun f => f = .tooDeep ∨ g.Overlong room c f) hcomp hbad
    (fun _ => .inl rfl) (fun hpos body e hb he =>
      answers_cellValue hb ((hcomp c body hb).1 e he) hpath ?_) hr).imp (fun _ _ => id) ?_
  · intro d hd level _ r₁ hlead hr₁
    have hlt : room' - referenceCost level < room' := by unfold referenceCost; omega
    refine (ih _ hlt (hroom.imp (fun h => by omega) id) hlead hr₁).imp (fun _ _ => id) ?_
    rintro f r' ⟨hr', hf⟩
    exact ⟨hr', hf.imp id fun hf => hf.of_mem_cells hb ((hcomp c body hb).1 e he) hd⟩
  · rintro f r' ⟨hr', hf | ⟨body, hb, hf, hq⟩⟩
    · exact ⟨hr', hf⟩
    · refine ⟨hr', ?_⟩
      cases f with
      | rejected q => exact absurd rfl (hq q)
      | tooDeep => exact .inl rfl
      | tooLong t =>
        rw [hcomp.verdict_eq hb (by rw [hf]; simp)] at hf
        have hc : g.Unreadable room c (.tooLong t) :=
          ⟨body, t, hb, Formula.ofBody_of_verdict hf (by simp), rfl⟩
        exact .inr hc.overlong

end Grid

end Spreadsheet
