import Spreadsheet.Proofs.Double
import Spreadsheet.Proofs.Formula.Lockstep
import Spreadsheet.Proofs.Formula.Naming
import Spreadsheet.Proofs.Formula.Placement

/-!
# Literals and references to their digits

The digits of a literal, as the text of a cell, count as the number that the literal denotes if a
double can hold it, and as a missing number otherwise. So a formula and the one with a reference in
the stead of a literal are evaluated in lockstep, if the number is finite; if it is not, they differ
in the reciprocal.

* `ofText_literal`: digits as a text;
* `Referring`: a formula with a reference in the stead of a literal; `Referring.ofBody`: both are
  accepted or none; **`Referring.value_lockstep`**: both have the same value;
* `exists_referring`: any literal of an accepted formula;
* `parse_reciprocal`, `ofBody_reciprocal`: one divided by an operand.
-/

namespace Spreadsheet.Formula

open ExceptT (Lockstep)
open Reference (Parts)

variable {n : Literal} {p : Parts} {body body' : String} {C : Context} {e e' s : Expr} {room : Nat}

/-! ## Digits as a text -/

theorem not_isBlank_of_literal (h : (Lexeme.number n).Formed) :
    ∀ c ∈ n.chars, Text.isBlank c = false := by
  have hdigit {c : Char} (hc : c.isDigit = true) : Text.isBlank c = false :=
    Bool.eq_false_iff.2 fun hblank => not_isDigit_of_isBlank hblank hc
  intro c hc
  rcases List.mem_append.1 hc with hc | hc
  · exact hdigit (h.2.1 c hc)
  · split at hc
    · exact absurd hc List.not_mem_nil
    · rcases List.mem_cons.1 hc with rfl | hc
      · decide
      · exact hdigit (h.2.2 c hc)

theorem not_isFormula_literal (h : (Lexeme.number n).Formed) :
    ¬ CellText.isFormula (String.ofList n.chars) = true := by
  obtain ⟨hne, hdigits, -⟩ := h
  obtain ⟨c, cs, hc⟩ := List.exists_cons_of_ne_nil hne
  have hdigit : c.isDigit = true := hdigits c (hc ▸ List.mem_cons_self)
  rw [CellText.isFormula, CellText.body?, String.toList_ofList, Literal.chars, hc]
  split
  · rename_i heq
    obtain ⟨rfl, -⟩ := List.cons.inj heq
    exact absurd hdigit (by decide)
  · exact Bool.false_ne_true

theorem takeSign_of_isDigit {c : Char} {cs : List Char} (h : c.isDigit = true) :
    Decimal.takeSign (c :: cs) = (false, c :: cs) := by
  unfold Decimal.takeSign
  split
  · rename_i heq
    obtain ⟨rfl, -⟩ := List.cons.inj heq
    exact absurd h (by decide)
  · rename_i heq
    obtain ⟨rfl, -⟩ := List.cons.inj heq
    exact absurd h (by decide)
  · rfl

/-- A literal is a numeral. -/
theorem read?_literal (h : (Lexeme.number n).Formed) :
    Decimal.Numeral.read? n.chars = some ⟨false, n.whole, n.fraction, 0⟩ := by
  obtain ⟨whole, fraction⟩ := n
  obtain ⟨hne, hwhole, hfraction⟩ := h
  obtain ⟨c, cs, rfl⟩ := List.exists_cons_of_ne_nil hne
  have hsign (rest : List Char) : Decimal.takeSign (c :: cs ++ rest) = (false, c :: cs ++ rest) :=
    takeSign_of_isDigit (hwhole c List.mem_cons_self)
  have hend : ([] : List Char).takeWhile Char.isDigit = [] := rfl
  cases fraction with
  | nil =>
    obtain ⟨htake, hdrop⟩ := digits_append hwhole hend
    simp only [Literal.chars, List.isEmpty_nil, if_true, Decimal.Numeral.read?, hsign, htake, hdrop,
      Decimal.takeFraction, Decimal.readExponent?]
    rfl
  | cons d ds =>
    have hpoint : ('.' :: d :: ds).takeWhile Char.isDigit = [] :=
      List.takeWhile_cons_of_neg (by decide)
    obtain ⟨htake, hdrop⟩ := digits_append hwhole hpoint
    obtain ⟨htake', hdrop'⟩ := digits_append hfraction hend
    rw [List.append_nil] at htake' hdrop'
    simp only [Literal.chars, List.isEmpty_cons, Bool.false_eq_true, if_false,
      Decimal.Numeral.read?, hsign, htake, hdrop, Decimal.takeFraction, htake', hdrop',
      Decimal.readExponent?]
    rfl

/-- **The digits of a literal as the text of a cell** count as its number, if that is finite. -/
theorem ofText_literal (h : (Lexeme.number n).Formed) :
    ofText (String.ofList n.chars) = checked n.value := by
  have hne : n.chars.isEmpty = false := by
    rw [List.isEmpty_eq_false_iff]
    exact h.chars_ne_nil
  unfold ofText
  rw [String.toList_ofList, Text.trim_of_not_isBlank (not_isBlank_of_literal h)]
  simp only [hne, Bool.false_eq_true, if_false, read?_literal h]
  rfl

/-! ## A reference in the stead of a literal -/

/-- Accepted formulas that are alike, but that the second one has a reference where the first one
has a literal. -/
structure Referring (n : Literal) (p : Parts) (C : Context) (body body' : String) (e' : Expr) :
    Prop where
  formed : (Lexeme.number n).Formed
  finite : n.value.isFinite = true
  names : Names p
  parse : Expr.parse body = .ok (C.fill (.number n))
  valid : (C.fill (.number n)).Valid false
  parse' : Expr.parse body' = .ok e'
  tree : e'.unplaced = (C.fill (.cell p 0)).unplaced

namespace Referring

variable (h : Referring n p C body body' e')
include h

theorem checked_value : checked n.value = .ok n.value := if_pos h.finite

/-- If the cell has the number, literal and reference can take each other's place. -/
theorem standsFor : ∃ ρ, e'.StandsFor ρ [p.target] (C.fill (.number n)) ∧
    (C.fill (.number n)).StandsFor ρ [] (C.fill (.cell p 0)) := by
  let ρ : Cell → CellValue := fun _ => .result (.ok n.value)
  have hdenote : (Expr.cell p 0).denote ρ = (Expr.number n).denote ρ :=
    congrArg Operand.number h.checked_value
  have hcell : (Expr.cell p 0).StandsFor ρ [p.target] (.number n) :=
    ⟨hdenote, Nat.le_refl 1, Nat.le_refl 1, fun _ => h.names, fun hc => .inl (by simpa using hc)⟩
  have hnumber : (Expr.number n).StandsFor ρ [] (.cell p 0) :=
    ⟨hdenote.symm, Nat.le_refl 1, Nat.le_refl 1, fun _ => trivial, fun hc => by simp at hc⟩
  exact ⟨ρ, (Expr.standsFor_of_unplaced ρ h.tree).trans (hcell.fill C), hnumber.fill C⟩

theorem valid' : e'.Valid false := by
  obtain ⟨ρ, hstands, -⟩ := h.standsFor
  exact hstands.valid h.valid

theorem levels_eq : e'.levels = (C.fill (.number n)).levels := by
  obtain ⟨ρ, hstands, hback⟩ := h.standsFor
  exact Nat.le_antisymm hstands.levels
    (hback.levels.trans_eq (Expr.levels_of_unplaced h.tree).symm)

/-- Both formulas are accepted, or both are too deep. -/
theorem ofBody (room : Nat) :
    (Expr.ofBody room body = .ok (C.fill (.number n)) ∧ Expr.ofBody room body' = .ok e') ∨
      (Expr.ofBody room body = .error .tooDeep ∧ Expr.ofBody room body' = .error .tooDeep) := by
  rw [Expr.ofBody_of_valid h.parse h.valid, Expr.ofBody_of_valid h.parse' h.valid', h.levels_eq]
  split
  · exact .inl ⟨rfl, rfl⟩
  · exact .inr ⟨rfl, rfl⟩

/-- **Both trees are evaluated in lockstep**, if the cell has the digits of the literal. -/
theorem value_lockstep {σ : Type} {I : σ → Prop}
    {env env' : Surroundings (ExceptT Failure (StateM σ))} (hagree : env.Agree I env')
    (hcell : ∀ level, Lockstep I (pure (.text (String.ofList n.chars)))
      (env'.cell level p.target)) :
    Lockstep I ((C.fill (.number n)).value env) (e'.value env') := by
  have hnames : e'.EachReference Names := Expr.names_of_valid e' false h.valid'
  have hnames' : (C.fill (.cell p 0)).EachReference Names := by
    obtain ⟨ρ, hstands, hback⟩ := h.standsFor
    have hvalid := (Expr.standsFor_of_unplaced ρ h.tree.symm).valid h.valid'
    exact Expr.names_of_valid _ false hvalid
  rw [← Expr.value_unplaced env' hnames, h.tree, Expr.value_unplaced env' hnames']
  refine Expr.value_lockstep (Context.eval_lockstep hagree (fun level => ?_) C 0)
  obtain ⟨r, hr, htarget⟩ := h.names.resolve 0
  simp only [Expr.eval, hr, MonadExcept.ofExcept, pure_bind]
  refine (hagree.enter level).bind fun _ => ?_
  have hanswer := (hcell level).bind fun v => Lockstep.pure (Operand.number v.number)
  rwa [pure_bind, CellValue.number, ofText_literal h.formed, h.checked_value, ← htarget] at hanswer

end Referring

/-! ## Literals of a formula -/

/-- What a part reads stands between what is read in front of it and behind it. -/
theorem Context.corners_fill (C : Context) : ∃ front back,
    ∀ s : Expr, (C.fill s).corners = front ++ (s.corners ++ back) := by
  induction C with
  | hole => exact ⟨[], [], fun s => by simp [Context.fill]⟩
  | signed sign C ih => exact ih
  | left op C r ih =>
    obtain ⟨front, back, h⟩ := ih
    exact ⟨front, back ++ r.corners, fun s => by simp [Context.fill, Expr.corners, h]⟩
  | right op l C ih =>
    obtain ⟨front, back, h⟩ := ih
    exact ⟨l.corners ++ front, back, fun s => by simp [Context.fill, Expr.corners, h]⟩
  | argument name before C after ih =>
    obtain ⟨front, back, h⟩ := ih
    refine ⟨Expr.cornersOfList before ++ front, back ++ Expr.cornersOfList after, fun s => ?_⟩
    have hlist : ∀ es : List Expr, Expr.cornersOfList es = es.flatMap Expr.corners :=
      eq_flatMap rfl fun _ _ => rfl
    simp [Context.fill, Expr.corners, hlist, h]

theorem exists_referring {position : Nat} (he : Expr.ofBody room body = .ok e)
    (ht : ⟨.number n, position⟩ ∈ (lex body).tokens) (hfinite : n.value.isFinite = true)
    (hp : Written p) (hnames : Names p) :
    ∃ front back C e', body = String.ofList (front ++ (n.chars ++ back)) ∧
      front.length = position ∧ e = C.fill (.number n) ∧
      Referring n p C body (String.ofList (front ++ (p.chars ++ back))) e' := by
  obtain ⟨hparse, hvalid, -⟩ := Expr.ofBody_eq_ok_iff.1 he
  obtain ⟨front, back, C, hbody, hposition, rfl, hoccurs⟩ := exists_occurs_token hparse ht rfl
  obtain ⟨e', hparse', htree⟩ := hoccurs.parse_replaced hp
  have hformed := (lexFrom_stands ht).2.formed
  exact ⟨front, back, C, e', hbody, hposition, rfl,
    hformed, hfinite, hnames, hparse, hvalid, hparse', htree⟩

/-! ## Reciprocals -/

/-- The literal of the number one. -/
def Literal.one : Literal := ⟨['1'], []⟩

theorem formed_one : (Lexeme.number .one).Formed :=
  ⟨List.cons_ne_nil _ _, fun _ hc => List.mem_singleton.1 hc ▸ rfl,
    fun _ hc => absurd hc List.not_mem_nil⟩

/-- One divided by an operand of one token. -/
theorem parse_reciprocal {l : Lexeme} (hl : l.Formed) (hs : Token.operand? ⟨l, 0⟩ = some s) :
    ∃ e, Expr.parse (String.ofList ('1' :: '/' :: l.chars)) = .ok e ∧
      e.unplaced = (Expr.binary .div (.number .one) s).unplaced ∧
      ∃ position, ⟨l, position⟩ ∈ (lex (String.ofList ('1' :: '/' :: l.chars))).tokens := by
  have hone : Makes Operator.div.whole [⟨.number .one, 0⟩] (.number .one) :=
    Makes.term ⟨.primary (.number .one 0), rfl, rfl⟩
  have hoperand : Makes Operator.div.rightSide [⟨l, 0⟩] s := by
    obtain ⟨d, htokens, htree⟩ := Token.makes hs
    exact ⟨.primary d, htokens, htree⟩
  have hlaid : Laid true ('1' :: '/' :: l.chars) [.number .one, .symbol .slash, l] := by
    have hlast : Laid true (l.chars ++ []) [l] := .token hl (.nil false)
    rw [List.append_nil] at hlast
    exact .token (l := .number .one) formed_one (.symbol false .slash hlast)
  obtain ⟨e, hparse, htree⟩ := (hone.binary hoperand 0).expression.parse hlaid
  refine ⟨e, hparse, htree, ?_⟩
  have hmem : l ∈ (lex (String.ofList ('1' :: '/' :: l.chars))).tokens.map (·.lexeme) := by
    rw [lex, String.toList_ofList, (hlaid.lexFrom 0).2]
    simp
  obtain ⟨t, ht, htl⟩ := List.mem_map.1 hmem
  exact ⟨t.position, htl ▸ ht⟩

theorem ofBody_reciprocal {l : Lexeme} (hl : l.Formed) (hs : Token.operand? ⟨l, 0⟩ = some s)
    (hlevels : s.levels = 1) (hvalid : s.Valid false) (hroom : 2 ≤ room) :
    ∃ e, Expr.ofBody room (String.ofList ('1' :: '/' :: l.chars)) = .ok e ∧
      e.unplaced = (Expr.binary .div (.number .one) s).unplaced ∧
      ∃ position, ⟨l, position⟩ ∈ (lex (String.ofList ('1' :: '/' :: l.chars))).tokens := by
  obtain ⟨e, hparse, htree, ht⟩ := parse_reciprocal hl hs
  have hstands := Expr.standsFor_of_unplaced (fun _ => .failed) htree
  have hbound : (Expr.binary .div (.number .one) s).levels ≤ room := by
    simp only [Expr.levels, hlevels]
    omega
  exact ⟨e, Expr.ofBody_eq_ok_iff.2
    ⟨hparse, hstands.valid ⟨trivial, hvalid⟩, hstands.levels.trans hbound⟩, htree, ht⟩

end Spreadsheet.Formula
