import Spreadsheet.Proofs.Formula.Leaves
import Spreadsheet.Proofs.Formula.Relabel

/-!
# Shifting and parsing commute

An accepted body that is shifted has the tree of the body with its references moved, and without
pins in it the value of the body among cells that are moved. If a reference leaves the plane, the
shifted body is no formula any more.

* `parted_of_run`, `Expr.laid_of_parse`: accepted bodies are laid out;
* `Expr.eachReference_iff`: the references of a tree are those of its tokens;
* **`shift_accepted`**: accepted bodies, shifted.
-/

namespace Spreadsheet.Formula

open Reference (Parts)

variable {d : Offset} {e : Expr} {body : String}

/-! ## Tokens of accepted bodies -/

/-- A state that punctuation has to follow. -/
def State.Closed : State → Prop
  | operand _ => False
  | arguments .. | complete .. => True

theorem State.Closed.isSymbol {s s' : State} {t : Token} (hs : s.Closed) (h : s.step t = some s') :
    t.IsSymbol := by
  obtain ⟨lexeme, position⟩ := t
  cases s with
  | operand => cases hs
  | arguments | complete =>
    cases lexeme with
    | number | cell | range | name => cases h
    | symbol c => exact ⟨c, rfl⟩

theorem State.closed_of_step {s s' : State} {t : Token} (h : s.step t = some s')
    (ht : ¬ t.IsSymbol) : s'.Closed := by
  obtain ⟨lexeme, position⟩ := t
  cases s with
  | operand stack =>
    cases lexeme with
    | number | cell | range | name => cases h; trivial
    | symbol c => exact absurd ⟨c, rfl⟩ ht
  | arguments | complete =>
    cases lexeme with
    | number | cell | range | name => cases h
    | symbol c => exact absurd ⟨c, rfl⟩ ht

/-- **Tokens that are read are parted** by punctuation. -/
theorem parted_of_run {s s' : State} {ts : List Token} (h : s.run ts = .ok s') : Parted ts := by
  induction ts generalizing s with
  | nil => trivial
  | cons t ts ih =>
    rw [State.run] at h
    cases hstep : s.step t with
    | none => rw [hstep] at h; cases h
    | some next =>
      rw [hstep] at h
      refine ⟨Classical.or_iff_not_imp_left.2 fun ht u hu => ?_, ih h⟩
      obtain ⟨us, rfl⟩ := List.head?_eq_some_iff.1 hu
      simp only [State.run] at h
      cases hnext : next.step u with
      | none => rw [hnext] at h; cases h
      | some => exact (State.closed_of_step hstep ht).isSymbol hnext

theorem State.position?_of_run {s : State} {ts : List Token} {r : Rejection}
    (h : s.run ts = .error r) : ∃ position, r.position? = some position := by
  induction ts generalizing s with
  | nil => cases h
  | cons t ts ih =>
    rw [State.run] at h
    split at h
    · exact ih h
    · obtain rfl := Except.error.inj h
      exact ⟨t.position, rfl⟩

theorem Expr.laid_of_parse (h : Expr.parse body = .ok e) :
    Laid true body.toList ((lex body).tokens.map (·.lexeme)) := by
  obtain ⟨hstuck, s, hrun, -⟩ := Expr.parse_eq_ok.1 h
  exact (laid_lexFrom hstuck (parted_of_run hrun)).1

/-! ## References of trees and of tokens -/

theorem Token.each_iff_corners {P : Parts → Prop} (t : Token) :
    t.lexeme.Each P ↔ ∀ q ∈ t.corners, P q.1 ∧ P q.2.1 := by
  obtain ⟨lexeme, position⟩ := t
  cases lexeme <;> simp [Lexeme.Each, Token.corners]

theorem Expr.eachReference_iff {P : Parts → Prop} (h : Expr.parse body = .ok e) :
    e.EachReference P ↔ ∀ l ∈ (lex body).tokens.map (·.lexeme), l.Each P := by
  simp only [Expr.EachReference, Expr.corners_of_parse h, List.mem_flatMap, List.mem_map,
    forall_exists_index, and_imp, forall_apply_eq_imp_iff₂, Token.each_iff_corners]
  exact ⟨fun hall t ht q hq => hall q t ht hq, fun hall q t ht hq => hall t ht q hq⟩

/-! ## Moved cells -/

theorem span_add (a b k : Int) : span (a + k) (b + k) = (span a b).map (· + k) := by
  simp only [span, List.map_map]
  have hlength : b + k - (a + k) + 1 = b - a + 1 := by omega
  rw [hlength]
  refine List.map_congr_left fun i _ => ?_
  simp only [Function.comp_apply]
  omega

theorem movesRectangles_move (d : Offset) : MovesRectangles (Cell.move d) := by
  intro a b
  have hmin (x y k : Int) : min (x + k) (y + k) = min x y + k := by omega
  have hmax (x y k : Int) : max (x + k) (y + k) = max x y + k := by omega
  simp only [rectangle, Cell.move, hmin, hmax, span_add, List.flatMap_map, List.map_flatMap,
    List.map_map]
  rfl

theorem movesRectangles_id : MovesRectangles id := fun _ _ => (List.map_id _).symm

/-! ## Shifted bodies -/

/-- A tree with its references moved. -/
def Expr.moved (d : Offset) (e : Expr) : Expr := e.relabel (movedParts d) id

theorem Expr.unplaced_moved : (e.moved d).unplaced = e.relabel (movedParts d) fun _ => 0 :=
  Expr.relabel_relabel _ _ _ _ e

/-- The value of a tree has nothing to do with the places of its tokens. -/
theorem Expr.value_unplaced {m : Type → Type} [Monad m] [LawfulMonad m] [MonadExceptOf Failure m]
    (env : Surroundings m) (h : e.EachReference Names) :
    e.unplaced.value env = e.value env := by
  have heval : e.unplaced.eval env 0 = e.eval (env.via id) 0 :=
    Expr.eval_relabel movesRectangles_id env e 0 fun q hq =>
      ⟨⟨(h q hq).1, (h q hq).1, rfl⟩, (h q hq).2, (h q hq).2, rfl⟩
  unfold Expr.value
  rw [heval]
  rfl

/-- A body that is not cut to its end is rejected where the cutting or the reading stops. -/
theorem Expr.parse_stuck (h : Stuck body.toList) :
    ∃ r position, Expr.parse body = .error r ∧ r.position? = some position := by
  unfold Expr.parse
  cases hrun : (State.operand []).run (lex body).tokens with
  | error r =>
    obtain ⟨position, hposition⟩ := State.position?_of_run hrun
    exact ⟨r, position, by simp only [hrun]; rfl, hposition⟩
  | ok s =>
    obtain ⟨⟨c, position⟩, hstuck⟩ := Option.ne_none_iff_exists'.1 (h 0)
    change (lex body).stuck? = _ at hstuck
    exact ⟨.unexpectedCharacter c position, position, by simp only [hrun, hstuck]; rfl, rfl⟩

theorem Expr.value_moved {m : Type → Type} [Monad m] [LawfulMonad m] [MonadExceptOf Failure m]
    {place : Nat → Nat} (env : Surroundings m)
    (h : e.EachReference (Tracks (Cell.move d) (movedParts d))) :
    (e.relabel (movedParts d) place).value env = e.value (env.via (Cell.move d)) := by
  unfold Expr.value
  rw [Expr.eval_relabel (movesRectangles_move d) env e 0 h]

theorem tracks_movedParts {p : Parts} (h : Stays d p ∧ Movable d p)
    (hpins : p.pinnedRow = false ∧ p.pinnedCol = false) :
    Tracks (Cell.move d) (movedParts d) p :=
  ⟨h.2.1, h.1.names_movedParts h.2.2, target_movedParts h.1 h.2.2 hpins.1 hpins.2⟩

/-- What is written for a moved reference is its notation. -/
theorem notation_movedParts {p : Parts} (h : Stays d p ∧ Movable d p) :
    ∃ r r', p.resolve? = .ok (some r) ∧ r.move? d = some r' ∧
      r'.text = .ok (String.ofList (movedParts d p).chars) := by
  obtain ⟨⟨r, r', hr, hmove⟩, -, hshort⟩ := h
  obtain ⟨-, -, -, -, hrow, -⟩ := Reference.move?_eq_some hmove
  rw [movedParts_eq hr hmove]
  exact ⟨r, r', hr, hmove, Reference.text_eq_written hrow (hshort r r' hr hmove)⟩

theorem Expr.valid_of_moved {e' : Expr} (h : e'.unplaced = e.relabel (movedParts d) fun _ => 0)
    (htracks : e.EachReference fun p => Stays d p ∧ Movable d p) (hvalid : e.Valid false) :
    e'.Valid false := by
  have hmoved {p : Parts} (hp : Stays d p ∧ Movable d p) : Names (movedParts d p) ↔ Names p :=
    iff_of_true (hp.1.names_movedParts hp.2.2) hp.2.1
  have hsame : e'.unplaced.Valid false ↔ e'.Valid false :=
    Expr.valid_relabel e' false fun q _ => ⟨.rfl, .rfl⟩
  rw [← hsame, h,
    Expr.valid_relabel e false fun q hq => ⟨hmoved (htracks q hq).1, hmoved (htracks q hq).2⟩]
  exact hvalid

/-- **Accepted bodies, shifted.** If every reference stays on the plane, the shifted body is
accepted, and its tree is that of the body with the references moved, each of them in its notation;
if there are no pins, it has the value of the body among cells that are moved. If a reference leaves
the plane, the text of the shifted body is faulty at some position. -/
theorem shift_accepted {room : Nat} (h : Expr.ofBody room body = .ok e)
    (hshort : e.EachReference (StaysShort d)) :
    ∃ body', shift d body = .ok body' ∧
      (e.EachReference (Stays d) → ∃ e', Expr.ofBody room body' = .ok e' ∧
        e'.unplaced = (e.moved d).unplaced ∧
        (e.EachReference fun p => ∃ r r', p.resolve? = .ok (some r) ∧ r.move? d = some r' ∧
          r'.text = .ok (String.ofList (movedParts d p).chars)) ∧
        ((e.EachReference fun p => p.pinnedRow = false ∧ p.pinnedCol = false) →
          ∀ (m : Type → Type) [Monad m] [LawfulMonad m] [MonadExceptOf Failure m]
            (env : Surroundings m), e'.value env = e.value (env.via (Cell.move d)))) ∧
      (¬ e.EachReference (Stays d) → ∃ r position, Expr.parse body' = .error r ∧
        Expr.ofBody room body' = .error (.rejected r) ∧ r.position? = some position) := by
  obtain ⟨hparse, hvalid, hlevels⟩ := Expr.ofBody_eq_ok_iff.1 h
  have hnames : e.EachReference Names := Expr.names_of_valid e false hvalid
  have hmovable : e.EachReference (Movable d) := fun q hq =>
    ⟨⟨(hnames q hq).1, (hshort q hq).1⟩, (hnames q hq).2, (hshort q hq).2⟩
  obtain ⟨out, hshifts, -, hstays, hlost⟩ :=
    (Expr.laid_of_parse hparse).shift ((Expr.eachReference_iff hparse).1 hmovable)
  rw [← Expr.eachReference_iff hparse] at hstays hlost
  refine ⟨String.ofList out, hshifts.shift, fun hall => ?_, fun hnone => ?_⟩
  · have hlaid := hstays hall
    rw [← String.toList_ofList (l := out)] at hlaid
    obtain ⟨hstuck, htokens⟩ := hlaid.lexFrom 0
    obtain ⟨e', hparse', htree⟩ := Expr.parse_relabel hparse hstuck htokens
    have htracks : e.EachReference fun p => Stays d p ∧ Movable d p := fun q hq =>
      ⟨⟨(hall q hq).1, (hmovable q hq).1⟩, (hall q hq).2, (hmovable q hq).2⟩
    have hvalid' := Expr.valid_of_moved htree htracks hvalid
    have hlevels' : e'.unplaced.levels = e'.levels := Expr.levels_relabel e'
    rw [htree, Expr.levels_relabel] at hlevels'
    refine ⟨e', Expr.ofBody_eq_ok_iff.2 ⟨hparse', hvalid', hlevels' ▸ hlevels⟩,
      htree.trans Expr.unplaced_moved.symm, ?_, ?_⟩
    · exact fun q hq => ⟨notation_movedParts (htracks q hq).1, notation_movedParts (htracks q hq).2⟩
    · intro hrelative m _ _ _ env
      have hnames' : e'.EachReference Names := Expr.names_of_valid e' false hvalid'
      have hvalue := Expr.value_unplaced env hnames'
      rw [htree] at hvalue
      rw [← hvalue]
      exact Expr.value_moved env fun q hq =>
        ⟨tracks_movedParts (htracks q hq).1 (hrelative q hq).1,
          tracks_movedParts (htracks q hq).2 (hrelative q hq).2⟩
  · have hstuck := hlost hnone
    rw [← String.toList_ofList (l := out)] at hstuck
    obtain ⟨r, position, hr, hposition⟩ := Expr.parse_stuck hstuck
    exact ⟨r, position, hr, by rw [Expr.ofBody, hr]; rfl, hposition⟩

/-- A reference near the top has a short row number after a short way. -/
theorem staysShort_of_lt {p : Parts} {r : Reference} (hr : p.resolve? = .ok (some r))
    (h : r.cell.row.natAbs + d.rows.natAbs + 1 < 10) : StaysShort d p := by
  intro r₀ r' hr₀ hmove
  obtain rfl : r = r₀ := Option.some.inj (Except.ok.inj (hr.symm.trans hr₀))
  obtain ⟨-, -, hrow, -, -, -⟩ := Reference.move?_eq_some hmove
  have hten : 10 ≤ 10 ^ Decimal.maxDigits := Nat.le_self_pow (by decide) 10
  refine Nat.lt_of_lt_of_le ?_ hten
  split at hrow <;> omega

/-- A sum without pins, moved to the right and down, and off the plane. -/
theorem shift_accepted_sum : ∃ e body' e' body'',
    Expr.ofBody roomLimit "A1+SUM(B2:C3)" = .ok e ∧
    (e.EachReference (StaysShort ⟨1, 2⟩) ∧ e.EachReference (StaysShort ⟨0, -1⟩)) ∧
    shift ⟨1, 2⟩ "A1+SUM(B2:C3)" = .ok body' ∧ Expr.ofBody roomLimit body' = .ok e' ∧
    e'.unplaced = (e.moved ⟨1, 2⟩).unplaced ∧
    (∀ env : Surroundings (Except Failure), e'.value env = e.value (env.via (Cell.move ⟨1, 2⟩))) ∧
    shift ⟨0, -1⟩ "A1+SUM(B2:C3)" = .ok body'' ∧
    ∃ r, Expr.ofBody roomLimit body'' = .error (.rejected r) := by
  have hbody : Expr.ofBody roomLimit "A1+SUM(B2:C3)" = .ok (.binary .add
      (.cell ⟨false, ['A'], false, ['1']⟩ 0) (.call ['S', 'U', 'M']
        [.range ⟨false, ['B'], false, ['2']⟩ ⟨false, ['C'], false, ['3']⟩ 7])) := by cbv
  have heach {P : Parts → Prop} (ha : P ⟨false, ['A'], false, ['1']⟩)
      (hb : P ⟨false, ['B'], false, ['2']⟩) (hc : P ⟨false, ['C'], false, ['3']⟩) :
      (Expr.binary .add (.cell ⟨false, ['A'], false, ['1']⟩ 0) (.call ['S', 'U', 'M']
        [.range ⟨false, ['B'], false, ['2']⟩ ⟨false, ['C'], false, ['3']⟩ 7])).EachReference P := by
    simp [Expr.EachReference, Expr.corners, Expr.cornersOfList, ha, hb, hc]
  have hA : Parts.resolve? ⟨false, ['A'], false, ['1']⟩ = .ok (some ⟨⟨0, 0⟩, false, false⟩) := rfl
  have hB : Parts.resolve? ⟨false, ['B'], false, ['2']⟩ = .ok (some ⟨⟨1, 1⟩, false, false⟩) := rfl
  have hC : Parts.resolve? ⟨false, ['C'], false, ['3']⟩ = .ok (some ⟨⟨2, 2⟩, false, false⟩) := rfl
  have hshort {d : Offset} (hd : d.rows.natAbs ≤ 1) :=
    heach (P := StaysShort d) (staysShort_of_lt hA (by simp only; omega))
      (staysShort_of_lt hB (by simp only; omega)) (staysShort_of_lt hC (by simp only; omega))
  obtain ⟨body', hbody', hstays, -⟩ := shift_accepted hbody (hshort (d := ⟨1, 2⟩) (by decide))
  obtain ⟨body'', hbody'', -, hlost⟩ := shift_accepted hbody (hshort (d := ⟨0, -1⟩) (by decide))
  obtain ⟨e', he', htree, -, hvalue⟩ :=
    hstays (heach ⟨_, _, hA, rfl⟩ ⟨_, _, hB, rfl⟩ ⟨_, _, hC, rfl⟩)
  obtain ⟨r, -, -, hr, -⟩ := hlost fun hall => by
    obtain ⟨⟨r, r', hr, hmove⟩, -⟩ := hall (_, _, 0) List.mem_cons_self
    obtain rfl := Option.some.inj (Except.ok.inj (hA.symm.trans hr))
    cases hmove
  exact ⟨_, body', e', body'', hbody, ⟨hshort (by decide), hshort (by decide)⟩, hbody', he', htree,
    hvalue (heach ⟨rfl, rfl⟩ ⟨rfl, rfl⟩ ⟨rfl, rfl⟩) (Except Failure), hbody'', r, hr⟩

end Spreadsheet.Formula
