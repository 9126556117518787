import Spreadsheet.Proofs.Formula.Lexing
import Spreadsheet.Proofs.Formula.Parsing
import Spreadsheet.Proofs.Sheet.Scan
import Spreadsheet.Proofs.Sheet.Walk

/-!
# Formulas that cannot be read

A formula with a row number that is too long cannot be read, and its cell has no value. A walk looks
at every cell that its first one leads to. So it fails if one of them cannot be read and nothing is
known yet, although the recursion may pass by that cell, or meet a cell before it that is known.

* `Expr.parse_reference`, **`Expr.ofBody_of_overlong`**: a formula that is one reference;
* `Unreadable.not_shown`, `Overlong.eq_of_unreadable`: a cell whose formula cannot be read;
* `Closed`, `walk_closed`: a walk ends when all that it leads to is known;
* **`walk_fails_iff`**: when a walk fails; `exists_display_error`: a reading that ends in one.
-/

namespace Spreadsheet

open Formula (CellValue Failure)

/-! ## A formula that is one reference -/

namespace Formula

open Reference (Parts)

variable {p : Parts} {room : Nat}

theorem Expr.parse_reference (hp : Written p) :
    Expr.parse (String.ofList p.chars) = .ok (.cell p 0) := by
  have htake : Lexeme.take? ((Lexeme.cell p).chars ++ []) = some (.cell p) :=
    take?_of_reference (takeReference?_cell hp trivial)
  have hlex := lexFrom_token (l := .cell p) hp.chars_ne_nil htake 0
  have hlexed : lex (String.ofList p.chars) = ⟨[⟨.cell p, 0⟩], none⟩ := by
    unfold lex
    rw [String.toList_ofList, ← List.append_nil p.chars]
    exact hlex.trans (by simp only [lexFrom])
  obtain ⟨s, hrun, hfinish⟩ :=
    Derivation.parse (.expression (.term (.primary (.cell p 0)) .noFactors) .noTerms)
  rw [Expr.parse_eq_ok, hlexed]
  exact ⟨rfl, s, hrun, hfinish⟩

/-- **A reference whose row number is too long** cannot be read. -/
theorem Expr.ofBody_of_overlong (hp : Written p) (hlong : Decimal.maxDigits < p.digits.length)
    (hroom : 0 < room) : Expr.ofBody room (String.ofList p.chars) =
      .error (.tooLong (.reading p.digits.length)) := by
  have hresolve : resolve 0 p = .error (.tooLong (.reading p.digits.length)) := by
    unfold resolve Parts.resolve?
    rw [Decimal.readNat_of_lt_length hlong]
    rfl
  unfold Expr.ofBody
  rw [Expr.parse_reference hp]
  simp only [Expr.check, enter, if_pos hroom, hresolve]
  rfl

theorem body?_reference (hp : Written p) : CellText.body? (String.ofList ('=' :: p.chars)) =
    some (String.ofList p.chars) := by
  obtain ⟨c, hc⟩ := List.exists_mem_of_ne_nil _ hp.digits_ne
  have hblank : ¬ Text.isBlank c = true := fun h => not_isDigit_of_isBlank h (hp.digits c hc)
  exact CellText.body?_ofList ⟨c, List.mem_append_right _ hc, Bool.eq_false_iff.2 hblank⟩

end Formula

/-! ## Cells that cannot be read -/

namespace Grid

variable {g : Grid} {room : Nat} {c d : Cell} {v : CellValue} {t : String} {f f' : Failure}

theorem Unreadable.not_right (h : g.Unreadable room c f) : ¬ g.Right room c v := by
  rintro ⟨body', hb', hright⟩
  obtain ⟨body, t, hb, hlong, -⟩ := h
  obtain rfl : body = body' := Option.some.inj (hb.symm.trans hb')
  have hverdict : g.verdict room body = .error (.tooLong t) := Formula.verdict_of_error hlong
  rw [hverdict] at hright
  exact hright.2 t rfl

theorem Unreadable.not_shown (h : g.Unreadable room c f) : ¬ g.Shown room c t := by
  rintro (⟨hf, -⟩ | ⟨v, hv, -⟩)
  · exact hf h.isFormula
  · exact h.not_right hv

/-- No references lead away from a cell that cannot be read. -/
theorem Unreadable.not_dependsOn (h : g.Unreadable room c f) : ¬ g.DependsOn room c d := by
  obtain ⟨body, t, hb, hlong, -⟩ := h
  intro hdep
  obtain ⟨body', e, hb', he⟩ := hdep.source
  obtain rfl : body = body' := Option.some.inj (hb.symm.trans hb')
  rw [hlong] at he
  cases he

theorem Unreadable.not_reachesCycle (h : g.Unreadable room c f) : ¬ g.ReachesCycle room c := by
  intro hcycle
  obtain ⟨d, hdep, -⟩ := hcycle.exists_dependsOn
  exact h.not_dependsOn hdep

theorem Overlong.eq_of_unreadable (h : g.Overlong room c f') (hc : g.Unreadable room c f) :
    f' = f := by
  obtain ⟨d, hlead, body', t', hb', hlong', rfl⟩ := h
  rcases Relation.ReflTransGen.cases_head hlead with rfl | ⟨d, hdep, -⟩
  · obtain ⟨body, t, hb, hlong, rfl⟩ := hc
    obtain rfl : body = body' := Option.some.inj (hb.symm.trans hb')
    exact Except.error.inj (hlong'.symm.trans hlong)
  · exact absurd hdep hc.not_dependsOn

/-! ## Walks -/

variable {start : Cell} {path : List Cell} {r r₀ : Results} {unvisited : Std.HashSet Cell}
variable {stack : List Visit}

/-- What cells depend on that are known is known too, or on the path. -/
def Closed (g : Grid) (room : Nat) (path : List Cell) (r : Results) : Prop :=
  ∀ c ∈ r.memo, ∀ d, g.DependsOn room c d → d ∈ r.memo ∨ d ∈ path

theorem Closed.leave {body : String} {v : CellValue} (h : g.Closed room (c :: path) r)
    (hdeps : ∀ d, g.DependsOn room c d → d ∈ r.memo ∨ d ∈ c :: path) :
    g.Closed room path ((r.note c (g.verdict room body)).memoize c v) := by
  have hmem (d : Cell) :
      d ∈ ((r.note c (g.verdict room body)).memoize c v).memo ↔ c = d ∨ d ∈ r.memo := by
    simp [Results.memoize, Std.HashMap.mem_insert]
  intro x hx d hd
  have hknown : d ∈ r.memo ∨ d ∈ c :: path := by
    rcases (hmem x).1 hx with rfl | hx
    · exact hdeps d hd
    · exact h x hx d hd
  rw [hmem]
  rcases hknown with hd | hd
  · exact .inl (.inr hd)
  · exact (List.mem_cons.1 hd).imp (fun heq => .inl heq.symm) id

/-- **A walk ends when all that it leads to is known.** -/
theorem walk_closed (h : g.Walking room start r₀ unvisited path stack r)
    (hstart : CellText.isFormula (g.text start) = true) (hclosed : g.Closed room path r) :
    (g.walk room unvisited path stack).Meets r (fun _ r' => g.Closed room [] r')
      fun _ _ => True := by
  induction hn : unvisited.size using Nat.strong_induction_on
    generalizing unvisited path stack r with
  | _ n ihn =>
  induction stack generalizing path r with
  | nil =>
    obtain rfl : path = [] := h.pending
    rw [walk]
    exact hclosed
  | cons visit stack ih =>
    cases visit with
    | leave c =>
      obtain ⟨rest, rfl⟩ := List.head?_eq_some_iff.1 h.pending.1
      obtain ⟨body, hb⟩ := CellText.isFormula_iff.1 (h.onPath c List.mem_cons_self)
      have hdeps (d : Cell) (hd : g.DependsOn room c d) : d ∈ r.memo ∨ d ∈ c :: rest := h.settled hd
      have hchain := List.pairwise_cons.1 h.chain
      rw [walk, ExceptT.meets_bind]
      refine (boundedValue_meets hb h.sound (fun _ => hchain.1) hdeps).imp ?_ fun _ _ _ => trivial
      rintro v _ ⟨hv, rfl⟩
      rw [ExceptT.meets_bind, ExceptT.meets_modify]
      exact ih (h.leave hb hv) (hclosed.leave hdeps)
    | enter c =>
      rw [walk]
      split
      · rename_i hc
        rw [ExceptT.meets_bind, ExceptT.meets_get]
        by_cases hm : c ∈ r.memo
        · rw [if_pos (Std.HashMap.mem_iff_contains.1 hm)]
          exact ih (h.skip hstart (.inl hm)) hclosed
        · rw [if_neg (by rwa [← Std.HashMap.mem_iff_contains])]
          obtain ⟨body, hb⟩ := CellText.isFormula_iff.1 (h.formulas c hc)
          rw [hb, Option.getD_some, ExceptT.meets_bind, ExceptT.meets_ofExcept]
          rcases hfound : g.dependencies room body with f | found
          · trivial
          · refine ihn _ (hn ▸ size_erase_lt hc) (h.enter hc hm hb hfound) (fun x hx d hd => ?_) rfl
            exact (hclosed x hx d hd).imp_right (.tail _)
      · exact ih (h.skip hstart (.inr ‹_›)) hclosed

/-- **A walk that begins with nothing known** fails if and only if its first cell leads to a formula
that cannot be read. -/
theorem walk_fails_iff (hr : r.Sound g room) (hnone : ∀ d, d ∉ r.memo)
    (hc : CellText.isFormula (g.text c) = true) :
    (∃ f, ((g.walk room g.formulas [] [.enter c]).run r).1 = .error f) ↔
      ∃ f, g.Overlong room c f := by
  have hends := walk_meets hc (.initial hr)
  rcases hrun : (g.walk room g.formulas [] [.enter c]).run r with ⟨f | ⟨⟩, r'⟩
  · exact iff_of_true ⟨f, rfl⟩ ⟨f, (hends.of_run_error hrun).2⟩
  · refine iff_of_false nofun fun ⟨f, d, hlead, hd⟩ => ?_
    obtain ⟨⟨hr', -⟩, hmem⟩ := hends.of_run_ok hrun
    have hclosed := (walk_closed (.initial hr) hc fun x hx => absurd hx (hnone x)).of_run_ok hrun
    have hknown {x : Cell} (hx : Relation.ReflTransGen (g.DependsOn room) c x) : x ∈ r'.memo := by
      induction hx with
      | refl => exact hmem
      | tail _ hdep ih => exact (hclosed _ ih _ hdep).resolve_right List.not_mem_nil
    obtain ⟨v, hv⟩ :=
      Option.isSome_iff_exists.1 (Std.HashMap.mem_iff_isSome_getElem?.1 (hknown hlead))
    exact hd.not_right (hr'.right hv)

/-- **A reading that runs out of room with nothing known** fails if its cell leads to a formula that
cannot be read. -/
theorem exists_display_error (hr : r.Sound g room) (hnone : ∀ d : Cell, r.memo[d]? = none)
    (hdeep : (g.cellValue room [] c).run r = (.error .tooDeep, r)) (hf : g.Overlong room c f) :
    ∃ f', ((g.display room c).run r).1 = .error f' := by
  have hknown (d : Cell) : d ∉ r.memo := by
    simp [Std.HashMap.mem_iff_isSome_getElem?, hnone]
  obtain ⟨f', hwalk⟩ := (walk_fails_iff hr hknown hf.isFormula).2 ⟨f, hf⟩
  obtain ⟨r', hrun⟩ : ∃ r', (g.walk room g.formulas [] [.enter c]).run r = (.error f', r') :=
    ⟨_, Prod.ext hwalk rfl⟩
  have hvalue : (g.valueAt room c).run r = (.error f', r') := by
    rw [valueAt, ExceptT.run_tryCatch_apply, hdeep]
    simp only [ExceptT.run_bind_apply, hrun]
  refine ⟨f', ?_⟩
  rw [display, if_pos hf.isFormula, map_eq_pure_bind, ExceptT.run_bind_apply, hvalue]

end Grid

end Spreadsheet
