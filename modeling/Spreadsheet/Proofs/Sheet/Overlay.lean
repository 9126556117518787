import Mathlib
import Spreadsheet.Proofs.Decimal
import Spreadsheet.Proofs.Sheet.History
import Spreadsheet.Proofs.Sheet.Paste
import Spreadsheet.Proofs.Sheet.Scan

/-!
# The cells that fail

Which formula cells fail, and why, is a matter of their own texts: a body is rejected, or it is
nested more deeply than there is room for, even if all the cells that it refers to are known. What a
sheet has noted may be older than its texts, but after a scan of all cells it is just this.

* `Grid.TooDeep`, **`Grid.Failing`**: the cells that fail, said without evaluating any other cell;
* `Grid.Shown.eq_failedText_iff`: what is shown of them;
* `Sheet.Reachable`: the states that changes and readings lead to;
* **`Sheet.failures_after_scan`**: what is noted after a scan.
-/

namespace Spreadsheet

open Formula (CellValue Failure)

namespace Grid

variable {g : Grid} {room : Nat} {c : Cell} {body m t : String}

/-- A body is nested too deeply to be checked or, its references being answered, evaluated. -/
def TooDeep (g : Grid) (room : Nat) (body : String) : Prop :=
  Formula.Expr.ofBody room body = .error .tooDeep ∨
    ∃ e, Formula.Expr.ofBody room body = .ok e ∧ room < e.depth (g.meaning room)

/-- A formula cell fails for a reason: its body is rejected, or nested too deeply. -/
def Failing (g : Grid) (room : Nat) (c : Cell) (m : String) : Prop :=
  ∃ body, CellText.body? (g.text c) = some body ∧
    ((∃ q, Formula.Expr.ofBody room body = .error (.rejected q) ∧ m = q.description) ∨
      g.TooDeep room body ∧ m = Formula.tooDeepMessage)

theorem tooDeep_iff : g.TooDeep room body ↔ g.verdict room body = .error .tooDeep := by
  unfold TooDeep verdict
  rcases he : Formula.Expr.ofBody room body with f | e
  · rw [Formula.verdict_of_error he]
    simp
  · rw [Formula.verdict_of_ofBody he]
    simp only [reduceCtorEq, Except.ok.injEq, exists_eq_left', false_or]
    split
    · exact iff_of_false (by omega) nofun
    · exact iff_of_true (by omega) rfl

theorem rejected_iff {q : Formula.Rejection} :
    Formula.Expr.ofBody room body = .error (.rejected q) ↔
      g.verdict room body = .error (.rejected q) :=
  ⟨Formula.verdict_of_error, fun h => Formula.ofBody_of_verdict h nofun⟩

/-- The reason why a cell fails is the one that its formula has, unless a row number is too long. -/
theorem failing_iff : g.Failing room c m ↔ ∃ body f, CellText.body? (g.text c) = some body ∧
    g.verdict room body = .error f ∧ (∀ e, f ≠ .tooLong e) ∧ m = f.message := by
  unfold Failing
  simp only [tooDeep_iff, rejected_iff (g := g)]
  constructor
  · rintro ⟨body, hb, ⟨q, hv, rfl⟩ | ⟨hv, rfl⟩⟩
    · exact ⟨body, _, hb, hv, nofun, rfl⟩
    · exact ⟨body, _, hb, hv, nofun, rfl⟩
  · rintro ⟨body, f, hb, hv, hlong, rfl⟩
    cases f with
    | rejected q => exact ⟨body, hb, .inl ⟨q, hv, rfl⟩⟩
    | tooDeep => exact ⟨body, hb, .inr ⟨hv, rfl⟩⟩
    | tooLong e => exact absurd rfl (hlong e)

theorem Failing.isFormula (h : g.Failing room c m) : CellText.isFormula (g.text c) = true :=
  h.elim fun body hb => CellText.isFormula_iff.2 ⟨body, hb.1⟩

theorem Short.ne_tooLong (h : g.Short) (hb : CellText.body? (g.text c) = some body) {f : Failure}
    (hv : g.verdict room body = .error f) (e : Decimal.TooLong) : f ≠ .tooLong e := by
  rintro rfl
  exact Formula.Expr.readable_ofBody (fun e' he => h c body e' hb he) e
    (Formula.ofBody_of_verdict hv nofun)

theorem not_failing_of_ofBody {e : Formula.Expr} (hb : CellText.body? (g.text c) = some body)
    (he : Formula.Expr.ofBody room body = .ok e) (hdepth : e.depth (g.meaning room) ≤ room) :
    ¬ g.Failing room c m := by
  intro hfailing
  obtain ⟨body', f, hb', hv, -⟩ := failing_iff.1 hfailing
  rw [← Option.some.inj (hb.symm.trans hb'), verdict, Formula.verdict_of_ofBody he,
    if_pos hdepth] at hv
  cases hv

theorem display_ne_failedText (x : Formula.Outcome) :
    (CellValue.result x).display ≠ failedText := by
  cases x with
  | ok x => exact Formula.display_ne_failedText x
  | error code => exact Formula.text_ne_failedText code

/-- **A formula cell shows that it has no value** if and only if it fails. -/
theorem Shown.eq_failedText_iff (h : g.Shown room c t)
    (hc : CellText.isFormula (g.text c) = true) :
    t = failedText ↔ ∃ m, g.Failing room c m := by
  obtain ⟨v, ⟨body, hb, hv⟩, rfl⟩ := h.resolve_left fun h => h.1 hc
  simp only [failing_iff]
  rcases hverdict : g.verdict room body with f | x
  · rw [hverdict] at hv
    obtain ⟨rfl, hlong⟩ := hv
    exact iff_of_true rfl ⟨_, body, f, hb, hverdict, hlong, rfl⟩
  · rw [hverdict] at hv
    obtain ⟨y, rfl, -⟩ := hv
    refine iff_of_false (display_ne_failedText y) ?_
    rintro ⟨m, body', f, hb', hv', -⟩
    rw [← Option.some.inj (hb.symm.trans hb'), hverdict] at hv'
    cases hv'

/-- What is noted of a formula cell is why it fails. -/
theorem Noted.failure_iff {r : Results} (h : g.Noted room r c) (hshort : g.Short)
    (hc : CellText.isFormula (g.text c) = true) :
    (r.failures[c]?).map Failure.message = some m ↔ g.Failing room c m := by
  obtain ⟨body, hb⟩ := CellText.isFormula_iff.1 hc
  rw [h body hb, failing_iff]
  rcases hv : g.verdict room body with f | x
  · have hlong := hshort.ne_tooLong hb hv
    simp [Formula.reason?, hb, hv, hlong, eq_comm]
  · simp [Formula.reason?, hb, hv]

/-- What is noted of a formula cell with a value is why it fails. -/
theorem Right.failing {r : Results} {v : CellValue} {f : Failure} (h : g.Right room c v)
    (hnoted : g.Noted room r c) (hf : r.failures[c]? = some f) : g.Failing room c f.message := by
  obtain ⟨body, hb, hv⟩ := h
  rw [hnoted body hb] at hf
  rcases hverdict : g.verdict room body with f' | x
  · rw [hverdict] at hf hv
    obtain rfl := Option.some.inj hf
    exact failing_iff.2 ⟨body, f', hb, hverdict, hv.2, rfl⟩
  · rw [hverdict] at hf
    cases hf

theorem Shown.ne_tooLong (h : g.Shown room c t) (hb : CellText.body? (g.text c) = some body)
    {f : Failure} (hv : g.verdict room body = .error f) (e : Decimal.TooLong) : f ≠ .tooLong e := by
  obtain ⟨v, ⟨body', hb', hright⟩, -⟩ :=
    h.resolve_left fun hs => hs.1 (CellText.isFormula_iff.2 ⟨body, hb⟩)
  rw [← Option.some.inj (hb.symm.trans hb'), hv] at hright
  exact hright.2 e

end Grid

namespace Sheet

variable {room : Nat} {s : Sheet} {observe : Observer}

/-- The states that changes and readings lead to, scans that are stopped included. -/
inductive Reachable (room : Nat) : Sheet → Prop where
  | start (g : Grid) : Reachable room ⟨g, {}⟩
  | perform {s : Sheet} (h : Reachable room s) (command : Command) :
    Reachable room (s.perform room command)
  | paste {s : Sheet} (h : Reachable room s) (corner : Cell) (text : String)
    (origin? : Option Cell) : Reachable room (s.paste corner text origin?).2
  | scan {s : Sheet} (h : Reachable room s) (observe : Observer) (skipped : Option Cell) :
    Reachable room (s.scan room observe skipped).2

theorem Reachable.coherent (h : s.Reachable room) : s.Coherent room := by
  induction h with
  | start g => exact coherent_of_failures_eq_empty
  | perform h command ih => exact ih.perform command
  | paste h corner text origin? ih => exact (ih.paste corner text origin?).1
  | scan h observe skipped ih => exact ih.scan rfl

theorem Reachable.after (h : s.Reachable room) (history : List Command) :
    (s.after room history).Reachable room := by
  induction history generalizing s with
  | nil => exact h
  | cons command history ih => exact ih (h.perform command)

/-- A scan that nobody stops shows every cell, if row numbers can be read. -/
theorem Coherent.scan_all (h : s.Coherent room) (hshort : s.grid.Short)
    (hobserve : ∀ c t, observe c t = .ok ()) : ∃ shown s',
      s.scan room observe none = (⟨shown, none⟩, s') ∧ s'.grid = s.grid ∧ s'.Coherent room ∧
      shown.map Prod.fst = s.size.toList ∧ (∀ p ∈ shown, s.grid.Shown room p.1 p.2) ∧
      ∀ c ∈ s.size, s.grid.Noted room s'.results c := by
  rcases hscan : s.scan room observe none with ⟨⟨shown, fault?⟩, s'⟩
  obtain ⟨⟨hgrid, -⟩, hshown, hend⟩ := scan_sound h.sound hscan
  cases fault? with
  | some fault =>
    rcases hend with ⟨p, -, hstop⟩ | ⟨c, f, -, hlong, -⟩
    · rw [hobserve] at hstop
      cases hstop
    · exact absurd hlong hshort.not_overlong
  | none =>
    have hall : s.size.without none = s.size.toList := List.filter_eq_self.2 fun _ _ => rfl
    exact ⟨shown, s', rfl, hgrid, h.scan hscan, hend.1.trans hall, fun p hp => (hshown p hp).2.2,
      fun c hc => hend.2 c hc nofun⟩

theorem Coherent.failure?_iff (h : s.Coherent room) (hshort : s.grid.Short)
    (hnoted : ∀ c ∈ s.size, s.grid.Noted room s.results c) {c : Cell} {m : String} :
    s.failure? c = some m ↔ s.grid.Failing room c m := by
  by_cases hc : CellText.isFormula (s.grid.text c) = true
  · exact (hnoted c (Grid.mem_of_isFormula hc)).failure_iff hshort hc
  · rw [failure?, h.tidy hc]
    exact iff_of_false (Option.some_ne_none m).symm fun hf => hc hf.isFormula

end Sheet

end Spreadsheet
