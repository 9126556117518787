import Spreadsheet.Proofs.Formula.Spacing
import Spreadsheet.Proofs.Sheet.Locality
import Spreadsheet.Proofs.Sheet.Scan

/-!
# Formulas with other blanks in a grid

On two grids whose texts are the same, but for formulas that are read alike, all computations are
the same: what is read first, what becomes known, what fails and how. So is what the cells mean.

* `Respelled.evaluate_eq`, `Respelled.dependencies_eq`: one formula;
* `CellText.Respelled`, `Grid.Respelled`;
* `Grid.Respelled.cellValue_eq`, `walk_eq`; **`Grid.Respelled.valueAt_eq`**, `display_eq`;
* `Grid.Respelled.dependsOn_eq`, **`Grid.Respelled.meaning_eq`**: the graph of references and the
  values;
* **`Sheet.Coherent.valueAt_eq_of_respelled`**: readings of two sheets, whatever is known on each.
-/

namespace Spreadsheet

open Formula (CellValue Expr Failure)

/-! ## One formula -/

namespace Formula.Respelled

variable {body body' : String} (h : Respelled body body')
include h

theorem evaluate_eq (room : Nat) (c : Cell) (answer : Nat → Cell → Evaluation CellValue) :
    evaluate room c body' answer = evaluate room c body answer := by
  unfold evaluate
  rcases h room with ⟨f, hf, hf'⟩ | ⟨e, e', he, he', htree⟩
  · rw [hf, hf']
  · rw [he, he']
    simp only [MonadExcept.ofExcept, pure_bind,
      Expr.value_of_unplaced _ htree (Expr.valid_of_ofBody he) (Expr.valid_of_ofBody he')]

theorem dependencies_eq (g : Grid) (room : Nat) :
    g.dependencies room body' = g.dependencies room body := by
  rcases h room with ⟨f, hf, hf'⟩ | ⟨e, e', he, he', htree⟩
  · rw [Grid.dependencies, Grid.dependencies, hf, hf']
  · have hplaces := Expr.flatMap_corners_unplaced fun p q => g.within p.target q.target
    rw [Grid.dependencies_of_ofBody he, Grid.dependencies_of_ofBody he', ← hplaces, htree, hplaces]

theorem verdict_eq (room : Nat) (ρ : Cell → CellValue) :
    verdict room ρ body' = verdict room ρ body := by
  rcases h room with ⟨f, hf, hf'⟩ | ⟨e, e', he, he', htree⟩
  · rw [verdict_of_error hf, verdict_of_error hf']
  · have hstands := Expr.standsFor_of_unplaced ρ htree
    have hdepth := (Expr.standsFor_of_unplaced ρ htree.symm).depth
    rw [verdict_of_ofBody he, verdict_of_ofBody he', hstands.denote,
      Nat.le_antisymm hstands.depth hdepth]

end Formula.Respelled

/-- A text that is no formula and stays as it is, or two formulas that are read alike. -/
def CellText.Respelled (text text' : String) : Prop :=
  (body? text = none ∧ text' = text) ∨
    ∃ body body', body? text = some body ∧ body? text' = some body' ∧
      Formula.Respelled body body'

namespace CellText.Respelled

variable {text text' : String}

theorem refl (text : String) : Respelled text text := by
  cases hb : body? text with
  | none => exact .inl ⟨hb, rfl⟩
  | some body => exact .inr ⟨body, body, hb, hb, .refl body⟩

theorem symm (h : Respelled text text') : Respelled text' text := by
  rcases h with ⟨hb, rfl⟩ | ⟨body, body', hb, hb', h⟩
  · exact .inl ⟨hb, rfl⟩
  · exact .inr ⟨body', body, hb', hb, h.symm⟩

theorem isFormula_eq (h : Respelled text text') : isFormula text' = isFormula text := by
  rcases h with ⟨-, rfl⟩ | ⟨body, body', hb, hb', -⟩
  · rfl
  · rw [isFormula_iff.2 ⟨body, hb⟩, isFormula_iff.2 ⟨body', hb'⟩]

theorem eq_of_not_isFormula (h : Respelled text text') (hf : ¬ isFormula text = true) :
    text' = text := by
  rcases h with ⟨-, htext⟩ | ⟨body, -, hb, -⟩
  · exact htext
  · exact absurd (isFormula_iff.2 ⟨body, hb⟩) hf

end CellText.Respelled

/-! ## Computations on grids -/

namespace Grid

/-- Grids with the same texts, but for formulas that are read alike. -/
structure Respelled (g g' : Grid) : Prop where
  size : g'.size = g.size
  text (c : Cell) : CellText.Respelled (g.text c) (g'.text c)

namespace Respelled

variable {g g' : Grid} {room : Nat} {c d : Cell} (h : g.Respelled g')
include h

theorem symm : g'.Respelled g := ⟨h.size.symm, fun c => (h.text c).symm⟩

theorem isFormula_eq (c : Cell) :
    CellText.isFormula (g'.text c) = CellText.isFormula (g.text c) := (h.text c).isFormula_eq

/-- **Values by recursion.** -/
theorem cellValue_eq (room : Nat) : g'.cellValue room = g.cellValue room := by
  induction room using Nat.strong_induction_on with
  | _ room ih =>
  funext path c
  rw [cellValue, cellValue]
  refine bind_congr fun r => ?_
  cases r.memo[c]? with
  | some v => rfl
  | none =>
    rcases h.text c with ⟨hb, htext⟩ | ⟨body, body', hb, hb', hrespelled⟩
    · rw [htext, hb]
    · rw [hb, hb']
      simp only
      split
      · rfl
      · split
        · rfl
        · have hlower (level : Nat) : g'.cellValue (room - referenceCost level) =
              g.cellValue (room - referenceCost level) := ih _ (by unfold referenceCost; omega)
          simp only [hlower, hrespelled.evaluate_eq]

theorem boundedValue_eq (room : Nat) (path : List Cell) (c : Cell) :
    g'.boundedValue room path c = g.boundedValue room path c := by
  unfold boundedValue formulaValue
  rcases h.text c with ⟨hb, htext⟩ | ⟨body, body', hb, hb', hrespelled⟩
  · rw [htext, hb]
  · simp only [hb, hb', h.cellValue_eq, hrespelled.evaluate_eq]

theorem dependencies_eq (room : Nat) (c : Cell) :
    g'.dependencies room ((CellText.body? (g'.text c)).getD "") =
      g.dependencies room ((CellText.body? (g.text c)).getD "") := by
  rw [dependencies_of_size h.size]
  rcases h.text c with ⟨-, htext⟩ | ⟨body, body', hb, hb', hrespelled⟩
  · rw [htext]
  · rw [hb, hb', Option.getD_some, Option.getD_some, hrespelled.dependencies_eq]

theorem formulas_eq : g'.formulas = g.formulas := by
  simp only [formulas, h.size, h.isFormula_eq]

/-- **Walks.** -/
theorem walk_eq (room : Nat) (unvisited : Std.HashSet Cell) : ∀ path stack,
    g'.walk room unvisited path stack = g.walk room unvisited path stack := by
  -- entering a cell lengthens the stack, and leaves fewer cells to be entered
  induction hn : unvisited.size using Nat.strong_induction_on generalizing unvisited with
  | _ n ihn =>
  intro path stack
  induction stack generalizing path with
  | nil => rw [walk, walk]
  | cons visit stack ih =>
    cases visit with
    | leave c =>
      rw [walk, walk, h.boundedValue_eq]
      simp only [ih]
    | enter c =>
      rw [walk, walk, h.dependencies_eq]
      by_cases hc : c ∈ unvisited
      · have hlower := ihn _ (hn ▸ size_erase_lt hc) (unvisited.erase c) rfl
        simp only [hlower, ih]
      · rw [dif_neg hc, dif_neg hc, ih]

/-- **The values of cells**, in whatever state they are asked for. -/
theorem valueAt_eq (room : Nat) (c : Cell) : g'.valueAt room c = g.valueAt room c := by
  simp only [valueAt, h.cellValue_eq, h.formulas_eq, h.walk_eq]

theorem display_eq (room : Nat) (c : Cell) : g'.display room c = g.display room c := by
  unfold display
  rw [h.isFormula_eq, h.valueAt_eq]
  split
  · rfl
  · rw [(h.text c).eq_of_not_isFormula ‹_›]

/-! ## What grids mean -/

theorem reads (hd : g.Reads room c d) : g'.Reads room c d := by
  obtain ⟨body, e, hb, he, hd⟩ := hd
  rcases h.text c with ⟨hnone, -⟩ | ⟨b, body', hb', hbody', hrespelled⟩
  · rw [hnone] at hb
    cases hb
  · obtain rfl : b = body := Option.some.inj (hb'.symm.trans hb)
    obtain ⟨e', he', htree⟩ := hrespelled.ofBody_ok he
    exact ⟨body', e', hbody', he', (Expr.mem_cells_of_unplaced htree).2 hd⟩

theorem dependsOn_eq (room : Nat) : g'.DependsOn room = g.DependsOn room := by
  funext c d
  rw [eq_iff_iff, dependsOn_iff_reads, dependsOn_iff_reads, h.isFormula_eq]
  exact and_congr_right fun _ => ⟨h.symm.reads, h.reads⟩

theorem reachesCycle_iff : g'.ReachesCycle room c ↔ g.ReachesCycle room c := by
  unfold ReachesCycle
  rw [h.dependsOn_eq]

theorem overlong {f : Failure} (hf : g'.Overlong room c f) : g.Overlong room c f := by
  obtain ⟨d, hlead, body', t, hb', hlong, rfl⟩ := hf
  rw [h.dependsOn_eq] at hlead
  rcases h.text d with ⟨hnone, htext⟩ | ⟨body, b', hb, hb'', hrespelled⟩
  · rw [htext, hnone] at hb'
    cases hb'
  · obtain rfl : b' = body' := Option.some.inj (hb''.symm.trans hb')
    exact ⟨d, hlead, body, t, hb, hrespelled.symm.ofBody_error hlong, rfl⟩

/-- **Every cell has the same value.** -/
theorem meaning_eq (room : Nat) (c : Cell) : g'.meaning room c = g.meaning room c := by
  by_cases hcycle : g.ReachesCycle room c
  · rw [meaning_of_reachesCycle hcycle, meaning_of_reachesCycle (h.reachesCycle_iff.2 hcycle)]
  · have hacc := acc_iff_not_reachesCycle.2 hcycle
    induction hacc with
    | intro c _ ih =>
      rw [Grid.meaning_eq hcycle, Grid.meaning_eq (mt h.reachesCycle_iff.1 hcycle)]
      unfold valueFrom
      rcases h.text c with ⟨hb, htext⟩ | ⟨body, body', hb, hb', hrespelled⟩
      · rw [htext, hb]
      · rw [hb, hb']
        simp only
        rw [hrespelled.verdict_eq]
        refine congrArg CellValue.ofVerdict (Formula.verdict_congr fun e he d hd => ?_)
        by_cases hf : CellText.isFormula (g.text d) = true
        · have hdep := (dependsOn_iff hb he).2 ⟨hf, hd⟩
          exact ih d hdep fun hcycle' => hcycle (.of_dependsOn hdep hcycle')
        · have hf' : ¬ CellText.isFormula (g'.text d) = true := by rwa [h.isFormula_eq]
          rw [meaning_of_not_isFormula hf, meaning_of_not_isFormula hf',
            (h.text d).eq_of_not_isFormula hf]

end Respelled

/-- A formula of a grid is replaced by one that is read alike. -/
theorem respelled_set {g : Grid} {c : Cell} {text : String} (hc : c ∈ g.size)
    (h : CellText.Respelled (g.text c) text) : g.Respelled (g.set c text hc) where
  size := rfl
  text d := by
    rw [text_set]
    split
    · subst d
      exact h
    · exact .refl _

end Grid

/-! ## Readings of sheets -/

namespace Sheet

variable {s s' : Sheet} {room : Nat} {c : Cell}

/-- A reading of any cell that reaches neither a cycle nor a row number that cannot be read. -/
theorem Coherent.run_valueAt_eq_meaning (h : s.Coherent room)
    (hreadable : ∀ f, ¬ s.grid.Overlong room c f) (hcycle : ¬ s.grid.ReachesCycle room c) :
    (s.run fun g => g.valueAt room c).1 = .ok (s.grid.meaning room c) := by
  obtain ⟨hr, hv⟩ := h.run (x := fun g => g.valueAt room c) (Grid.valueAt_meets h.sound)
  rcases hrun : (s.run fun g => g.valueAt room c).1 with f | v
  · rw [hrun] at hv
    exact absurd hv (hreadable f)
  · rw [hrun] at hv
    rcases hv with ⟨hf, rfl⟩ | hmemo
    · rw [Grid.meaning_of_not_isFormula hf]
    · rw [(hr.sound.right hmemo).eq_meaning hcycle]
      rfl

/-- **A reading does not depend on how the formulas are spelled**, whatever is known before. -/
theorem Coherent.valueAt_eq_of_respelled (hs : s.Coherent room) (hs' : s'.Coherent room)
    (h : s.grid.Respelled s'.grid) (hreadable : ∀ f, ¬ s.grid.Overlong room c f)
    (hcycle : ¬ s.grid.ReachesCycle room c) :
    (s'.run fun g => g.valueAt room c).1 = (s.run fun g => g.valueAt room c).1 := by
  rw [hs.run_valueAt_eq_meaning hreadable hcycle, ← h.meaning_eq,
    hs'.run_valueAt_eq_meaning (fun f hf => hreadable f (h.overlong hf))
      (mt h.reachesCycle_iff.1 hcycle)]

end Sheet

end Spreadsheet
