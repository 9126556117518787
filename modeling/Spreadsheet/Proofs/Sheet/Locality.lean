import Spreadsheet.Proofs.Sheet.Coherence

/-!
# What a value depends on

The value of a cell depends on the texts of the cells that can be reached from it, along references
to cells of any kind, and on nothing else of the grid.

* `Grid.Reads`: references to cells of any kind; `Grid.transGen_dependsOn`;
* `Grid.Alike`: grids with the same texts on cells that are closed under references;
* **`Grid.Alike.meaning_eq`**: such cells have the same values; `Grid.Alike.overlong`: what cannot
  be read from them is the same.
-/

namespace Spreadsheet

open Formula (CellValue Failure)

namespace Grid

variable {g g' : Grid} {room : Nat} {c d : Cell} {body : String} {e : Formula.Expr}

/-! ## References to cells of any kind -/

/-- A cell reads another one: its formula is accepted and refers to it. -/
def Reads (g : Grid) (room : Nat) (c d : Cell) : Prop :=
  ∃ body e, CellText.body? (g.text c) = some body ∧ Formula.Expr.ofBody room body = .ok e ∧
    d ∈ e.cells

theorem Reads.isFormula (h : g.Reads room c d) : CellText.isFormula (g.text c) = true := by
  obtain ⟨body, -, hb, -⟩ := h
  exact CellText.isFormula_iff.2 ⟨body, hb⟩

theorem reads_iff (hb : CellText.body? (g.text c) = some body)
    (he : Formula.Expr.ofBody room body = .ok e) : g.Reads room c d ↔ d ∈ e.cells := by
  refine ⟨fun ⟨body', e', hb', he', hd⟩ => ?_, fun hd => ⟨body, e, hb, he, hd⟩⟩
  obtain rfl : body = body' := Option.some.inj (hb.symm.trans hb')
  obtain rfl : e = e' := Except.ok.inj (he.symm.trans he')
  exact hd

theorem dependsOn_iff_reads :
    g.DependsOn room c d ↔ CellText.isFormula (g.text d) = true ∧ g.Reads room c d := by
  constructor
  · intro h
    obtain ⟨body, e, hb, he⟩ := h.source
    obtain ⟨hf, hd⟩ := (dependsOn_iff hb he).1 h
    exact ⟨hf, body, e, hb, he, hd⟩
  · rintro ⟨hf, body, e, hb, he, hd⟩
    exact (dependsOn_iff hb he).2 ⟨hf, hd⟩

/-- Cells on the way to a formula cell are formula cells. -/
theorem transGen_dependsOn (h : Relation.TransGen (g.Reads room) c d)
    (hd : CellText.isFormula (g.text d) = true) : Relation.TransGen (g.DependsOn room) c d := by
  induction h with
  | single h => exact .single (dependsOn_iff_reads.2 ⟨hd, h⟩)
  | tail _ h ih => exact (ih h.isFormula).tail (dependsOn_iff_reads.2 ⟨hd, h⟩)

theorem Reads.not_reachesCycle (h : g.Reads room c d) (hc : ¬ g.ReachesCycle room c) :
    ¬ g.ReachesCycle room d := by
  intro hd
  obtain ⟨x, hx, -⟩ := hd.exists_dependsOn
  obtain ⟨body, -, hb, -⟩ := hx.source
  have hf : CellText.isFormula (g.text d) = true := CellText.isFormula_iff.2 ⟨body, hb⟩
  exact hc (.of_dependsOn (dependsOn_iff_reads.2 ⟨hf, h⟩) hd)

/-! ## Grids that are alike on some cells -/

/-- A grid has the texts of another one on cells that read no others. -/
structure Alike (room : Nat) (S : Cell → Prop) (g g' : Grid) : Prop where
  text {c : Cell} : S c → g'.text c = g.text c
  closed {c d : Cell} : S c → g.Reads room c d → S d

variable {S : Cell → Prop}

theorem Alike.reads_iff (h : Alike room S g g') (hc : S c) :
    g'.Reads room c d ↔ g.Reads room c d := by
  unfold Reads
  rw [h.text hc]

theorem Alike.dependsOn_iff (h : Alike room S g g') (hc : S c) :
    g'.DependsOn room c d ↔ g.DependsOn room c d := by
  rw [dependsOn_iff_reads, dependsOn_iff_reads, h.reads_iff hc]
  refine and_congr_left fun hd => ?_
  rw [h.text (h.closed hc hd)]

theorem Alike.not_reachesCycle (h : Alike room S g g') (hc : S c)
    (hcycle : ¬ g.ReachesCycle room c) : ¬ g'.ReachesCycle room c := by
  rw [← acc_iff_not_reachesCycle] at hcycle ⊢
  induction hcycle with
  | intro c _ ih =>
    refine ⟨c, fun d hd => ?_⟩
    have hdep := (h.dependsOn_iff hc).1 hd
    exact ih d hdep (h.closed hc (dependsOn_iff_reads.1 hdep).2)

/-- **Cells that are alike together with all that they read have the same value.** -/
theorem Alike.meaning_eq (h : Alike room S g g') (hc : S c) (hcycle : ¬ g.ReachesCycle room c) :
    g'.meaning room c = g.meaning room c := by
  have hacc := acc_iff_not_reachesCycle.2 hcycle
  induction hacc with
  | intro c _ ih =>
    rw [Grid.meaning_eq hcycle, Grid.meaning_eq (h.not_reachesCycle hc hcycle)]
    unfold valueFrom
    rw [h.text hc]
    cases hb : CellText.body? (g.text c) with
    | none => rfl
    | some body =>
      refine congrArg CellValue.ofVerdict (Formula.verdict_congr fun e he d hd => ?_)
      have hreads : g.Reads room c d := ⟨body, e, hb, he, hd⟩
      have hd' := h.closed hc hreads
      have hcycle' := hreads.not_reachesCycle hcycle
      by_cases hf : CellText.isFormula (g.text d) = true
      · exact ih d (dependsOn_iff_reads.2 ⟨hf, hreads⟩) hd' hcycle'
      · rw [meaning_of_not_isFormula hf, meaning_of_not_isFormula (by rwa [h.text hd']), h.text hd']

theorem Alike.overlong (h : Alike room S g g') (hc : S c) {f : Failure}
    (hf : g'.Overlong room c f) : g.Overlong room c f := by
  obtain ⟨d, hlead, hd⟩ := hf
  induction hlead using Relation.ReflTransGen.head_induction_on with
  | refl =>
    refine ⟨d, .refl, ?_⟩
    unfold Unreadable at hd ⊢
    rwa [h.text hc] at hd
  | head hdep _ ih =>
    have hdep' := (h.dependsOn_iff hc).1 hdep
    obtain ⟨x, hlead, hx⟩ := ih (h.closed hc (dependsOn_iff_reads.1 hdep').2)
    exact ⟨x, .head hdep' hlead, hx⟩

/-- If the formula of a cell can be read, one that cannot is reached through a cell that it
reads. -/
theorem Overlong.exists_mem_cells {f : Failure} (h : g.Overlong room c f)
    (hb : CellText.body? (g.text c) = some body) (he : Formula.Expr.ofBody room body = .ok e) :
    ∃ d ∈ e.cells, g.Overlong room d f := by
  obtain ⟨d, hlead, hd⟩ := h
  rcases Relation.ReflTransGen.cases_head hlead with rfl | ⟨x, hdep, hlead⟩
  · obtain ⟨body', t, hb', hlong, -⟩ := hd
    rw [← Option.some.inj (hb.symm.trans hb'), he] at hlong
    cases hlong
  · exact ⟨x, ((dependsOn_iff hb he).1 hdep).2, d, hlead, hd⟩

end Grid

end Spreadsheet
