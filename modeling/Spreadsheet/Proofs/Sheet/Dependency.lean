import Mathlib.Data.Fintype.Defs
import Mathlib.Data.Set.Finite.List
import Mathlib.Logic.Relation
import Mathlib.Order.WellFoundedSet
import Spreadsheet.Proofs.Formula.Validity
import Spreadsheet.Sheet.Evaluation

/-!
# The graph of references

A formula cell depends on the formula cells of the grid that its formula reads. Values can be
computed along this graph from any cell from which no cycle can be reached.

* `Grid.DependsOn`, `Grid.ReachesCycle`; `dependsOn_iff`: the dependencies of an accepted formula;
* **`acc_iff_not_reachesCycle`**: such cells are those from which every path of references ends.
-/

namespace Spreadsheet

/-! ## Cells of a grid -/

theorem Size.mem_toList {s : Size} {c : Cell} : c ∈ s.toList ↔ c ∈ s := by
  simp only [Size.toList, List.mem_flatMap, List.mem_map, List.mem_range, Size.mem_iff]
  constructor
  · rintro ⟨r, hr, k, hk, rfl⟩
    dsimp only
    omega
  · rintro ⟨h1, h2, h3, h4⟩
    refine ⟨c.row.toNat, by omega, c.col.toNat, by omega, ?_⟩
    obtain ⟨r, k⟩ := c
    dsimp only at *
    congr 1 <;> omega

namespace CellText

theorem isFormula_iff {text : String} : isFormula text = true ↔ ∃ body, body? text = some body :=
  Option.isSome_iff_exists

theorem body?_eq_none {text : String} (h : ¬ isFormula text = true) : body? text = none := by
  simpa [isFormula] using h

end CellText

namespace Grid

variable {g : Grid} {room : Nat} {c d : Cell} {body : String}

theorem mem_of_isFormula (h : CellText.isFormula (g.text c) = true) : c ∈ g.size := by
  by_contra hc
  rw [text_of_not_mem hc, CellText.isFormula_empty] at h
  cases h

theorem mem_of_body? (h : CellText.body? (g.text c) = some body) : c ∈ g.size :=
  mem_of_isFormula (CellText.isFormula_iff.2 ⟨body, h⟩)

/-! ## Dependencies -/

/-- A cell depends on a formula cell of the grid that lies in a rectangle which its formula refers
to. A formula that is rejected refers to nothing. -/
def DependsOn (g : Grid) (room : Nat) (c d : Cell) : Prop :=
  d ∈ g.size ∧ CellText.isFormula (g.text d) = true ∧
    ∃ body e refs, CellText.body? (g.text c) = some body ∧ Formula.Expr.ofBody room body = .ok e ∧
      e.references = .ok refs ∧ ∃ p ∈ refs, d ∈ Formula.rectangle p.1.cell p.2.cell

/-- From a cell a cycle of dependencies can be reached. -/
def ReachesCycle (g : Grid) (room : Nat) (c : Cell) : Prop :=
  ∃ d, Relation.ReflTransGen (g.DependsOn room) c d ∧ Relation.TransGen (g.DependsOn room) d d

theorem dependsOn_iff {e : Formula.Expr} (hb : CellText.body? (g.text c) = some body)
    (he : Formula.Expr.ofBody room body = .ok e) :
    g.DependsOn room c d ↔ CellText.isFormula (g.text d) = true ∧ d ∈ e.cells := by
  obtain ⟨refs, hrefs, hcells⟩ := Formula.Expr.references_of_valid (Formula.Expr.valid_of_ofBody he)
  constructor
  · rintro ⟨_, hf, body', e', refs', hb', he', hr', p, hp, hd⟩
    obtain rfl : body = body' := Option.some.inj (hb.symm.trans hb')
    obtain rfl : e = e' := Except.ok.inj (he.symm.trans he')
    obtain rfl : refs = refs' := Except.ok.inj (hrefs.symm.trans hr')
    exact ⟨hf, hcells ▸ List.mem_flatMap.2 ⟨p, hp, hd⟩⟩
  · rintro ⟨hf, hd⟩
    rw [← hcells, List.mem_flatMap] at hd
    exact ⟨mem_of_isFormula hf, hf, body, e, refs, hb, he, hrefs, hd⟩

theorem DependsOn.isFormula (h : g.DependsOn room c d) : CellText.isFormula (g.text d) = true :=
  h.2.1

theorem DependsOn.source (h : g.DependsOn room c d) : ∃ body e,
    CellText.body? (g.text c) = some body ∧ Formula.Expr.ofBody room body = .ok e := by
  obtain ⟨_, _, body, e, _, hb, he, _⟩ := h
  exact ⟨body, e, hb, he⟩

theorem not_dependsOn (h : ¬ CellText.isFormula (g.text c) = true) : ¬ g.DependsOn room c d :=
  fun hd => by
    obtain ⟨body, _, hb, _⟩ := hd.source
    exact h (CellText.isFormula_iff.2 ⟨body, hb⟩)

/-! ## Cycles -/

theorem ReachesCycle.of_dependsOn (h : g.DependsOn room c d) (hd : g.ReachesCycle room d) :
    g.ReachesCycle room c := by
  obtain ⟨e, he, hc⟩ := hd
  exact ⟨e, .head h he, hc⟩

/-- A cell reaches a cycle only through one that it depends on. -/
theorem ReachesCycle.exists_dependsOn (h : g.ReachesCycle room c) :
    ∃ d, g.DependsOn room c d ∧ g.ReachesCycle room d := by
  obtain ⟨e, he, hc⟩ := h
  rcases Relation.ReflTransGen.cases_head he with rfl | ⟨d, hd, hde⟩
  · obtain ⟨d, hd, hdc⟩ := Relation.TransGen.head'_iff.1 hc
    exact ⟨d, hd, c, hdc, hc⟩
  · exact ⟨d, hd, e, hde, hc⟩

theorem reachesCycle_of_transGen (h : Relation.TransGen (g.DependsOn room) c c) :
    g.ReachesCycle room c := ⟨c, .refl, h⟩

theorem not_reachesCycle_of_not_isFormula (h : ¬ CellText.isFormula (g.text c) = true) :
    ¬ g.ReachesCycle room c := fun hc => by
  obtain ⟨d, hd, _⟩ := hc.exists_dependsOn
  exact not_dependsOn h hd

/-- A cell reaches no cycle if no formula cell that its formula reads does. -/
theorem not_reachesCycle_of_cells {e : Formula.Expr} (hb : CellText.body? (g.text c) = some body)
    (he : Formula.Expr.ofBody room body = .ok e)
    (h : ∀ d ∈ e.cells, CellText.isFormula (g.text d) = true → ¬ g.ReachesCycle room d) :
    ¬ g.ReachesCycle room c := by
  intro hc
  obtain ⟨d, hd, hdc⟩ := hc.exists_dependsOn
  obtain ⟨hf, hmem⟩ := (dependsOn_iff hb he).1 hd
  exact h d hmem hf hdc

/-- The cells that can be reached from a cell are finitely many. -/
theorem finite_reachable (g : Grid) (room : Nat) (c : Cell) :
    {d | Relation.ReflTransGen (g.DependsOn room) c d}.Finite := by
  refine (List.finite_toSet (c :: g.size.toList)).subset fun d hd => ?_
  rcases Relation.ReflTransGen.cases_tail hd with rfl | ⟨e, _, he⟩
  · exact List.mem_cons_self
  · exact List.mem_cons_of_mem _ (Size.mem_toList.2 he.1)

/-- **No cycle can be reached from a cell exactly if every path of references from it ends.** -/
theorem acc_iff_not_reachesCycle :
    Acc (fun d c => g.DependsOn room c d) c ↔ ¬ g.ReachesCycle room c := by
  constructor
  · intro h
    induction h with
    | intro c _ ih =>
      intro hc
      obtain ⟨d, hd, hdc⟩ := hc.exists_dependsOn
      exact ih d hd hdc
  · -- on the cells that can be reached, finitely many, to lead to a cell is a strict order
    intro h
    let S := {d // Relation.ReflTransGen (g.DependsOn room) c d}
    have : Finite S := g.finite_reachable room c
    let below : S → S → Prop := fun a b => Relation.TransGen (g.DependsOn room) b.1 a.1
    have : IsTrans S below := ⟨fun _ _ _ hab hbc => hbc.trans hab⟩
    have : Std.Irrefl below := ⟨fun a ha => h ⟨a.1, a.2, ha⟩⟩
    have hwf : WellFounded below := Finite.wellFounded_of_trans_of_irrefl below
    have hacc : ∀ s : S, Acc (fun d c => g.DependsOn room c d) s.1 := by
      intro s
      induction s using hwf.induction with
      | _ s ih => exact ⟨_, fun d hd => ih ⟨d, s.2.tail hd⟩ (.single hd)⟩
    exact hacc ⟨c, .refl⟩

end Grid

end Spreadsheet
