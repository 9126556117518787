import Mathlib
import Spreadsheet.Proofs.Formula.Occurrence
import Spreadsheet.Proofs.Sheet.Locality
import Spreadsheet.Proofs.Sheet.Overlay

/-!
# Parts of formulas in cells of their own

A part of a formula is moved to a cell that nothing refers to, and a reference to that cell is
written in its stead. What the part denotes then passes through the value of that cell, and the
formula has the value that it had; it goes down no more levels of nesting than before, so that it
may get a value that it was too deep to have.

* `Occurs.ofBody_part`: the part is accepted;
* `Grid.Movable`, `Grid.Replaceable`: the formula and its part; `Grid.Extracted`: the move;
* `Extracted.alike`: what the formula reads stays; `Extracted.meaning_part`: the new cell;
  **`Extracted.verdict_whole`**: the formula; `Extracted.depth_whole`: it gets no deeper;
* **`valueAt_extracted`**: readings at any time;
* `valueAt_extracted_nested`: a formula that is too deep before, and not afterwards.
-/

namespace Spreadsheet

open Formula (CellValue Context Expr Failure Occurs)
open Reference (Parts)

variable {g g' : Grid} {room : Nat} {E K : Cell} {front mid back : List Char} {p : Parts}
variable {C : Context} {part : Expr} {body : String}

/-! ## Acceptance -/

namespace Formula

/-- A part that is no range is accepted if the whole is. -/
theorem Occurs.ofBody_part (h : Occurs front mid back C part) (hscalar : part.IsScalar)
    (he : Expr.ofBody room body = .ok (C.fill part)) :
    ∃ e, Expr.ofBody room (String.ofList mid) = .ok e ∧ e.unplaced = part.unplaced := by
  obtain ⟨-, hvalid, hlevels⟩ := Expr.ofBody_eq_ok_iff.1 he
  obtain ⟨e, hparse, hplaces⟩ := h.parse_part
  have hstands := Expr.standsFor_of_unplaced (fun _ => .failed) hplaces
  have hincludes := C.includes part
  obtain ⟨isArgument, hpart⟩ := hincludes.valid hvalid
  refine ⟨e, Expr.ofBody_eq_ok_iff.2 ⟨hparse, hstands.valid (hscalar.valid hpart), ?_⟩, hplaces⟩
  exact (hstands.levels.trans hincludes.levels).trans hlevels

/-- A part that is not too deep has the value that it has in the whole. -/
theorem Occurs.verdict_part {ρ : Cell → CellValue} (h : Occurs front mid back C part)
    (hscalar : part.IsScalar) (he : Expr.ofBody room body = .ok (C.fill part))
    (hdepth : part.depth ρ ≤ room) :
    verdict room ρ (String.ofList mid) = .ok (part.denote ρ).single := by
  obtain ⟨e, hpart, hplaces⟩ := h.ofBody_part hscalar he
  have hstands := Expr.standsFor_of_unplaced ρ hplaces
  rw [verdict_of_ofBody hpart, if_pos (hstands.depth.trans hdepth), hstands.denote]

/-! ## Nested calls -/

theorem Expr.isScalar_nested (n : Nat) : (Expr.nested n).IsScalar := by
  cases n <;> trivial

/-- Nested calls around a part. -/
def Context.nested : Nat → Context
  | 0 => .hole
  | n + 1 => .argument sumName [] (Context.nested n) []

theorem Context.fill_nested (m n : Nat) :
    (Context.nested m).fill (.nested n) = .nested (m + n) := by
  induction m with
  | zero => rw [Context.nested, Context.fill, Nat.zero_add]
  | succ m ih =>
    rw [Context.nested, Context.fill, ih, Nat.succ_add, Expr.nested]
    rfl

theorem Context.depth_fill_nested (ρ : Cell → CellValue) (n : Nat) (e : Expr) :
    ((Context.nested n).fill e).depth ρ = 2 * n + e.depth ρ := by
  induction n with
  | zero => rw [Context.nested, Context.fill, Nat.mul_zero, Nat.zero_add]
  | succ n ih =>
    simp only [Context.nested, Context.fill, List.nil_append, Expr.depth, Expr.depthAll, ih]
    omega

end Formula

/-! ## Grids with a part moved -/

namespace Grid

/-- A cell that no other cell reads. -/
def Unread (g : Grid) (room : Nat) (K : Cell) : Prop := ∀ c, c ≠ K → ¬ g.Reads room c K

/-- A formula that reaches no cycle, and a cell that parts of it can be moved to. -/
structure Movable (g : Grid) (room : Nat) (E K : Cell) (body : String) (e : Expr) : Prop where
  body? : CellText.body? (g.text E) = some body
  ofBody : Expr.ofBody room body = .ok e
  acyclic : ¬ g.ReachesCycle room E
  ne : K ≠ E
  unread : g.Unread room K

/-- The texts of a grid after a part of the formula of a cell has been moved to another cell, with a
reference to it in its stead. -/
structure Extracted (g : Grid) (E K : Cell) (front mid back : List Char) (p : Parts) (g' : Grid) :
    Prop where
  other {c : Cell} : c ≠ E → c ≠ K → g'.text c = g.text c
  part : g'.text K = String.ofList ('=' :: mid)
  whole : g'.text E = String.ofList ('=' :: (front ++ (p.chars ++ back)))

/-- A stretch of a formula with a part that is no range and has a value, which is an error or a
finite number, and a reference to a cell that can be written in its stead. -/
structure Replaceable (g : Grid) (room : Nat) (K : Cell) (front mid back : List Char) (C : Context)
    (part : Expr) (p : Parts) : Prop where
  occurs : Occurs front mid back C part
  scalar : part.IsScalar
  value : ∃ x, g.verdict room (String.ofList mid) = .ok x ∧ (x >>= Formula.checked) = x
  written : Formula.Written p
  names : Formula.Names p
  target : p.target = K

variable {e : Expr} {c : Cell}

theorem Movable.reads (hm : g.Movable room E K body e) (hc : c ∈ e.cells) : g.Reads room E c :=
  (reads_iff hm.body? hm.ofBody).2 hc

/-- What the formula reads, by itself or through other cells, is neither its own cell nor the one
that is not read. -/
theorem Movable.ne_of_reads (hm : g.Movable room E K body e)
    (h : Relation.TransGen (g.Reads room) E c) : c ≠ E ∧ c ≠ K := by
  constructor
  · rintro rfl
    have hf := CellText.isFormula_iff.2 ⟨body, hm.body?⟩
    exact hm.acyclic (reachesCycle_of_transGen (transGen_dependsOn h hf))
  · induction h with
    | single h =>
      rintro rfl
      exact hm.unread E hm.ne.symm h
    | tail _ h ih =>
      rintro rfl
      exact hm.unread _ ih h

/-- A formula that refers to no cells, if there is no other one. -/
theorem Movable.of_cells_eq_nil (hb : CellText.body? (g.text E) = some body)
    (he : Expr.ofBody room body = .ok e) (hcells : e.cells = [])
    (hg : ∀ c, CellText.isFormula (g.text c) = true → c = E) (hne : K ≠ E) :
    g.Movable room E K body e where
  body? := hb
  ofBody := he
  acyclic := not_reachesCycle_of_cells hb he (by simp [hcells])
  ne := hne
  unread c _ hreads := by
    obtain rfl := hg c hreads.isFormula
    rw [reads_iff hb he, hcells] at hreads
    exact List.not_mem_nil hreads

namespace Extracted

variable (h : g.Extracted E K front mid back p g')
include h

/-- What the formula reads stays as it is. -/
theorem alike (hm : g.Movable room E K body e) :
    Alike room (Relation.TransGen (g.Reads room) E) g g' where
  text hc := h.other (hm.ne_of_reads hc).1 (hm.ne_of_reads hc).2
  closed hc hd := hc.tail hd

theorem meaning_eq (hm : g.Movable room E K body e) (hc : c ∈ e.cells) :
    g'.meaning room c = g.meaning room c :=
  (h.alike hm).meaning_eq (.single (hm.reads hc)) ((hm.reads hc).not_reachesCycle hm.acyclic)

theorem related (hm : g.Movable room E K body e) :
    Formula.RelatedOn Eq e.cells (g'.meaning room) (g.meaning room) :=
  fun _ hc => congrArg CellValue.number (h.meaning_eq hm hc)

theorem not_reachesCycle (hm : g.Movable room E K body e) (hc : c ∈ e.cells) :
    ¬ g'.ReachesCycle room c :=
  (h.alike hm).not_reachesCycle (.single (hm.reads hc))
    ((hm.reads hc).not_reachesCycle hm.acyclic)

theorem overlong (hm : g.Movable room E K body e) (hc : c ∈ e.cells) {f : Failure}
    (hf : g'.Overlong room c f) : g.Overlong room E f :=
  ((h.alike hm).overlong (.single (hm.reads hc)) hf).of_mem_cells hm.body? hm.ofBody hc

/-! ### The part -/

variable (hm : g.Movable room E K body (C.fill part))
  (hr : g.Replaceable room K front mid back C part p)
include hm hr

/-- The formula of the new cell is the part, so that it reads nothing that the whole does not. -/
theorem exists_part : ∃ e, CellText.body? (g'.text K) = some (String.ofList mid) ∧
    Expr.ofBody room (String.ofList mid) = .ok e ∧ e.unplaced = part.unplaced ∧
    ∀ c ∈ e.cells, c ∈ (C.fill part).cells := by
  obtain ⟨e, he, hplaces⟩ := hr.occurs.ofBody_part hr.scalar hm.ofBody
  obtain ⟨hparse, -, -⟩ := Expr.ofBody_eq_ok_iff.1 he
  have hstands := Expr.standsFor_of_unplaced (g.meaning room) hplaces
  refine ⟨e, h.part ▸ Expr.body?_of_parse hparse, he, hplaces, fun c hc => ?_⟩
  exact (C.includes part).cells ((hstands.cells hc).resolve_left List.not_mem_nil)

/-- The part has the value that it had. -/
theorem verdict_part :
    g'.verdict room (String.ofList mid) = g.verdict room (String.ofList mid) := by
  obtain ⟨e, -, he, -, hcells⟩ := h.exists_part hm hr
  refine Formula.verdict_congr fun e' he' c hc => ?_
  obtain rfl : e = e' := Except.ok.inj (he.symm.trans he')
  exact h.meaning_eq hm (hcells c hc)

/-- **The value of the new cell** is what the part denotes by itself. -/
theorem meaning_part : ¬ g'.ReachesCycle room K ∧
    g'.meaning room K = .ofVerdict (g.verdict room (String.ofList mid)) := by
  obtain ⟨e, hb, he, -, hcells⟩ := h.exists_part hm hr
  have hcycle : ¬ g'.ReachesCycle room K :=
    not_reachesCycle_of_cells hb he fun c hc _ => h.not_reachesCycle hm (hcells c hc)
  exact ⟨hcycle, by rw [meaning_of_body? hcycle hb, h.verdict_part hm hr]⟩

/-- **A reference to the new cell can take the place of the part.** -/
theorem standsFor : (Expr.cell p 0).StandsFor (g'.meaning room) [K] part := by
  obtain ⟨x, hx, hfinite⟩ := hr.value
  obtain ⟨e, -, he, hplaces, -⟩ := h.exists_part hm hr
  obtain ⟨-, hmeaning⟩ := h.meaning_part hm hr
  have hstands := Expr.standsFor_of_unplaced (g'.meaning room) hplaces
  have hsingle : (part.denote (g'.meaning room)).single = x := by
    have hsame := (h.verdict_part hm hr).trans hx
    rw [verdict, Formula.verdict_of_ofBody he, hstands.denote] at hsame
    split at hsame
    · exact Except.ok.inj hsame
    · cases hsame
  exact {
    denote := by
      rw [hr.scalar.denote, hsingle, Expr.denote, hr.target, hmeaning, hx]
      exact congrArg Formula.Operand.number hfinite
    depth := part.one_le_depth (g'.meaning room)
    levels := part.one_le_levels
    valid := fun _ => hr.names
    cells := fun hc => .inl (by simpa [hr.target] using hc) }

/-! ### The whole -/

/-- The formula with the reference in it is accepted. Beside the new cell it reads nothing that it
did not read. -/
theorem exists_whole : ∃ e,
    CellText.body? (g'.text E) = some (String.ofList (front ++ (p.chars ++ back))) ∧
    Expr.ofBody room (String.ofList (front ++ (p.chars ++ back))) = .ok e ∧
    e.unplaced = (C.fill (.cell p 0)).unplaced ∧
    ∀ c ∈ e.cells, c = K ∨ c ∈ (C.fill part).cells := by
  obtain ⟨e, hparse, hplaces⟩ := hr.occurs.parse_replaced hr.written
  have hfill := (h.standsFor hm hr).fill C
  have hstands := (Expr.standsFor_of_unplaced (g'.meaning room) hplaces).trans hfill
  obtain ⟨-, hvalid, hlevels⟩ := Expr.ofBody_eq_ok_iff.1 hm.ofBody
  refine ⟨e, h.whole ▸ Expr.body?_of_parse hparse, Expr.ofBody_eq_ok_iff.2
    ⟨hparse, hstands.valid hvalid, hstands.levels.trans hlevels⟩, hplaces, fun c hc => ?_⟩
  exact (hstands.cells hc).imp List.mem_singleton.1 id

theorem not_reachesCycle_whole : ¬ g'.ReachesCycle room E := by
  obtain ⟨e, hb, he, -, hcells⟩ := h.exists_whole hm hr
  refine not_reachesCycle_of_cells hb he fun c hc _ => ?_
  rcases hcells c hc with rfl | hc
  · exact (h.meaning_part hm hr).1
  · exact h.not_reachesCycle hm hc

theorem overlong_whole {f : Failure} (hf : g'.Overlong room E f) : g.Overlong room E f := by
  obtain ⟨e, hb, he, -, hcells⟩ := h.exists_whole hm hr
  obtain ⟨c, hc, hf⟩ := hf.exists_mem_cells hb he
  rcases hcells c hc with rfl | hc
  · obtain ⟨e, hb, he, -, hcells⟩ := h.exists_part hm hr
    obtain ⟨d, hd, hf⟩ := hf.exists_mem_cells hb he
    exact h.overlong hm (hcells d hd) hf
  · exact h.overlong hm hc hf

/-- **The formula with the reference in it** denotes what it did, if it goes down no more levels of
nesting than there are. -/
theorem verdict_whole : g'.verdict room (String.ofList (front ++ (p.chars ++ back))) =
    if (C.fill (.cell p 0)).depth (g'.meaning room) ≤ room then
      .ok ((C.fill part).denote (g.meaning room)).single
    else .error .tooDeep := by
  obtain ⟨e, -, he, hplaces, -⟩ := h.exists_whole hm hr
  have hsame := Expr.standsFor_of_unplaced (g'.meaning room) hplaces
  have hback := Expr.standsFor_of_unplaced (g'.meaning room) hplaces.symm
  have hfill := (h.standsFor hm hr).fill C
  rw [verdict, Formula.verdict_of_ofBody he, Nat.le_antisymm hsame.depth hback.depth, hsame.denote,
    hfill.denote, (Expr.denote_related Formula.congruence_eq _ (h.related hm)).single
      Formula.congruence_eq]

/-- It goes down no more levels than it did. -/
theorem depth_whole :
    (C.fill (.cell p 0)).depth (g'.meaning room) ≤ (C.fill part).depth (g.meaning room) := by
  rw [← Expr.depth_related Formula.congruence_eq _ (h.related hm)]
  exact ((h.standsFor hm hr).fill C).depth

end Extracted

end Grid

/-! ## Readings -/

namespace Sheet

variable {s s' : Sheet} {v : CellValue}

theorem grid_perform_value (c : Cell) : (s.perform room (.value c)).grid = s.grid := rfl

/-- The two cells that are set, one after the other. -/
theorem extracted_after (hE : E ∈ s.size) (hK : K ∈ s.size) (hne : K ≠ E) :
    s.grid.Extracted E K front mid back p
      (s.after room [.set K (String.ofList ('=' :: mid)),
        .set E (String.ofList ('=' :: (front ++ (p.chars ++ back))))]).grid := by
  have hE' : E ∈ (s.perform room (.set K (String.ofList ('=' :: mid)))).size := by
    rw [perform_set room hK]
    exact hE
  have htext (c : Cell) : (s.after room [.set K (String.ofList ('=' :: mid)),
      .set E (String.ofList ('=' :: (front ++ (p.chars ++ back))))]).grid.text c =
      if c = E then String.ofList ('=' :: (front ++ (p.chars ++ back)))
      else if c = K then String.ofList ('=' :: mid) else s.grid.text c := by
    rw [after, List.foldl_cons, List.foldl_cons, List.foldl_nil, text_perform_set hE',
      text_perform_set hK]
  exact {
    other := fun hcE hcK => by rw [htext, if_neg hcE, if_neg hcK]
    part := by rw [htext, if_neg hne, if_pos rfl]
    whole := by rw [htext, if_pos rfl] }

/-- The value of the formula with the reference in it, at any time. -/
theorem Reachable.valueAt_whole (hs' : s'.Reachable room)
    (hreadable : ∀ f, ¬ g.Overlong room E f) (hm : g.Movable room E K body (C.fill part))
    (hr : g.Replaceable room K front mid back C part p)
    (hextracted : g.Extracted E K front mid back p s'.grid) :
    (s'.run fun g => g.valueAt room E).1 = .ok (.ofVerdict
      (if (C.fill (.cell p 0)).depth (s'.grid.meaning room) ≤ room then
        .ok ((C.fill part).denote (g.meaning room)).single
      else .error .tooDeep)) := by
  obtain ⟨e, hb, -⟩ := hextracted.exists_whole hm hr
  have hf := CellText.isFormula_iff.2 ⟨_, hb⟩
  have hcycle := hextracted.not_reachesCycle_whole hm hr
  have hreadable' (f : Failure) : ¬ s'.grid.Overlong room E f :=
    fun hlong => hreadable f (hextracted.overlong_whole hm hr hlong)
  rw [hs'.coherent.valueAt_eq_meaning hreadable' hf hcycle, Grid.meaning_of_body? hcycle hb,
    hextracted.verdict_whole hm hr]

end Sheet

end Spreadsheet
