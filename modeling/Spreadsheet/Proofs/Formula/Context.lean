import Spreadsheet.Proofs.Formula.Relabel

/-!
# Parts of a tree

A tree with a part of it left out is a context, which any other tree can be put into. What has the
value of the part and needs no more levels of nesting can take its place: the whole has the same
value then, and is accepted and evaluated within the same room.

* `Context`, `Context.fill`;
* `Expr.StandsFor`: a tree that can take the place of another one; `Expr.StandsFor.call` and its
  like: one lemma for every kind of tree; **`Expr.StandsFor.fill`**: in any context;
* `Expr.Includes`: what a tree has of its parts; **`Context.includes`**;
* `Expr.standsFor_of_unplaced`: where the tokens of a tree stand does not matter.
-/

namespace Spreadsheet.Formula

/-! ## Contexts -/

/-- A tree without one of its parts. -/
inductive Context where
  | hole
  | signed (sign : Sign) (operand : Context)
  | left (op : Operator) (left : Context) (right : Expr)
  | right (op : Operator) (left : Expr) (right : Context)
  | argument (name : List Char) (before : List Expr) (arg : Context) (after : List Expr)

/-- The tree with a part put in. -/
def Context.fill : Context → Expr → Expr
  | hole, s => s
  | signed sign C, s => .signed sign (C.fill s)
  | left op C r, s => .binary op (C.fill s) r
  | right op l C, s => .binary op l (C.fill s)
  | argument name before C after, s => .call name (before ++ C.fill s :: after)

/-! ## Taking the place of a part -/

/-- A tree that can take the place of another one, the cells having these values: it has its value,
goes down no deeper, is valid where the other one is, and reads no more cells but a few. -/
structure Expr.StandsFor (ρ : Cell → CellValue) (more : List Cell) (t s : Expr) : Prop where
  denote : t.denote ρ = s.denote ρ
  depth : t.depth ρ ≤ s.depth ρ
  levels : t.levels ≤ s.levels
  valid {isArgument : Bool} : s.Valid isArgument → t.Valid isArgument
  cells {c : Cell} : c ∈ t.cells → c ∈ more ∨ c ∈ s.cells

namespace Expr.StandsFor

variable {ρ : Cell → CellValue} {more : List Cell} {s t u l r l' r' : Expr} {ss ts : List Expr}

theorem refl (ρ : Cell → CellValue) (more : List Cell) (s : Expr) :
    s.StandsFor ρ more s :=
  ⟨rfl, Nat.le_refl _, Nat.le_refl _, id, .inr⟩

theorem trans (h : t.StandsFor ρ [] u) (h' : u.StandsFor ρ more s) : t.StandsFor ρ more s where
  denote := h.denote.trans h'.denote
  depth := Nat.le_trans h.depth h'.depth
  levels := Nat.le_trans h.levels h'.levels
  valid hv := h.valid (h'.valid hv)
  cells hc := h'.cells ((h.cells hc).resolve_left List.not_mem_nil)

theorem signed (sign : Sign) (h : t.StandsFor ρ more s) :
    (Expr.signed sign t).StandsFor ρ more (.signed sign s) where
  denote := by rw [Expr.denote, Expr.denote, h.denote]
  depth := Nat.add_le_add_right h.depth 1
  levels := Nat.add_le_add_right h.levels 1
  valid := h.valid
  cells := h.cells

theorem binary (op : Operator) (hl : l'.StandsFor ρ more l) (hr : r'.StandsFor ρ more r) :
    (Expr.binary op l' r').StandsFor ρ more (.binary op l r) where
  denote := by rw [Expr.denote, Expr.denote, hl.denote, hr.denote]
  depth := by
    have hleft := hl.depth
    have hright := hr.depth
    rw [Expr.depth, Expr.depth, hl.denote]
    split <;> omega
  levels := by
    have hleft := hl.levels
    have hright := hr.levels
    rw [Expr.levels, Expr.levels]
    omega
  valid h := ⟨hl.valid h.1, hr.valid h.2⟩
  cells {c} hc := by
    rw [Expr.cells_binary, List.mem_append] at hc ⊢
    rcases hc with hc | hc
    · exact (hl.cells hc).imp id .inl
    · exact (hr.cells hc).imp id .inr

/-- Arguments that can take the place of others, one by one. -/
theorem call (name : List Char) (h : List.Forall₂ (Expr.StandsFor ρ more) ts ss) :
    (Expr.call name ts).StandsFor ρ more (.call name ss) := by
  have hall : Expr.denoteAll ρ ts = Expr.denoteAll ρ ss ∧
      Expr.depthAll ρ ts ≤ Expr.depthAll ρ ss ∧ Expr.levelsAll ts ≤ Expr.levelsAll ss ∧
      (Expr.AllValid ss → Expr.AllValid ts) ∧
      ∀ c ∈ Expr.cellsAll ts, c ∈ more ∨ c ∈ Expr.cellsAll ss := by
    induction h with
    | nil => exact ⟨rfl, Nat.le_refl _, Nat.le_refl _, id, fun _ => .inr⟩
    | @cons t s ts ss h _ ih =>
      obtain ⟨hdenote, hdepth, hlevels, hvalid, hcells⟩ := ih
      have hfirst := h.depth
      have hfirst' := h.levels
      refine ⟨?_, ?_, ?_, fun hv => ⟨h.valid hv.1, hvalid hv.2⟩, fun c hc => ?_⟩
      · rw [Expr.denoteAll, Expr.denoteAll, h.denote, hdenote]
      · rw [Expr.depthAll, Expr.depthAll]
        omega
      · rw [Expr.levelsAll, Expr.levelsAll]
        omega
      · rw [Expr.cellsAll_cons, List.mem_append] at hc ⊢
        rcases hc with hc | hc
        · exact (h.cells hc).imp id .inl
        · exact (hcells c hc).imp id .inr
  obtain ⟨hdenote, hdepth, hlevels, hvalid, hcells⟩ := hall
  exact {
    denote := by rw [Expr.denote, Expr.denote, hdenote]
    depth := by
      rw [Expr.depth, Expr.depth]
      omega
    levels := Nat.add_le_add_right hlevels 1
    valid := fun hv => ⟨hv.1, hvalid hv.2⟩
    cells := fun hc => hcells _ hc }

/-- **What can take the place of a part** can do so in any context. -/
theorem fill (C : Context) (h : t.StandsFor ρ more s) : (C.fill t).StandsFor ρ more (C.fill s) := by
  induction C with
  | hole => exact h
  | signed sign C ih => exact ih.signed sign
  | left op C r ih => exact ih.binary op (refl ρ more r)
  | right op l C ih => exact (refl ρ more l).binary op ih
  | argument name before C after ih =>
    have hsame (es : List Expr) : List.Forall₂ (Expr.StandsFor ρ more) es es :=
      List.forall₂_same.2 fun e _ => refl ρ more e
    exact call name (List.rel_append (hsame before) (.cons ih (hsame after)))

end Expr.StandsFor

/-! ## What a part is part of -/

/-- What a tree has of another one that it is made of. -/
structure Expr.Includes (e s : Expr) : Prop where
  levels : s.levels ≤ e.levels
  valid {isArgument : Bool} : e.Valid isArgument → ∃ isArgument', s.Valid isArgument'
  cells {c : Cell} : c ∈ s.cells → c ∈ e.cells

theorem Expr.Includes.argument {name : List Char} {args : List Expr} {e s : Expr} (he : e ∈ args)
    (h : e.Includes s) : (Expr.call name args).Includes s := by
  have hall : e.levels ≤ Expr.levelsAll args ∧ (Expr.AllValid args → e.Valid true) ∧
      ∀ c ∈ e.cells, c ∈ Expr.cellsAll args := by
    induction args with
    | nil => cases he
    | cons first args ih =>
      simp only [Expr.levelsAll, Expr.AllValid, Expr.cellsAll_cons, List.mem_append]
      rcases List.mem_cons.1 he with rfl | he
      · exact ⟨Nat.le_max_left _ _, And.left, fun _ => .inl⟩
      · obtain ⟨hlevels, hvalid, hcells⟩ := ih he
        exact ⟨by omega, fun hv => hvalid hv.2, fun c hc => .inr (hcells c hc)⟩
  obtain ⟨hlevels, hvalid, hcells⟩ := hall
  exact {
    levels := by
      have hpart := h.levels
      rw [Expr.levels]
      omega
    valid := fun hv => h.valid (hvalid hv.2)
    cells := fun hc => hcells _ (h.cells hc) }

/-- **A tree includes its parts.** -/
theorem Context.includes (C : Context) (s : Expr) : (C.fill s).Includes s := by
  induction C with
  | hole => exact ⟨Nat.le_refl _, fun hv => ⟨_, hv⟩, id⟩
  | signed sign C ih => exact ⟨Nat.le_succ_of_le ih.levels, ih.valid, ih.cells⟩
  | left op C r ih =>
    refine ⟨?_, fun hv => ih.valid hv.1, fun hc => ?_⟩
    · have hpart := ih.levels
      rw [fill, Expr.levels]
      omega
    · rw [fill, Expr.cells_binary]
      exact List.mem_append_left _ (ih.cells hc)
  | right op l C ih =>
    refine ⟨?_, fun hv => ih.valid hv.2, fun hc => ?_⟩
    · have hpart := ih.levels
      rw [fill, Expr.levels]
      omega
    · rw [fill, Expr.cells_binary]
      exact List.mem_append_right _ (ih.cells hc)
  | argument name before C after ih =>
    exact Expr.Includes.argument (List.mem_append_right _ List.mem_cons_self) ih

/-- A tree that is no range. -/
def Expr.IsScalar : Expr → Prop
  | .range .. => False
  | _ => True

theorem Expr.IsScalar.valid {s : Expr} (h : s.IsScalar) {isArgument : Bool}
    (hv : s.Valid isArgument) : s.Valid false := by
  cases s with
  | range => cases h
  | number | cell | signed | binary | call => exact hv

theorem Expr.IsScalar.denote {s : Expr} (h : s.IsScalar) (ρ : Cell → CellValue) :
    s.denote ρ = .number (s.denote ρ).single := by
  cases s with
  | range => cases h
  | number | cell | signed | binary | call => rfl

/-! ## Places -/

mutual

/-- Where the tokens of a tree stand does not matter. -/
theorem Expr.standsFor_unplaced (ρ : Cell → CellValue) : ∀ e : Expr,
    e.unplaced.StandsFor ρ [] e ∧ e.StandsFor ρ [] e.unplaced
  | .number n => ⟨.refl ρ [] (.number n), .refl ρ [] (.number n)⟩
  | .cell _ _ => ⟨⟨rfl, Nat.le_refl _, Nat.le_refl _, id, .inr⟩,
      rfl, Nat.le_refl _, Nat.le_refl _, id, .inr⟩
  | .range _ _ _ => ⟨⟨rfl, Nat.le_refl _, Nat.le_refl _, id, .inr⟩,
      rfl, Nat.le_refl _, Nat.le_refl _, id, .inr⟩
  | .signed sign e =>
    have he := Expr.standsFor_unplaced ρ e
    ⟨he.1.signed sign, he.2.signed sign⟩
  | .binary op l r =>
    have hl := Expr.standsFor_unplaced ρ l
    have hr := Expr.standsFor_unplaced ρ r
    ⟨hl.1.binary op hr.1, hl.2.binary op hr.2⟩
  | .call name args =>
    have hargs := Expr.standsForAll_unplaced ρ args
    ⟨.call name hargs.1, .call name hargs.2⟩

theorem Expr.standsForAll_unplaced (ρ : Cell → CellValue) : ∀ es : List Expr,
    List.Forall₂ (Expr.StandsFor ρ []) (Expr.relabelAll id (fun _ => 0) es) es ∧
      List.Forall₂ (Expr.StandsFor ρ []) es (Expr.relabelAll id (fun _ => 0) es)
  | [] => ⟨.nil, .nil⟩
  | e :: es =>
    have he := Expr.standsFor_unplaced ρ e
    have hes := Expr.standsForAll_unplaced ρ es
    ⟨.cons he.1 hes.1, .cons he.2 hes.2⟩

end

/-- Trees that differ in the places of their tokens only can take each other's place. -/
theorem Expr.standsFor_of_unplaced {s t : Expr} (ρ : Cell → CellValue)
    (h : t.unplaced = s.unplaced) : t.StandsFor ρ [] s := by
  have ht := (Expr.standsFor_unplaced ρ t).2
  rw [h] at ht
  exact ht.trans (Expr.standsFor_unplaced ρ s).1

end Spreadsheet.Formula
