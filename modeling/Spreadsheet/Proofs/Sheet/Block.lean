import Mathlib.Data.List.Nodup
import Spreadsheet.Proofs.Clipboard
import Spreadsheet.Proofs.Formula.Composition
import Spreadsheet.Proofs.Sheet.Paste
import Spreadsheet.Proofs.Sheet.Scan

/-!
# What a paste writes

The cells of a block are different ones, so that no entry is written over another. A paste whose
texts can all be shifted writes each entry that lies on the sheet into its cell and nothing
anywhere else.

* `Formula.Translatable`: texts whose row numbers can be read, and written when they are shifted;
* `Clipboard.entryOn?`: the entry of a block that lies on a cell; `Clipboard.mem_cells`,
  `Clipboard.nodup_cells`: the entries and their cells;
* `Sheet.Writes`: what becomes of a sheet; `Writes.put`, `Writes.skip`: one entry;
  **`Sheet.run_write`**: all of them;
* **`Sheet.exists_paste`**, `Sheet.paste_block`: a whole block.
-/

namespace Spreadsheet

/-! ## Texts that can be shifted -/

namespace Formula

open Reference (Parts)

variable {d : Offset} {p : Parts} {text : String}

/-- Every row number of a formula can be read, and the one it is shifted to can be written. -/
def Translatable (d : Offset) (text : String) : Prop :=
  ∀ body, text.toList = '=' :: body → ∀ piece ∈ pieces body, ∀ p ∈ piece.references,
    Short p ∧ StaysShort d p

/-- A text that does not start as formulas do stays as it is. -/
theorem Translatable.of_head (h : text.toList.head? ≠ some '=') : Translatable d text := by
  intro body htext
  rw [htext] at h
  exact absurd rfl h

theorem Translatable.of_body {body : List Char} (htext : text.toList = '=' :: body)
    (h : ∀ piece ∈ pieces body, ∀ p ∈ piece.references, Short p ∧ StaysShort d p) :
    Translatable d text := by
  intro body' htext'
  obtain ⟨-, rfl⟩ := List.cons.inj (htext.symm.trans htext')
  exact h

theorem exists_shiftParts (hshort : Short p) (hstays : StaysShort d p) :
    ∃ out, shiftParts d p = .ok out := by
  by_cases hnames : Names p
  · by_cases hstay : Stays d p
    · exact ⟨_, shiftParts_of_stays hstay hstays⟩
    · exact ⟨_, shiftParts_of_lost hnames hstay⟩
  · have hshiftable : Shiftable d p := ⟨hshort, hstays, fun hn => absurd hn hnames⟩
    exact ⟨_, hshiftable.shiftParts⟩

theorem Piece.exists_shift {piece : Piece}
    (h : ∀ p ∈ piece.references, Short p ∧ StaysShort d p) : ∃ out, piece.shift d = .ok out := by
  cases piece with
  | cell p =>
    obtain ⟨hshort, hstays⟩ := h p List.mem_cons_self
    exact exists_shiftParts hshort hstays
  | range first last =>
    obtain ⟨hfirst, hfirst'⟩ := h first List.mem_cons_self
    obtain ⟨hlast, hlast'⟩ := h last (List.mem_cons_of_mem _ List.mem_cons_self)
    obtain ⟨out, hout⟩ := exists_shiftParts hfirst hfirst'
    obtain ⟨out', hout'⟩ := exists_shiftParts hlast hlast'
    exact ⟨out ++ ':' :: out', by rw [Piece.shift, hout, hout']; rfl⟩
  | other c => exact ⟨[c], rfl⟩

theorem exists_mapM {α β ε : Type} {f : α → Except ε β} {as : List α}
    (h : ∀ a ∈ as, ∃ b, f a = .ok b) : ∃ bs, as.mapM f = .ok bs := by
  induction as with
  | nil => exact ⟨[], rfl⟩
  | cons a as ih =>
    obtain ⟨ha, has⟩ := List.forall_mem_cons.1 h
    obtain ⟨b, hb⟩ := ha
    obtain ⟨bs, hbs⟩ := ih has
    exact ⟨b :: bs, by rw [List.mapM_cons, hb, hbs]; rfl⟩

theorem Translatable.exists_translate (h : Translatable d text) :
    ∃ t, translate d text = .ok t := by
  unfold translate
  split
  · rename_i body htext
    obtain ⟨outs, houts⟩ := exists_mapM fun piece hpiece =>
      Piece.exists_shift (h body htext piece hpiece)
    refine ⟨"=" ++ String.ofList outs.flatten, ?_⟩
    rw [shift, String.toList_ofList, houts]
    rfl
  · exact ⟨text, rfl⟩

end Formula

/-! ## Entries and their cells -/

namespace Clipboard

variable {corner c : Cell} {block : List (List String)} {t : String}

/-- The entry of a block that lies on a cell, if the block's first entry is at a given place. -/
def entryOn? (corner : Cell) (block : List (List String)) (c : Cell) : Option String :=
  if c.row < corner.row ∨ c.col < corner.col then none
  else block[(c.row - corner.row).toNat]?.bind (·[(c.col - corner.col).toNat]?)

/-- **The cells of a block** are those on which an entry lies. -/
theorem mem_cells : (c, t) ∈ cells corner block ↔ entryOn? corner block c = some t := by
  simp only [cells, List.mem_flatMap, List.mem_map, Prod.exists, List.mem_zipIdx_iff_getElem?,
    Prod.mk.injEq]
  constructor
  · rintro ⟨row, i, hrow, _, j, htext, rfl, rfl⟩
    have hi : (corner.row + (i : Int) - corner.row).toNat = i := by omega
    have hj : (corner.col + (j : Int) - corner.col).toNat = j := by omega
    have hplace : ¬ (corner.row + (i : Int) < corner.row ∨
        corner.col + (j : Int) < corner.col) := by omega
    rw [entryOn?, if_neg hplace, hi, hj, hrow, Option.bind_some, htext]
  · intro h
    rw [entryOn?] at h
    obtain ⟨hplace, h⟩ := Option.ite_none_left_eq_some.1 h
    obtain ⟨row, hrow, htext⟩ := Option.bind_eq_some_iff.1 h
    refine ⟨row, _, hrow, t, _, htext, ?_, rfl⟩
    obtain ⟨r, k⟩ := c
    simp only at hplace
    have hr : corner.row + ((r - corner.row).toNat : Int) = r := by omega
    have hk : corner.col + ((k - corner.col).toNat : Int) = k := by omega
    simp only [hr, hk]

theorem exists_mem_of_entryOn? (h : entryOn? corner block c = some t) : ∃ row ∈ block, t ∈ row := by
  rw [entryOn?] at h
  obtain ⟨-, h⟩ := Option.ite_none_left_eq_some.1 h
  obtain ⟨row, hrow, htext⟩ := Option.bind_eq_some_iff.1 h
  exact ⟨row, List.mem_of_getElem? hrow, List.mem_of_getElem? htext⟩

theorem mem_keys : c ∈ (cells corner block).map Prod.fst ↔ (entryOn? corner block c).isSome := by
  rw [Option.isSome_iff_exists]
  constructor
  · intro h
    obtain ⟨⟨c, t⟩, hmem, rfl⟩ := List.mem_map.1 h
    exact ⟨t, mem_cells.1 hmem⟩
  · rintro ⟨t, ht⟩
    exact List.mem_map.2 ⟨(c, t), mem_cells.2 ht, rfl⟩

theorem pairwise_zipIdx_snd {α : Type} (l : List α) :
    l.zipIdx.Pairwise fun p q => p.2 ≠ q.2 := by
  have hsnd : (l.zipIdx.map Prod.snd).Nodup := by
    rw [List.zipIdx_map_snd]
    exact List.nodup_range'
  exact List.pairwise_map.1 hsnd

/-- No two entries of a block lie on the same cell. -/
theorem nodup_cells (corner : Cell) (block : List (List String)) :
    ((cells corner block).map Prod.fst).Nodup := by
  rw [cells, List.map_flatMap, List.nodup_flatMap]
  refine ⟨?_, (pairwise_zipIdx_snd block).imp fun {p q} hpq c hp hq => ?_⟩
  · rintro ⟨row, i⟩ -
    rw [List.map_map]
    refine List.pairwise_map.2 ((pairwise_zipIdx_snd row).imp fun {p q} hpq h => hpq ?_)
    have hcol := congrArg Cell.col h
    dsimp only [Function.comp_apply] at hcol
    omega
  · simp only [List.map_map, List.mem_map] at hp hq
    obtain ⟨_, -, rfl⟩ := hp
    obtain ⟨_, -, h⟩ := hq
    have hrow := congrArg Cell.row h
    dsimp only [Function.comp_apply] at hrow
    omega

/-- The entries that lie within a size, counted in the block or in the size. -/
theorem countP_cells (corner : Cell) (block : List (List String)) (size : Size) :
    (cells corner block).countP (·.1 ∈ size) =
      size.toList.countP fun c => (entryOn? corner block c).isSome := by
  have hperm : (((cells corner block).map Prod.fst).filter (· ∈ size)).Perm
      (size.toList.filter fun c => (entryOn? corner block c).isSome) := by
    refine (List.perm_ext_iff_of_nodup ((nodup_cells corner block).filter _)
      (size.nodup_toList.filter _)).2 fun c => ?_
    rw [List.mem_filter, List.mem_filter, mem_keys, Size.mem_toList, decide_eq_true_iff,
      and_comm]
  have hlength := hperm.length_eq
  rw [← List.countP_eq_length_filter, ← List.countP_eq_length_filter, List.countP_map] at hlength
  exact hlength

end Clipboard

/-! ## Writing a block -/

namespace Sheet

variable {s s' : Sheet} {d? : Option Offset} {c : Cell} {text t : String}
  {rest : List (Cell × String)}

theorem failure?_put (t : String) (hc : c ∈ s.size) (c' : Cell) :
    (s.put c t hc).failure? c' =
      if c' = c ∧ CellText.isFormula t = false then none else s.failure? c' := by
  unfold failure? put
  cases CellText.isFormula t with
  | true => simp [Results.invalidate]
  | false =>
    by_cases h : c' = c
    · subst h
      simp [Results.invalidate, Results.succeed]
    · have h' : ¬ c = c' := fun e => h e.symm
      simp [Results.invalidate, Results.succeed, Std.HashMap.getElem?_erase, h, h']

/-- What becomes of a sheet when the entries of a block are written: those on the sheet are in
their cells, the reasons noted for these are gone where they are no formulas, and all else is as it
was. -/
structure Writes (d? : Option Offset) (cells : List (Cell × String)) (s s' : Sheet) : Prop where
  size : s'.size = s.size
  received {c : Cell} {t : String} : (c, t) ∈ cells → c ∈ s.size → shifted d? t = .ok (s'.text c)
  kept {c : Cell} : c ∉ cells.map Prod.fst → s'.text c = s.text c
  cleared {c : Cell} : c ∈ cells.map Prod.fst → c ∈ s.size →
    CellText.isFormula (s'.text c) = false → s'.failure? c = none
  remembered {c : Cell} : (c ∈ cells.map Prod.fst → c ∈ s.size →
    CellText.isFormula (s'.text c) = true) → s'.failure? c = s.failure? c

theorem Writes.nil : Writes d? [] s s where
  size := rfl
  received h := absurd h List.not_mem_nil
  kept _ := rfl
  cleared h := absurd h List.not_mem_nil
  remembered _ := rfl

/-- An entry on the sheet is written. No later one lies on its cell. -/
theorem Writes.put (hc : c ∈ s.size) (hshift : shifted d? text = .ok t)
    (hnew : c ∉ rest.map Prod.fst) (h : Writes d? rest (s.put c t hc) s') :
    Writes d? ((c, text) :: rest) s s' := by
  have htext : s'.text c = t := by
    rw [h.kept hnew]
    exact (text_put t hc c).trans (if_pos rfl)
  refine ⟨h.size, ?_, ?_, ?_, ?_⟩
  · intro c' t' hmem hc'
    rcases List.mem_cons.1 hmem with heq | hmem
    · obtain ⟨rfl, rfl⟩ := Prod.mk.inj heq
      rw [hshift, htext]
    · exact h.received hmem hc'
  · intro c' hc'
    rw [List.map_cons, List.mem_cons, not_or] at hc'
    rw [h.kept hc'.2]
    exact (text_put t hc c').trans (if_neg hc'.1)
  · intro c' hmem hc' hliteral
    rcases List.mem_cons.1 hmem with rfl | hmem
    · rw [h.remembered fun hmem _ => absurd hmem hnew, failure?_put]
      exact if_pos ⟨rfl, htext ▸ hliteral⟩
    · exact h.cleared hmem hc' hliteral
  · intro c' hformula
    rw [List.map_cons] at hformula
    rw [h.remembered fun hmem hc' => hformula (List.mem_cons_of_mem _ hmem) hc', failure?_put]
    refine if_neg fun ⟨heq, hliteral⟩ => ?_
    subst heq
    have htrue := hformula List.mem_cons_self hc
    rw [htext, hliteral] at htrue
    cases htrue

/-- An entry beside the sheet is left out. -/
theorem Writes.skip (hc : c ∉ s.size) (h : Writes d? rest s s') :
    Writes d? ((c, text) :: rest) s s' := by
  refine ⟨h.size, ?_, ?_, ?_, ?_⟩
  · intro c' t' hmem hc'
    rcases List.mem_cons.1 hmem with heq | hmem
    · obtain ⟨rfl, -⟩ := Prod.mk.inj heq
      exact absurd hc' hc
    · exact h.received hmem hc'
  · intro c' hc'
    rw [List.map_cons, List.mem_cons, not_or] at hc'
    exact h.kept hc'.2
  · intro c' hmem hc'
    rcases List.mem_cons.1 hmem with rfl | hmem
    · exact absurd hc' hc
    · exact h.cleared hmem hc'
  · intro c' hformula
    exact h.remembered fun hmem => hformula (List.mem_cons_of_mem _ hmem)

/-- **Entries on different cells whose texts can be shifted** are written one after the other, and
counted. -/
theorem run_write : ∀ {cells : List (Cell × String)} {s : Sheet}, (cells.map Prod.fst).Nodup →
    (∀ p ∈ cells, p.1 ∈ s.size → ∃ t, shifted d? p.2 = .ok t) →
    ∃ s', (write d? cells).run s = (.ok (cells.countP (·.1 ∈ s.size)), s') ∧
      Writes d? cells s s' := by
  intro cells
  induction cells with
  | nil => exact fun {s} _ _ => ⟨s, rfl, .nil⟩
  | cons p rest ih =>
    intro s hnodup hshift
    obtain ⟨c, text⟩ := p
    obtain ⟨hnew, hnodup⟩ := List.nodup_cons.1 hnodup
    obtain ⟨hfirst, hrest⟩ := List.forall_mem_cons.1 hshift
    rw [run_write_cons]
    by_cases hc : c ∈ s.size
    · obtain ⟨t, ht⟩ := hfirst hc
      obtain ⟨s', hrun, hwrites⟩ := ih (s := s.put c t hc) hnodup hrest
      refine ⟨s', ?_, hwrites.put hc ht hnew⟩
      rw [dif_pos hc, ht, List.countP_cons_of_pos (by simpa using hc)]
      simp only [hrun]
      rfl
    · obtain ⟨s', hrun, hwrites⟩ := ih hnodup hrest
      refine ⟨s', ?_, hwrites.skip hc⟩
      rw [dif_neg hc, hrun, List.countP_cons_of_neg (by simpa using hc)]

/-! ## Pasting a block -/

variable {corner : Cell} {origin? : Option Cell}

/-- The texts of a block that lie on a sheet can be shifted from where they were copied. -/
def Pastable (s : Sheet) (corner : Cell) (text : String) (origin? : Option Cell) : Prop :=
  ∀ origin ∈ origin?, ∀ c ∈ s.size, ∀ t ∈ Clipboard.entryOn? corner (Clipboard.rows text) c,
    Formula.Translatable (origin.offset corner) t

theorem pastable_of_forall {origin : Cell} (h : ∀ row ∈ Clipboard.rows text, ∀ t ∈ row,
    Formula.Translatable (origin.offset corner) t) : s.Pastable corner text (some origin) := by
  intro origin' horigin c _ t ht
  obtain rfl := Option.some.inj horigin
  obtain ⟨row, hrow, hmem⟩ := Clipboard.exists_mem_of_entryOn? ht
  exact h row hrow t hmem

/-- **A paste writes its block.** -/
theorem exists_paste (hne : text ≠ "") (h : s.Pastable corner text origin?) :
    ∃ s', s.paste corner text origin? =
        (.ok (s.size.toList.countP fun c =>
          (Clipboard.entryOn? corner (Clipboard.rows text) c).isSome), s') ∧
      Writes (origin?.map (·.offset corner)) (Clipboard.cells corner (Clipboard.rows text))
        s s' := by
  have hshift : ∀ p ∈ Clipboard.cells corner (Clipboard.rows text), p.1 ∈ s.size →
      ∃ t, shifted (origin?.map (·.offset corner)) p.2 = .ok t := by
    rintro ⟨c, t⟩ hmem hc
    cases origin? with
    | none => exact ⟨t, rfl⟩
    | some origin =>
      exact (h origin rfl c hc t (Clipboard.mem_cells.1 hmem)).exists_translate
  obtain ⟨s', hrun, hwrites⟩ := run_write (Clipboard.nodup_cells corner _) hshift
  refine ⟨s', ?_, hwrites⟩
  rw [paste, if_neg (by simpa using hne), hrun, Clipboard.countP_cells]

/-- **What a paste does**, cell by cell: an entry of the block that lies on the sheet is the text of
its cell, shifted if it is known from where; other cells keep theirs. The entries on the sheet are
counted, and the reasons noted for cells that receive no formula are forgotten. -/
theorem paste_block (s : Sheet) (corner : Cell) {text : String} (hne : text ≠ "")
    (origin? : Option Cell) (h : s.Pastable corner text origin?) :
    ∃ n s', s.paste corner text origin? = (.ok n, s') ∧ s'.size = s.size ∧
      n = (s.size.toList.countP fun c =>
        (Clipboard.entryOn? corner (Clipboard.rows text) c).isSome) ∧
      ∀ c ∈ s.size, match Clipboard.entryOn? corner (Clipboard.rows text) c with
        | some t => (match origin? with
            | some origin => Formula.translate (origin.offset corner) t
            | none => .ok t) = .ok (s'.text c) ∧
          s'.failure? c = if CellText.isFormula (s'.text c) then s.failure? c else none
        | none => s'.text c = s.text c ∧ s'.failure? c = s.failure? c := by
  obtain ⟨s', hpaste, hwrites⟩ := exists_paste hne h
  refine ⟨_, s', hpaste, hwrites.size, rfl, fun c hc => ?_⟩
  have hkeys : c ∈ (Clipboard.cells corner (Clipboard.rows text)).map Prod.fst ↔
      (Clipboard.entryOn? corner (Clipboard.rows text) c).isSome := Clipboard.mem_keys
  cases hentry : Clipboard.entryOn? corner (Clipboard.rows text) c with
  | none =>
    rw [hentry] at hkeys
    have hnot : c ∉ (Clipboard.cells corner (Clipboard.rows text)).map Prod.fst := by
      simp [hkeys]
    exact ⟨hwrites.kept hnot, hwrites.remembered fun hmem => absurd hmem hnot⟩
  | some t =>
    rw [hentry] at hkeys
    have hmem : c ∈ (Clipboard.cells corner (Clipboard.rows text)).map Prod.fst := by
      simp [hkeys]
    have hreceived := hwrites.received (Clipboard.mem_cells.2 hentry) hc
    refine ⟨?_, ?_⟩
    · cases origin? <;> exact hreceived
    · cases hformula : CellText.isFormula (s'.text c) with
      | true => exact hwrites.remembered fun _ _ => hformula
      | false => exact hwrites.cleared hmem hc hformula

/-- A block of three rows that is wider and higher than the sheet, with a formula that loses its
reference and a first row of one cell. -/
theorem paste_block_ragged :
    ∃ s', (ofRows [["a", "b"], ["c", "d"]]).paste ⟨0, 0⟩ "=A1\r\nx\t7\tbeyond\nbelow"
        (some ⟨0, 1⟩) = (.ok 3, s') ∧
      s'.text ⟨0, 0⟩ = "=#REF!" ∧ s'.text ⟨0, 1⟩ = "b" ∧ s'.text ⟨1, 0⟩ = "x" ∧
      s'.text ⟨1, 1⟩ = "7" := by
  have hpieces : Formula.pieces "A1".toList = [.cell ⟨false, ['A'], false, ['1']⟩] := by cbv
  have hrows : Clipboard.rows "=A1\r\nx\t7\tbeyond\nbelow" =
      [["=A1"], ["x", "7", "beyond"], ["below"]] := by decide +kernel
  have hpastable : (ofRows [["a", "b"], ["c", "d"]]).Pastable ⟨0, 0⟩
      "=A1\r\nx\t7\tbeyond\nbelow" (some ⟨0, 1⟩) := by
    refine pastable_of_forall ?_
    rw [hrows]
    simp only [List.forall_mem_cons, List.not_mem_nil, false_imp_iff, implies_true, and_true]
    have htext : "=A1".toList = '=' :: "A1".toList := by decide +kernel
    refine ⟨.of_body htext ?_, ⟨.of_head ?_, .of_head ?_, .of_head ?_⟩, .of_head ?_⟩
    · rw [hpieces]
      intro piece hpiece p hp
      obtain rfl := List.mem_singleton.1 hpiece
      obtain rfl := List.mem_singleton.1 hp
      refine ⟨by decide, fun r r' hr hmove => ?_⟩
      obtain rfl := Option.some.inj (Except.ok.inj hr)
      cases hmove
    all_goals decide +kernel
  obtain ⟨n, s', hpaste, -, hn, hcells⟩ := paste_block (ofRows [["a", "b"], ["c", "d"]]) ⟨0, 0⟩
    (by decide) (some ⟨0, 1⟩) hpastable
  have hnumber : n = 3 := hn.trans (by decide +kernel)
  subst hnumber
  rw [hrows] at hcells
  have h00 := hcells ⟨0, 0⟩ (by decide)
  have h01 := hcells ⟨0, 1⟩ (by decide)
  have h10 := hcells ⟨1, 0⟩ (by decide)
  have h11 := hcells ⟨1, 1⟩ (by decide)
  have hlost : Formula.translate (Cell.offset ⟨0, 1⟩ ⟨0, 0⟩) "=A1" = .ok "=#REF!" := by
    decide +kernel
  refine ⟨s', hpaste, ?_, ?_, ?_, ?_⟩
  · exact (Except.ok.inj (hlost.symm.trans h00.1)).symm
  · exact h01.1
  · exact (Except.ok.inj h10.1).symm
  · exact (Except.ok.inj h11.1).symm

end Sheet

end Spreadsheet
