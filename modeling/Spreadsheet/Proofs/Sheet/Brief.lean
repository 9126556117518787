import Spreadsheet.Proofs.Formula.Shift
import Spreadsheet.Proofs.Sheet.Paste

/-!
# Grids of brief texts

A grid whose texts are brief stays so under every change that writes brief texts, pastes included.

* `Grid.Brief`; **`Grid.Brief.short`**: all row numbers in its formulas can be read;
* `Grid.Brief.set`, `Grid.Brief.resize`, `Grid.brief_empty`, `Grid.brief_ofRows`;
* **`Sheet.brief_paste`**.
-/

namespace Spreadsheet

namespace Grid

/-- No row number in a grid is too long. -/
def Brief (g : Grid) : Prop := ∀ c, Formula.Brief (g.text c).toList

variable {g : Grid} {c : Cell} {text : String}

theorem Brief.short (h : g.Brief) : g.Short := by
  intro c body e hb he
  refine Formula.Expr.short_of_parse ?_ he
  have hc := h c
  unfold CellText.body? at hb
  split at hb
  · rename_i cs hcs
    rw [hcs] at hc
    obtain ⟨-, hb⟩ := Option.ite_none_left_eq_some.1 hb
    obtain rfl := Option.some.inj hb
    rw [String.toList_ofList]
    exact hc.2
  · cases hb

theorem Brief.set (h : g.Brief) (ht : Formula.Brief text.toList) (hc : c ∈ g.size) :
    (g.set c text hc).Brief := by
  intro d
  rw [text_set]
  split
  · exact ht
  · exact h d

theorem Brief.resize (h : g.Brief) (size : Size) : (g.resize size).Brief := by
  intro d
  rw [text_resize]
  split
  · exact h d
  · exact trivial

theorem brief_empty (size : Size) : (empty size).Brief := by
  intro d
  rw [text_empty]
  exact trivial

theorem brief_ofRows {rows : List (List String)}
    (h : ∀ t ∈ rows.flatten, Formula.Brief t.toList) : (ofRows rows).Brief := by
  intro d
  rw [ofRows, text_ofFn]
  split
  · cases ht : ((rows.map List.toArray).toArray[d.row.toNat]?).bind (·[d.col.toNat]?) with
    | none => exact trivial
    | some t =>
      refine h t ?_
      obtain ⟨row, hrow, ht⟩ := Option.bind_eq_some_iff.1 ht
      rw [List.getElem?_toArray, List.getElem?_map] at hrow
      obtain ⟨row', hrow', rfl⟩ := Option.map_eq_some_iff.1 hrow
      rw [List.getElem?_toArray] at ht
      exact List.mem_flatten.2 ⟨row', List.mem_of_getElem? hrow', List.mem_of_getElem? ht⟩
  · exact trivial

end Grid

namespace Sheet

variable {s : Sheet} {d? : Option Offset}

theorem brief_shifted {text t : String} (h : Formula.Brief text.toList)
    (ht : shifted d? text = .ok t) : Formula.Brief t.toList := by
  cases d? with
  | none =>
    obtain rfl := Except.ok.inj ht
    exact h
  | some d => exact Formula.brief_translate h ht

theorem brief_write {cells : List (Cell × String)} (h : s.grid.Brief)
    (ht : ∀ p ∈ cells, Formula.Brief p.2.toList) : ((write d? cells).run s).2.grid.Brief := by
  induction cells generalizing s with
  | nil => exact h
  | cons p rest ih =>
    obtain ⟨c, text⟩ := p
    obtain ⟨htext, hrest⟩ := List.forall_mem_cons.1 ht
    rw [run_write_cons]
    by_cases hc : c ∈ s.size
    · rw [dif_pos hc]
      cases hshift : shifted d? text with
      | error e => exact h
      | ok t => exact ih (h.set (brief_shifted htext hshift) hc) hrest
    · rw [dif_neg hc]
      exact ih h hrest

theorem mem_flatten_of_mem_cells {corner : Cell} {block : List (List String)} {p : Cell × String}
    (h : p ∈ Clipboard.cells corner block) : p.2 ∈ block.flatten := by
  rw [Clipboard.cells, List.mem_flatMap] at h
  obtain ⟨⟨row, i⟩, hrow, hp⟩ := h
  obtain ⟨⟨text, j⟩, htext, rfl⟩ := List.mem_map.1 hp
  exact List.mem_flatten.2 ⟨row, (List.mem_zipIdx hrow).2.2 ▸ List.getElem_mem _,
    (List.mem_zipIdx htext).2.2 ▸ List.getElem_mem _⟩

/-- **A paste of brief texts** keeps the texts of a sheet brief, also if it stops before its end. -/
theorem brief_paste (h : s.grid.Brief) {corner : Cell} {text : String} {origin? : Option Cell}
    (ht : ∀ t ∈ (Clipboard.rows text).flatten, Formula.Brief t.toList) :
    (s.paste corner text origin?).2.grid.Brief := by
  unfold Sheet.paste
  split
  · exact h
  · exact brief_write h fun p hp => ht p.2 (mem_flatten_of_mem_cells hp)

end Sheet

end Spreadsheet
