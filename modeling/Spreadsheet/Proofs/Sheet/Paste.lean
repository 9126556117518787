import Spreadsheet.Clipboard
import Spreadsheet.Proofs.Sheet.Coherence

/-!
# Pasting

A paste writes one cell after another and keeps a sheet coherent, also if it stops before its end.
What it writes depends on the texts of the sheet only.

* `Sheet.run_write_cons`: one cell of a block; `Sheet.run_write_error`: where writing stops;
* **`Coherent.paste`**, **`paste_grid`**.
-/

namespace Spreadsheet

/-- Writing the text that a cell has. -/
theorem Grid.set_text {g : Grid} {c : Cell} (h : c ∈ g.size) : g.set c (g.text c) h = g := by
  obtain ⟨size, cells⟩ := g
  simp only [Grid.set, Grid.text, dif_pos h, Vector.set_getElem_self]

/-- A text of two lines, each of them one cell. -/
theorem Clipboard.rows_of_two_lines {first last : List Char}
    (hfirst : ∀ c ∈ first, c ∉ ['\n', '\r', '\t']) (hlast : ∀ c ∈ last, c ∉ ['\n', '\r', '\t'])
    (hne : last ≠ []) : Clipboard.rows (String.ofList (first ++ '\n' :: last)) =
      [[String.ofList first], [String.ofList last]] := by
  have hplain {cs : List Char} (h : ∀ c ∈ cs, c ∉ ['\n', '\r', '\t']) :
      '\n' ∉ cs ∧ '\t' ∉ cs ∧ cs.filter (· != '\r') = cs := by
    refine ⟨fun hc => h _ hc (by decide), fun hc => h _ hc (by decide), ?_⟩
    rw [List.filter_eq_self]
    intro c hc
    rw [bne_iff_ne]
    rintro rfl
    exact h _ hc (by decide)
  obtain ⟨hn, ht, hr⟩ := hplain hfirst
  obtain ⟨hn', ht', hr'⟩ := hplain hlast
  have hend : dropLineEnd (first ++ '\n' :: last) = first ++ '\n' :: last := by
    unfold dropLineEnd
    rw [if_neg]
    intro hnewline
    rw [List.getLast?_append_cons, List.getLast?_cons, Option.some.injEq] at hnewline
    cases hlast' : last.getLast? with
    | none => exact hne (List.getLast?_eq_none_iff.1 hlast')
    | some c =>
      rw [hlast', Option.getD_some] at hnewline
      exact hn' (hnewline ▸ List.mem_of_getLast? hlast')
  unfold Clipboard.rows
  rw [String.toList_ofList, List.filter_append, List.filter_cons_of_pos (by decide), hr, hr', hend,
    List.splitOn_append_cons_self_of_not_mem hn, List.splitOn_eq_singleton hn']
  simp only [List.map_cons, List.map_nil, List.splitOn_eq_singleton ht,
    List.splitOn_eq_singleton ht']

namespace Sheet

variable {room : Nat} {s s' : Sheet} {d? : Option Offset}

/-- A text as it is written: shifted, if it is known by how much. -/
def shifted (d? : Option Offset) (text : String) : Except Decimal.TooLong String :=
  match d? with
  | none => .ok text
  | some d => Formula.translate d text

theorem run_write_cons (c : Cell) (text : String) (rest : List (Cell × String)) :
    (write d? ((c, text) :: rest)).run s =
      if h : c ∈ s.size then match shifted d? text with
        | .error e => (.error e, s)
        | .ok t => ((write d? rest).run (s.put c t h)).map (Except.map (· + 1)) id
      else (write d? rest).run s := by
  rw [write, ExceptT.run_get_bind]
  by_cases h : c ∈ s.size
  · rw [dif_pos h, dif_pos h]
    have hrest (t : String) : (do
        modify fun _ => s.put c t h
        return (← write d? rest) + 1 : ExceptT Decimal.TooLong (StateM Sheet) Nat).run s =
          ((write d? rest).run (s.put c t h)).map (Except.map (· + 1)) id := by
      have hwrite := ExceptT.run_bind_apply (write d? rest) (fun n => pure (n + 1)) (s.put c t h)
      rw [ExceptT.run_bind_apply]
      refine hwrite.trans ?_
      rcases (write d? rest).run (s.put c t h) with ⟨_ | _, s'⟩ <;> rfl
    cases d? with
    | none => exact hrest text
    | some d =>
      simp only [shifted]
      rw [ExceptT.run_bind_apply]
      cases Formula.translate d text with
      | error e => rfl
      | ok t => exact hrest t
  · rw [dif_neg h, dif_neg h]

/-- Writing stops at a text that cannot be shifted when all before it is written. -/
theorem run_write_error : ∀ {cells : List (Cell × String)} {s s' : Sheet} {e : Decimal.TooLong},
    (write d? cells).run s = (.error e, s') → ∃ before p rest n, cells = before ++ p :: rest ∧
      p.1 ∈ s.size ∧ shifted d? p.2 = .error e ∧ (write d? before).run s = (.ok n, s') := by
  intro cells
  induction cells with
  | nil => exact fun h => nomatch h
  | cons p rest ih =>
    intro s s' e h
    obtain ⟨c, text⟩ := p
    rw [run_write_cons] at h
    by_cases hc : c ∈ s.size
    · rw [dif_pos hc] at h
      cases hshift : shifted d? text with
      | error e' =>
        rw [hshift] at h
        obtain ⟨he, rfl⟩ := Prod.mk.inj h
        obtain rfl := Except.error.inj he
        exact ⟨[], (c, text), rest, 0, rfl, hc, hshift, rfl⟩
      | ok t =>
        rw [hshift] at h
        rcases hrun : (write d? rest).run (s.put c t hc) with ⟨e' | n, s₁⟩
        · simp only [hrun] at h
          obtain ⟨he, rfl⟩ := Prod.mk.inj h
          obtain rfl := Except.error.inj he
          obtain ⟨before, p, rest', n, rfl, hp, hstop, hbefore⟩ := ih hrun
          refine ⟨(c, text) :: before, p, rest', n + 1, rfl, hp, hstop, ?_⟩
          rw [run_write_cons, dif_pos hc, hshift]
          simp only [hbefore]
          rfl
        · simp only [hrun] at h
          exact nomatch (Prod.mk.inj h).1
    · rw [dif_neg hc] at h
      obtain ⟨before, p, rest', n, rfl, hp, hstop, hbefore⟩ := ih h
      refine ⟨(c, text) :: before, p, rest', n, rfl, hp, hstop, ?_⟩
      rw [run_write_cons, dif_neg hc, hbefore]

/-- A paste of two cells, one below the other, that stops at the second one. -/
theorem paste_stops {corner : Cell} {text a b a' : String} {origin? : Option Cell}
    {e : Decimal.TooLong} (hrows : Clipboard.rows text = [[a], [b]]) (hcorner : corner ∈ s.size)
    (hbelow : (⟨corner.row + 1, corner.col⟩ : Cell) ∈ s.size)
    (ha : shifted (origin?.map (·.offset corner)) a = .ok a')
    (hb : shifted (origin?.map (·.offset corner)) b = .error e) :
    s.paste corner text origin? = (.error e, s.put corner a' hcorner) := by
  have hne : ¬ text.isEmpty = true := by
    intro hempty
    rw [String.isEmpty_iff] at hempty
    subst hempty
    have hblank : Clipboard.rows "" = [[""]] := by decide
    rw [hblank] at hrows
    cases hrows
  have hcells : Clipboard.cells corner [[a], [b]] =
      [(corner, a), (⟨corner.row + 1, corner.col⟩, b)] := by
    simp [Clipboard.cells]
  have hbelow' : (⟨corner.row + 1, corner.col⟩ : Cell) ∈ (s.put corner a' hcorner).size := hbelow
  unfold Sheet.paste
  rw [if_neg hne, hrows, hcells, run_write_cons, dif_pos hcorner, ha]
  simp only
  rw [run_write_cons, dif_pos hbelow', hb]
  rfl

/-- What a paste keeps while it writes. -/
theorem Coherent.write (h : s.Coherent room) : ∀ {cells : List (Cell × String)},
    ((Sheet.write d? cells).run s).2.Coherent room ∧
      ((Sheet.write d? cells).run s).2.size = s.size := by
  intro cells
  induction cells generalizing s with
  | nil => exact ⟨h, rfl⟩
  | cons p rest ih =>
    obtain ⟨c, text⟩ := p
    rw [run_write_cons]
    by_cases hc : c ∈ s.size
    · rw [dif_pos hc]
      cases shifted d? text with
      | error e => exact ⟨h, rfl⟩
      | ok t => exact ih (h.put t hc)
    · rw [dif_neg hc]
      exact ih h

/-- Two sheets of the same texts are written to in the same way. -/
theorem write_grid : ∀ {cells : List (Cell × String)} {s s' : Sheet}, s.grid = s'.grid →
    ((write d? cells).run s).1 = ((write d? cells).run s').1 ∧
      ((write d? cells).run s).2.grid = ((write d? cells).run s').2.grid := by
  intro cells
  induction cells with
  | nil => exact fun h => ⟨rfl, h⟩
  | cons p rest ih =>
    intro s s' h
    obtain ⟨c, text⟩ := p
    have hsize : s.size = s'.size := congrArg Grid.size h
    rw [run_write_cons, run_write_cons]
    by_cases hc : c ∈ s.size
    · have hc' : c ∈ s'.size := hsize ▸ hc
      rw [dif_pos hc, dif_pos hc']
      cases shifted d? text with
      | error e => exact ⟨rfl, h⟩
      | ok t =>
        have hput : (s.put c t hc).grid = (s'.put c t hc').grid := by
          simp only [Sheet.put, h]
        obtain ⟨hn, hg⟩ := ih hput
        exact ⟨congrArg (Except.map (· + 1)) hn, hg⟩
    · rw [dif_neg hc, dif_neg (hsize ▸ hc)]
      exact ih h

/-- **A paste keeps a sheet coherent**, also if it stops before its end. -/
theorem Coherent.paste (h : s.Coherent room) (corner : Cell) (text : String)
    (origin? : Option Cell) : (s.paste corner text origin?).2.Coherent room ∧
      (s.paste corner text origin?).2.size = s.size := by
  unfold Sheet.paste
  split
  · exact ⟨h, rfl⟩
  · exact h.write

/-- **What a paste writes** depends on the texts of the sheet only. -/
theorem paste_grid (h : s.grid = s'.grid) (corner : Cell) (text : String)
    (origin? : Option Cell) :
    (s.paste corner text origin?).1 = (s'.paste corner text origin?).1 ∧
      (s.paste corner text origin?).2.grid = (s'.paste corner text origin?).2.grid := by
  unfold Sheet.paste
  split
  · exact ⟨rfl, h⟩
  · exact write_grid h

end Sheet

end Spreadsheet
