import Mathlib.Data.List.Basic
import Spreadsheet.Clipboard

/-!
# The text of a block and the block of a text

A block of plain cells is written with tabs between the cells of a row and a line end behind every
row, or with line ends between the rows only. `Clipboard.rows` undoes both, except that a last row
of one empty cell needs its line end: without it, it is taken for the end of the row before.

* `Clipboard.IsBlock`: the blocks that texts can hold; `Clipboard.Plain`: the texts of their cells;
* `Clipboard.closed`, `Clipboard.joined`: the two texts of a block;
* `Clipboard.splitRows_intercalate`, `Clipboard.forall_of_mem_splitOn`: splitting, both ways;
* **`Clipboard.rows_closed`**, **`Clipboard.rows_joined_iff`**, **`Clipboard.isBlock_rows`**.
-/

namespace Spreadsheet.Clipboard

/-! ## Blocks and their texts -/

/-- A text that a cell can have in a block: no tab and no character of a line end. -/
def Plain (text : String) : Prop := ∀ c ∈ text.toList, c ∉ ['\t', '\r', '\n']

instance (text : String) : Decidable (Plain text) :=
  List.decidableBAll (fun c => c ∉ ['\t', '\r', '\n']) text.toList

/-- At least one row, at least one cell in every row, and plain texts in the cells. -/
structure IsBlock (block : List (List String)) : Prop where
  ne_nil : block ≠ []
  row_ne_nil : ∀ row ∈ block, row ≠ []
  plain : ∀ row ∈ block, ∀ text ∈ row, Plain text

/-- The two ways to end a line. -/
inductive LineEnd where
  | lf
  | crlf
  deriving DecidableEq, Repr

/-- The characters of a line end. -/
def LineEnd.text : LineEnd → String
  | lf => "\n"
  | crlf => "\r\n"

theorem LineEnd.filter_text (e : LineEnd) : e.text.toList.filter (· != '\r') = ['\n'] := by
  cases e <;> decide

/-- The text of a row. -/
def line (row : List String) : String := "\t".intercalate row

/-- The text of a block with a line end behind every row. -/
def closed (e : LineEnd) (block : List (List String)) : String :=
  String.join (block.map fun row => line row ++ e.text)

/-- The text of a block with line ends between the rows only. -/
def joined (e : LineEnd) (block : List (List String)) : String :=
  e.text.intercalate (block.map line)

variable {block : List (List String)} {row : List String}

/-- The characters of a row. -/
def lineChars (row : List String) : List Char := ['\t'].intercalate (row.map String.toList)

/-- The characters of a block without those that mean nothing. -/
def blockChars (block : List (List String)) : List Char :=
  ['\n'].intercalate (block.map lineChars)

/-- The cells in the lines of a text. -/
def splitRows (cs : List Char) : List (List String) :=
  (cs.splitOn '\n').map fun row => (row.splitOn '\t').map String.ofList

theorem rows_eq (text : String) :
    rows text = splitRows (dropLineEnd (text.toList.filter (· != '\r'))) := rfl

theorem toList_line (row : List String) : (line row).toList = lineChars row :=
  String.toList_intercalate

/-! ## Intercalation -/

theorem mem_of_mem_intercalate {α : Type} {sep : α} {lines : List (List α)} {c : α}
    (h : c ∈ [sep].intercalate lines) : c = sep ∨ ∃ l ∈ lines, c ∈ l := by
  induction lines with
  | nil => simp at h
  | cons l lines ih =>
    by_cases hne : lines = []
    · subst hne
      exact .inr ⟨l, by simp, by simpa [List.intercalate] using h⟩
    · rw [List.intercalate_cons_of_ne_nil hne, List.append_assoc, List.mem_append] at h
      rcases h with h | h
      · exact .inr ⟨l, by simp, h⟩
      · rcases List.mem_cons.1 h with h | h
        · exact .inl h
        · exact (ih h).imp_right fun ⟨l', hl', hc⟩ => ⟨l', List.mem_cons_of_mem _ hl', hc⟩

theorem intercalate_concat {α : Type} {sep : α} {lines : List (List α)} (hne : lines ≠ [])
    (l : List α) : [sep].intercalate (lines ++ [l]) = [sep].intercalate lines ++ sep :: l := by
  induction lines with
  | nil => exact absurd rfl hne
  | cons l' lines ih =>
    by_cases hlines : lines = []
    · subst hlines
      simp [List.intercalate]
    · rw [List.cons_append, List.intercalate_cons_of_ne_nil (by simp), ih hlines,
        List.intercalate_cons_of_ne_nil hlines, List.append_assoc, List.append_assoc,
        List.append_assoc]

theorem filter_intercalate {α : Type} (p : α → Bool) (sep : List α) (lines : List (List α)) :
    (sep.intercalate lines).filter p =
      (sep.filter p).intercalate (lines.map (List.filter p)) := by
  induction lines with
  | nil => rfl
  | cons l lines ih =>
    by_cases hlines : lines = []
    · subst hlines
      simp [List.intercalate]
    · rw [List.map_cons, List.intercalate_cons_of_ne_nil hlines,
        List.intercalate_cons_of_ne_nil (by simpa using hlines), List.filter_append,
        List.filter_append, ih]

/-- A separator behind every line is one behind the separated lines. -/
theorem flatMap_append_singleton {α : Type} {sep : α} {lines : List (List α)}
    (hne : lines ≠ []) : lines.flatMap (· ++ [sep]) = [sep].intercalate lines ++ [sep] := by
  induction lines with
  | nil => exact absurd rfl hne
  | cons l lines ih =>
    by_cases hlines : lines = []
    · subst hlines
      simp [List.intercalate]
    · rw [List.flatMap_cons, ih hlines, List.intercalate_cons_of_ne_nil hlines, List.append_assoc,
        List.append_assoc, List.append_assoc]

/-- What is split off at a separator are characters of the text other than the separator. -/
theorem forall_of_mem_splitOn {sep : Char} : ∀ {cs l : List Char}, l ∈ cs.splitOn sep →
    ∀ c ∈ l, c ∈ cs ∧ c ≠ sep := by
  intro cs
  induction cs with
  | nil => simp [List.splitOn]
  | cons c' cs ih =>
    intro l hl c hc
    rw [List.splitOn_cons_eq_if_modifyHead] at hl
    split at hl
    · rcases List.mem_cons.1 hl with rfl | hl
      · exact absurd hc List.not_mem_nil
      · exact (ih hl c hc).imp_left (List.mem_cons_of_mem _)
    · rename_i hsep
      cases hsplit : cs.splitOn sep with
      | nil => exact absurd hsplit (List.splitOn_ne_nil _ _)
      | cons head tail =>
        rw [hsplit, List.modifyHead_cons] at hl
        rcases List.mem_cons.1 hl with rfl | hl
        · rcases List.mem_cons.1 hc with rfl | hc
          · exact ⟨List.mem_cons_self, by simpa using hsep⟩
          · exact (ih (hsplit ▸ List.mem_cons_self) c hc).imp_left (List.mem_cons_of_mem _)
        · exact (ih (hsplit ▸ List.mem_cons_of_mem _ hl) c hc).imp_left (List.mem_cons_of_mem _)

/-! ## From a block to its text and back -/

namespace IsBlock

/-- What is no tab and does not occur in plain texts does not occur in the lines. -/
theorem not_mem_line (h : IsBlock block) {c : Char} (htab : c ≠ '\t')
    (hplain : c ∈ ['\t', '\r', '\n']) : ∀ l ∈ block.map lineChars, c ∉ l := by
  intro l hl hmem
  obtain ⟨row, hrow, rfl⟩ := List.mem_map.1 hl
  rcases mem_of_mem_intercalate hmem with hsep | ⟨cs, hcs, hmem⟩
  · exact htab hsep
  · obtain ⟨text, htext, rfl⟩ := List.mem_map.1 hcs
    exact h.plain row hrow text htext _ hmem hplain

theorem newline_not_mem (h : IsBlock block) : ∀ l ∈ block.map lineChars, '\n' ∉ l :=
  h.not_mem_line (by decide) (by simp)

theorem return_not_mem (h : IsBlock block) : ∀ l ∈ block.map lineChars, '\r' ∉ l :=
  h.not_mem_line (by decide) (by simp)

/-- The cells of a row are split again. -/
theorem splitOn_lineChars (h : IsBlock block) (hrow : row ∈ block) :
    ((lineChars row).splitOn '\t').map String.ofList = row := by
  have htab : ∀ l ∈ row.map String.toList, '\t' ∉ l := by
    intro l hl hmem
    obtain ⟨text, htext, rfl⟩ := List.mem_map.1 hl
    exact h.plain row hrow text htext _ hmem (by simp)
  have hne : row.map String.toList ≠ [] := by simpa using h.row_ne_nil row hrow
  rw [lineChars, List.splitOn_intercalate _ htab hne]
  simp

/-- The rows of a block are split again. -/
theorem splitRows_blockChars (h : IsBlock block) : splitRows (blockChars block) = block := by
  have hne : block.map lineChars ≠ [] := by simpa using h.ne_nil
  rw [splitRows, blockChars, List.splitOn_intercalate _ h.newline_not_mem hne, List.map_map]
  exact (List.map_congr_left fun row hrow => h.splitOn_lineChars hrow).trans (List.map_id _)

/-- No line of a block has a character that means nothing. -/
theorem filter_lineChars (h : IsBlock block) :
    (block.map lineChars).map (List.filter (· != '\r')) = block.map lineChars := by
  refine (List.map_congr_left fun l hl => ?_).trans (List.map_id _)
  rw [id, List.filter_eq_self]
  intro c hc
  rw [bne_iff_ne]
  rintro rfl
  exact h.return_not_mem l hl hc

theorem filter_closed (h : IsBlock block) (e : LineEnd) :
    (closed e block).toList.filter (· != '\r') = blockChars block ++ ['\n'] := by
  have hne : block.map lineChars ≠ [] := by simpa using h.ne_nil
  have hlines : block.flatMap (fun row => (lineChars row ++ e.text.toList).filter (· != '\r')) =
      ((block.map lineChars).map (List.filter (· != '\r'))).flatMap (· ++ ['\n']) := by
    simp only [List.flatMap_map, List.filter_append, e.filter_text]
  rw [closed, String.toList_join, List.flatMap_map, List.filter_flatMap]
  simp only [String.toList_append, toList_line]
  rw [hlines, h.filter_lineChars, flatMap_append_singleton hne]
  rfl

theorem filter_joined (h : IsBlock block) (e : LineEnd) :
    (joined e block).toList.filter (· != '\r') = blockChars block := by
  have hlines : (block.map line).map String.toList = block.map lineChars := by
    rw [List.map_map]
    exact List.map_congr_left fun row _ => toList_line row
  rw [joined, String.toList_intercalate, hlines, filter_intercalate, e.filter_text,
    h.filter_lineChars]
  rfl

end IsBlock

/-- **A block with a line end behind every row** is read back as it is. -/
theorem rows_closed (h : IsBlock block) (e : LineEnd) : rows (closed e block) = block := by
  have hend : dropLineEnd (blockChars block ++ ['\n']) = blockChars block := by
    simp [dropLineEnd]
  rw [rows_eq, h.filter_closed, hend, h.splitRows_blockChars]

/-- A row has no characters only if it is one empty cell. -/
theorem IsBlock.lineChars_eq_nil (h : IsBlock block) (hrow : row ∈ block)
    (hnil : lineChars row = []) : row = [""] := by
  have hsplit := h.splitOn_lineChars hrow
  rw [hnil] at hsplit
  exact hsplit.symm

theorem blockChars_concat {init : List (List String)} (hne : init ≠ []) (row : List String) :
    blockChars (init ++ [row]) = blockChars init ++ '\n' :: lineChars row := by
  rw [blockChars, List.map_append, List.map_singleton, intercalate_concat (by simpa using hne)]
  rfl

/-- The text of a block ends as its last row does, if that row has any text. -/
theorem getLast?_blockChars (init : List (List String)) (hne : lineChars row ≠ []) :
    (blockChars (init ++ [row])).getLast? = (lineChars row).getLast? := by
  by_cases hinit : init = []
  · subst hinit
    rw [List.nil_append, blockChars, List.map_singleton, List.intercalate_singleton]
  · rw [blockChars_concat hinit, List.getLast?_append_cons, List.getLast?_cons,
      List.getLast?_eq_some_getLast hne]
    rfl

/-- Without the line end of its last row, a block whose last row is not one empty cell does not end
in a newline. -/
theorem IsBlock.dropLineEnd_blockChars (h : IsBlock block) (hlast : block.getLast? ≠ some [""]) :
    dropLineEnd (blockChars block) = blockChars block := by
  rw [dropLineEnd, if_neg]
  intro hnewline
  obtain ⟨init, row, rfl⟩ : ∃ init row, block = init ++ [row] :=
    ⟨_, _, (List.dropLast_concat_getLast h.ne_nil).symm⟩
  have hrow : row ∈ init ++ [row] := by simp
  have hne : lineChars row ≠ [] := by
    intro hnil
    exact hlast (by rw [List.getLast?_concat, h.lineChars_eq_nil hrow hnil])
  rw [getLast?_blockChars init hne] at hnewline
  exact h.newline_not_mem _ (List.mem_map_of_mem hrow) (List.mem_of_getLast? hnewline)

/-- **A block with line ends between its rows** is read back as it is, unless its last row is one
empty cell below others. -/
theorem rows_joined_iff (h : IsBlock block) (e : LineEnd) :
    rows (joined e block) = block ↔ block.getLast? ≠ some [""] ∨ block = [[""]] := by
  rw [rows_eq, h.filter_joined]
  constructor
  · intro hrows
    by_contra hnot
    obtain ⟨hlast, hne⟩ := not_or.1 hnot
    obtain ⟨init, rfl⟩ := List.getLast?_eq_some_iff.1 (not_not.1 hlast)
    have hinit : init ≠ [] := by
      rintro rfl
      exact hne rfl
    have hinit' : IsBlock init :=
      ⟨hinit, fun row hrow => h.row_ne_nil row (List.mem_append_left _ hrow),
        fun row hrow => h.plain row (List.mem_append_left _ hrow)⟩
    have hdrop : dropLineEnd (blockChars (init ++ [[""]])) = blockChars init := by
      have hline : lineChars [""] = [] := by decide
      rw [blockChars_concat hinit, hline, dropLineEnd, if_pos (List.getLast?_concat ..),
        List.dropLast_concat]
    rw [hdrop, hinit'.splitRows_blockChars] at hrows
    have hlength := congrArg List.length hrows
    rw [List.length_append, List.length_singleton] at hlength
    omega
  · rintro (hlast | rfl)
    · rw [h.dropLineEnd_blockChars hlast, h.splitRows_blockChars]
    · decide

/-! ## From a text to its block -/

theorem mem_of_mem_dropLineEnd {cs : List Char} {c : Char} (h : c ∈ dropLineEnd cs) : c ∈ cs := by
  unfold dropLineEnd at h
  split at h
  · exact List.dropLast_subset _ h
  · exact h

/-- **What a text holds is a block.** -/
theorem isBlock_rows (text : String) : IsBlock (rows text) where
  ne_nil := by simp [rows]
  row_ne_nil row hrow := by
    obtain ⟨cs, -, rfl⟩ := List.mem_map.1 hrow
    simp
  plain row hrow cell hcell c hc := by
    obtain ⟨cs, hcs, rfl⟩ := List.mem_map.1 hrow
    obtain ⟨ds, hds, rfl⟩ := List.mem_map.1 hcell
    rw [String.toList_ofList] at hc
    obtain ⟨hc, htab⟩ := forall_of_mem_splitOn hds c hc
    obtain ⟨hc, hnewline⟩ := forall_of_mem_splitOn hcs c hc
    have hreturn : c ≠ '\r' := by
      have hfilter := mem_of_mem_dropLineEnd hc
      simpa using (List.mem_filter.1 hfilter).2
    simp [htab, hnewline, hreturn]

/-- A text is a block of one cell just if it is plain. -/
theorem rows_eq_singleton_iff {text : String} : rows text = [[text]] ↔ Plain text := by
  constructor
  · intro h
    exact (h ▸ isBlock_rows text).plain [text] (by simp) text (by simp)
  · intro h
    have hblock : IsBlock [[text]] := ⟨by simp, by simp, by simpa using h⟩
    have htext : joined .lf [[text]] = text := by simp [joined, line]
    have hlast : [[text]].getLast? ≠ some [""] ∨ [[text]] = [[""]] := by
      by_cases hempty : text = ""
      · exact .inr (by rw [hempty])
      · exact .inl (by simpa using hempty)
    simpa only [htext] using (rows_joined_iff hblock .lf).2 hlast

/-- **Blocks and their texts.** A block is read back from its text with either line end behind every
row; without the last line end just if its last row is not one empty cell, or the only row. What is
read from any text is a block. -/
theorem block_round_trip :
    (∀ e block, IsBlock block → rows (closed e block) = block ∧
      (rows (joined e block) = block ↔ block.getLast? ≠ some [""] ∨ block = [[""]])) ∧
    ∀ text, IsBlock (rows text) :=
  ⟨fun e _ h => ⟨rows_closed h e, rows_joined_iff h e⟩, isBlock_rows⟩

/-- Empty cells at the end of a row and empty rows at the end of a block, with and without the last
line end. -/
theorem block_round_trip_of_empty_cells :
    IsBlock [["a", ""], [""]] ∧ rows "a\t\r\n\r\n" = [["a", ""], [""]] ∧
      rows "a\t\r\n" ≠ [["a", ""], [""]] := by
  have hblock : IsBlock [["a", ""], [""]] := ⟨by simp, by simp, by decide +kernel⟩
  have hclosed : closed .crlf [["a", ""], [""]] = "a\t\r\n\r\n" := by decide +kernel
  have hjoined : joined .crlf [["a", ""], [""]] = "a\t\r\n" := by decide +kernel
  obtain ⟨hrows, hiff⟩ := block_round_trip.1 .crlf _ hblock
  rw [hclosed] at hrows
  rw [hjoined] at hiff
  exact ⟨hblock, hrows, fun h => absurd (hiff.1 h) (by simp)⟩

end Spreadsheet.Clipboard
