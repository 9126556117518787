import Mathlib
import Spreadsheet.Proofs.Editor.View
import Spreadsheet.Proofs.Sheet.Extent
import Spreadsheet.Value

/-!
# What has been written into a cell

A cell has the text that it was given last, if it has been on the sheet ever since and the sheet has
not been replaced; else it is empty. That is all there is to say of a sheet as a store of texts: what
is read of it is told by the history of the calls that changed it.

* `Sheet.Mutation`, `Sheet.mutate`, `Sheet.mutated`: calls that change a sheet, one after another;
* `Mutation.Refused`, `exists_mutate`, `exists_refusal`: which calls are refused;
* `Mutation.extent`, `size_mutated`: how large a sheet is after a call;
* `Sheet.Gives`, `Sheet.Spares`: a call gives a cell a text, or leaves the one that it has;
  **`text_mutated`**: one call;
* `Sheet.Given`; **`text_of_given`**, **`mutated_keeps_texts`**: a history of calls.
-/

namespace Spreadsheet.Sheet

/-! ## Calls -/

/-- A call that changes a sheet, with the values that it is given. -/
inductive Mutation where
  | set (c : Cell) (value : Value)
  | addRow
  | addColumn
  | removeRow
  | removeColumn
  | resize (rows cols : Int)
  | load (matrix : List (List Value))
  | reset (rows cols : Int)

/-- Why a call is refused. -/
inductive Mutation.Refusal where
  /-- There is no such cell, or no such size. -/
  | grid (e : Grid.Refusal)
  /-- A value has a number that is too long to be written. -/
  | tooLong (e : Decimal.TooLong)

/-- A sheet after a call, unless that is refused. -/
def mutate (s : Sheet) : Mutation → Except Mutation.Refusal Sheet
  | .set c value =>
    if h : c ∈ s.size then do return s.put c (← value.cellText?.mapError .tooLong) h
    else .error (.grid (.outside c s.size))
  | .addRow => .ok s.addRow
  | .addColumn => .ok s.addColumn
  | .removeRow => .ok s.removeRow
  | .removeColumn => .ok s.removeColumn
  | .resize rows cols => (s.resize rows cols).mapError .grid
  | .load matrix => do
    return ofRows (← (matrix.mapM (List.mapM Value.cellText?)).mapError .tooLong)
  | .reset rows cols => do return empty (← (Grid.checkSize rows cols).mapError .grid)

/-- A sheet after calls, one after another; one that is refused changes nothing. -/
def mutated (s : Sheet) (calls : List Mutation) : Sheet :=
  calls.foldl (fun s call => (s.mutate call).toOption.getD s) s

/-- A call names a cell that is not on the sheet or a size that no sheet has, or has a value that
cannot be written. -/
def Mutation.Refused (s : Sheet) : Mutation → Prop
  | .set c value => c ∉ s.size ∨ value.isTooLong = true
  | .resize rows cols | .reset rows cols => rows < 1 ∨ cols < 1
  | .load matrix => ∃ row ∈ matrix, ∃ value ∈ row, value.isTooLong = true
  | .addRow | .addColumn | .removeRow | .removeColumn => False

/-- A call replaces the whole sheet. -/
def Mutation.Renews : Mutation → Prop
  | .load _ | .reset .. => True
  | _ => False

/-- The rows and columns of a sheet after a call that goes through. -/
def Mutation.extent (rows cols : Nat) : Mutation → Nat × Nat
  | .set .. => (rows, cols)
  | .addRow => (rows + 1, cols)
  | .addColumn => (rows, cols + 1)
  | .removeRow => (max 1 (rows - 1), cols)
  | .removeColumn => (rows, max 1 (cols - 1))
  | .resize newRows newCols | .reset newRows newCols => (newRows.toNat, newCols.toNat)
  | .load matrix => (max 1 matrix.length, (matrix.map List.length).foldl max 1)

/-- The value that a call has for a cell. -/
def Mutation.entry? (c : Cell) : Mutation → Option Value
  | .set d value => if d = c then some value else none
  | .load matrix =>
    if 0 ≤ c.row ∧ 0 ≤ c.col then (matrix[c.row.toNat]?).bind (·[c.col.toNat]?) else none
  | _ => none

/-- A call gives a cell a text. -/
def Gives (s : Sheet) (call : Mutation) (c : Cell) (t : String) : Prop :=
  ¬ call.Refused s ∧ ∃ value, call.entry? c = some value ∧ value.cellText = t

/-- A call leaves a cell the text that it has, as long as the cell is on the sheet. -/
def Spares (s : Sheet) (call : Mutation) (c : Cell) : Prop :=
  call.Refused s ∨ ¬ call.Renews ∧ call.entry? c = none

/-- A cell is on a sheet and stays there through calls that leave it its text. -/
def Lasts (s : Sheet) (c : Cell) : List Mutation → Prop
  | [] => c ∈ s.size
  | call :: later => c ∈ s.size ∧ s.Spares call c ∧ (s.mutated [call]).Lasts c later

/-- **A text is the one that a cell was given last**: a call has given it, the cell has been on the
sheet ever since, and none of the later calls has given it another text or replaced the sheet. -/
def Given (s : Sheet) (calls : List Mutation) (c : Cell) (t : String) : Prop :=
  ∃ before call later, calls = before ++ call :: later ∧ (s.mutated before).Gives call c t ∧
    (s.mutated (before ++ [call])).Lasts c later

variable {s : Sheet} {call : Mutation} {calls later : List Mutation} {c : Cell} {t : String}

/-! ## What is refused -/

theorem cellText?_eq_ok {value : Value} :
    value.cellText? = .ok t ↔ value.isTooLong = false ∧ value.cellText = t := by
  unfold Value.cellText?
  cases value.isTooLong <;> simp

/-- Actions that fail where a condition does not hold, one for every element of a list. -/
theorem mapM_eq_ok_iff {α β ε : Type} {f : α → Except ε β} {p : α → Prop} {g : α → β}
    (h : ∀ a b, f a = .ok b ↔ p a ∧ g a = b) {as : List α} {bs : List β} :
    as.mapM f = .ok bs ↔ (∀ a ∈ as, p a) ∧ as.map g = bs := by
  simp only [Formula.mapM_eq_ok, h]
  constructor
  · intro hall
    induction hall with
    | nil => exact ⟨nofun, rfl⟩
    | cons hhead _ ih => exact ⟨List.forall_mem_cons.2 ⟨hhead.1, ih.1⟩, congrArg₂ _ hhead.2 ih.2⟩
  · rintro ⟨hall, rfl⟩
    induction as with
    | nil => exact .nil
    | cons a as ih =>
      obtain ⟨ha, has⟩ := List.forall_mem_cons.1 hall
      exact .cons ⟨ha, rfl⟩ (ih has)

theorem mapM_cellText?_eq_ok {matrix : List (List Value)} {rows : List (List String)} :
    matrix.mapM (List.mapM Value.cellText?) = .ok rows ↔
      (∀ row ∈ matrix, ∀ value ∈ row, value.isTooLong = false) ∧
        matrix.map (List.map Value.cellText) = rows :=
  mapM_eq_ok_iff fun _ _ => mapM_eq_ok_iff fun _ _ => cellText?_eq_ok

section

variable {value : Value} {matrix : List (List Value)} {rows cols : Int}

theorem mutate_set (h : ¬ (Mutation.set c value).Refused s) :
    ∃ hc : c ∈ s.size, s.mutate (.set c value) = .ok (s.put c value.cellText hc) := by
  obtain ⟨hc, hvalue⟩ := not_or.1 h
  refine ⟨not_not.1 hc, ?_⟩
  rw [mutate, dif_pos (not_not.1 hc), cellText?_eq_ok.2 ⟨eq_false_of_ne_true hvalue, rfl⟩]
  rfl

theorem mutate_load (h : ¬ (Mutation.load matrix).Refused s) :
    s.mutate (.load matrix) = .ok (ofRows (matrix.map (List.map Value.cellText))) := by
  have hshort : ∀ row ∈ matrix, ∀ value ∈ row, value.isTooLong = false := by
    simpa [Mutation.Refused] using h
  rw [mutate, mapM_cellText?_eq_ok.2 ⟨hshort, rfl⟩]
  rfl

theorem exists_checkSize (h : ¬ (rows < 1 ∨ cols < 1)) :
    ∃ size, Grid.checkSize rows cols = .ok size ∧ (size.rows, size.cols) = (rows.toNat, cols.toNat) :=
  ⟨_, dif_pos (by omega), rfl⟩

theorem checkSize_eq_error (h : rows < 1 ∨ cols < 1) :
    Grid.checkSize rows cols = .error (.badSize rows cols) := dif_neg (by omega)

theorem mutate_resize (h : ¬ (Mutation.resize rows cols).Refused s) :
    ∃ size, s.resize rows cols = .ok (s.regrid (s.grid.resize size)) ∧
      s.mutate (.resize rows cols) = .ok (s.regrid (s.grid.resize size)) ∧
      (size.rows, size.cols) = (rows.toNat, cols.toNat) := by
  obtain ⟨size, hsize, hextent⟩ := exists_checkSize h
  have hresize : s.resize rows cols = .ok (s.regrid (s.grid.resize size)) := by
    rw [resize, hsize]
    rfl
  exact ⟨size, hresize, by rw [mutate, hresize]; rfl, hextent⟩

theorem mutate_reset (h : ¬ (Mutation.reset rows cols).Refused s) :
    ∃ size, s.mutate (.reset rows cols) = .ok (empty size) ∧
      (size.rows, size.cols) = (rows.toNat, cols.toNat) := by
  obtain ⟨size, hsize, hextent⟩ := exists_checkSize h
  exact ⟨size, by rw [mutate, hsize]; rfl, hextent⟩

end

theorem exists_mutate (h : ¬ call.Refused s) : ∃ s', s.mutate call = .ok s' := by
  cases call with
  | set c value =>
    obtain ⟨hc, hmutate⟩ := mutate_set h
    exact ⟨_, hmutate⟩
  | load matrix => exact ⟨_, mutate_load h⟩
  | resize rows cols =>
    obtain ⟨size, -, hmutate, -⟩ := mutate_resize h
    exact ⟨_, hmutate⟩
  | reset rows cols =>
    obtain ⟨size, hmutate, -⟩ := mutate_reset h
    exact ⟨_, hmutate⟩
  | addRow | addColumn | removeRow | removeColumn => exact ⟨_, rfl⟩

theorem exists_refusal (h : call.Refused s) : ∃ e, s.mutate call = .error e := by
  cases call with
  | set c value =>
    by_cases hc : c ∈ s.size
    · have hvalue := h.resolve_left (not_not.2 hc)
      exact ⟨.tooLong .writing, by rw [mutate, dif_pos hc, Value.cellText?, if_pos hvalue]; rfl⟩
    · exact ⟨_, dif_neg hc⟩
  | load matrix =>
    obtain ⟨row, hrow, value, hvalue, hlong⟩ := h
    rw [mutate]
    cases hrows : matrix.mapM (List.mapM Value.cellText?) with
    | error e => exact ⟨_, rfl⟩
    | ok rows =>
      rw [(mapM_cellText?_eq_ok.1 hrows).1 row hrow value hvalue] at hlong
      cases hlong
  | resize rows cols => exact ⟨_, by rw [mutate, resize, checkSize_eq_error h]; rfl⟩
  | reset rows cols => exact ⟨_, by rw [mutate, checkSize_eq_error h]; rfl⟩
  | addRow | addColumn | removeRow | removeColumn => exact h.elim

theorem mutated_of_refused (h : call.Refused s) : s.mutated [call] = s := by
  obtain ⟨e, he⟩ := exists_refusal h
  simp only [mutated, List.foldl_cons, List.foldl_nil, he]
  rfl

theorem mutated_of_mutate {s' : Sheet} (h : s.mutate call = .ok s') : s.mutated [call] = s' := by
  simp only [mutated, List.foldl_cons, List.foldl_nil, h]
  rfl

theorem mutated_append (s : Sheet) (calls later : List Mutation) :
    s.mutated (calls ++ later) = (s.mutated calls).mutated later := List.foldl_append

/-- A call that goes through has the extent that it should have. -/
theorem size_mutated (h : ¬ call.Refused s) :
    ((s.mutated [call]).size.rows, (s.mutated [call]).size.cols) =
      call.extent s.size.rows s.size.cols := by
  have hrows := s.size.rows_pos
  have hcols := s.size.cols_pos
  cases call with
  | set c value =>
    obtain ⟨hc, hmutate⟩ := mutate_set h
    rw [mutated_of_mutate hmutate]
    rfl
  | load matrix =>
    rw [mutated_of_mutate (mutate_load h)]
    change (max 1 (matrix.map _).length, ((matrix.map _).map List.length).foldl max 1) = _
    rw [List.length_map, List.map_map]
    simp only [Function.comp_def, List.length_map]
    rfl
  | resize rows cols =>
    obtain ⟨size, -, hmutate, hextent⟩ := mutate_resize h
    rw [mutated_of_mutate hmutate]
    exact hextent
  | reset rows cols =>
    obtain ⟨size, hmutate, hextent⟩ := mutate_reset h
    rw [mutated_of_mutate hmutate]
    exact hextent
  | addRow | addColumn => rfl
  | removeRow =>
    rw [mutated_of_mutate rfl]
    by_cases hone : 1 < s.size.rows
    · have hremove : s.removeRow = s.regrid (s.grid.resize _) :=
        (if_pos hone).trans (congrArg s.regrid (dif_pos hone))
      rw [hremove]
      have hmax : s.size.rows - 1 = max 1 (s.size.rows - 1) := by omega
      exact Prod.ext hmax rfl
    · rw [removeRow, if_neg hone]
      exact Prod.ext (by simp only [Mutation.extent]; omega) rfl
  | removeColumn =>
    rw [mutated_of_mutate rfl]
    by_cases hone : 1 < s.size.cols
    · have hremove : s.removeColumn = s.regrid (s.grid.resize _) :=
        (if_pos hone).trans (congrArg s.regrid (dif_pos hone))
      rw [hremove]
      have hmax : s.size.cols - 1 = max 1 (s.size.cols - 1) := by omega
      exact Prod.ext rfl hmax
    · rw [removeColumn, if_neg hone]
      exact Prod.ext rfl (by simp only [Mutation.extent]; omega)

/-! ## One call -/

theorem le_foldl_max {ns : List Nat} {n m : Nat} (h : n ∈ ns ∨ n ≤ m) : n ≤ ns.foldl max m := by
  induction ns generalizing m with
  | nil => simpa using h
  | cons a ns ih =>
    refine ih ?_
    rcases h with h | h
    · rcases List.mem_cons.1 h with rfl | h
      · exact .inr (Nat.le_max_right m n)
      · exact .inl h
    · exact .inr (h.trans (Nat.le_max_left m a))

/-- A cell that rows have an entry for is on their sheet. -/
theorem mem_size_ofRows {rows : List (List String)} (hplace : 0 ≤ c.row ∧ 0 ≤ c.col)
    (h : (rows[c.row.toNat]?).bind (·[c.col.toNat]?) = some t) : c ∈ (ofRows rows).size := by
  obtain ⟨row, hrow, ht⟩ := Option.bind_eq_some_iff.1 h
  have hlength : c.row.toNat < rows.length := (List.getElem?_eq_some_iff.1 hrow).1
  have hwidth : c.col.toNat < row.length := (List.getElem?_eq_some_iff.1 ht).1
  have hmax : row.length ≤ (rows.map List.length).foldl max 1 :=
    le_foldl_max (.inl (List.mem_map_of_mem (List.mem_of_getElem? hrow)))
  change c ∈ Grid.sizeOfRows rows
  refine Size.mem_iff.2 ?_
  simp only [Grid.sizeOfRows]
  omega

/-- The text of a cell is the entry of the rows for it, if there is one. -/
theorem text_ofRows (rows : List (List String)) (c : Cell) : (ofRows rows).text c =
    if 0 ≤ c.row ∧ 0 ≤ c.col then ((rows[c.row.toNat]?).bind (·[c.col.toNat]?)).getD "" else "" := by
  have hentry : ((rows.map List.toArray).toArray[c.row.toNat]?).bind (·[c.col.toNat]?) =
      (rows[c.row.toNat]?).bind (·[c.col.toNat]?) := by
    cases hrow : rows[c.row.toNat]? <;> simp [hrow]
  by_cases hc : c ∈ (ofRows rows).size
  · have hmem := Size.mem_iff.1 hc
    rw [if_pos ⟨hmem.1, hmem.2.2.1⟩, ← hentry]
    exact (Grid.text_ofFn _ _ c).trans (if_pos hc)
  · refine (Grid.text_of_not_mem hc).trans ?_
    split
    · rename_i hplace
      cases h : (rows[c.row.toNat]?).bind (·[c.col.toNat]?) with
      | none => rfl
      | some t => exact absurd (mem_size_ofRows hplace h) hc
    · rfl

/-- A call that moves a border, or that does nothing. -/
theorem text_mutated_of_spares (h : s.Spares call c) : (s.mutated [call]).text c =
    if c ∈ (s.mutated [call]).size then s.text c else "" := by
  have hborder (command : Command) (hmoves : command.MovesBorders) :
      s.Crops (s.perform 0 command) := crops_perform (.inr hmoves) 0
  by_cases hrefused : call.Refused s
  · rw [mutated_of_refused hrefused]
    exact crops_of_grid (s := s) rfl c
  · obtain ⟨hrenews, hentry⟩ := h.resolve_left hrefused
    cases call with
    | set d value =>
      obtain ⟨hd, hmutate⟩ := mutate_set hrefused
      have hne : c ≠ d := by
        rintro rfl
        simp [Mutation.entry?] at hentry
      have htext : (s.put d value.cellText hd).text c = s.text c :=
        (text_put _ _ c).trans (if_neg hne)
      rw [mutated_of_mutate hmutate, htext]
      exact crops_of_grid (s := s) rfl c
    | load | reset => exact absurd trivial hrenews
    | resize rows cols =>
      have hperform : s.mutated [.resize rows cols] = s.perform 0 (.resize rows cols) := by
        obtain ⟨size, hresize, hmutate, -⟩ := mutate_resize hrefused
        rw [mutated_of_mutate hmutate, perform, hresize]
        rfl
      rw [hperform]
      exact hborder (.resize rows cols) trivial c
    | addRow => exact hborder .addRow trivial c
    | addColumn => exact hborder .addColumn trivial c
    | removeRow => exact hborder .removeRow trivial c
    | removeColumn => exact hborder .removeColumn trivial c

/-- A cell that is given a text has it. -/
theorem text_mutated_of_gives (h : s.Gives call c t) :
    (s.mutated [call]).text c = t ∧ c ∈ (s.mutated [call]).size := by
  obtain ⟨hrefused, value, hentry, rfl⟩ := h
  cases call with
  | set d new =>
    obtain ⟨hd, hmutate⟩ := mutate_set hrefused
    obtain ⟨rfl, hvalue⟩ := Option.ite_none_right_eq_some.1 hentry
    obtain rfl := Option.some.inj hvalue
    rw [mutated_of_mutate hmutate]
    exact ⟨(text_put _ _ d).trans (if_pos rfl), hd⟩
  | load matrix =>
    obtain ⟨hplace, hentry⟩ := Option.ite_none_right_eq_some.1 hentry
    rw [mutated_of_mutate (mutate_load hrefused)]
    have htext : ((matrix.map (List.map Value.cellText))[c.row.toNat]?).bind (·[c.col.toNat]?) =
        some value.cellText := by
      obtain ⟨row, hrow, hvalue⟩ := Option.bind_eq_some_iff.1 hentry
      simp [hrow, hvalue]
    refine ⟨?_, mem_size_ofRows hplace htext⟩
    rw [text_ofRows, if_pos hplace, htext]
    rfl
  | addRow | addColumn | removeRow | removeColumn | resize | reset => cases hentry

/-- Where a call that replaces the sheet has no value, the sheet is empty. -/
theorem text_mutated_of_renews (hrefused : ¬ call.Refused s) (hrenews : call.Renews)
    (hentry : call.entry? c = none) : (s.mutated [call]).text c = "" := by
  cases call with
  | load matrix =>
    rw [mutated_of_mutate (mutate_load hrefused), text_ofRows]
    split
    · rename_i hplace
      have hnone : (matrix[c.row.toNat]?).bind (·[c.col.toNat]?) = none :=
        (if_pos hplace).symm.trans hentry
      cases hrow : matrix[c.row.toNat]? with
      | none => simp [hrow]
      | some row =>
        have hvalue : row[c.col.toNat]? = none := by simpa [hrow] using hnone
        simp [hrow, hvalue]
    · rfl
  | reset rows cols =>
    obtain ⟨size, hmutate, -⟩ := mutate_reset hrefused
    rw [mutated_of_mutate hmutate]
    exact Grid.text_empty size c
  | set | addRow | addColumn | removeRow | removeColumn | resize => exact hrenews.elim

/-- **A call gives a cell a text, leaves it the text that it has, or empties it.** -/
theorem text_mutated (s : Sheet) (call : Mutation) (c : Cell) :
    (∃ t, s.Gives call c t) ∨
      (¬ ∃ t, s.Gives call c t) ∧ (s.Spares call c ∨ (s.mutated [call]).text c = "") := by
  by_cases hrefused : call.Refused s
  · exact .inr ⟨fun ⟨_, hgives⟩ => hgives.1 hrefused, .inl (.inl hrefused)⟩
  · cases hentry : call.entry? c with
    | some value => exact .inl ⟨value.cellText, hrefused, value, hentry, rfl⟩
    | none =>
      refine .inr ⟨?_, ?_⟩
      · rintro ⟨t, -, value, hvalue, -⟩
        rw [hentry] at hvalue
        cases hvalue
      · by_cases hrenews : call.Renews
        · exact .inr (text_mutated_of_renews hrefused hrenews hentry)
        · exact .inl (.inr ⟨hrenews, hentry⟩)

/-! ## A history of calls -/

theorem lasts_append : s.Lasts c (calls ++ [call]) ↔
    s.Lasts c calls ∧ (s.mutated calls).Spares call c ∧ c ∈ (s.mutated (calls ++ [call])).size := by
  induction calls generalizing s with
  | nil =>
    simp only [List.nil_append, Lasts]
    exact .rfl
  | cons first calls ih =>
    simp only [List.cons_append, Lasts, ih]
    exact ⟨fun ⟨hc, hspares, hlasts, hrest⟩ => ⟨⟨hc, hspares, hlasts⟩, hrest⟩,
      fun ⟨⟨hc, hspares, hlasts⟩, hrest⟩ => ⟨hc, hspares, hlasts, hrest⟩⟩

/-- What a cell was given last after one more call. -/
theorem given_append : s.Given (calls ++ [call]) c t ↔ (s.mutated calls).Gives call c t ∨
    s.Given calls c t ∧ (s.mutated calls).Spares call c ∧
      c ∈ (s.mutated (calls ++ [call])).size := by
  constructor
  · rintro ⟨before, first, later, hcalls, hgives, hlasts⟩
    rcases List.eq_nil_or_concat later with rfl | ⟨later, last, rfl⟩
    · obtain ⟨rfl, hcall⟩ := List.append_inj' hcalls rfl
      obtain rfl := List.singleton_injective hcall
      exact .inl hgives
    · rw [List.concat_eq_append, ← List.cons_append, ← List.append_assoc] at hcalls
      obtain ⟨rfl, hcall⟩ := List.append_inj' hcalls rfl
      obtain rfl := List.singleton_injective hcall
      rw [List.concat_eq_append, lasts_append, ← mutated_append, ← mutated_append] at hlasts
      obtain ⟨hlasts, hspares, hc⟩ := hlasts
      simp only [List.append_assoc, List.cons_append, List.nil_append] at hspares hc ⊢
      exact .inr ⟨⟨before, first, later, rfl, hgives, hlasts⟩, hspares, hc⟩
  · rintro (hgives | ⟨⟨before, first, later, rfl, hgives, hlasts⟩, hspares, hc⟩)
    · refine ⟨calls, call, [], rfl, hgives, ?_⟩
      rw [mutated_append]
      exact (text_mutated_of_gives hgives).2
    · refine ⟨before, first, later ++ [call], by simp, hgives, ?_⟩
      rw [lasts_append, ← mutated_append, ← mutated_append]
      simp only [List.append_assoc, List.cons_append, List.nil_append] at hspares hc ⊢
      exact ⟨hlasts, hspares, hc⟩

/-- **A cell has the text that it was given last**, and is empty if there is none. -/
theorem text_of_given (h : ∀ d, s.text d = "") (calls : List Mutation) (c : Cell) :
    (∀ t, s.Given calls c t → (s.mutated calls).text c = t) ∧
      ((¬ ∃ t, s.Given calls c t) → (s.mutated calls).text c = "") := by
  induction calls using List.reverseRecOn with
  | nil =>
    refine ⟨fun t ⟨before, call, later, hcalls, _⟩ => ?_, fun _ => h c⟩
    exact absurd hcalls.symm (by simp)
  | append_singleton calls call ih =>
    obtain ⟨hgiven, hempty⟩ := ih
    simp only [given_append]
    have hone : (s.mutated calls).mutated [call] = s.mutated (calls ++ [call]) :=
      (mutated_append s calls [call]).symm
    have htext := text_mutated (s.mutated calls) call c
    rw [hone] at htext
    constructor
    · rintro t (hgives | ⟨hbefore, hspares, hc⟩)
      · exact hone ▸ (text_mutated_of_gives hgives).1
      · have hkept := text_mutated_of_spares hspares
        rw [hone, if_pos hc] at hkept
        exact hkept.trans (hgiven t hbefore)
    · intro hnone
      rcases htext with ⟨t, hgives⟩ | ⟨-, hspares | hempty'⟩
      · exact absurd ⟨t, .inl hgives⟩ hnone
      · have hkept := text_mutated_of_spares hspares
        rw [hone] at hkept
        rw [hkept]
        split
        · rename_i hc
          exact hempty fun ⟨t, hbefore⟩ => hnone ⟨t, .inr ⟨hbefore, hspares, hc⟩⟩
        · rfl
      · exact hempty'

/-- **A sheet stores texts.** After any calls it is a rectangle with a row and a column; a call is
refused and changes nothing, or goes through and gives the sheet its extent; and every cell has the
text that it was given last, or none. -/
theorem mutated_keeps_texts (size : Size) (calls : List Mutation) :
    let s := (empty size).mutated calls
    (0 < s.size.rows ∧ s.grid.rows.length = s.size.rows ∧
      0 < s.size.cols ∧ (∀ row ∈ s.grid.rows, row.length = s.size.cols) ∧
      ∀ c ∈ s.size, (s.grid.rows[c.row.toNat]?).bind (·[c.col.toNat]?) = some (s.text c)) ∧
    (∀ call : Mutation,
      (call.Refused s → (∃ e, s.mutate call = .error e) ∧
        (empty size).mutated (calls ++ [call]) = s) ∧
      (¬ call.Refused s → ∃ s', s.mutate call = .ok s' ∧
        (empty size).mutated (calls ++ [call]) = s' ∧
        (s'.size.rows, s'.size.cols) = call.extent s.size.rows s.size.cols)) ∧
    ∀ c, (∀ t, (empty size).Given calls c t → s.text c = t) ∧
      ((¬ ∃ t, (empty size).Given calls c t) → s.text c = "") := by
  intro s
  refine ⟨⟨s.size.rows_pos, Grid.length_rows, s.size.cols_pos,
    fun _ hrow => Grid.length_of_mem_rows hrow, fun _ hc => Grid.rows_getElem? hc⟩,
    fun call => ⟨fun hrefused => ⟨exists_refusal hrefused, ?_⟩, fun hrefused => ?_⟩,
    text_of_given (s := empty size) (Grid.text_empty size) calls⟩
  · rw [mutated_append, mutated_of_refused hrefused]
  · obtain ⟨s', hs'⟩ := exists_mutate hrefused
    have hextent := size_mutated hrefused
    rw [mutated_of_mutate hs'] at hextent
    exact ⟨s', hs', (mutated_append ..).trans (mutated_of_mutate hs'), hextent⟩

/-- A text that was written into the first cell is still there when a row has been added. -/
theorem text_kept_by_addRow :
    (empty ⟨1, 1, by decide, by decide⟩).Given [.set ⟨0, 0⟩ (.string "x"), .addRow] ⟨0, 0⟩ "x" ∧
      ((empty ⟨1, 1, by decide, by decide⟩).mutated
        [.set ⟨0, 0⟩ (.string "x"), .addRow]).text ⟨0, 0⟩ = "x" := by
  have hset : (empty ⟨1, 1, by decide, by decide⟩).Gives
      (.set ⟨0, 0⟩ (.string "x")) ⟨0, 0⟩ "x" :=
    ⟨not_or.2 ⟨by decide, by decide⟩, .string "x", rfl, rfl⟩
  have hfirst : (empty ⟨1, 1, by decide, by decide⟩).Given ([] ++ [.set ⟨0, 0⟩ (.string "x")])
      ⟨0, 0⟩ "x" := given_append.2 (.inl hset)
  have hgiven : (empty ⟨1, 1, by decide, by decide⟩).Given
      ([.set ⟨0, 0⟩ (.string "x")] ++ [.addRow]) ⟨0, 0⟩ "x" :=
    given_append.2 (.inr ⟨hfirst, .inr ⟨id, rfl⟩, by decide⟩)
  exact ⟨hgiven, ((mutated_keeps_texts _ _).2.2 _).1 _ hgiven⟩

end Spreadsheet.Sheet
