import Spreadsheet.Reference

/-!
# Grids of texts

A grid is a rectangle of texts with at least one row and one column. Seen from outside it is a text
for every cell of the plane (`Grid.text`), the empty one outside the rectangle; every operation is
described by what it does to that view.

* `Size`, `Grid`, membership of cells in a grid;
* `Grid.ofFn`, `Grid.set`, `Grid.resize`, `Grid.ofRows` and the equations of `Grid.text` for them;
* `Grid.Refusal`: why an operation is refused.
-/

namespace Spreadsheet

/-- The extent of a grid. -/
structure Size where
  rows : Nat
  cols : Nat
  rows_pos : 0 < rows := by omega
  cols_pos : 0 < cols := by omega
  deriving DecidableEq, Repr

/-- A rectangle of texts. -/
structure Grid where
  size : Size
  cells : Vector (Vector String size.cols) size.rows

/-- A cell lies within a size. -/
instance : Membership Cell Size where
  mem s c := 0 ≤ c.row ∧ c.row < s.rows ∧ 0 ≤ c.col ∧ c.col < s.cols

theorem Size.mem_iff {s : Size} {c : Cell} :
    c ∈ s ↔ 0 ≤ c.row ∧ c.row < s.rows ∧ 0 ≤ c.col ∧ c.col < s.cols := .rfl

instance (s : Size) (c : Cell) : Decidable (c ∈ s) := decidable_of_iff' _ Size.mem_iff

theorem Size.row_lt {s : Size} {c : Cell} (h : c ∈ s) : c.row.toNat < s.rows := by
  have := Size.mem_iff.1 h
  omega

theorem Size.col_lt {s : Size} {c : Cell} (h : c ∈ s) : c.col.toNat < s.cols := by
  have := Size.mem_iff.1 h
  omega

/-- The cells of a size, row by row. -/
def Size.toList (s : Size) : List Cell :=
  (List.range s.rows).flatMap fun (r : Nat) => (List.range s.cols).map fun (c : Nat) => ⟨r, c⟩

/-- The text of a size. -/
def Size.text (s : Size) : String := toString s.rows ++ "x" ++ toString s.cols

namespace Grid

/-! ## Refusals -/

/-- Why an operation on a grid is refused. -/
inductive Refusal where
  /-- A grid has at least one row and one column. -/
  | badSize (rows cols : Int)
  /-- The cell is not in the grid. -/
  | outside (c : Cell) (size : Size)
  deriving DecidableEq, Repr

/-- The wording of a refusal. -/
def Refusal.message : Refusal → String
  | badSize rows cols =>
    "Grid must have at least one row and one column, got " ++ toString rows ++ "x" ++ toString cols
  | outside c size =>
    "Cell (" ++ toString c.row ++ ", " ++ toString c.col ++ ") is outside the " ++ size.text
      ++ " grid"

/-- A size from any two numbers. -/
def checkSize (rows cols : Int) : Except Refusal Size :=
  if h : 1 ≤ rows ∧ 1 ≤ cols then .ok ⟨rows.toNat, cols.toNat, by omega, by omega⟩
  else .error (.badSize rows cols)

/-! ## The view -/

/-- The text of a cell; cells outside the grid are empty. -/
def text (g : Grid) (c : Cell) : String :=
  if h : c ∈ g.size then
    have hr : c.row.toNat < g.size.rows := Size.row_lt h
    have hc : c.col.toNat < g.size.cols := Size.col_lt h
    g.cells[c.row.toNat][c.col.toNat]
  else ""

/-- The grid of a size whose texts are given. -/
def ofFn (s : Size) (f : Cell → String) : Grid :=
  ⟨s, Vector.ofFn fun r => Vector.ofFn fun c => f ⟨r.val, c.val⟩⟩

/-- The texts of a grid, row by row. -/
def rows (g : Grid) : List (List String) := g.cells.toList.map Vector.toList

@[simp] theorem size_ofFn (s : Size) (f : Cell → String) : (ofFn s f).size = s := rfl

theorem text_of_mem {g : Grid} {c : Cell} (h : c ∈ g.size) (hr : c.row.toNat < g.size.rows)
    (hc : c.col.toNat < g.size.cols) : g.text c = g.cells[c.row.toNat][c.col.toNat] := by
  simp [text, h]

theorem text_of_not_mem {g : Grid} {c : Cell} (h : c ∉ g.size) : g.text c = "" := by
  simp [text, h]

theorem text_ofFn (s : Size) (f : Cell → String) (c : Cell) :
    (ofFn s f).text c = if c ∈ s then f c else "" := by
  by_cases h : c ∈ s
  · have := Size.mem_iff.1 h
    have hr : ((c.row.toNat : Nat) : Int) = c.row := by omega
    have hc : ((c.col.toNat : Nat) : Int) = c.col := by omega
    rw [text_of_mem (g := ofFn s f) h (Size.row_lt h) (Size.col_lt h)]
    simp [ofFn, hr, hc, h]
  · rw [text_of_not_mem (g := ofFn s f) h, if_neg h]

/-! ## Operations -/

/-- A grid of empty texts. -/
def empty (s : Size) : Grid := ofFn s fun _ => ""

/-- A grid with the text of one of its cells replaced. -/
def set (g : Grid) (c : Cell) (text : String) (h : c ∈ g.size) : Grid :=
  have hr : c.row.toNat < g.size.rows := Size.row_lt h
  have hc : c.col.toNat < g.size.cols := Size.col_lt h
  { g with cells := g.cells.set c.row.toNat (g.cells[c.row.toNat].set c.col.toNat text) }

/-- The grid of another size: what lies outside is dropped, new cells are empty. -/
def resize (g : Grid) (s : Size) : Grid := ofFn s g.text

/-- A grid with one more row. -/
def addRow (g : Grid) : Grid :=
  g.resize ⟨g.size.rows + 1, g.size.cols, by omega, g.size.cols_pos⟩

/-- A grid with one more column. -/
def addColumn (g : Grid) : Grid :=
  g.resize ⟨g.size.rows, g.size.cols + 1, g.size.rows_pos, by omega⟩

/-- A grid without its last row, unless that is its only one. -/
def removeRow (g : Grid) : Grid :=
  if h : 1 < g.size.rows then
    g.resize ⟨g.size.rows - 1, g.size.cols, by omega, g.size.cols_pos⟩
  else g

/-- A grid without its last column, unless that is its only one. -/
def removeColumn (g : Grid) : Grid :=
  if h : 1 < g.size.cols then
    g.resize ⟨g.size.rows, g.size.cols - 1, g.size.rows_pos, by omega⟩
  else g

/-- The size that holds rows of texts. -/
def sizeOfRows (rows : List (List String)) : Size :=
  ⟨max 1 rows.length, (rows.map List.length).foldl max 1, by omega,
    by
      have (l : List Nat) (n : Nat) (h : 0 < n) : 0 < l.foldl max n := by
        induction l generalizing n with
        | nil => exact h
        | cons a l ih => exact ih _ (by omega)
      exact this _ _ Nat.one_pos⟩

/-- The grid of rows of texts; short rows are filled up with empty cells. -/
def ofRows (rows : List (List String)) : Grid :=
  let table := (rows.map List.toArray).toArray
  ofFn (sizeOfRows rows) fun c => ((table[c.row.toNat]?).bind (·[c.col.toNat]?)).getD ""

@[simp] theorem size_empty (s : Size) : (empty s).size = s := rfl

@[simp] theorem size_set (g : Grid) (c : Cell) (text : String) (h : c ∈ g.size) :
    (g.set c text h).size = g.size := rfl

@[simp] theorem size_resize (g : Grid) (s : Size) : (g.resize s).size = s := rfl

theorem text_empty (s : Size) (c : Cell) : (empty s).text c = "" := by
  simp [empty, text_ofFn]

theorem text_resize (g : Grid) (s : Size) (c : Cell) :
    (g.resize s).text c = if c ∈ s then g.text c else "" := text_ofFn ..

theorem text_set (g : Grid) (c : Cell) (t : String) (h : c ∈ g.size) (c' : Cell) :
    (g.set c t h).text c' = if c' = c then t else g.text c' := by
  by_cases h' : c' ∈ g.size
  · rw [text_of_mem (g := g.set c t h) h' (Size.row_lt h') (Size.col_lt h'),
      text_of_mem h' (Size.row_lt h') (Size.col_lt h')]
    by_cases e : c' = c
    · subst e; simp [set]
    · have : c'.row.toNat ≠ c.row.toNat ∨ c'.col.toNat ≠ c.col.toNat := by
        have hc := Size.mem_iff.1 h
        have hc' := Size.mem_iff.1 h'
        obtain ⟨r, k⟩ := c'
        obtain ⟨r', k'⟩ := c
        simp only [Cell.mk.injEq] at e hc hc' ⊢
        omega
      by_cases hr : c.row.toNat = c'.row.toNat
      · have hk : c.col.toNat ≠ c'.col.toNat := by omega
        simp [set, hr, e, hk]
      · simp [set, hr, e]
  · rw [text_of_not_mem (g := g.set c t h) h', text_of_not_mem h', if_neg]
    rintro rfl
    exact h' h

end Grid

end Spreadsheet
