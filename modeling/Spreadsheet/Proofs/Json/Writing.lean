import Mathlib.Data.List.Basic
import Spreadsheet.Json.Limits
import Spreadsheet.Json.Printer
import Spreadsheet.Proofs.Decimal
import Spreadsheet.Proofs.Double

/-!
# The text of a value

On a line of a log a value is written with the fields of its objects in the order of their names.
So it has the text of the value with its fields put in order, which is the same value but for that
order, and all characters of the text are spaces and visible characters of ASCII.

* `sorted`: a value with its fields in order; `get?_sorted`: its fields are those of the value;
* `Style.plain`: fields are written as they come; **`text_eq_write_sorted`**;
* `Visible`; **`visible_text`**: no line ends, no controls, nothing beyond ASCII.
-/

namespace Spreadsheet.Json

/-! ## Fields in order -/

/-- A field is not behind another one in the order of names. -/
def fieldLe {α : Type} (a b : String × α) : Bool := nameLe a.1 b.1

mutual

/-- A value with the fields of its objects in the order of their names: what a value is, the order
of fields apart. -/
def sorted : Json → Json
  | array items => array (sortedItems items)
  | object fields => object ((sortedFields fields).mergeSort fieldLe)
  | v => v

/-- The items of an array with the fields inside them in order. -/
def sortedItems : List Json → List Json
  | [] => []
  | v :: vs => v.sorted :: sortedItems vs

/-- The fields of an object with the fields inside them in order. -/
def sortedFields : List (String × Json) → List (String × Json)
  | [] => []
  | (k, v) :: rest => (k, v.sorted) :: sortedFields rest

end

/-- The style of the lines of a log, but with the fields as they come. -/
def Style.plain : Style := { Style.line with sorted := false }

theorem writeFields_eq_map (style : Style) (fields : List (String × Json)) :
    writeFields style fields = fields.map fun f => (f.1, f.2.write style) := by
  induction fields with
  | nil => rfl
  | cons f rest ih => rw [writeFields, ih]; rfl

theorem sortedFields_eq_map (fields : List (String × Json)) :
    sortedFields fields = fields.map fun f => (f.1, f.2.sorted) := by
  induction fields with
  | nil => rfl
  | cons f rest ih => rw [sortedFields, ih]; rfl

mutual

/-- **The text of a value** is that of its fields in order. -/
theorem text_eq_write_sorted : ∀ v : Json, v.write Style.line = v.sorted.write Style.plain
  | null | bool _ | int _ | float _ | string _ => rfl
  | array items => by
    rw [sorted, write, write, writeItems_sortedItems items]
    rfl
  | object fields => by
    have hfields := writeFields_sortedFields fields
    rw [writeFields_eq_map Style.plain] at hfields
    have hsort : (writeFields Style.line fields).mergeSort (fun a b => nameLe a.1 b.1) =
        writeFields Style.plain ((sortedFields fields).mergeSort fieldLe) := by
      rw [hfields, writeFields_eq_map]
      refine (List.map_mergeSort ?_).symm
      exact fun _ _ _ _ => rfl
    rw [sorted, write, write]
    simp only [Style.plain, Style.line, if_true] at hsort ⊢
    rw [hsort]
    rfl

theorem writeItems_sortedItems :
    ∀ items, writeItems Style.line items = writeItems Style.plain (sortedItems items)
  | [] => rfl
  | v :: vs => by
    rw [sortedItems, writeItems, writeItems, text_eq_write_sorted v, writeItems_sortedItems vs]

theorem writeFields_sortedFields :
    ∀ fields, writeFields Style.line fields = writeFields Style.plain (sortedFields fields)
  | [] => rfl
  | (k, v) :: rest => by
    rw [sortedFields, writeFields, writeFields, text_eq_write_sorted v,
      writeFields_sortedFields rest]

end

variable {k : String} {v : Json} {p : Json → Bool} {fields : List (String × Json)}

theorem sortedFields_perm (fields : List (String × Json)) :
    ((sortedFields fields).mergeSort fieldLe).Perm (fields.map fun f => (f.1, f.2.sorted)) :=
  sortedFields_eq_map fields ▸ List.mergeSort_perm _ _

theorem names_sorted (fields : List (String × Json)) :
    (((sortedFields fields).mergeSort fieldLe).map Prod.fst).Perm (fields.map Prod.fst) := by
  have hperm := (sortedFields_perm fields).map Prod.fst
  rwa [List.map_map] at hperm

theorem get?_eq_some_iff (h : (fields.map Prod.fst).Nodup) :
    Fields.get? k fields = some v ↔ (k, v) ∈ fields := by
  induction fields with
  | nil => simp [Fields.get?]
  | cons f rest ih =>
    obtain ⟨k', v'⟩ := f
    rw [List.map_cons, List.nodup_cons] at h
    by_cases heq : k = k'
    · subst heq
      have hother : (k, v) ∉ rest := fun hmem => h.1 (List.mem_map.2 ⟨(k, v), hmem, rfl⟩)
      simp [Fields.get?, hother, eq_comm]
    · have hne : (k == k') = false := beq_eq_false_iff_ne.2 heq
      have hrest := ih h.2
      simp only [Fields.get?] at hrest
      simp [Fields.get?, List.lookup_cons, hne, heq, hrest]

/-- **The fields of a value in order** are its fields. -/
theorem get?_sorted (h : (fields.map Prod.fst).Nodup) (k : String) :
    (object fields).sorted.get? k = ((object fields).get? k).map sorted := by
  have hsorted := ((names_sorted fields).nodup_iff).2 h
  ext w
  change Fields.get? k ((sortedFields fields).mergeSort fieldLe) = some w ↔
    (Fields.get? k fields).map sorted = some w
  rw [get?_eq_some_iff hsorted, (sortedFields_perm fields).mem_iff, Option.map_eq_some_iff]
  simp only [get?_eq_some_iff h, List.mem_map, Prod.mk.injEq, Prod.exists]
  constructor
  · rintro ⟨_, v, hmem, rfl, rfl⟩
    exact ⟨v, hmem, rfl⟩
  · rintro ⟨v, hmem, rfl⟩
    exact ⟨k, v, hmem, rfl, rfl⟩

theorem allFields_eq_all (p : Json → Bool) (fields : List (String × Json)) :
    allFields p fields = fields.all fun f => f.2.all p := by
  induction fields with
  | nil => rfl
  | cons f rest ih => rw [allFields, ih]; rfl

mutual

/-- A test that the order of fields does not matter to finds the same in a value in order. -/
theorem all_sorted (hp : ∀ v : Json, p v.sorted = p v) : ∀ v : Json, v.sorted.all p = v.all p
  | null | bool _ | int _ | float _ | string _ => rfl
  | array items => congrArg₂ (· && ·) (hp (array items)) (allItems_sortedItems hp items)
  | object fields => by
    refine congrArg₂ (· && ·) (hp (object fields)) ?_
    rw [allFields_eq_all, (List.mergeSort_perm _ _).all_eq, ← allFields_eq_all,
      allFields_sortedFields hp fields]

theorem allItems_sortedItems (hp : ∀ v : Json, p v.sorted = p v) :
    ∀ items, allItems p (sortedItems items) = allItems p items
  | [] => rfl
  | v :: vs => congrArg₂ (· && ·) (all_sorted hp v) (allItems_sortedItems hp vs)

theorem allFields_sortedFields (hp : ∀ v : Json, p v.sorted = p v) :
    ∀ fields, allFields p (sortedFields fields) = allFields p fields
  | [] => rfl
  | (_, v) :: rest => congrArg₂ (· && ·) (all_sorted hp v) (allFields_sortedFields hp rest)

end

theorem fieldsDepth_perm {fields' : List (String × Json)} (h : fields.Perm fields') :
    fieldsDepth fields = fieldsDepth fields' := by
  induction h with
  | nil => rfl
  | cons f _ ih => exact congrArg (max f.2.depth) ih
  | swap f g rest => exact Nat.max_left_comm _ _ _
  | trans _ _ ih ih' => exact ih.trans ih'

mutual

theorem depth_sorted : ∀ v : Json, v.sorted.depth = v.depth
  | null | bool _ | int _ | float _ | string _ => rfl
  | array items => congrArg (· + 1) (itemsDepth_sortedItems items)
  | object fields => congrArg (· + 1)
    ((fieldsDepth_perm (List.mergeSort_perm _ _)).trans (fieldsDepth_sortedFields fields))

theorem itemsDepth_sortedItems : ∀ items, itemsDepth (sortedItems items) = itemsDepth items
  | [] => rfl
  | v :: vs => congrArg₂ max (depth_sorted v) (itemsDepth_sortedItems vs)

theorem fieldsDepth_sortedFields : ∀ fields, fieldsDepth (sortedFields fields) = fieldsDepth fields
  | [] => rfl
  | (_, v) :: rest => congrArg₂ max (depth_sorted v) (fieldsDepth_sortedFields rest)

end

/-! ## Characters -/

/-- A text of spaces and visible characters of ASCII. -/
def Visible (cs : List Char) : Prop := ∀ c ∈ cs, ' ' ≤ c ∧ c ≤ '~'

variable {c : Char} {cs ds : List Char}

theorem Visible.append (h : Visible cs) (h' : Visible ds) : Visible (cs ++ ds) :=
  List.forall_mem_append.2 ⟨h, h'⟩

theorem Visible.cons (hc : ' ' ≤ c ∧ c ≤ '~') (h : Visible cs) : Visible (c :: cs) :=
  List.forall_mem_cons.2 ⟨hc, h⟩

theorem visible_of_all (h : cs.all (fun c => ' ' ≤ c && c ≤ '~') = true) : Visible cs := by
  simpa [Visible] using h

theorem Visible.intercalate {pieces : List (List Char)} (hsep : Visible cs)
    (h : ∀ piece ∈ pieces, Visible piece) : Visible (cs.intercalate pieces) := by
  induction pieces with
  | nil => exact List.forall_mem_nil _
  | cons piece pieces ih =>
    obtain ⟨hpiece, hpieces⟩ := List.forall_mem_cons.1 h
    by_cases hne : pieces = []
    · rw [hne, List.intercalate_singleton]
      exact hpiece
    · rw [List.intercalate_cons_of_ne_nil hne]
      exact (hpiece.append hsep).append (ih hpieces)

theorem visible_hex (width n : Nat) : Visible (Text.hex width n) := by
  have hdigit : ∀ d < 16, ' ' ≤ Text.hexDigit d ∧ Text.hexDigit d ≤ '~' := by decide
  induction width generalizing n with
  | zero => exact List.forall_mem_nil _
  | succ width ih =>
    exact (ih _).append (List.forall_mem_singleton.2 (hdigit _ (Nat.mod_lt n (by decide))))

theorem visible_escapeChar (c : Char) : Visible (escapeChar Style.plain c) := by
  unfold escapeChar
  split
  · next e h =>
    have hletters : ∀ p ∈ shortEscapes, ' ' ≤ p.2 ∧ p.2 ≤ '~' := by decide
    obtain ⟨_, _, hmem, -⟩ := List.lookup_eq_some_iff.1 h
    exact Visible.cons (by decide) (List.forall_mem_singleton.2
      (hletters (c, e) (hmem ▸ List.mem_append_right _ List.mem_cons_self)))
  · split
    · next h =>
      simp only [Style.plain, Style.line, Bool.not_true, Bool.or_false, Bool.and_eq_true,
        decide_eq_true_eq] at h
      exact List.forall_mem_singleton.2 h
    · intro d hd
      obtain ⟨u, -, hd⟩ := List.mem_flatMap.1 hd
      exact Visible.cons (by decide) (Visible.cons (by decide) (visible_hex 4 u)) d hd

theorem visible_quoted (s : String) : Visible (quoted Style.plain s).toList := by
  rw [quoted, String.toList_ofList, List.cons_append]
  refine Visible.cons (by decide) (Visible.append ?_ (List.forall_mem_singleton.2 (by decide)))
  intro d hd
  obtain ⟨c, -, hd⟩ := List.mem_flatMap.1 hd
  exact visible_escapeChar c d hd

theorem visible_of_isDigit (h : c.isDigit = true) : ' ' ≤ c ∧ c ≤ '~' := by
  simp only [Char.isDigit, Bool.and_eq_true, decide_eq_true_eq, ge_iff_le,
    UInt32.le_iff_toNat_le] at h
  have hlow : 48 ≤ c.toNat := h.1
  have hhigh : c.toNat ≤ 57 := h.2
  constructor
  · exact UInt32.le_iff_toNat_le.2 (show 32 ≤ c.toNat by omega)
  · exact UInt32.le_iff_toNat_le.2 (show c.toNat ≤ 126 by omega)

theorem visible_of_numeric (h : Decimal.Numeric cs) : Visible cs := by
  intro c hc
  rcases h c hc with hdigit | hmark
  · exact visible_of_isDigit hdigit
  · simp only [List.mem_cons, List.not_mem_nil, or_false] at hmark
    rcases hmark with rfl | rfl | rfl | rfl <;> decide

theorem numeric_text {x : Float} (hx : x.isFinite = true) :
    Decimal.Numeric (Decimal.text x).toList := by
  cases hb : Decimal.Binary.ofFloat? x with
  | none =>
    rw [(Decimal.ofFloat?_eq_none_iff x).1 hb] at hx
    cases hx
  | some b =>
    have hmark : Decimal.Numeric Decimal.standard.wholeMark := fun c hc => by
      rcases List.mem_cons.1 hc with rfl | hc
      · exact .inr (by decide)
      · exact .inl (List.mem_singleton.1 hc ▸ by decide)
    rw [Decimal.text, hb, String.toList_ofList]
    exact (Decimal.numeric_sign _).append (Decimal.numeric_write hmark _)

theorem visible_floatText (x : Float) : Visible (floatText x).toList := by
  have hnames : ∀ s ∈ ["NaN", "-Infinity", "Infinity"], Visible s.toList := by
    simp only [List.forall_mem_cons, List.not_mem_nil, false_implies, implies_true, and_true]
    refine ⟨?_, ?_, ?_⟩ <;> exact visible_of_all (by decide)
  unfold floatText
  split
  · next h => exact visible_of_numeric (numeric_text h)
  · split
    · exact hnames _ (by simp)
    · split <;> exact hnames _ (by simp)

theorem visible_toString (n : Int) : Visible (toString n).toList := by
  rw [Int.toString_eq_repr, Int.repr_eq_if]
  split
  · rw [Nat.toList_repr]
    exact visible_of_numeric (Decimal.numeric_natDigits _)
  · rw [String.toList_append, Nat.toList_repr]
    exact Visible.cons (by decide) (visible_of_numeric (Decimal.numeric_natDigits _))

mutual

theorem visible_write : ∀ v : Json, Visible (v.write Style.plain).toList
  | null => visible_of_all (by decide)
  | bool true => visible_of_all (by decide)
  | bool false => visible_of_all (by decide)
  | int n => visible_toString n
  | float x => visible_floatText x
  | string s => visible_quoted s
  | array items => by
    simp only [write, String.toList_append, String.toList_intercalate]
    have hcomma : Visible Style.plain.comma.toList := visible_of_all (by decide)
    have hitems := hcomma.intercalate (visible_writeItems items)
    exact (Visible.cons (by decide) hitems).append (List.forall_mem_singleton.2 (by decide))
  | object fields => by
    have hfields := visible_writeFields fields
    have hcomma : Visible Style.plain.comma.toList := visible_of_all (by decide)
    have hcolon : Visible Style.plain.colon.toList := visible_of_all (by decide)
    simp only [write, String.toList_append, String.toList_intercalate]
    refine (Visible.cons (by decide) (hcomma.intercalate ?_)).append
      (List.forall_mem_singleton.2 (by decide))
    intro piece hpiece
    simp only [List.mem_map] at hpiece
    obtain ⟨_, ⟨f, hf, rfl⟩, rfl⟩ := hpiece
    rw [String.toList_append, String.toList_append]
    exact ((visible_quoted f.1).append hcolon).append (hfields f hf)

theorem visible_writeItems :
    ∀ items : List Json, ∀ piece ∈ (writeItems Style.plain items).map String.toList, Visible piece
  | [] => List.forall_mem_nil _
  | v :: vs => List.forall_mem_cons.2 ⟨visible_write v, visible_writeItems vs⟩

theorem visible_writeFields : ∀ fields : List (String × Json),
    ∀ f ∈ writeFields Style.plain fields, Visible f.2.toList
  | [] => List.forall_mem_nil _
  | (_, v) :: rest => List.forall_mem_cons.2 ⟨visible_write v, visible_writeFields rest⟩

end

/-- **The text of a value** has spaces and visible characters of ASCII only. -/
theorem visible_text (v : Json) : Visible v.text.toList := by
  rw [text, text_eq_write_sorted]
  exact visible_write v.sorted

end Spreadsheet.Json
