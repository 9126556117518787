import Mathlib
import Spreadsheet.Proofs.Formula.Layout
import Spreadsheet.Proofs.Formula.Longest

/-!
# Shifts one after the other

Two shifts after each other are one shift by the sum of their offsets, as long as the first loses no
reference. A shift writes references anew: columns and row numbers become longer or shorter, letters
capital, and leading zeros vanish. The second shift still finds the same references in what it
reads, whatever stands between them, for where a reference can be read depends only on which
characters are letters, digits, pins and colons around the ones that are written anew.

* `Offset`: the sum of two ways, the way back and no way; `Reference.move?_move?`;
* `Shiftable`, `Stable`: references and texts that the first shift does not lose;
* `Alike`: texts around which the same references are found; **`pieces_moved`**: the references of
  a shifted text;
* **`shift_shift`**: shifts one after the other.
-/

namespace Spreadsheet

/-! ## Offsets -/

namespace Offset

instance : Zero Offset := ⟨⟨0, 0⟩⟩

instance : Add Offset := ⟨fun d d' => ⟨d.rows + d'.rows, d.cols + d'.cols⟩⟩

instance : Neg Offset := ⟨fun d => ⟨-d.rows, -d.cols⟩⟩

variable (d d' : Offset)

@[simp] theorem rows_zero : (0 : Offset).rows = 0 := rfl

@[simp] theorem cols_zero : (0 : Offset).cols = 0 := rfl

@[simp] theorem rows_add : (d + d').rows = d.rows + d'.rows := rfl

@[simp] theorem cols_add : (d + d').cols = d.cols + d'.cols := rfl

protected theorem add_comm : d + d' = d' + d :=
  congrArg₂ Offset.mk (Int.add_comm d.rows d'.rows) (Int.add_comm d.cols d'.cols)

theorem add_neg_self : d + -d = 0 :=
  congrArg₂ Offset.mk (Int.add_right_neg d.rows) (Int.add_right_neg d.cols)

end Offset

/-- **A reference that is moved twice** is moved by the sum. -/
theorem Reference.move?_move? {d : Offset} {r r' : Reference} (h : r.move? d = some r')
    (d' : Offset) : r'.move? d' = r.move? (d + d') := by
  unfold move? at h ⊢
  simp only at h
  obtain ⟨-, h⟩ := Option.ite_none_left_eq_some.1 h
  obtain rfl := Option.some.inj h
  cases r.pinnedRow <;> cases r.pinnedCol <;> simp [Int.add_assoc]

namespace Formula

open Reference (Parts isLetter takePin)

variable {c : Char} {cs rest out xs : List Char} {p q : Parts} {d : Offset}

/-! ## References that stay -/

/-- A shift can write a reference anew: its row number can be read, and unless it is zero, the
reference stays on the plane and its new row number can be read too. -/
structure Shiftable (d : Offset) (p : Parts) : Prop where
  short : Short p
  staysShort : StaysShort d p
  stays : Names p → Stays d p

theorem Shiftable.cases (h : Shiftable d p) : p.resolve? = .ok none ∨ Names p := by
  unfold Names Parts.resolve?
  rw [Decimal.readNat_of_length_le h.short]
  by_cases hzero : Decimal.ofDigits p.digits = 0
  · exact .inl (by simp only [bind, Except.bind, if_pos hzero]; rfl)
  · exact .inr ⟨_, by simp only [bind, Except.bind, if_neg hzero]; rfl⟩

theorem movedParts_of_none (h : p.resolve? = .ok none) (d : Offset) : movedParts d p = p := by
  rw [movedParts, h]

theorem shiftParts_of_none (h : p.resolve? = .ok none) (d : Offset) :
    shiftParts d p = .ok p.chars := by
  rw [shiftParts, h]
  rfl

theorem Shiftable.shiftParts (h : Shiftable d p) :
    shiftParts d p = .ok (movedParts d p).chars := by
  rcases h.cases with hnone | hnames
  · rw [shiftParts_of_none hnone, movedParts_of_none hnone]
  · exact shiftParts_of_stays (h.stays hnames) h.staysShort

/-- **A written reference that is shifted twice** is shifted by the sum. -/
theorem Shiftable.shiftParts_movedParts (h : Shiftable d p) (d' : Offset) :
    Formula.shiftParts d' (movedParts d p) = Formula.shiftParts (d + d') p := by
  rcases h.cases with hnone | hnames
  · rw [movedParts_of_none hnone, shiftParts_of_none hnone, shiftParts_of_none hnone]
  · obtain ⟨r, r', hr, hmove⟩ := h.stays hnames
    unfold Formula.shiftParts
    rw [resolve?_movedParts h.staysShort hr hmove, hr]
    simp only [bind, Except.bind, Reference.move?_move? hmove d']

theorem Shiftable.written (h : Shiftable d p) (hp : Written p) : Written (movedParts d p) := by
  rcases h.cases with hnone | hnames
  · rwa [movedParts_of_none hnone]
  · exact (h.stays hnames).written

theorem Shiftable.pinnedCol (h : Shiftable d p) : (movedParts d p).pinnedCol = p.pinnedCol := by
  rcases h.cases with hnone | hnames
  · rw [movedParts_of_none hnone]
  · obtain ⟨r, r', hr, hmove⟩ := h.stays hnames
    obtain ⟨-, hcol, -⟩ := Reference.move?_eq_some hmove
    rw [movedParts_eq hr hmove]
    exact hcol.trans (pins_of_resolve? hr).2

/-! ## Texts around references -/

theorem parts_take?_eq_none_iff : Parts.take? cs = none ↔
    (takePin cs).2.takeWhile isLetter = [] ∨
      rowDigits ((takePin cs).2.dropWhile isLetter) = [] := by
  unfold Parts.take?
  simp only
  split
  · rename_i h
    rw [Bool.or_eq_true, List.isEmpty_iff, List.isEmpty_iff] at h
    exact iff_of_true rfl h
  · rename_i h
    rw [Bool.or_eq_true, List.isEmpty_iff, List.isEmpty_iff] at h
    exact iff_of_false nofun h

/-- Two texts before which the same references can be read: they go on alike with digits, and with
letters and digits behind them; and a reference starts both or none, as behind a colon. -/
structure Alike (cs out : List Char) : Prop where
  digits : out.takeWhile Char.isDigit = [] ↔ cs.takeWhile Char.isDigit = []
  word : out.takeWhile isLetter = [] ↔ cs.takeWhile isLetter = []
  behind : rowDigits (out.dropWhile isLetter) = [] ↔ rowDigits (cs.dropWhile isLetter) = []
  take : Parts.take? out = none ↔ Parts.take? cs = none
  colon (xs : List Char) : out = ':' :: xs →
    ∃ ys, cs = ':' :: ys ∧ (Parts.take? xs = none ↔ Parts.take? ys = none)

theorem Alike.refl (cs : List Char) : Alike cs cs :=
  ⟨.rfl, .rfl, .rfl, .rfl, fun xs h => ⟨xs, h, .rfl⟩⟩

theorem takeWhile_cons_eq_nil {f : Char → Bool} : (c :: cs).takeWhile f = [] ↔ f c = false := by
  rw [List.takeWhile_cons]
  cases f c <;> simp

/-- The same character in front. -/
theorem Alike.cons (h : Alike cs out) (c : Char) : Alike (c :: cs) (c :: out) := by
  have hrow : rowDigits (c :: out) = [] ↔ rowDigits (c :: cs) = [] := by
    by_cases hpin : c = '$'
    · subst hpin
      exact h.digits
    · rw [rowDigits, rowDigits, takePin_of_ne hpin, takePin_of_ne hpin, takeWhile_cons_eq_nil,
        takeWhile_cons_eq_nil]
  have hword : (c :: out).takeWhile isLetter = [] ↔ (c :: cs).takeWhile isLetter = [] := by
    rw [takeWhile_cons_eq_nil, takeWhile_cons_eq_nil]
  have hbehind : rowDigits ((c :: out).dropWhile isLetter) = [] ↔
      rowDigits ((c :: cs).dropWhile isLetter) = [] := by
    by_cases hletter : isLetter c = true
    · rw [List.dropWhile_cons_of_pos hletter, List.dropWhile_cons_of_pos hletter]
      exact h.behind
    · rw [List.dropWhile_cons_of_neg hletter, List.dropWhile_cons_of_neg hletter]
      exact hrow
  refine ⟨by rw [takeWhile_cons_eq_nil, takeWhile_cons_eq_nil], hword, hbehind, ?_, ?_⟩
  · rw [parts_take?_eq_none_iff, parts_take?_eq_none_iff]
    by_cases hpin : c = '$'
    · subst hpin
      exact or_congr h.word h.behind
    · rw [takePin_of_ne hpin, takePin_of_ne hpin]
      exact or_congr hword hbehind
  · rintro xs hxs
    obtain ⟨rfl, rfl⟩ := List.cons.inj hxs
    exact ⟨cs, rfl, h.take⟩

/-- What a text that starts with a reference has in common with every other one: only whether it
starts with a pin matters. -/
theorem Written.start (hp : Written p) (hend : rest.takeWhile Char.isDigit = []) :
    (p.chars ++ rest).takeWhile Char.isDigit = [] ∧
    ((p.chars ++ rest).takeWhile isLetter = [] ↔ p.pinnedCol = true) ∧
    (rowDigits ((p.chars ++ rest).dropWhile isLetter) = [] ↔ p.pinnedCol = true) ∧
    (p.chars ++ rest).head? ≠ some ':' := by
  obtain ⟨hword, hword_ne, hdigits, hdigits_ne⟩ := take?_eq_some (take?_chars hp hend)
  obtain ⟨c, word, hc⟩ := List.exists_cons_of_ne_nil hp.word_ne
  have hletter : isLetter c = true := hp.word c (hc ▸ List.mem_cons_self)
  cases hcol : p.pinnedCol with
  | false =>
    have hchars : ∃ tail, p.chars ++ rest = c :: tail := by simp [Parts.chars, hcol, hc]
    obtain ⟨tail, htail⟩ := hchars
    rw [htail, takePin_of_ne (ne_pin_of_isLetter hletter)] at hword hdigits
    rw [htail]
    refine ⟨takeWhile_cons_eq_nil.2 (Bool.eq_false_iff.2 (not_isDigit_of_isLetter hletter)),
      iff_of_false (hword ▸ hword_ne) Bool.false_ne_true,
      iff_of_false (hdigits ▸ hdigits_ne) Bool.false_ne_true, ?_⟩
    rintro ⟨⟩
    exact absurd hletter (by decide)
  | true =>
    have hchars : ∃ tail, p.chars ++ rest = '$' :: c :: tail := by simp [Parts.chars, hcol, hc]
    obtain ⟨tail, htail⟩ := hchars
    rw [htail]
    refine ⟨rfl, iff_of_true rfl rfl, iff_of_true ?_ rfl, ?_⟩
    · exact takeWhile_cons_eq_nil.2 (Bool.eq_false_iff.2 (not_isDigit_of_isLetter hletter))
    · rw [List.head?_cons]
      decide

/-- Another reference in front, with a pin if the first has one. -/
theorem Alike.replace (h : Alike rest out) (hp : Written p) (hq : Written q)
    (hcol : q.pinnedCol = p.pinnedCol) (hend : rest.takeWhile Char.isDigit = []) :
    Alike (p.chars ++ rest) (q.chars ++ out) := by
  have hend' := h.digits.2 hend
  obtain ⟨hdigits, hword, hbehind, -⟩ := hp.start hend
  obtain ⟨hdigits', hword', hbehind', hcolon⟩ := hq.start hend'
  refine ⟨iff_of_true hdigits' hdigits, ?_, ?_, ?_, fun xs hxs => ?_⟩
  · rw [hword, hword', hcol]
  · rw [hbehind, hbehind', hcol]
  · rw [take?_chars hp hend, take?_chars hq hend']
    exact iff_of_false nofun nofun
  · rw [hxs] at hcolon
    exact absurd rfl hcolon

/-! ## The references of a shifted text -/

/-- A single reference is taken just if no other one follows a colon behind it. -/
theorem takeReference?_eq_cell_iff (hp : Written p) (hend : rest.takeWhile Char.isDigit = []) :
    Lexeme.takeReference? (p.chars ++ rest) = some (.cell p) ↔
      ∀ xs, rest = ':' :: xs → Parts.take? xs = none := by
  unfold Lexeme.takeReference?
  rw [take?_chars hp hend]
  simp only [List.drop_left]
  split
  · rename_i behind
    cases htake : Parts.take? behind with
    | none =>
      refine iff_of_true rfl fun xs hxs => ?_
      obtain ⟨-, rfl⟩ := List.cons.inj hxs
      exact htake
    | some last =>
      refine iff_of_false nofun fun h => ?_
      rw [h behind rfl] at htake
      cases htake
  · rename_i hcolon
    exact iff_of_true rfl fun xs hxs => absurd hxs (hcolon xs)

theorem takeReference?_eq_range (hp : Written p) (hq : Written q)
    (hend : rest.takeWhile Char.isDigit = []) :
    Lexeme.takeReference? (p.chars ++ ':' :: (q.chars ++ rest)) = some (.range p q) := by
  unfold Lexeme.takeReference?
  rw [take?_chars hp (List.takeWhile_cons_of_neg (by decide))]
  simp only [List.drop_left, take?_chars hq hend]

theorem parts_take?_eq_none (hcell : ∀ p, Lexeme.takeReference? cs ≠ some (.cell p))
    (hrange : ∀ p q, Lexeme.takeReference? cs ≠ some (.range p q)) : Parts.take? cs = none := by
  by_contra hne
  obtain ⟨p, hp⟩ := Option.ne_none_iff_exists'.1 hne
  obtain ⟨l, hl, -⟩ := exists_takeReference?_of_take? hp
  obtain ⟨first, -, rfl | ⟨last, rest, rfl, -⟩⟩ := takeReference?_cases hl
  · exact hcell first hl
  · exact hrange first last hl

/-- The references of a piece. -/
def Piece.references : Piece → List Parts
  | cell p => [p]
  | range first last => [first, last]
  | other _ => []

/-- A piece, moved and written anew. -/
def Piece.move (d : Offset) : Piece → Piece
  | cell p => cell (movedParts d p)
  | range first last => range (movedParts d first) (movedParts d last)
  | other c => other c

/-- The characters of pieces that are moved and written anew. -/
def movedChars (d : Offset) (ps : List Piece) : List Char :=
  (ps.map (Piece.move d)).flatMap Piece.chars

theorem movedChars_cons (d : Offset) (piece : Piece) (ps : List Piece) :
    movedChars d (piece :: ps) = (piece.move d).chars ++ movedChars d ps := rfl

/-- **The references of a shifted text** are those of the text, moved. -/
theorem pieces_moved (d : Offset) (cs : List Char) :
    (∀ piece ∈ pieces cs, ∀ p ∈ piece.references, Shiftable d p) →
      Alike cs (movedChars d (pieces cs)) ∧
        pieces (movedChars d (pieces cs)) = (pieces cs).map (Piece.move d) := by
  fun_induction pieces cs with
  | case1 => exact fun _ => ⟨.refl [], pieces.eq_1⟩
  | case2 c cs p htake ih =>
    intro h
    obtain ⟨hpiece, hpieces⟩ := List.forall_mem_cons.1 h
    have hshift := hpiece p List.mem_cons_self
    obtain ⟨hp, rest, happend, hend⟩ := take?_written (take?_of_cell htake)
    obtain ⟨halike, hrest⟩ := ih hpieces
    rw [drop_length_pred hp.chars_ne_nil happend] at halike hrest ⊢
    rw [happend] at htake ⊢
    have hq := hshift.written hp
    have hcell : Lexeme.takeReference? ((movedParts d p).chars ++ movedChars d (pieces rest)) =
        some (.cell (movedParts d p)) := by
      refine (takeReference?_eq_cell_iff hq (halike.digits.2 hend)).2 fun xs hxs => ?_
      obtain ⟨ys, hys, htakes⟩ := halike.colon xs hxs
      exact htakes.2 ((takeReference?_eq_cell_iff hp hend).1 htake ys hys)
    exact ⟨halike.replace hp hq hshift.pinnedCol hend, (pieces_of_cell hcell).trans
      (congrArg _ hrest)⟩
  | case3 c cs first last htake ih =>
    intro h
    obtain ⟨hpiece, hpieces⟩ := List.forall_mem_cons.1 h
    have hshift := hpiece first List.mem_cons_self
    have hshift' := hpiece last (List.mem_cons_of_mem _ List.mem_cons_self)
    obtain ⟨hfirst, behind, hbehind, hlast⟩ := take?_of_range htake
    obtain ⟨hp, tail, happend, -⟩ := take?_written hfirst
    obtain ⟨hp', rest, rfl, hend⟩ := take?_written hlast
    have htail : tail = ':' :: (last.chars ++ rest) := by
      rw [← hbehind, happend, List.drop_left]
    rw [htail] at happend
    have hwhole : c :: cs = (Piece.range first last).chars ++ rest := by
      rw [happend, Piece.chars, List.append_assoc, List.cons_append]
    have hne : (Piece.range first last).chars ≠ [] :=
      List.append_ne_nil_of_right_ne_nil _ (List.cons_ne_nil _ _)
    obtain ⟨halike, hrest⟩ := ih hpieces
    rw [drop_length_pred hne hwhole] at halike hrest ⊢
    have hq := hshift.written hp
    have hq' := hshift'.written hp'
    have hchars : movedChars d (.range first last :: pieces rest) = (movedParts d first).chars ++
        ':' :: ((movedParts d last).chars ++ movedChars d (pieces rest)) := by
      rw [movedChars_cons, Piece.move, Piece.chars, List.append_assoc, List.cons_append]
    rw [happend, hchars]
    -- from the back: the second reference, the colon and the first one
    have hback := (halike.replace hp' hq' hshift'.pinnedCol hend).cons ':'
    have hcolon : (':' :: (last.chars ++ rest)).takeWhile Char.isDigit = [] :=
      List.takeWhile_cons_of_neg (by decide)
    have hrange := takeReference?_eq_range hq hq' (halike.digits.2 hend)
    exact ⟨hback.replace hp hq hshift.pinnedCol hcolon, (pieces_of_range hrange).trans
      (congrArg _ hrest)⟩
  | case4 c cs hcell hrange ih =>
    intro h
    obtain ⟨-, hpieces⟩ := List.forall_mem_cons.1 h
    obtain ⟨halike, hrest⟩ := ih hpieces
    have hnone : Parts.take? (c :: cs) = none := parts_take?_eq_none hcell hrange
    have hout : Parts.take? (c :: movedChars d (pieces cs)) = none := (halike.cons c).take.2 hnone
    refine ⟨halike.cons c, ?_⟩
    rw [movedChars_cons, Piece.move, Piece.chars, List.singleton_append, pieces,
      takeReference?_none hout, hrest]
    rfl

/-! ## Shifted texts -/

theorem Piece.shift_eq {piece : Piece} (h : ∀ p ∈ piece.references, Shiftable d p) :
    piece.shift d = .ok (piece.move d).chars := by
  cases piece with
  | cell p => exact (h p List.mem_cons_self).shiftParts
  | range first last =>
    rw [Piece.shift, (h first List.mem_cons_self).shiftParts,
      (h last (List.mem_cons_of_mem _ List.mem_cons_self)).shiftParts]
    rfl
  | other c => rfl

theorem Piece.shift_move {piece : Piece} (h : ∀ p ∈ piece.references, Shiftable d p)
    (d' : Offset) : (piece.move d).shift d' = piece.shift (d + d') := by
  cases piece with
  | cell p => exact (h p List.mem_cons_self).shiftParts_movedParts d'
  | range first last =>
    rw [Piece.move, Piece.shift, Piece.shift,
      (h first List.mem_cons_self).shiftParts_movedParts d',
      (h last (List.mem_cons_of_mem _ List.mem_cons_self)).shiftParts_movedParts d']
  | other c => rfl

theorem mapM_congr {α β ε : Type} {g g' : α → Except ε β} {as : List α}
    (h : ∀ a ∈ as, g a = g' a) : as.mapM g = as.mapM g' := by
  induction as with
  | nil => rfl
  | cons a as ih =>
    obtain ⟨ha, has⟩ := List.forall_mem_cons.1 h
    rw [List.mapM_cons, List.mapM_cons, ha, ih has]

/-- A shift loses no reference of a text, and the row numbers can be read before and after it. -/
def Stable (d : Offset) (text : String) : Prop :=
  ∀ piece ∈ pieces text.toList, ∀ p ∈ piece.references, Shiftable d p

/-- The row numbers of the references of a text can be read. -/
def ReadableRows (text : String) : Prop :=
  ∀ piece ∈ pieces text.toList, ∀ p ∈ piece.references, Short p

variable {text : String}

theorem Stable.shift (h : Stable d text) :
    shift d text = .ok (String.ofList (movedChars d (pieces text.toList))) := by
  have hmap : (pieces text.toList).mapM (Piece.shift d) =
      .ok ((pieces text.toList).map fun piece => (piece.move d).chars) :=
    (mapM_congr fun piece hpiece => Piece.shift_eq (h piece hpiece)).trans List.mapM_pure
  rw [Formula.shift, hmap, movedChars, List.flatMap_def, List.map_map]
  rfl

/-- **A text that is shifted twice** is shifted by the sum. -/
theorem Stable.shift_movedChars (h : Stable d text) (d' : Offset) :
    Formula.shift d' (String.ofList (movedChars d (pieces text.toList))) =
      Formula.shift (d + d') text := by
  have hmap : ((pieces text.toList).map (Piece.move d)).mapM (Piece.shift d') =
      (pieces text.toList).mapM (Piece.shift (d + d')) :=
    List.mapM_map.trans (mapM_congr fun piece hpiece => Piece.shift_move (h piece hpiece) d')
  rw [Formula.shift, Formula.shift, String.toList_ofList, (pieces_moved d _ h).2, hmap]

/-! ## No way -/

/-- There are 26 letters of either case. -/
theorem ofNat_of_isLetter (h : isLetter c = true) :
    ∃ k : Fin 26, c = Char.ofNat (65 + k.val) ∨ c = Char.ofNat (97 + k.val) := by
  have hA : ('A' : Char).val.toNat = 65 ∧ ('Z' : Char).val.toNat = 90 := by decide
  have ha : ('a' : Char).val.toNat = 97 ∧ ('z' : Char).val.toNat = 122 := by decide
  simp only [isLetter, Bool.or_eq_true, Bool.and_eq_true, decide_eq_true_eq, Char.le_def,
    UInt32.le_iff_toNat_le, hA, ha] at h
  have hc : Char.ofNat c.val.toNat = c := Char.ofNat_toNat c
  rcases h with ⟨hle, hge⟩ | ⟨hle, hge⟩
  · exact ⟨⟨c.val.toNat - 65, by omega⟩, .inl (by simp only [Nat.add_sub_cancel' hle, hc])⟩
  · exact ⟨⟨c.val.toNat - 97, by omega⟩, .inr (by simp only [Nat.add_sub_cancel' hle, hc])⟩

theorem one_le_letterValue (h : isLetter c = true) : 1 ≤ Column.letterValue c := by
  obtain ⟨k, rfl | rfl⟩ := ofNat_of_isLetter h
  all_goals
    revert k
    decide

theorem index_bounds {word : List Char} (h : ∀ c ∈ word, isLetter c = true) :
    -1 ≤ Column.index word ∧ (word ≠ [] → 0 ≤ Column.index word) := by
  induction word using List.reverseRecOn with
  | nil => exact ⟨Int.le_refl _, fun hne => absurd rfl hne⟩
  | append_singleton word c ih =>
    obtain ⟨hle, -⟩ := ih fun c' hc' => h c' (List.mem_append_left _ hc')
    have hvalue := one_le_letterValue (h c (List.mem_append_right _ List.mem_cons_self))
    rw [Column.index_append]
    exact ⟨by omega, fun _ => by omega⟩

theorem ofDigits_lt {digits : List Char} (h : ∀ c ∈ digits, c.isDigit = true) :
    Decimal.ofDigits digits < 10 ^ digits.length := by
  induction digits using List.reverseRecOn with
  | nil => decide
  | append_singleton digits c ih =>
    have hlt := ih fun c' hc' => h c' (List.mem_append_left _ hc')
    have hdigit := h c (List.mem_append_right _ List.mem_cons_self)
    have h9 : ('9' : Char).val.toNat = 57 := by decide
    simp only [Char.isDigit, Bool.and_eq_true, decide_eq_true_eq, UInt32.le_iff_toNat_le] at hdigit
    have hc : c.toNat ≤ 57 := hdigit.2
    rw [Decimal.ofDigits_append, List.length_append, List.length_singleton, Nat.pow_succ]
    omega

/-- What a written reference names is on the plane, and its row number can be written. -/
theorem Written.bounds {r : Reference} (hp : Written p) (hshort : Short p)
    (hr : p.resolve? = .ok (some r)) : 0 ≤ r.cell.row ∧ 0 ≤ r.cell.col ∧ r.Fits := by
  unfold Parts.resolve? at hr
  rw [Decimal.readNat_of_length_le hshort] at hr
  simp only [bind, Except.bind] at hr
  split at hr
  · cases hr
  · rename_i hzero
    obtain rfl := Option.some.inj (Except.ok.inj hr)
    have hlt := (ofDigits_lt hp.digits).trans_le (Nat.pow_le_pow_right (by decide) hshort)
    refine ⟨?_, (index_bounds hp.word).2 hp.word_ne, ?_⟩
    · show 0 ≤ (Decimal.ofDigits p.digits : Int) - 1
      omega
    · show ((Decimal.ofDigits p.digits : Int) - 1 + 1).natAbs < 10 ^ Decimal.maxDigits
      rwa [Int.sub_add_cancel, Int.natAbs_natCast]

theorem written_of_mem_pieces (cs : List Char) :
    ∀ piece ∈ pieces cs, ∀ p ∈ piece.references, Written p := by
  fun_induction pieces cs with
  | case1 =>
    intro piece hpiece
    cases hpiece
  | case2 c cs p htake ih =>
    refine List.forall_mem_cons.2 ⟨fun q hq => ?_, ih⟩
    obtain rfl := List.mem_singleton.1 hq
    exact (formed_of_takeReference? htake).1
  | case3 c cs first last htake ih =>
    refine List.forall_mem_cons.2 ⟨fun q hq => ?_, ih⟩
    obtain ⟨hfirst, hlast⟩ := (formed_of_takeReference? htake).1
    rcases List.mem_pair.1 hq with rfl | rfl
    · exact hfirst
    · exact hlast
  | case4 c cs _ _ ih =>
    refine List.forall_mem_cons.2 ⟨fun q hq => ?_, ih⟩
    cases hq

theorem move?_zero {r : Reference} (hrow : 0 ≤ r.cell.row) (hcol : 0 ≤ r.cell.col) :
    r.move? 0 = some r := by
  unfold Reference.move?
  simp only [Offset.rows_zero, Offset.cols_zero, Int.add_zero, ite_self]
  rw [if_neg (by omega)]

/-- A reference can be written anew where it stands. -/
theorem shiftable_zero (hp : Written p) (hshort : Short p) : Shiftable 0 p where
  short := hshort
  staysShort r r' hr hmove := by
    obtain ⟨hrow, hcol, hfits⟩ := hp.bounds hshort hr
    rw [move?_zero hrow hcol] at hmove
    exact Option.some.inj hmove ▸ hfits
  stays := by
    rintro ⟨r, hr⟩
    obtain ⟨hrow, hcol, -⟩ := hp.bounds hshort hr
    exact ⟨r, r, hr, move?_zero hrow hcol⟩

theorem ReadableRows.stable (h : ReadableRows text) : Stable 0 text := fun piece hpiece p hp =>
  shiftable_zero (written_of_mem_pieces _ piece hpiece p hp) (h piece hpiece p hp)

/-- **Shifts one after the other.** If a shift loses no reference of a text, another one after it
is a shift of the text by the sum of both; the way back leads to the text shifted by nothing, and
two shifts that lose no reference can be made in either order. To shift a text by nothing a second
time changes nothing. -/
theorem shift_shift (text : String) :
    (∀ d, Stable d text → ∃ out, shift d text = .ok out ∧
      (∀ d', shift d' out = shift (d + d') text) ∧ shift (-d) out = shift 0 text ∧
      ∀ d', Stable d' text → ∃ out', shift d' text = .ok out' ∧ shift d' out = shift d out') ∧
    (ReadableRows text → Stable 0 text ∧ ∃ out, shift 0 text = .ok out ∧ shift 0 out = .ok out) := by
  refine ⟨fun d h => ⟨_, h.shift, h.shift_movedChars, ?_, fun d' h' => ⟨_, h'.shift, ?_⟩⟩, fun h =>
    ⟨h.stable, _, h.stable.shift, (h.stable.shift_movedChars 0).trans h.stable.shift⟩⟩
  · rw [h.shift_movedChars, Offset.add_neg_self]
  · rw [h.shift_movedChars, h'.shift_movedChars, Offset.add_comm]

theorem Shiftable.of_move {r r' : Reference} (hshort : Short p) (hr : p.resolve? = .ok (some r))
    (hmove : r.move? d = some r') (hfits : r'.Fits) : Shiftable d p where
  short := hshort
  staysShort r₁ r₁' hr₁ hmove₁ := by
    obtain rfl := Option.some.inj (Except.ok.inj (hr.symm.trans hr₁))
    obtain rfl := Option.some.inj (hmove.symm.trans hmove₁)
    exact hfits
  stays _ := ⟨r, r', hr, hmove⟩

theorem Shiftable.of_none (hshort : Short p) (h : p.resolve? = .ok none) : Shiftable d p where
  short := hshort
  staysShort r r' hr _ := by
    rw [h] at hr
    cases hr
  stays := by
    rintro ⟨r, hr⟩
    rw [h] at hr
    cases hr

/-- A range with another reference behind a colon, small letters, a leading zero, a row zero and a
pin. The first shift makes a column and two row numbers longer, the second loses a reference. -/
theorem shift_shift_chain :
    Stable ⟨1, 1⟩ "Z9:b1:$C09-A0" ∧ Stable ⟨2, 0⟩ "Z9:b1:$C09-A0" ∧
    shift ⟨1, 1⟩ "Z9:b1:$C09-A0" = .ok "AA10:C2:$C10-A0" ∧
    shift ⟨-9, 0⟩ "AA10:C2:$C10-A0" = shift ⟨-8, 1⟩ "Z9:b1:$C09-A0" ∧
    shift ⟨-9, 0⟩ "AA10:C2:$C10-A0" = .ok "AA1:#REF!:$C1-A0" ∧
    shift ⟨-1, -1⟩ "AA10:C2:$C10-A0" = shift 0 "Z9:b1:$C09-A0" ∧
    (∃ out, shift ⟨2, 0⟩ "Z9:b1:$C09-A0" = .ok out ∧
      shift ⟨2, 0⟩ "AA10:C2:$C10-A0" = shift ⟨1, 1⟩ out) ∧
    ReadableRows "Z9:b1:$C09-A0" ∧ ∃ out, shift 0 "Z9:b1:$C09-A0" = .ok out ∧
      shift 0 out = .ok out := by
  have hpieces : pieces "Z9:b1:$C09-A0".toList =
      [.range ⟨false, ['Z'], false, ['9']⟩ ⟨false, ['b'], false, ['1']⟩, .other ':',
        .cell ⟨true, ['C'], false, ['0', '9']⟩, .other '-', .cell ⟨false, ['A'], false, ['0']⟩] := by
    cbv
  have hfits {r : Reference} (h : (r.cell.row + 1).natAbs ≤ Decimal.maxDigits) : r.Fits :=
    h.trans_lt (Nat.lt_pow_self (by decide))
  have hstable : ∀ d ∈ [(⟨1, 1⟩ : Offset), ⟨2, 0⟩], Stable d "Z9:b1:$C09-A0" := by
    intro d hd
    rw [Stable, hpieces]
    simp only [List.forall_mem_cons, Piece.references, List.not_mem_nil, false_imp_iff,
      implies_true, and_true, true_and]
    rcases List.mem_pair.1 hd with rfl | rfl
    all_goals
      refine ⟨⟨?_, ?_⟩, ?_, .of_none (by decide) rfl⟩
      · exact .of_move (r := ⟨⟨8, 25⟩, false, false⟩) (by decide) rfl rfl (hfits (by decide))
      · exact .of_move (r := ⟨⟨0, 1⟩, false, false⟩) (by decide) rfl rfl (hfits (by decide))
      · exact .of_move (r := ⟨⟨8, 2⟩, false, true⟩) (by decide) rfl rfl (hfits (by decide))
  obtain ⟨hdiagonal, hdown⟩ := List.forall_mem_cons.1 hstable
  have hdown := hdown _ List.mem_cons_self
  have hreadable : ReadableRows "Z9:b1:$C09-A0" := fun piece hpiece p hp =>
    (hdown piece hpiece p hp).short
  have hout : shift ⟨1, 1⟩ "Z9:b1:$C09-A0" = .ok "AA10:C2:$C10-A0" := by decide +kernel
  obtain ⟨hshift, hnothing⟩ := shift_shift "Z9:b1:$C09-A0"
  obtain ⟨out, hout', hsum, hback, hcommute⟩ := hshift ⟨1, 1⟩ hdiagonal
  obtain rfl := Except.ok.inj (hout.symm.trans hout')
  obtain ⟨-, hagain⟩ := hnothing hreadable
  exact ⟨hdiagonal, hdown, hout, hsum ⟨-9, 0⟩, by decide +kernel, hback, hcommute _ hdown,
    hreadable, hagain⟩

end Formula

end Spreadsheet
