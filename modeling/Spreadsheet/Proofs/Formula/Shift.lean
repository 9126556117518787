import Mathlib.Algebra.Group.Nat.Defs
import Mathlib.Data.List.TakeWhile
import Spreadsheet.CellText
import Spreadsheet.Formula.Shift
import Spreadsheet.Proofs.Formula.RowNumber

/-!
# Shifted and stored texts stay brief

A shift writes row numbers that can be read or fails, and leaves the digits of the text alone that
belong to no reference. A text that is normalized loses blanks only.

* `Written`: references as they are written; `take?_written`;
* `Whole`: a text that may stand for a reference; `whole_chars`, `whole_lostReference`;
* **`brief_translate`**: shifted texts; **`brief_normalize`**: normalized texts;
* `lastRow`: the reference to the last row; `translate_lastRow`: it cannot be moved down.
-/

namespace Spreadsheet

namespace Formula

open Reference (Parts isLetter takePin)

variable {cs xs out : List Char} {p : Parts} {d : Offset}

/-! ## References as they are written -/

/-- Parts as they stand in a text. -/
structure Written (p : Parts) : Prop where
  word_ne : p.word ≠ []
  word : ∀ c ∈ p.word, isLetter c = true
  digits_ne : p.digits ≠ []
  digits : ∀ c ∈ p.digits, c.isDigit = true

theorem written_single {letter digit : Char} (hletter : isLetter letter = true)
    (hdigit : digit.isDigit = true) : Written ⟨false, [letter], false, [digit]⟩ where
  word_ne := List.cons_ne_nil _ _
  word _ hc := List.mem_singleton.1 hc ▸ hletter
  digits_ne := List.cons_ne_nil _ _
  digits _ hc := List.mem_singleton.1 hc ▸ hdigit

theorem takePin_append : (if (takePin cs).1 then ['$'] else []) ++ (takePin cs).2 = cs := by
  unfold takePin
  split
  · rfl
  · rfl

/-- What is behind a reference that a text starts with. -/
theorem take?_append (h : Parts.take? cs = some p) :
    p.chars ++ (takePin ((takePin cs).2.dropWhile isLetter)).2.dropWhile Char.isDigit = cs := by
  unfold Parts.take? at h
  simp only at h
  split at h
  · cases h
  · obtain rfl := Option.some.inj h
    simp only [Parts.chars]
    rw [List.append_assoc, List.append_assoc, List.append_assoc, List.takeWhile_append_dropWhile,
      takePin_append, List.takeWhile_append_dropWhile, takePin_append]

/-- A reference that a text starts with is written there, and its row number goes to its end. -/
theorem take?_written (h : Parts.take? cs = some p) :
    Written p ∧ ∃ rest, cs = p.chars ++ rest ∧ rest.takeWhile Char.isDigit = [] := by
  obtain ⟨hword, hword_ne, hdigits, hdigits_ne⟩ := take?_eq_some h
  refine ⟨⟨hword_ne, fun c hc => ?_, hdigits_ne, fun c hc => ?_⟩, _, (take?_append h).symm, ?_⟩
  · exact List.mem_takeWhile_imp (hword ▸ hc)
  · exact List.mem_takeWhile_imp (hdigits ▸ hc)
  · exact List.takeWhile_eq_nil_iff.2 fun hl => List.dropWhile_get_zero_not _ _ hl

/-! ## What stands for a reference -/

/-- A text that may stand where a reference stood: it starts with no digit, and row numbers in it
and behind it can be read. -/
structure Whole (out : List Char) : Prop where
  digits (xs : List Char) : (out ++ xs).takeWhile Char.isDigit = []
  row (xs : List Char) : rowDigits (out ++ xs) = []
  brief {xs : List Char} : Brief xs → xs.takeWhile Char.isDigit = [] → Brief (out ++ xs)

theorem brief_digits {digits : List Char} (h : ∀ c ∈ digits, c.isDigit = true) (hx : Brief xs) :
    Brief (digits ++ xs) := by
  induction digits with
  | nil => exact hx
  | cons c digits ih =>
    obtain ⟨hc, hdigits⟩ := List.forall_mem_cons.1 h
    exact ⟨fun hletter => absurd hc (not_isDigit_of_isLetter hletter), ih hdigits⟩

theorem brief_pin (pinned : Bool) (hx : Brief xs) :
    Brief ((if pinned then ['$'] else []) ++ xs) := by
  cases pinned with
  | false => exact hx
  | true => exact ⟨fun hletter => absurd rfl (ne_pin_of_isLetter hletter), hx⟩

/-- A word is followed by the digits of a row number. -/
theorem brief_word {word : List Char} (h : ∀ c ∈ word, isLetter c = true) (hx : Brief xs)
    (hrow : (rowDigits xs).length ≤ Decimal.maxDigits) : Brief (word ++ xs) := by
  induction word with
  | nil => exact hx
  | cons c word ih =>
    obtain ⟨hc, hword⟩ := List.forall_mem_cons.1 h
    refine ⟨fun _ => ?_, ih hword⟩
    cases word with
    | nil => exact hrow
    | cons c' word =>
      have hnone : rowDigits (c' :: word ++ xs) = [] :=
        rowDigits_of_isLetter (hword c' List.mem_cons_self)
      exact (congrArg List.length hnone).le.trans (Nat.zero_le _)

theorem rowDigits_pin {pinned : Bool} {c : Char} (hc : c ≠ '$') :
    rowDigits ((if pinned then ['$'] else []) ++ c :: xs) = (c :: xs).takeWhile Char.isDigit := by
  cases pinned with
  | false =>
    rw [if_neg Bool.false_ne_true, List.nil_append, rowDigits, takePin_of_ne hc]
  | true => rfl

theorem not_isDigit_pin : ¬ ('$' : Char).isDigit = true := by decide

theorem whole_chars (hp : Written p) (hshort : Short p) : Whole p.chars := by
  obtain ⟨pinnedCol, word, pinnedRow, digits⟩ := p
  obtain ⟨c, word', rfl⟩ := List.exists_cons_of_ne_nil hp.word_ne
  obtain ⟨b, digits', rfl⟩ := List.exists_cons_of_ne_nil hp.digits_ne
  have hc : isLetter c = true := hp.word c List.mem_cons_self
  have hcd := not_isDigit_of_isLetter hc
  have hb : b.isDigit = true := hp.digits b List.mem_cons_self
  have hbpin : b ≠ '$' := fun he => not_isDigit_pin (he ▸ hb)
  have hchars (xs : List Char) :
      (⟨pinnedCol, c :: word', pinnedRow, b :: digits'⟩ : Parts).chars ++ xs =
      (if pinnedCol then ['$'] else []) ++ c :: (word' ++
        ((if pinnedRow then ['$'] else []) ++ b :: (digits' ++ xs))) := by
    simp only [Parts.chars, List.append_assoc, List.cons_append]
  constructor
  · intro xs
    rw [hchars]
    cases pinnedCol with
    | false => exact List.takeWhile_cons_of_neg hcd
    | true => exact List.takeWhile_cons_of_neg not_isDigit_pin
  · intro xs
    rw [hchars, rowDigits_pin (ne_pin_of_isLetter hc)]
    exact List.takeWhile_cons_of_neg hcd
  · intro xs hx hend
    have hrow : rowDigits ((if pinnedRow then ['$'] else []) ++ b :: (digits' ++ xs)) =
        b :: digits' := by
      rw [rowDigits_pin hbpin, ← List.cons_append, List.takeWhile_append_of_pos hp.digits, hend,
        List.append_nil]
    rw [hchars]
    rw [← List.cons_append]
    refine brief_pin _ (brief_word hp.word (brief_pin _ ?_) ?_)
    · exact brief_digits hp.digits hx
    · rw [hrow]
      exact hshort

theorem whole_lostReference : Whole lostReference where
  digits _ := List.takeWhile_cons_of_neg (by decide)
  row _ := List.takeWhile_cons_of_neg (by decide)
  brief {xs} hx _ := by
    have hend : rowDigits ('!' :: xs) = [] := List.takeWhile_cons_of_neg (by decide)
    have hword : ['R', 'E', 'F'].all isLetter = true := by decide
    have hletters : Brief (['R', 'E', 'F'] ++ '!' :: xs) := by
      refine brief_word (List.all_eq_true.1 hword) ⟨fun h => absurd h (by decide), hx⟩ ?_
      rw [hend]
      exact Nat.zero_le _
    exact ⟨fun h => absurd h (by decide), hletters⟩

/-! ## Moved references -/

theorem isLetter_lastLetter (n : Int) : isLetter (Column.lastLetter n) = true := by
  have hall : ∀ k : Fin 26, isLetter (Char.ofNat (65 + k.val)) = true := by decide
  have hlt : (n % 26).toNat < 26 := by omega
  exact hall ⟨_, hlt⟩

theorem letters_ne_nil (n : Int) : Column.letters n ≠ [] := by
  rw [Column.letters]
  split
  · exact List.append_ne_nil_of_right_ne_nil _ (List.cons_ne_nil _ _)
  · exact List.cons_ne_nil _ _

theorem isLetter_of_mem_letters (n : Int) : ∀ c ∈ Column.letters n, isLetter c = true := by
  fun_induction Column.letters n with
  | case1 n h ih =>
    intro c hc
    rcases List.mem_append.1 hc with hc | hc
    · exact ih c hc
    · rw [List.mem_singleton.1 hc]
      exact isLetter_lastLetter n
  | case2 n h =>
    intro c hc
    rw [List.mem_singleton.1 hc]
    exact isLetter_lastLetter n

/-- A row number that is written can be read. -/
theorem length_writeInt {n : Int} {t : String} (hn : 0 ≤ n) (h : Decimal.writeInt n = .ok t) :
    t.toList = Nat.toDigits 10 n.toNat ∧ t.toList.length ≤ Decimal.maxDigits := by
  unfold Decimal.writeInt at h
  have hpos : 0 < Decimal.maxDigits := by decide
  generalize Decimal.maxDigits = k at h hpos ⊢
  split at h
  · rename_i hlt
    obtain rfl := Except.ok.inj h
    have htext : (toString n).toList = Nat.toDigits 10 n.toNat := by
      rw [Int.toString_eq_repr, Int.repr_eq_if, if_pos hn, Nat.toList_repr]
    have habs : n.natAbs = n.toNat := by omega
    rw [Nat.pow_eq, habs] at hlt
    rw [htext]
    exact ⟨rfl, (Nat.length_toDigits_le_iff (by decide) hpos).2 hlt⟩
  · cases h

theorem text_eq_chars {r : Reference} {t : String} (hrow : 0 ≤ r.cell.row) (h : r.text = .ok t) :
    ∃ p, (Written p ∧ Short p) ∧ t.toList = p.chars := by
  unfold Reference.text at h
  obtain ⟨number, hnumber, h⟩ := bind_eq_ok.1 h
  obtain ⟨hdigits, hlength⟩ := length_writeInt (by omega) hnumber
  obtain rfl := Except.ok.inj h
  refine ⟨⟨r.pinnedCol, Column.letters r.cell.col, r.pinnedRow, number.toList⟩,
    ⟨⟨letters_ne_nil _, isLetter_of_mem_letters _, ?_, ?_⟩, hlength⟩, ?_⟩
  · rw [hdigits]
    exact Nat.toDigits_ne_nil
  · intro c hc
    rw [hdigits] at hc
    exact Nat.isDigit_of_mem_toDigits (by decide) (by decide) hc
  · simp only [String.toList_append, String.toList_ofList, Parts.chars]
    cases r.pinnedCol <;> cases r.pinnedRow <;> rfl

theorem row_nonneg_of_move {r r' : Reference} (h : r.move? d = some r') : 0 ≤ r'.cell.row := by
  unfold Reference.move? at h
  simp only at h
  obtain ⟨hplane, h⟩ := Option.ite_none_left_eq_some.1 h
  obtain rfl := Option.some.inj h
  simp only
  omega

/-- **A shifted reference** may stand where it stood. -/
theorem whole_shiftParts (hp : Written p) (hshort : Short p) (h : shiftParts d p = .ok out) :
    Whole out := by
  unfold shiftParts at h
  obtain ⟨r?, -, h⟩ := bind_eq_ok.1 h
  cases r? with
  | none =>
    obtain rfl := Except.ok.inj h
    exact whole_chars hp hshort
  | some r =>
    simp only at h
    cases hmove : r.move? d with
    | none =>
      rw [hmove] at h
      obtain rfl := Except.ok.inj h
      exact whole_lostReference
    | some r' =>
      rw [hmove] at h
      obtain ⟨t, ht, h⟩ := bind_eq_ok.1 h
      obtain rfl := Except.ok.inj h
      obtain ⟨q, hq, hchars⟩ := text_eq_chars (row_nonneg_of_move hmove) ht
      rw [hchars]
      exact whole_chars hq.1 hq.2

/-! ## Shifted texts -/

/-- A text that stands for another one: it is brief, and starts with the same digits. -/
structure Follows (cs out : List Char) : Prop where
  brief : Brief out
  digits : out.takeWhile Char.isDigit = cs.takeWhile Char.isDigit
  row : rowDigits out = rowDigits cs

theorem Follows.cons {c : Char} (h : Follows cs out) (hc : Brief (c :: cs)) :
    Follows (c :: cs) (c :: out) where
  brief := ⟨fun hletter => h.row ▸ hc.1 hletter, h.brief⟩
  digits := by rw [List.takeWhile_cons, List.takeWhile_cons, h.digits]
  row := by
    by_cases hpin : c = '$'
    · subst hpin
      exact h.digits
    · rw [rowDigits, rowDigits, takePin_of_ne hpin, takePin_of_ne hpin]
      simp only
      rw [List.takeWhile_cons, List.takeWhile_cons, h.digits]

/-- A reference is replaced. -/
theorem Follows.replace {chars new : List Char} (h : Follows xs out) (hchars : Whole chars)
    (hnew : Whole new) (hend : xs.takeWhile Char.isDigit = []) :
    Follows (chars ++ xs) (new ++ out) where
  brief := hnew.brief h.brief (h.digits.trans hend)
  digits := by rw [hnew.digits, hchars.digits]
  row := by rw [hnew.row, hchars.row]

theorem mapM_cons_eq_ok {α β ε : Type} {f : α → Except ε β} {a : α} {as : List α} {bs : List β}
    (h : (a :: as).mapM f = .ok bs) :
    ∃ b bs', bs = b :: bs' ∧ f a = .ok b ∧ as.mapM f = .ok bs' := by
  rw [List.mapM_cons] at h
  obtain ⟨b, hb, h⟩ := bind_eq_ok.1 h
  obtain ⟨bs', hbs, h⟩ := bind_eq_ok.1 h
  exact ⟨b, bs', (Except.ok.inj h).symm, hb, hbs⟩

theorem take?_of_cell (h : Lexeme.takeReference? cs = some (.cell p)) :
    Parts.take? cs = some p := by
  obtain ⟨first, hfirst, hl | ⟨last, rest, hl, -⟩⟩ := takeReference?_cases h
  · obtain rfl := Lexeme.cell.inj hl
    exact hfirst
  · cases hl

theorem take?_of_range {last : Parts} (h : Lexeme.takeReference? cs = some (.range p last)) :
    Parts.take? cs = some p ∧
      ∃ rest, cs.drop p.chars.length = ':' :: rest ∧ Parts.take? rest = some last := by
  obtain ⟨first, hfirst, hl | ⟨last', rest, hl, hrest, hlast⟩⟩ := takeReference?_cases h
  · cases hl
  · obtain ⟨rfl, rfl⟩ := Lexeme.range.inj hl
    exact ⟨hfirst, rest, hrest, hlast⟩

theorem Written.chars_ne_nil (h : Written p) : p.chars ≠ [] := by
  intro he
  simp only [Parts.chars, List.append_eq_nil_iff] at he
  exact h.digits_ne he.2

theorem drop_length_pred {c : Char} {front rest : List Char} (hne : front ≠ [])
    (h : c :: cs = front ++ rest) : cs.drop (front.length - 1) = rest := by
  obtain ⟨a, front, rfl⟩ := List.exists_cons_of_ne_nil hne
  obtain ⟨rfl, rfl⟩ := List.cons.inj h
  exact List.drop_left

theorem follows_shift {outs : List (List Char)} (h : Brief cs)
    (hshift : (pieces cs).mapM (Piece.shift d) = .ok outs) : Follows cs outs.flatten := by
  fun_induction pieces cs generalizing outs with
  | case1 =>
    obtain rfl := Except.ok.inj hshift
    exact ⟨trivial, rfl, rfl⟩
  | case2 c cs parts hparts ih =>
    obtain ⟨o, outs', rfl, ho, hrest⟩ := mapM_cons_eq_ok hshift
    have htake := take?_of_cell hparts
    have hshort := h.short htake
    obtain ⟨hwritten, rest, happend, hend⟩ := take?_written htake
    rw [drop_length_pred hwritten.chars_ne_nil happend] at ih hrest
    rw [happend] at h ⊢
    have hfollows := ih h.of_append hrest
    exact hfollows.replace (whole_chars hwritten hshort) (whole_shiftParts hwritten hshort ho) hend
  | case3 c cs first last hrange ih =>
    obtain ⟨o, outs', rfl, ho, hrest⟩ := mapM_cons_eq_ok hshift
    obtain ⟨hfirst, behind, hbehind, hlast⟩ := take?_of_range hrange
    obtain ⟨o₁, ho₁, ho⟩ := bind_eq_ok.1 ho
    obtain ⟨o₂, ho₂, ho⟩ := bind_eq_ok.1 ho
    obtain rfl := Except.ok.inj ho
    obtain ⟨hwritten, tail, happend, -⟩ := take?_written hfirst
    obtain ⟨hwritten', rest, rfl, hend⟩ := take?_written hlast
    have htail : tail = ':' :: (last.chars ++ rest) := by
      rw [← hbehind, happend, List.drop_left]
    rw [htail] at happend
    have hwhole : c :: cs = (Piece.range first last).chars ++ rest := by
      rw [happend, Piece.chars, List.append_assoc, List.cons_append]
    have hne : (Piece.range first last).chars ≠ [] :=
      List.append_ne_nil_of_right_ne_nil _ (List.cons_ne_nil _ _)
    have hbrief := h.of_suffix (happend ▸ List.suffix_append _ _)
    have hshort := h.short hfirst
    have hshort' := hbrief.2.short hlast
    rw [drop_length_pred hne hwhole] at ih hrest
    -- from the back: the second reference, the colon and the first one
    have hfollows := (ih hbrief.2.of_append hrest).replace (whole_chars hwritten' hshort')
      (whole_shiftParts hwritten' hshort' ho₂) hend
    have hcolon : (':' :: (last.chars ++ rest)).takeWhile Char.isDigit = [] :=
      List.takeWhile_cons_of_neg (by decide)
    have hall := (hfollows.cons hbrief).replace (whole_chars hwritten hshort)
      (whole_shiftParts hwritten hshort ho₁) hcolon
    rw [happend, List.flatten_cons, List.append_assoc, List.cons_append]
    exact hall
  | case4 c cs _ _ ih =>
    obtain ⟨o, outs', rfl, ho, hrest⟩ := mapM_cons_eq_ok hshift
    obtain rfl := Except.ok.inj ho
    exact (ih h.2 hrest).cons h

/-- **A shifted text is brief.** -/
theorem brief_translate {text t : String} (h : Brief text.toList) (ht : translate d text = .ok t) :
    Brief t.toList := by
  unfold translate at ht
  split at ht
  · rename_i body hbody
    rw [hbody] at h
    obtain ⟨shifted, hshift, ht⟩ := bind_eq_ok.1 ht
    obtain ⟨outs, houts, hshift⟩ := bind_eq_ok.1 hshift
    obtain rfl := Except.ok.inj hshift
    obtain rfl := Except.ok.inj ht
    rw [String.toList_ofList] at houts
    have hfollows := follows_shift h.2 houts
    have hlist : ("=" ++ String.ofList outs.flatten).toList = '=' :: outs.flatten := by
      rw [String.toList_append, String.toList_ofList, String.toList_ofList]
      rfl
    rw [hlist]
    exact ⟨fun hletter => absurd hletter (by decide), hfollows.brief⟩
  · obtain rfl := Except.ok.inj ht
    exact h

/-! ## Normalized texts -/

theorem length_rowDigits_append : (rowDigits cs).length ≤ (rowDigits (cs ++ xs)).length := by
  have hdigits (cs : List Char) : (cs.takeWhile Char.isDigit).length ≤
      ((cs ++ xs).takeWhile Char.isDigit).length := by
    rw [List.takeWhile_append]
    split
    · rename_i hall
      rw [hall, List.length_append]
      exact Nat.le_add_right _ _
    · exact le_refl _
  cases cs with
  | nil => exact Nat.zero_le _
  | cons c cs =>
    by_cases hpin : c = '$'
    · subst hpin
      exact hdigits cs
    · have happend : c :: cs ++ xs = c :: (cs ++ xs) := rfl
      rw [happend, rowDigits, rowDigits, takePin_of_ne hpin, takePin_of_ne hpin]
      exact hdigits (c :: cs)

theorem Brief.of_prefix (h : Brief cs) (hp : xs <+: cs) : Brief xs := by
  obtain ⟨back, rfl⟩ := hp
  induction xs with
  | nil => trivial
  | cons c xs ih => exact ⟨fun hc => length_rowDigits_append.trans (h.1 hc), ih h.2⟩

theorem brief_trim (h : Brief cs) : Brief (Text.trim cs) := by
  unfold Text.trim Text.trimLeft
  have hfront := h.of_suffix (List.dropWhile_suffix Text.isBlank)
  refine hfront.of_prefix ?_
  have hback := List.dropWhile_suffix (l := (cs.dropWhile Text.isBlank).reverse) Text.isBlank
  rw [← List.reverse_prefix, List.reverse_reverse] at hback
  exact hback

theorem not_isDigit_of_isBlank {c : Char} (h : Text.isBlank c = true) : ¬ c.isDigit = true := by
  intro hd
  have h0 : ('0' : Char).val.toNat = 48 := by decide
  have h9 : ('9' : Char).val.toNat = 57 := by decide
  simp only [Char.isDigit, Bool.and_eq_true, decide_eq_true_eq, ge_iff_le,
    UInt32.le_iff_toNat_le] at hd
  simp only [Text.isBlank, Text.blankRanges, List.any_cons, List.any_nil, Bool.or_eq_true,
    Bool.and_eq_true, decide_eq_true_eq, Bool.or_false, Char.toNat] at h
  omega

theorem squeeze_of_isBlank {c : Char} (h : Text.isBlank c = true) (cs : List Char) :
    ∃ rest, Text.squeeze (c :: cs) = ' ' :: rest ∧
      (Text.squeeze cs = ' ' :: rest ∨ Text.squeeze cs = rest) := by
  rw [Text.squeeze, if_pos h]
  split
  · rename_i rest hrest
    exact ⟨rest, rfl, .inl hrest⟩
  · exact ⟨_, rfl, .inr rfl⟩

theorem follows_squeeze (h : Brief cs) : Follows cs (Text.squeeze cs) := by
  induction cs with
  | nil => exact ⟨trivial, rfl, rfl⟩
  | cons c cs ih =>
    have hfollows := ih h.2
    by_cases hc : Text.isBlank c = true
    · obtain ⟨rest, hsqueeze, hrest⟩ := squeeze_of_isBlank hc cs
      rw [hsqueeze]
      have hbrief : Brief (' ' :: rest) := by
        rcases hrest with hrest | hrest
        · exact hrest ▸ hfollows.brief
        · exact ⟨fun hletter => absurd hletter (by decide), hrest ▸ hfollows.brief⟩
      have hdigits : (c :: cs).takeWhile Char.isDigit = [] :=
        List.takeWhile_cons_of_neg (not_isDigit_of_isBlank hc)
      have hpin : c ≠ '$' := by
        rintro rfl
        exact absurd hc (by decide)
      refine ⟨hbrief, hdigits ▸ List.takeWhile_cons_of_neg (by decide), ?_⟩
      rw [rowDigits, rowDigits, takePin_of_ne hpin, takePin_of_ne (by decide), hdigits]
      exact List.takeWhile_cons_of_neg (by decide)
    · rw [Text.squeeze, if_neg hc]
      exact hfollows.cons h

/-- **A normalized text is brief.** -/
theorem brief_normalize {text : String} (h : Brief text.toList) :
    Brief (CellText.normalize text).toList := by
  unfold CellText.normalize
  split
  · exact h
  · rw [String.toList_ofList]
    exact brief_trim (follows_squeeze h).brief

/-! ## Row numbers at the limit -/

/-- The largest number with a given number of digits. -/
theorem ofDigits_replicate_nine (n : Nat) :
    Decimal.ofDigits (List.replicate n '9') + 1 = 10 ^ n := by
  induction n with
  | zero => rfl
  | succ n ih =>
    have h9 : ('9' : Char).toNat - 48 = 9 := by decide
    rw [List.replicate_succ', Decimal.ofDigits_append, h9, Nat.pow_succ]
    omega

/-- The reference to the last row whose number can be read. -/
def lastRow : Parts := ⟨false, ['A'], false, List.replicate Decimal.maxDigits '9'⟩

theorem take?_lastRow : Parts.take? lastRow.chars = some lastRow := by
  have hdigits : (List.replicate Decimal.maxDigits '9').takeWhile Char.isDigit =
      List.replicate Decimal.maxDigits '9' := by
    rw [List.takeWhile_replicate, if_pos (by decide)]
  unfold lastRow
  obtain ⟨n, hn⟩ : ∃ n, Decimal.maxDigits = n + 1 := ⟨_, rfl⟩
  rw [hn, List.replicate_succ] at hdigits ⊢
  simp only [Parts.chars, Bool.false_eq_true, if_false, List.nil_append, List.cons_append]
  unfold Parts.take?
  have hA : takePin ('A' :: '9' :: List.replicate n '9') =
    (false, 'A' :: '9' :: List.replicate n '9') := rfl
  have hword : ('A' :: '9' :: List.replicate n '9').takeWhile isLetter = ['A'] := rfl
  have hrest : ('A' :: '9' :: List.replicate n '9').dropWhile isLetter =
    '9' :: List.replicate n '9' := rfl
  have h9 : takePin ('9' :: List.replicate n '9') = (false, '9' :: List.replicate n '9') := rfl
  simp only [hA, hword, hrest, h9, hdigits]
  rfl

theorem takeReference?_lastRow : Lexeme.takeReference? lastRow.chars = some (.cell lastRow) := by
  unfold Lexeme.takeReference?
  rw [take?_lastRow]
  simp only [List.drop_length]

theorem pieces_lastRow : pieces lastRow.chars = [.cell lastRow] := by
  have htake := takeReference?_lastRow
  generalize hchars : lastRow.chars = chars at htake ⊢
  cases chars with
  | nil => cases htake
  | cons c cs =>
    have hdrop : cs.drop (lastRow.chars.length - 1) = [] :=
      List.drop_eq_nil_of_le (by rw [hchars, List.length_cons]; omega)
    rw [pieces, htake]
    simp only
    rw [hdrop, pieces]

theorem resolve?_lastRow : ∃ row : Int, row + 2 = (10 ^ Decimal.maxDigits : Nat) ∧
    lastRow.resolve? = .ok (some ⟨⟨row, 0⟩, false, false⟩) := by
  have hnine := ofDigits_replicate_nine Decimal.maxDigits
  have hread := Decimal.readNat_of_length_le
    (List.length_replicate (n := Decimal.maxDigits) (a := '9')).le
  have hpos : 1 < 10 ^ Decimal.maxDigits := Nat.one_lt_pow (by decide) (by decide)
  refine ⟨(Decimal.ofDigits (List.replicate Decimal.maxDigits '9') : Int) - 1, by omega, ?_⟩
  unfold Parts.resolve? lastRow
  rw [hread]
  have hzero : Decimal.ofDigits (List.replicate Decimal.maxDigits '9') ≠ 0 := by omega
  have hindex : Column.index ['A'] = 0 := by decide
  simp only [bind, Except.bind, if_neg hzero, hindex]
  rfl

/-- It cannot be moved down. -/
theorem shiftParts_lastRow (h : 0 < d.rows) (hcols : d.cols = 0) :
    shiftParts d lastRow = .error .writing := by
  obtain ⟨row, hrow, hresolve⟩ := resolve?_lastRow
  have hpos : 1 < 10 ^ Decimal.maxDigits := Nat.one_lt_pow (by decide) (by decide)
  unfold shiftParts
  rw [hresolve]
  have hmove : Reference.move? d ⟨⟨row, 0⟩, false, false⟩ =
      some ⟨⟨row + d.rows, 0⟩, false, false⟩ := by
    simp only [Reference.move?, Bool.false_eq_true, if_false, hcols]
    rw [if_neg (by omega)]
    rfl
  have hwrite : Decimal.writeInt (row + d.rows + 1) = .error .writing := by
    unfold Decimal.writeInt
    rw [if_neg]
    rw [Nat.pow_eq]
    omega
  simp only [bind, Except.bind, hmove, Reference.text, hwrite]

theorem brief_lastRow : Brief lastRow.chars := by
  have hshort : Short lastRow := by
    rw [Short, lastRow, List.length_replicate]
  have hwhole := whole_chars (take?_written take?_lastRow).1 hshort
  have hbrief : Brief (lastRow.chars ++ []) := hwhole.brief trivial rfl
  rwa [List.append_nil] at hbrief

/-- A formula that is one reference cannot be shifted if the reference cannot. -/
theorem translate_of_pieces {e : Decimal.TooLong} (hpieces : pieces cs = [.cell p])
    (hshift : shiftParts d p = .error e) :
    translate d (String.ofList ('=' :: cs)) = .error e := by
  unfold translate
  rw [String.toList_ofList]
  simp only
  unfold shift
  rw [String.toList_ofList, hpieces, List.mapM_cons, Piece.shift, hshift]
  simp only [bind, Except.bind]

theorem translate_lastRow (h : 0 < d.rows) (hcols : d.cols = 0) :
    translate d (String.ofList ('=' :: lastRow.chars)) = .error .writing :=
  translate_of_pieces pieces_lastRow (shiftParts_lastRow h hcols)

end Formula

end Spreadsheet
