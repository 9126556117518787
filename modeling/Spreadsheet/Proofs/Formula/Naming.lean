import Mathlib.Data.List.Shortlex
import Spreadsheet.Proofs.Formula.Composition

/-!
# The notation names cells one to one

Bijective base 26 has no zero digit, so every word of capital letters is the name of exactly one
column, and the order of the columns is the order of their names, shorter names first. Together with
the row number and the two pins this makes reading and writing inverse to each other; what is lost
in reading a text is the case of its letters, the zeros in front of its row number and a final line
end.

* `Column.IsName`; **`Column.letters_index`**: names and columns are inverse to each other;
  **`Column.index_lt_index_iff`**: in order;
* `Reference.Spells`: the texts of parts; **`Reference.read?_of_spells`** and
  `Reference.read?_of_not_spells`: what is read; `Parts.canonical`, `Reference.text_of_read?`: how
  it is written back;
* `Address.read_text`: names of cells read back;
* **`notation_bijective`**: all together; `read?_of_long_row`: a row number that is refused.
-/

namespace Spreadsheet

open Formula (Written ofNat_of_isLetter one_le_letterValue index_bounds)
open Reference (isLetter Parts)

variable {c : Char} {cs word : List Char}

/-! ## Letters -/

theorem isLetter_of_isUpper (h : c.isUpper = true) : isLetter c = true := by
  simp only [Char.isUpper, decide_eq_true_eq] at h
  simp only [isLetter, Bool.or_eq_true, Bool.and_eq_true, decide_eq_true_eq, Char.le_def]
  exact .inl h

theorem toUpper_of_isUpper (h : c.isUpper = true) : c.toUpper = c := by
  have hsmall : ¬ ('a' : Char).val ≤ c.val := by
    have hlt : ('Z' : Char).val < ('a' : Char).val := by decide
    simp only [Char.isUpper, decide_eq_true_eq] at h
    exact UInt32.not_le.2 (UInt32.lt_of_le_of_lt h.2 hlt)
  exact dif_neg fun hlower => hsmall hlower.1

namespace Column

theorem letterValue_le (h : isLetter c = true) : letterValue c ≤ 26 := by
  obtain ⟨k, rfl | rfl⟩ := ofNat_of_isLetter h
  all_goals
    revert k
    decide

theorem letterValue_of_isUpper (h : c.isUpper = true) : letterValue c = (c.toNat : Int) - 64 := by
  rw [letterValue, toUpper_of_isUpper h]

theorem isUpper_lastLetter (n : Int) : (lastLetter n).isUpper = true := by
  have hall : ∀ k : Fin 26, (Char.ofNat (65 + k.val)).isUpper = true := by decide
  exact hall ⟨(n % 26).toNat, by omega⟩

/-- A letter is told, up to its case, by its value. -/
theorem lastLetter_of_letterValue {n : Int} (h : n % 26 + 1 = letterValue c) :
    lastLetter n = c.toUpper := by
  have hcode : 65 + (n % 26).toNat = c.toUpper.toNat := by
    rw [letterValue] at h
    omega
  rw [lastLetter, hcode, Char.ofNat_toNat]

/-! ## The names of columns -/

/-- A name of a column: a word of capital letters. -/
structure IsName (word : List Char) : Prop where
  ne_nil : word ≠ []
  isUpper : ∀ c ∈ word, c.isUpper = true

theorem IsName.isLetter (h : IsName word) : ∀ c ∈ word, isLetter c = true :=
  fun c hc => isLetter_of_isUpper (h.isUpper c hc)

theorem IsName.map_toUpper (h : IsName word) : word.map Char.toUpper = word :=
  List.map_congr_left (fun c hc => toUpper_of_isUpper (h.isUpper c hc)) |>.trans (List.map_id _)

theorem isName_letters (n : Int) : IsName (letters n) := by
  fun_induction letters n with
  | case1 n _ ih =>
    refine ⟨by simp, fun c hc => ?_⟩
    rcases List.mem_append.1 hc with hc | hc
    · exact ih.isUpper c hc
    · exact List.mem_singleton.1 hc ▸ isUpper_lastLetter n
  | case2 n _ => exact ⟨by simp, fun c hc => List.mem_singleton.1 hc ▸ isUpper_lastLetter n⟩

/-- **A word of letters is the name of the column that it names**, up to the case of its letters.
A letter counts from one to 26, so dividing by 26 takes off exactly the last one. -/
theorem letters_index (hne : word ≠ []) (h : ∀ c ∈ word, isLetter c = true) :
    letters (index word) = word.map Char.toUpper := by
  induction word using List.reverseRecOn with
  | nil => exact absurd rfl hne
  | append_singleton front c ih =>
    obtain ⟨hfront, hlast⟩ := List.forall_mem_append.1 h
    have hc := hlast c List.mem_cons_self
    have hlow := one_le_letterValue hc
    have hhigh := letterValue_le hc
    have hindex := index_append front c
    have hquotient : index (front ++ [c]) / 26 - 1 = index front := by omega
    have hletter : lastLetter (index (front ++ [c])) = c.toUpper :=
      lastLetter_of_letterValue (by omega)
    rw [letters, hquotient, hletter, List.map_append]
    by_cases hfront_ne : front = []
    · subst hfront_ne
      rfl
    · rw [if_pos ((index_bounds hfront).2 hfront_ne), ih hfront_ne hfront]
      rfl

theorem letters_index_of_isName (h : IsName word) : letters (index word) = word :=
  (letters_index h.ne_nil h.isLetter).trans h.map_toUpper

/-! ## The order of columns -/

/-- The number that letters make when they follow those that make the number `n`. -/
def indexFrom (n : Int) (word : List Char) : Int :=
  word.foldl (fun n c => 26 * n + letterValue c) n

theorem indexFrom_append (n : Int) (front back : List Char) :
    indexFrom n (front ++ back) = indexFrom (indexFrom n front) back := List.foldl_append ..

variable {word' : List Char}

/-- A smaller number stays smaller, whatever equally many letters follow. -/
theorem indexFrom_lt_of_lt (h : ∀ c ∈ word, isLetter c = true)
    (h' : ∀ c ∈ word', isLetter c = true) (hlen : word.length = word'.length) {m n : Int}
    (hlt : m < n) : indexFrom m word < indexFrom n word' := by
  induction word generalizing word' m n with
  | nil =>
    obtain rfl := List.eq_nil_of_length_eq_zero hlen.symm
    exact hlt
  | cons c word ih =>
    obtain ⟨c', word', rfl⟩ := List.exists_cons_of_length_eq_add_one hlen.symm
    obtain ⟨hc, hword⟩ := List.forall_mem_cons.1 h
    obtain ⟨hc', hword'⟩ := List.forall_mem_cons.1 h'
    have hhigh := letterValue_le hc
    have hlow := one_le_letterValue hc'
    have hnext : 26 * m + letterValue c < 26 * n + letterValue c' := by omega
    exact ih hword hword' (Nat.succ_injective hlen) hnext

theorem letterValue_lt {b : Char} (hb : b.isUpper = true) (hc : c.isUpper = true) (h : b < c) :
    letterValue b < letterValue c := by
  rw [letterValue_of_isUpper hb, letterValue_of_isUpper hc]
  have hcode : b.toNat < c.toNat := h
  omega

/-- Words of one length are ordered by their first letters that differ. -/
theorem indexFrom_lt_of_lex (h : ∀ c ∈ word, c.isUpper = true)
    (h' : ∀ c ∈ word', c.isUpper = true) (hlen : word.length = word'.length)
    (hlex : List.Lex (· < ·) word word') (n : Int) : indexFrom n word < indexFrom n word' := by
  induction hlex generalizing n with
  | nil => simp at hlen
  | @cons c word word' _ ih =>
    exact ih (List.forall_mem_cons.1 h).2 (List.forall_mem_cons.1 h').2 (Nat.succ_injective hlen)
      (26 * n + letterValue c)
  | @rel b word c word' hlt =>
    obtain ⟨hb, hword⟩ := List.forall_mem_cons.1 h
    obtain ⟨hc, hword'⟩ := List.forall_mem_cons.1 h'
    have hnext : 26 * n + letterValue b < 26 * n + letterValue c :=
      Int.add_lt_add_left (letterValue_lt hb hc hlt) _
    exact indexFrom_lt_of_lt (fun c hc => isLetter_of_isUpper (hword c hc))
      (fun c hc => isLetter_of_isUpper (hword' c hc)) (Nat.succ_injective hlen) hnext

/-- A shorter name comes first: the letters that the longer one has in front make a number that is
not zero, and as many letters follow as the shorter one has. -/
theorem indexFrom_lt_of_length_lt (h : ∀ c ∈ word, isLetter c = true)
    (h' : ∀ c ∈ word', isLetter c = true) (hlt : word.length < word'.length) :
    indexFrom 0 word < indexFrom 0 word' := by
  obtain ⟨front, back, rfl, hlen⟩ :
      ∃ front back, word' = front ++ back ∧ back.length = word.length :=
    ⟨_, _, (List.take_append_drop (word'.length - word.length) word').symm, by simp; omega⟩
  obtain ⟨hfront, hback⟩ := List.forall_mem_append.1 h'
  have hne : front ≠ [] := by
    rintro rfl
    exact absurd hlen hlt.ne'
  have hindex : 0 ≤ indexFrom 0 front - 1 := (index_bounds hfront).2 hne
  have hpos : 0 < indexFrom 0 front := by omega
  rw [indexFrom_append]
  exact indexFrom_lt_of_lt h hback hlen.symm hpos

theorem index_lt_of_shortlex (h : IsName word) (h' : IsName word')
    (hlt : List.Shortlex (· < ·) word word') : index word < index word' := by
  have hfrom : indexFrom 0 word < indexFrom 0 word' := by
    rcases List.shortlex_def.1 hlt with hlen | ⟨hlen, hlex⟩
    · exact indexFrom_lt_of_length_lt h.isLetter h'.isLetter hlen
    · exact indexFrom_lt_of_lex h.isUpper h'.isUpper hlen hlex 0
  exact Int.sub_lt_sub_right hfrom 1

/-- **The order of columns is that of their names**, shorter names first. -/
theorem index_lt_index_iff (h : IsName word) (h' : IsName word') :
    index word < index word' ↔ List.Shortlex (· < ·) word word' := by
  refine ⟨fun hlt => ?_, index_lt_of_shortlex h h'⟩
  rcases trichotomous_of (List.Shortlex (· < ·)) word word' with hshort | rfl | hshort
  · exact hshort
  · exact absurd hlt (Int.lt_irrefl _)
  · exact absurd (hlt.trans (index_lt_of_shortlex h' h hshort)) (Int.lt_irrefl _)

end Column

/-! ## Row numbers -/

namespace Decimal

theorem digitChar_of_isDigit (h : c.isDigit = true) :
    c.toNat - 48 < 10 ∧ (c.toNat - 48).digitChar = c := by
  have hall : ∀ k : Fin 10, (48 + k.val - 48).digitChar = Char.ofNat (48 + k.val) := by decide
  have h0 : ('0' : Char).val.toNat = 48 ∧ ('9' : Char).val.toNat = 57 := by decide
  simp only [Char.isDigit, Bool.and_eq_true, decide_eq_true_eq, ge_iff_le,
    UInt32.le_iff_toNat_le, h0] at h
  have hk := hall ⟨c.val.toNat - 48, by omega⟩
  simp only [Nat.add_sub_cancel' h.1] at hk
  exact ⟨show c.val.toNat - 48 < 10 by omega, hk.trans (Char.ofNat_toNat c)⟩

/-- **Digits without the zeros in front** are the digits of the number that they make. -/
theorem dropWhile_zero {ds : List Char} (h : ∀ c ∈ ds, c.isDigit = true) :
    ds.dropWhile (· == '0') = if ofDigits ds = 0 then [] else Nat.toDigits 10 (ofDigits ds) := by
  induction ds using List.reverseRecOn with
  | nil => rfl
  | append_singleton ds c ih =>
    obtain ⟨hds, hlast⟩ := List.forall_mem_append.1 h
    obtain ⟨hlt, hchar⟩ := digitChar_of_isDigit (hlast c List.mem_cons_self)
    rw [ofDigits_append, List.dropWhile_append, ih hds]
    by_cases hfront : ofDigits ds = 0
    · rw [if_pos hfront, hfront, Nat.mul_zero, Nat.zero_add]
      by_cases hzero : c.toNat - 48 = 0
      · have hc : c = '0' := by
          rw [hzero] at hchar
          exact hchar.symm
        subst hc
        rfl
      · have hc : c ≠ '0' := fun hc => hzero (hc ▸ rfl)
        rw [if_neg hzero, Nat.toDigits_of_lt_base hlt, hchar]
        simp [hc]
    · have hne : ¬ (Nat.toDigits 10 (ofDigits ds)).isEmpty = true := fun hempty =>
        Nat.toDigits_ne_nil (List.isEmpty_iff.1 hempty)
      rw [if_neg hfront, if_neg hne, if_neg (by omega),
        ← Nat.toDigits_append_toDigits (by decide) (Nat.pos_of_ne_zero hfront) hlt,
        Nat.toDigits_of_lt_base hlt, hchar]

end Decimal

/-! ## References -/

namespace Reference

variable {p : Parts} {r : Reference}

/-- A text of nothing but the parts of a reference; one line end after it is allowed. -/
def Spells (p : Parts) (cs : List Char) : Prop :=
  Written p ∧ (cs = p.chars ∨ cs = p.chars ++ ['\n'])

theorem Spells.take? (h : Spells p cs) : Parts.take? cs = some p := by
  obtain ⟨hp, rfl | rfl⟩ := h
  · have hend : ([] : List Char).takeWhile Char.isDigit = [] := rfl
    simpa using Formula.take?_chars hp hend
  · exact Formula.take?_chars hp rfl

/-- **What is read** in a text that is a reference. -/
theorem read?_of_spells (h : Spells p cs) : read? cs = p.resolve? := by
  have hrest : cs.drop p.chars.length = [] ∨ cs.drop p.chars.length = ['\n'] := by
    obtain ⟨-, rfl | rfl⟩ := h
    · exact .inl (List.drop_length ..)
    · exact .inr (List.drop_left ..)
  unfold read?
  rw [h.take?]
  exact if_pos hrest

theorem read?_of_not_spells (h : ∀ p, ¬ Spells p cs) : read? cs = .ok none := by
  unfold read?
  cases htake : Parts.take? cs with
  | none => rfl
  | some p =>
    obtain ⟨hp, rest, rfl, -⟩ := Formula.take?_written htake
    refine if_neg fun hrest => h p ⟨hp, ?_⟩
    rw [List.drop_left] at hrest
    exact hrest.imp (fun he => by rw [he, List.append_nil]) fun he => by rw [he]

theorem resolve?_eq_some_iff : p.resolve? = .ok (some r) ↔
    Formula.Short p ∧ Decimal.ofDigits p.digits ≠ 0 ∧
      r = ⟨⟨(Decimal.ofDigits p.digits : Int) - 1, Column.index p.word⟩, p.pinnedRow,
        p.pinnedCol⟩ := by
  unfold Parts.resolve?
  by_cases hshort : Formula.Short p
  · rw [Decimal.readNat_of_length_le hshort]
    by_cases hzero : Decimal.ofDigits p.digits = 0
    · simp [bind, Except.bind, pure, Except.pure, hzero]
    · simp [bind, Except.bind, pure, Except.pure, hzero, hshort, eq_comm]
  · rw [Decimal.readNat_of_lt_length (Nat.lt_of_not_le hshort)]
    simp [bind, Except.bind, hshort]

/-- **The texts that are references**, and which. -/
theorem read?_eq_some_iff : read? cs = .ok (some r) ↔
    ∃ p, Spells p cs ∧ p.resolve? = .ok (some r) := by
  constructor
  · intro h
    by_cases hspells : ∃ p, Spells p cs
    · obtain ⟨p, hp⟩ := hspells
      exact ⟨p, hp, (read?_of_spells hp).symm.trans h⟩
    · rw [read?_of_not_spells (not_exists.1 hspells)] at h
      cases h
  · rintro ⟨p, hp, hr⟩
    rw [read?_of_spells hp, hr]

theorem exists_read?_iff : (∃ r, read? cs = .ok (some r)) ↔
    ∃ p, Spells p cs ∧ Formula.Short p ∧ Decimal.ofDigits p.digits ≠ 0 := by
  constructor
  · rintro ⟨r, hr⟩
    obtain ⟨p, hp, hresolve⟩ := read?_eq_some_iff.1 hr
    obtain ⟨hshort, hnumber, -⟩ := resolve?_eq_some_iff.1 hresolve
    exact ⟨p, hp, hshort, hnumber⟩
  · rintro ⟨p, hp, hshort, hnumber⟩
    exact ⟨_, read?_eq_some_iff.2 ⟨p, hp, resolve?_eq_some_iff.2 ⟨hshort, hnumber, rfl⟩⟩⟩

theorem resolve?_of_long_row (hlong : ¬ Formula.Short p) :
    p.resolve? = .error (.reading p.digits.length) := by
  rw [Parts.resolve?, Decimal.readNat_of_lt_length (Nat.lt_of_not_le hlong)]
  rfl

/-- **The texts that are refused**: those of references whose row number has too many digits, zeros
in front counted. -/
theorem read?_eq_error_iff {e : Decimal.TooLong} : read? cs = .error e ↔
    ∃ p, Spells p cs ∧ ¬ Formula.Short p ∧ e = .reading p.digits.length := by
  constructor
  · intro h
    by_cases hspells : ∃ p, Spells p cs
    · obtain ⟨p, hp⟩ := hspells
      rw [read?_of_spells hp] at h
      have hlong : ¬ Formula.Short p := by
        intro hshort
        rw [Parts.resolve?, Decimal.readNat_of_length_le hshort] at h
        simp only [bind, Except.bind] at h
        split at h <;> cases h
      exact ⟨p, hp, hlong, Except.error.inj (h.symm.trans (resolve?_of_long_row hlong))⟩
    · rw [read?_of_not_spells (not_exists.1 hspells)] at h
      cases h
  · rintro ⟨p, hp, hlong, rfl⟩
    rw [read?_of_spells hp, resolve?_of_long_row hlong]

/-! ## Written back -/

/-- The parts as they are written back: capital letters, and no zero in front of the row number. -/
def Parts.canonical (p : Parts) : Parts :=
  { p with word := p.word.map Char.toUpper, digits := p.digits.dropWhile (· == '0') }

/-- The parts of a reference that was read, written anew, are the parts that were read. -/
theorem written_of_resolve? (hp : Written p) (hr : p.resolve? = .ok (some r)) :
    r.written = p.canonical := by
  obtain ⟨-, hnumber, rfl⟩ := resolve?_eq_some_iff.1 hr
  simp only [written, Parts.canonical, Column.letters_index hp.word_ne hp.word,
    Decimal.dropWhile_zero hp.digits, if_neg hnumber, Int.sub_add_cancel, Int.toNat_natCast]

/-- **What is read is written back** in capital letters, without zeros in front of the row number
and without a line end. -/
theorem text_of_read? (h : Spells p cs) (hr : read? cs = .ok (some r)) :
    r.text = .ok (String.ofList p.canonical.chars) := by
  rw [read?_of_spells h] at hr
  obtain ⟨hrow, -, hfits⟩ := h.1.bounds (resolve?_eq_some_iff.1 hr).1 hr
  rw [text_eq_written hrow hfits, written_of_resolve? h.1 hr]

/-- **What is written is read back.** -/
theorem read?_text (hrow : 0 ≤ r.cell.row) (hcol : 0 ≤ r.cell.col) (hfits : r.Fits) :
    ∃ s, r.text = .ok s ∧ read? s.toList = .ok (some r) := by
  refine ⟨_, text_eq_written hrow hfits, ?_⟩
  rw [String.toList_ofList]
  exact (read?_of_spells ⟨written_written, .inl rfl⟩).trans (resolve?_written hrow hcol hfits)

end Reference

/-! ## Names of cells -/

theorem Text.trim_of_not_isBlank (h : ∀ c ∈ cs, isBlank c = false) : trim cs = cs := by
  have hkeep {xs : List Char} (hxs : ∀ c ∈ xs, isBlank c = false) : trimLeft xs = xs := by
    cases xs with
    | nil => rfl
    | cons c xs =>
      refine List.dropWhile_cons_of_neg ?_
      rw [hxs c List.mem_cons_self]
      exact Bool.false_ne_true
  rw [trim, hkeep h, hkeep fun c hc => h c (List.mem_reverse.1 hc), List.reverse_reverse]

theorem not_isBlank_of_isLetter (h : isLetter c = true) : Text.isBlank c = false := by
  obtain ⟨k, rfl | rfl⟩ := ofNat_of_isLetter h
  all_goals
    revert k
    decide

/-- A reference has no blanks in it. -/
theorem Formula.Written.not_isBlank {p : Parts} (hp : Written p) :
    ∀ c ∈ p.chars, Text.isBlank c = false := by
  have hpin (pinned : Bool) :
      ∀ c ∈ (if pinned then ['$'] else [] : List Char), Text.isBlank c = false := by
    have hdollar : Text.isBlank '$' = false := by decide
    cases pinned with
    | false => exact fun c hc => absurd hc List.not_mem_nil
    | true => exact fun c hc => List.mem_singleton.1 hc ▸ hdollar
  simp only [Parts.chars, List.forall_mem_append]
  refine ⟨⟨⟨hpin _, fun c hc => not_isBlank_of_isLetter (hp.word c hc)⟩, hpin _⟩, fun c hc => ?_⟩
  exact Bool.eq_false_iff.2 fun hblank =>
    Formula.not_isDigit_of_isBlank hblank (hp.digits c hc)

/-- **The name of a cell is read back.** -/
theorem Address.read_text {cell : Cell} (hrow : 0 ≤ cell.row) (hcol : 0 ≤ cell.col)
    (hfits : (Reference.mk cell false false).Fits) :
    ∃ s, Address.text cell = .ok s ∧ Address.read s = .ok cell := by
  have hback := Reference.resolve?_written hrow hcol hfits
  refine ⟨_, Reference.text_eq_written hrow hfits, ?_⟩
  unfold Address.read
  rw [String.toList_ofList, Text.trim_of_not_isBlank Reference.written_written.not_isBlank,
    Reference.read?_of_spells ⟨Reference.written_written, .inl rfl⟩, hback]

/-! ## One to one -/

/-- **The notation names columns, references and cells one to one, without bounds.** Only row
numbers of more digits than can be converted are refused: a reference with such a number is not
written, and a text with such a number, though zeros may be all that makes it long, is not read. -/
theorem naming_bijective (m n : Int) (word word' : List Char) (r : Reference) (cell : Cell)
    (cs : List Char) :
    (0 ≤ n → Column.IsName (Column.letters n) ∧ Column.index (Column.letters n) = n) ∧
    (Column.IsName word → 0 ≤ Column.index word ∧ Column.letters (Column.index word) = word) ∧
    (Column.IsName word → Column.IsName word' →
      (Column.index word < Column.index word' ↔ List.Shortlex (· < ·) word word')) ∧
    (0 ≤ m → 0 ≤ n →
      (m < n ↔ List.Shortlex (· < ·) (Column.letters m) (Column.letters n))) ∧
    (0 ≤ r.cell.row → 0 ≤ r.cell.col → r.Fits →
      ∃ s, r.text = .ok s ∧ Reference.read? s.toList = .ok (some r)) ∧
    (0 ≤ cell.row → 0 ≤ cell.col → (Reference.mk cell false false).Fits →
      ∃ s, Address.text cell = .ok s ∧ Address.read s = .ok cell) ∧
    ((∃ r, Reference.read? cs = .ok (some r)) ↔
      ∃ p, Reference.Spells p cs ∧ Formula.Short p ∧ Decimal.ofDigits p.digits ≠ 0) ∧
    (∀ e, Reference.read? cs = .error e ↔
      ∃ p, Reference.Spells p cs ∧ ¬ Formula.Short p ∧ e = .reading p.digits.length) ∧
    (∀ p r, Reference.Spells p cs → Reference.read? cs = .ok (some r) →
      r.text = .ok (String.ofList p.canonical.chars)) := by
  refine ⟨fun hn => ⟨Column.isName_letters n, Column.index_letters hn⟩,
    fun h => ⟨(index_bounds h.isLetter).2 h.ne_nil, Column.letters_index_of_isName h⟩,
    Column.index_lt_index_iff, fun hm hn => ?_, Reference.read?_text, Address.read_text,
    Reference.exists_read?_iff, fun e => Reference.read?_eq_error_iff,
    fun p r => Reference.text_of_read?⟩
  rw [← Column.index_lt_index_iff (Column.isName_letters m) (Column.isName_letters n),
    Column.index_letters hm, Column.index_letters hn]

/-- Behind `ZZ` comes `AAA`, and `$zz007` with a line end is the reference `$ZZ7`. -/
theorem naming_bijective_zz :
    Column.letters (Column.index ['Z', 'Z']) = ['Z', 'Z'] ∧
    Column.index ['Z', 'Z'] < Column.index ['A', 'A', 'A'] ∧
    (∃ s, Address.text ⟨6, 701⟩ = .ok s ∧ Address.read s = .ok ⟨6, 701⟩) ∧
    Reference.text ⟨⟨6, 701⟩, false, true⟩ = .ok "$ZZ7" := by
  have hname : Column.IsName ['Z', 'Z'] := ⟨by decide, by simp [Char.isUpper]⟩
  have hnext : Column.IsName ['A', 'A', 'A'] := ⟨by decide, by simp [Char.isUpper]⟩
  have hshorter : List.Shortlex (· < ·) ['Z', 'Z'] ['A', 'A', 'A'] :=
    List.Shortlex.of_length_lt (by decide)
  have hfits : (Reference.mk ⟨6, 701⟩ false false).Fits :=
    show 7 < 10 ^ Decimal.maxDigits from (show 7 < 10 ^ 1 by decide).trans_le
      (Nat.pow_le_pow_right (by decide) (by decide))
  have hspells : Reference.Spells ⟨true, ['z', 'z'], false, ['0', '0', '7']⟩
      ['$', 'z', 'z', '0', '0', '7', '\n'] :=
    ⟨⟨by decide, by simp [isLetter], by decide, by simp [Char.isDigit]⟩, .inr rfl⟩
  obtain ⟨-, hword, horder, -, -, haddress, -, -, hback⟩ :=
    naming_bijective 0 0 ['Z', 'Z'] ['A', 'A', 'A'] ⟨⟨6, 701⟩, false, true⟩ ⟨6, 701⟩
      ['$', 'z', 'z', '0', '0', '7', '\n']
  exact ⟨(hword hname).2, (horder hname hnext).2 hshorter,
    haddress (by decide) (by decide) hfits, hback _ _ hspells (by rfl)⟩

theorem Decimal.ofDigits_replicate_zero (n : Nat) : ofDigits (List.replicate n '0') = 0 := by
  induction n with
  | zero => rfl
  | succ n ih =>
    rw [List.replicate_succ', ofDigits_append, ih]
    rfl

/-- The reference to the cell `A1` with more zeros in front of its row number than can be read. -/
def zerosInFront : Reference.Parts :=
  ⟨false, ['A'], false, List.replicate Decimal.maxDigits '0' ++ ['1']⟩

theorem written_zerosInFront : Written zerosInFront where
  word_ne := List.cons_ne_nil _ _
  word c hc := List.mem_singleton.1 hc ▸ by decide
  digits_ne := List.append_ne_nil_of_right_ne_nil _ (List.cons_ne_nil _ _)
  digits c hc := by
    rcases List.mem_append.1 hc with hc | hc
    · exact List.eq_of_mem_replicate hc ▸ by decide
    · exact List.mem_singleton.1 hc ▸ by decide

theorem not_short_zerosInFront : ¬ Formula.Short zerosInFront := by
  rw [Formula.Short, zerosInFront, List.length_append, List.length_replicate]
  exact Nat.not_le.2 (Nat.lt_succ_self _)

/-- Not every reference with a row number that is not zero is read. -/
theorem not_read_zerosInFront :
    ¬ ∀ cs, (∃ r, Reference.read? cs = .ok (some r)) ↔
      ∃ p, Reference.Spells p cs ∧ Decimal.ofDigits p.digits ≠ 0 := by
  intro h
  have hspells : Reference.Spells zerosInFront zerosInFront.chars :=
    ⟨written_zerosInFront, .inl rfl⟩
  have hnumber : Decimal.ofDigits zerosInFront.digits ≠ 0 := by
    rw [zerosInFront, Decimal.ofDigits_append, Decimal.ofDigits_replicate_zero]
    decide
  obtain ⟨r, hr⟩ := (h zerosInFront.chars).2 ⟨_, hspells, hnumber⟩
  rw [Reference.read?_of_spells hspells, Reference.resolve?_of_long_row not_short_zerosInFront]
    at hr
  cases hr

end Spreadsheet
