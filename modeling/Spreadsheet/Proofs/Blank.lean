import Mathlib.Data.List.Chain
import Mathlib.Data.List.DropRight
import Spreadsheet.CellText
import Spreadsheet.Formula.Number
import Spreadsheet.Proofs.Formula.Shift

/-!
# Blanks in texts

Squeezing leaves single spaces, trimming takes the blanks off both ends, and the order of both does
not matter. A text that has been normalized is tidy, and tidy texts stay as they are. Whether a text
counts as a number, and as which, has nothing to do with this: no number has a blank inside.

* `Text.Squeezed`, `Text.Tidy`; `squeeze_of_squeezed`, `Tidy.trim_squeeze`: what stays;
* `Text.squeezed_squeeze`, `Text.tidy_trim`: what comes out;
* **`Text.trim_squeeze`**: trimming and squeezing commute;
* `CellText.tidy_normalize`, **`CellText.normalize_normalize`**;
* `Decimal.Numeral.not_isBlank_of_read?`, **`Formula.ofText_normalize`**: numbers.
-/

namespace Spreadsheet

namespace Text

variable {c : Char} {cs front : List Char}

/-! ## Both ends -/

/-- Take the blanks off the end. -/
def trimRight (cs : List Char) : List Char := cs.rdropWhile isBlank

theorem trim_eq (cs : List Char) : trim cs = trimRight (trimLeft cs) := rfl

theorem trimLeft_cons_of_isBlank (h : isBlank c = true) (cs : List Char) :
    trimLeft (c :: cs) = trimLeft cs := List.dropWhile_cons_of_pos h

theorem trimLeft_cons_of_not (h : isBlank c = false) (cs : List Char) :
    trimLeft (c :: cs) = c :: cs := List.dropWhile_cons_of_neg (by simp [h])

theorem trimLeft_eq_self (h : ∀ c ∈ cs.head?, isBlank c = false) : trimLeft cs = cs := by
  cases cs with
  | nil => rfl
  | cons c cs => exact trimLeft_cons_of_not (h c rfl) cs

theorem not_isBlank_head_trimLeft (cs : List Char) :
    ∀ c ∈ (trimLeft cs).head?, isBlank c = false := by
  induction cs with
  | nil => exact nofun
  | cons c cs ih =>
    cases h : isBlank c with
    | true =>
      rw [trimLeft_cons_of_isBlank h]
      exact ih
    | false =>
      rw [trimLeft_cons_of_not h]
      rintro _ ⟨⟩
      exact h

theorem trimRight_cons (c : Char) (cs : List Char) : trimRight (c :: cs) =
    if trimRight cs = [] then (if isBlank c then [] else [c]) else c :: trimRight cs := by
  unfold trimRight List.rdropWhile
  rw [List.reverse_cons, List.dropWhile_append]
  by_cases h : cs.reverse.dropWhile isBlank = []
  · simp only [h, List.isEmpty_nil, if_true, List.reverse_nil, List.dropWhile_cons]
    cases isBlank c <;> rfl
  · rw [if_neg (by simpa using h), if_neg (by simpa using h), List.reverse_append]
    rfl

theorem trimRight_cons_of_not (h : isBlank c = false) (cs : List Char) :
    trimRight (c :: cs) = c :: trimRight cs := by
  rw [trimRight_cons]
  split
  · rename_i hnil
    rw [hnil, h]
    rfl
  · rfl

theorem trimRight_append (h : ∀ c ∈ front, isBlank c = false) (cs : List Char) :
    trimRight (front ++ cs) = front ++ trimRight cs := by
  induction front with
  | nil => rfl
  | cons c front ih =>
    obtain ⟨hc, hfront⟩ := List.forall_mem_cons.1 h
    rw [List.cons_append, trimRight_cons_of_not hc, ih hfront, List.cons_append]

theorem not_isBlank_getLast_trimRight (cs : List Char) :
    ∀ c ∈ (trimRight cs).getLast?, isBlank c = false := by
  intro c hc
  have hreverse := not_isBlank_head_trimLeft cs.reverse c
  rw [trimRight, List.rdropWhile, List.getLast?_reverse] at hc
  exact hreverse hc

theorem trimRight_eq_self (h : ∀ c ∈ cs.getLast?, isBlank c = false) : trimRight cs = cs := by
  have hreverse : trimLeft cs.reverse = cs.reverse :=
    trimLeft_eq_self fun c hc => h c (by rwa [List.head?_reverse] at hc)
  exact (congrArg List.reverse hreverse).trans (List.reverse_reverse cs)

/-- The two ends have nothing to do with each other. -/
theorem trimLeft_trimRight (cs : List Char) :
    trimLeft (trimRight cs) = trimRight (trimLeft cs) := by
  induction cs with
  | nil => rfl
  | cons c cs ih =>
    cases h : isBlank c with
    | true =>
      rw [trimLeft_cons_of_isBlank h, ← ih, trimRight_cons, h, if_pos rfl]
      split
      · rename_i hnil
        rw [hnil]
      · exact trimLeft_cons_of_isBlank h _
    | false => rw [trimLeft_cons_of_not h, trimRight_cons_of_not h, trimLeft_cons_of_not h]

/-! ## Squeezed texts -/

/-- Every blank is a space, and no two of them stand next to each other. -/
structure Squeezed (cs : List Char) : Prop where
  space : ∀ c ∈ cs, isBlank c = true → c = ' '
  apart : cs.IsChain fun b c => isBlank b = true → isBlank c = false

theorem Squeezed.of_infix (h : Squeezed cs) {ds : List Char} (hds : ds <:+: cs) : Squeezed ds :=
  ⟨fun c hc => h.space c (hds.subset hc), h.apart.infix hds⟩

theorem Squeezed.trimLeft (h : Squeezed cs) : Squeezed (trimLeft cs) :=
  h.of_infix (List.dropWhile_suffix _).isInfix

theorem Squeezed.trimRight (h : Squeezed cs) : Squeezed (trimRight cs) :=
  h.of_infix (List.rdropWhile_prefix _ _).isInfix

theorem Squeezed.cons (h : Squeezed cs) (hc : isBlank c = true → c = ' ')
    (hnext : isBlank c = true → ∀ d ∈ cs.head?, isBlank d = false) : Squeezed (c :: cs) where
  space := List.forall_mem_cons.2 ⟨hc, h.space⟩
  apart := List.isChain_cons.2 ⟨fun d hd hblank => hnext hblank d hd, h.apart⟩

theorem Squeezed.tail (h : Squeezed (c :: cs)) : Squeezed cs :=
  h.of_infix (List.suffix_cons c cs).isInfix

theorem Squeezed.next (h : Squeezed (c :: cs)) (hc : isBlank c = true) :
    ∀ d ∈ cs.head?, isBlank d = false := fun d hd => (List.isChain_cons.1 h.apart).1 d hd hc

theorem squeeze_cons_of_not (h : isBlank c = false) (cs : List Char) :
    squeeze (c :: cs) = c :: squeeze cs := by
  rw [squeeze, h]
  rfl

theorem squeeze_append (h : ∀ c ∈ front, isBlank c = false) (cs : List Char) :
    squeeze (front ++ cs) = front ++ squeeze cs := by
  induction front with
  | nil => rfl
  | cons c front ih =>
    obtain ⟨hc, hfront⟩ := List.forall_mem_cons.1 h
    rw [List.cons_append, squeeze_cons_of_not hc, ih hfront, List.cons_append]

/-- A blank in front becomes the space of the run that it is in. -/
theorem Squeezed.squeeze_cons (h : Squeezed (squeeze cs)) (hc : isBlank c = true) :
    squeeze (c :: cs) = ' ' :: Text.trimLeft (squeeze cs) := by
  have hspace : isBlank ' ' = true := by decide
  rw [squeeze, if_pos hc]
  split
  · rename_i rest hrest
    rw [hrest] at h ⊢
    rw [trimLeft_cons_of_isBlank hspace, trimLeft_eq_self (h.next hspace)]
  · rename_i hne
    rw [trimLeft_eq_self fun d hd => ?_]
    obtain ⟨rest, hrest⟩ := List.head?_eq_some_iff.1 hd
    refine Bool.eq_false_iff.2 fun hblank => hne rest ?_
    rw [hrest, h.space d (hrest ▸ List.mem_cons_self) hblank]

theorem squeezed_squeeze (cs : List Char) : Squeezed (squeeze cs) := by
  induction cs with
  | nil => exact ⟨nofun, .nil⟩
  | cons c cs ih =>
    cases hc : isBlank c with
    | true =>
      rw [ih.squeeze_cons hc]
      exact ih.trimLeft.cons (fun _ => rfl) fun _ => not_isBlank_head_trimLeft _
    | false =>
      rw [squeeze_cons_of_not hc]
      exact ih.cons (fun hblank => absurd hblank (by simp [hc]))
        fun hblank => absurd hblank (by simp [hc])

theorem squeeze_cons_of_isBlank (h : isBlank c = true) (cs : List Char) :
    squeeze (c :: cs) = ' ' :: trimLeft (squeeze cs) := (squeezed_squeeze cs).squeeze_cons h

theorem squeeze_of_squeezed (h : Squeezed cs) : squeeze cs = cs := by
  induction cs with
  | nil => rfl
  | cons c cs ih =>
    have hcs := ih h.tail
    cases hc : isBlank c with
    | true =>
      rw [squeeze_cons_of_isBlank hc, hcs, trimLeft_eq_self (h.next hc),
        h.space c List.mem_cons_self hc]
    | false => rw [squeeze_cons_of_not hc, hcs]

/-! ## Tidy texts -/

/-- A text without blanks at its ends, and with single spaces inside. -/
structure Tidy (cs : List Char) : Prop extends Squeezed cs where
  front : ∀ c ∈ cs.head?, isBlank c = false
  back : ∀ c ∈ cs.getLast?, isBlank c = false

theorem tidy_trim (h : Squeezed cs) : Tidy (trim cs) where
  toSqueezed := h.trimLeft.trimRight
  front := by
    rw [trim_eq, ← trimLeft_trimRight]
    exact not_isBlank_head_trimLeft _
  back := not_isBlank_getLast_trimRight _

theorem Tidy.trim_eq_self (h : Tidy cs) : trim cs = cs := by
  rw [trim_eq, trimLeft_eq_self h.front, trimRight_eq_self h.back]

theorem tidy_of_not_isBlank (h : ∀ c ∈ cs, isBlank c = false) : Tidy cs where
  space c hc hblank := absurd (h c hc) (by simp [hblank])
  apart := by
    refine List.Pairwise.isChain (List.pairwise_of_forall_mem_list fun _ _ c hc => ?_)
    exact fun _ => h c hc
  front c hc := h c (List.mem_of_mem_head? hc)
  back c hc := h c (List.mem_of_getLast? hc)

/-- **A tidy text stays as it is.** -/
theorem Tidy.trim_squeeze (h : Tidy cs) : trim (squeeze cs) = cs := by
  rw [squeeze_of_squeezed h.toSqueezed, h.trim_eq_self]

/-! ## In either order -/

theorem trimLeft_squeeze (cs : List Char) : trimLeft (squeeze cs) = squeeze (trimLeft cs) := by
  induction cs with
  | nil => rfl
  | cons c cs ih =>
    cases hc : isBlank c with
    | true =>
      rw [trimLeft_cons_of_isBlank hc, ← ih, squeeze_cons_of_isBlank hc,
        trimLeft_cons_of_isBlank (by decide),
        trimLeft_eq_self (not_isBlank_head_trimLeft _)]
    | false =>
      rw [trimLeft_cons_of_not hc, squeeze_cons_of_not hc, trimLeft_cons_of_not hc]

theorem mem_squeeze_of_not (hc : isBlank c = false) (h : c ∈ cs) : c ∈ squeeze cs := by
  induction cs with
  | nil => cases h
  | cons d cs ih =>
    cases hd : isBlank d with
    | true =>
      have hmem : c ∈ cs := (List.mem_cons.1 h).resolve_left fun heq => by simp [← heq, hc] at hd
      rw [squeeze_cons_of_isBlank hd]
      refine List.mem_cons_of_mem _ ?_
      have hrest := ih hmem
      rw [← List.takeWhile_append_dropWhile (p := isBlank) (l := squeeze cs)] at hrest
      refine (List.mem_append.1 hrest).resolve_left fun htake => ?_
      rw [List.mem_takeWhile_imp htake] at hc
      cases hc
    | false =>
      rw [squeeze_cons_of_not hd]
      exact (List.mem_cons.1 h).elim (fun heq => heq ▸ List.mem_cons_self)
        fun hmem => List.mem_cons_of_mem _ (ih hmem)

/-- A text with blanks only, and no other, is squeezed to blanks only. -/
theorem trimLeft_squeeze_eq_nil_iff : trimLeft (squeeze (trimRight cs)) = [] ↔
    trimRight cs = [] := by
  constructor
  · intro h
    by_contra hne
    have hlast := not_isBlank_getLast_trimRight cs _ (List.getLast?_eq_some_getLast hne)
    have hmem := mem_squeeze_of_not hlast (List.getLast_mem hne)
    rw [List.dropWhile_eq_nil_iff.1 h _ hmem] at hlast
    cases hlast
  · intro h
    rw [h]
    rfl

theorem trimRight_squeeze (cs : List Char) : trimRight (squeeze cs) = squeeze (trimRight cs) := by
  induction cs with
  | nil => rfl
  | cons c cs ih =>
    cases hc : isBlank c with
    | true =>
      rw [squeeze_cons_of_isBlank hc, trimRight_cons, trimRight_cons, ← trimLeft_trimRight, ih]
      simp only [trimLeft_squeeze_eq_nil_iff, hc, if_true]
      split
      · rfl
      · rw [squeeze_cons_of_isBlank hc]
    | false =>
      rw [squeeze_cons_of_not hc, trimRight_cons_of_not hc, trimRight_cons_of_not hc,
        squeeze_cons_of_not hc, ih]

/-- **Trimming and squeezing commute.** -/
theorem trim_squeeze (cs : List Char) : trim (squeeze cs) = squeeze (trim cs) := by
  rw [trim_eq, trim_eq, trimLeft_squeeze, trimRight_squeeze]

/-- Squeezing changes a text only if it has blanks, and then it leaves some. -/
theorem squeeze_eq_self_or (cs : List Char) : squeeze cs = cs ∨
    (∃ c ∈ cs, isBlank c = true) ∧ ∃ c ∈ squeeze cs, isBlank c = true := by
  induction cs with
  | nil => exact .inl rfl
  | cons c cs ih =>
    cases hc : isBlank c with
    | true =>
      refine .inr ⟨⟨c, List.mem_cons_self, hc⟩, ' ', ?_, by decide⟩
      rw [squeeze_cons_of_isBlank hc]
      exact List.mem_cons_self
    | false =>
      rw [squeeze_cons_of_not hc]
      refine ih.imp (fun h => by rw [h]) ?_
      rintro ⟨⟨b, hb, hblank⟩, b', hb', hblank'⟩
      exact ⟨⟨b, List.mem_cons_of_mem _ hb, hblank⟩, b', List.mem_cons_of_mem _ hb', hblank'⟩

theorem ne_of_isBlank {d : Char} (hc : isBlank c = true) (hd : isBlank d = false) : c ≠ d := by
  rintro rfl
  rw [hd] at hc
  cases hc

end Text

/-! ## Numbers -/

namespace Decimal

open Text (isBlank ne_of_isBlank)

variable {c : Char} {cs : List Char}

theorem mem_takeSign (hc : isBlank c = true) (h : c ∈ cs) : c ∈ (takeSign cs).2 := by
  unfold takeSign
  split
  · exact (List.mem_cons.1 h).resolve_left (ne_of_isBlank hc (by decide))
  · exact (List.mem_cons.1 h).resolve_left (ne_of_isBlank hc (by decide))
  · exact h

theorem mem_takeFraction (hc : isBlank c = true) (h : c ∈ cs) : c ∈ (takeFraction cs).2 := by
  unfold takeFraction
  split
  · rename_i ds
    have hmem := (List.mem_cons.1 h).resolve_left (ne_of_isBlank hc (by decide))
    rw [← List.takeWhile_append_dropWhile (p := Char.isDigit) (l := ds), List.mem_append] at hmem
    exact hmem.resolve_left fun htake =>
      Formula.not_isDigit_of_isBlank hc (List.mem_takeWhile_imp htake)
  · exact h

theorem not_isBlank_of_readExponent? {k : Int} (h : readExponent? cs = some k) :
    ∀ c ∈ cs, isBlank c = false := by
  intro c hmem
  refine Bool.eq_false_iff.2 fun hc => ?_
  cases cs with
  | nil => cases hmem
  | cons d ds =>
    simp only [readExponent?] at h
    split at h
    · rename_i hparts
      simp only [Bool.and_eq_true, Bool.or_eq_true, beq_iff_eq] at hparts
      obtain ⟨⟨hd, -⟩, hdigits⟩ := hparts
      have hletter : c ≠ d := by
        rcases hd with rfl | rfl
        · exact ne_of_isBlank hc (by decide)
        · exact ne_of_isBlank hc (by decide)
      have hrest := mem_takeSign hc ((List.mem_cons.1 hmem).resolve_left hletter)
      exact Formula.not_isDigit_of_isBlank hc (List.all_eq_true.1 hdigits c hrest)
    · cases h

/-- **A number has no blanks in it.** -/
theorem Numeral.not_isBlank_of_read? {n : Numeral} (h : Numeral.read? cs = some n) :
    ∀ c ∈ cs, isBlank c = false := by
  intro c hmem
  refine Bool.eq_false_iff.2 fun hc => ?_
  have hunsigned := mem_takeSign hc hmem
  unfold Numeral.read? at h
  simp only at h
  generalize (takeSign cs).2 = ds at h hunsigned
  rw [← List.takeWhile_append_dropWhile (p := Char.isDigit) (l := ds), List.mem_append]
    at hunsigned
  have hdrop := hunsigned.resolve_left fun htake =>
    Formula.not_isDigit_of_isBlank hc (List.mem_takeWhile_imp htake)
  have hrest := mem_takeFraction hc hdrop
  split at h
  · cases h
  · obtain ⟨k, hk, -⟩ := Option.bind_eq_some_iff.1 h
    rw [not_isBlank_of_readExponent? hk c hrest] at hc
    cases hc

end Decimal

/-! ## Normalized texts -/

namespace CellText

open Text (isBlank)

variable {text : String}

theorem toList_normalize (h : isBlankFormula text = false) :
    (normalize text).toList = Text.trim (Text.squeeze text.toList) := by
  rw [normalize, if_neg (by simp [h]), String.toList_ofList]

theorem normalize_of_isBlankFormula (h : isBlankFormula text = true) : normalize text = text :=
  if_pos h

theorem tidy_normalize (h : isBlankFormula text = false) : Text.Tidy (normalize text).toList := by
  rw [toList_normalize h]
  exact Text.tidy_trim (Text.squeezed_squeeze _)

theorem normalize_of_tidy (h : Text.Tidy text.toList) : normalize text = text := by
  unfold normalize
  split
  · rfl
  · rw [h.trim_squeeze, String.ofList_toList]

/-- **Normalizing twice** is normalizing once. -/
theorem normalize_normalize (text : String) : normalize (normalize text) = normalize text := by
  cases h : isBlankFormula text with
  | true => rw [normalize_of_isBlankFormula h, normalize_of_isBlankFormula h]
  | false => exact normalize_of_tidy (tidy_normalize h)

end CellText

/-- **A text counts as the same number** when it is normalized. -/
theorem Formula.ofText_normalize (text : String) :
    ofText (CellText.normalize text) = ofText text := by
  cases h : CellText.isBlankFormula text with
  | true => rw [CellText.normalize_of_isBlankFormula h]
  | false =>
    have htidy := (CellText.tidy_normalize h).trim_eq_self
    unfold ofText
    rw [htidy, CellText.toList_normalize h, Text.trim_squeeze]
    -- inside, a blank keeps a text from being a number, as does the space it becomes
    rcases Text.squeeze_eq_self_or (Text.trim text.toList) with hsame | ⟨hblank, hblank'⟩
    · rw [hsame]
    · have hnone {cs : List Char} (hcs : ∃ c ∈ cs, Text.isBlank c = true) :
          cs.isEmpty = false ∧ Decimal.Numeral.read? cs = none := by
        obtain ⟨c, hc, hblank⟩ := hcs
        refine ⟨?_, Option.eq_none_iff_forall_ne_some.2 fun n hn => ?_⟩
        · rw [List.isEmpty_eq_false_iff_exists_mem]
          exact ⟨c, hc⟩
        · rw [Decimal.Numeral.not_isBlank_of_read? hn c hc] at hblank
          cases hblank
      simp only [hnone hblank, hnone hblank']

end Spreadsheet
