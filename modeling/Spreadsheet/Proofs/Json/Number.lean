import Spreadsheet.Json.Limits
import Spreadsheet.Json.Printer
import Spreadsheet.Json.Token
import Spreadsheet.Proofs.Decimal.Whole

/-!
# Numbers in JSON texts

A number is written as digits with no needless zero in front, a point with digits behind it or
nothing, and an exponent or nothing. In front of what can follow a value such a text is one token,
and its value is the number that was written: an integer if there are digits only, and the same
double otherwise.

* `NumberText.chars`, `NumberText.Formed`: numbers as they are written; `Closes`: what can follow;
* `NumberText.take?_chars`, `takeToken_number`: they are read up to their end;
* **`exists_number_int`**, **`exists_number_float`**: the numbers of integers and doubles.
-/

namespace Spreadsheet.Json

open Decimal (natDigits natDigits_ne_nil isDigit_natDigits isDigit_zeros isDigit_append standard
  padLeft Scaled takeWhile_digits)

/-- What can follow a value: the end of the text or of what the value stands in, or a comma. -/
def Closes (rest : List Char) : Prop := ∀ c ∈ rest.head?, c ∈ [',', ']', '\x7d']

namespace NumberText

/-- The characters of a number. -/
def chars (n : NumberText) : List Char :=
  (if n.negative then ['-'] else []) ++
    (n.whole ++ ((if n.fraction.isEmpty then [] else '.' :: n.fraction) ++ n.exponent))

/-- An exponent: a letter, a sign and digits. -/
def IsExponent (cs : List Char) : Prop := ∃ sign ds, cs = 'e' :: sign :: ds ∧
  (sign = '+' ∨ sign = '-') ∧ ds ≠ [] ∧ ∀ c ∈ ds, c.isDigit = true

/-- A number as it may be written. -/
structure Formed (n : NumberText) : Prop where
  ne_nil : n.whole ≠ []
  whole : ∀ c ∈ n.whole, c.isDigit = true
  /-- A zero does not stand in front of other digits. -/
  front : n.whole.head? = some '0' → n.whole = ['0']
  fraction : ∀ c ∈ n.fraction, c.isDigit = true
  exponent : n.exponent = [] ∨ IsExponent n.exponent

variable {n : NumberText} {rest : List Char}

theorem length_chars (n : NumberText) : n.chars.length = n.width := by
  unfold chars width
  cases n.negative <;> cases n.fraction <;> simp <;> omega

theorem takeExponent_of_closes (hrest : Closes rest) : takeExponent rest = [] := by
  cases rest with
  | nil => rfl
  | cons c rest =>
    have hc := hrest c rfl
    have hletter : (c == 'e' || c == 'E') = false := by
      simp only [List.mem_cons, List.not_mem_nil, or_false] at hc
      rcases hc with rfl | rfl | rfl <;> decide
    simp [takeExponent, hletter]

theorem not_isDigit_of_closes (hrest : Closes rest) : ∀ c ∈ rest.head?, c.isDigit = false := by
  intro c hc
  have := hrest c hc
  simp only [List.mem_cons, List.not_mem_nil, or_false] at this
  rcases this with rfl | rfl | rfl <;> decide

theorem takeExponent_append {cs : List Char} (h : cs = [] ∨ IsExponent cs) (hrest : Closes rest) :
    takeExponent (cs ++ rest) = cs := by
  rcases h with rfl | ⟨sign, ds, rfl, hsign, hne, hdigits⟩
  · exact takeExponent_of_closes hrest
  · obtain ⟨htake, -⟩ := takeWhile_digits hdigits (not_isDigit_of_closes hrest)
    have hempty : ds.isEmpty = false := List.isEmpty_eq_false_iff.2 hne
    rcases hsign with rfl | rfl <;> simp [takeExponent, htake, hempty]

/-- What follows the fraction of a number is no digit. -/
theorem not_isDigit_after {cs : List Char} (h : cs = [] ∨ IsExponent cs) (hrest : Closes rest) :
    ∀ c ∈ (cs ++ rest).head?, c.isDigit = false := by
  rcases h with rfl | ⟨sign, ds, rfl, -⟩
  · exact not_isDigit_of_closes hrest
  · rintro c ⟨⟩
    rfl

theorem takeFraction_append {cs tail : List Char} (hcs : ∀ c ∈ cs, c.isDigit = true)
    (htail : ∀ c ∈ tail.head?, c.isDigit = false ∧ c ≠ '.') :
    takeFraction ((if cs.isEmpty then [] else '.' :: cs) ++ tail) = cs := by
  cases cs with
  | nil =>
    cases tail with
    | nil => rfl
    | cons c tail =>
      have hpoint := (htail c rfl).2
      simp [takeFraction, hpoint]
  | cons c cs => exact (takeWhile_digits hcs fun d hd => (htail d hd).1).1

theorem ne_of_isDigit {c d : Char} (hc : c.isDigit = true) (hd : d.isDigit = false) : c ≠ d := by
  rintro rfl
  rw [hc] at hd
  cases hd

/-- The digits before the point are taken as far as they go. -/
theorem take_whole {cs tail : List Char} (hne : cs ≠ []) (hcs : ∀ c ∈ cs, c.isDigit = true)
    (hfront : cs.head? = some '0' → cs = ['0']) (htail : ∀ c ∈ tail.head?, c.isDigit = false) :
    (if (cs ++ tail).head? == some '0' then ['0']
      else (cs ++ tail).takeWhile Char.isDigit) = cs := by
  rw [List.head?_append_of_ne_nil _ hne, (takeWhile_digits hcs htail).1]
  split
  · next h => exact (hfront (eq_of_beq h)).symm
  · rfl

/-- **A number is read up to its end.** -/
theorem take?_chars (hn : n.Formed) (hrest : Closes rest) : take? (n.chars ++ rest) = some n := by
  obtain ⟨negative, whole, fraction, exponent⟩ := n
  obtain ⟨hne, hwhole, hfront, hfraction, hexponent⟩ := hn
  simp only at hne hwhole hfront hfraction hexponent
  generalize hmark : (if fraction.isEmpty then [] else '.' :: fraction) = mark
  have hlast : ∀ c ∈ (exponent ++ rest).head?, c.isDigit = false ∧ c ≠ '.' := by
    intro c hc
    refine ⟨not_isDigit_after hexponent hrest c hc, ?_⟩
    rintro rfl
    rcases hexponent with rfl | ⟨sign, ds, rfl, -⟩
    · exact absurd (hrest _ hc) (by decide)
    · cases hc
  have hafter : ∀ c ∈ (mark ++ (exponent ++ rest)).head?, c.isDigit = false := by
    rw [← hmark]
    cases fraction with
    | nil => exact fun c hc => (hlast c hc).1
    | cons =>
      rintro c ⟨⟩
      rfl
  have hsign : (((if negative then ['-'] else []) ++
      (whole ++ (mark ++ (exponent ++ rest)))).head? == some '-') = negative := by
    cases negative with
    | true => rfl
    | false =>
      obtain ⟨c, cs, rfl⟩ := List.exists_cons_of_ne_nil hne
      have hminus := ne_of_isDigit (hwhole c List.mem_cons_self) (d := '-') rfl
      simpa using hminus
  have hdrop : (if negative then ((if negative then ['-'] else []) ++
      (whole ++ (mark ++ (exponent ++ rest)))).drop 1 else (if negative then ['-'] else []) ++
      (whole ++ (mark ++ (exponent ++ rest)))) = whole ++ (mark ++ (exponent ++ rest)) := by
    cases negative <;> rfl
  have hfractionTake : takeFraction (mark ++ (exponent ++ rest)) = fraction := by
    rw [← hmark]
    exact takeFraction_append hfraction hlast
  have hmarkLength : (if fraction.isEmpty then 0 else fraction.length + 1) = mark.length := by
    rw [← hmark]
    cases fraction <;> rfl
  have hempty : whole.isEmpty = false := List.isEmpty_eq_false_iff.2 hne
  unfold take? chars
  simp only [hmark, List.append_assoc, hsign, hdrop, take_whole hne hwhole hfront hafter,
    List.drop_left, hfractionTake, hmarkLength, takeExponent_append hexponent hrest, hempty,
    Bool.false_eq_true, if_false]

/-- A number starts with a digit, behind a minus sign or not. -/
theorem exists_chars (hn : n.Formed) : ∃ d cs, d.isDigit = true ∧
    (n.chars = d :: cs ∨ n.chars = '-' :: d :: cs) := by
  obtain ⟨d, ds, hds⟩ := List.exists_cons_of_ne_nil hn.ne_nil
  refine ⟨d, ds ++ ((if n.fraction.isEmpty then [] else '.' :: n.fraction) ++ n.exponent),
    hn.whole d (hds ▸ List.mem_cons_self), ?_⟩
  unfold chars
  rw [hds]
  cases n.negative with
  | true => exact .inr rfl
  | false => exact .inl rfl

end NumberText

/-! ## Tokens -/

/-- No named value starts with a digit, or with a minus sign and a digit. -/
theorem takeName?_digit {d : Char} (hd : d.isDigit = true) (cs : List Char) :
    takeName? (d :: cs) = none ∧ takeName? ('-' :: d :: cs) = none := by
  have hletters : ∀ c ∈ ['n', 't', 'f', 'N', 'I', '-'], c.isDigit = false := by simp
  have hne : ∀ c ∈ ['n', 't', 'f', 'N', 'I', '-'], (c == d) = false := fun c hc =>
    beq_eq_false_iff_ne.2 (NumberText.ne_of_isDigit hd (hletters c hc)).symm
  simp only [List.forall_mem_cons, List.not_mem_nil, false_implies, implies_true, and_true] at hne
  obtain ⟨hn, ht, hf, hN, hI, hminus⟩ := hne
  constructor <;> simp [takeName?, names, List.find?, List.isPrefixOf, hn, ht, hf, hN, hI, hminus]

theorem punctuation?_digit {d : Char} (hd : d.isDigit = true) :
    punctuation? d = none ∧ (d == '"') = false := by
  have hquote := NumberText.ne_of_isDigit hd (d := '"') (by simp)
  refine ⟨?_, beq_eq_false_iff_ne.2 hquote⟩
  unfold punctuation?
  split <;> first | cases hd | rfl

/-- **A number is a token** in front of what can follow a value. -/
theorem takeToken_number {n : NumberText} {v : Json} {rest : List Char} (hn : n.Formed)
    (hv : n.value = .ok v) (hrest : Closes rest) : ∃ c cs, n.chars = c :: cs ∧
      isSkipped c = false ∧ takeToken c (cs ++ rest) = .ok (.scalar v, rest) := by
  obtain ⟨d, ds, hd, hstart⟩ := n.exists_chars hn
  obtain ⟨hpunctuation, hquote⟩ := punctuation?_digit hd
  have hread := NumberText.take?_chars hn hrest
  have hlength := n.length_chars
  have hskip : isSkipped d = false := by
    simp only [isSkipped, Bool.or_eq_false_iff, beq_eq_false_iff_ne]
    refine ⟨⟨⟨?_, ?_⟩, ?_⟩, ?_⟩ <;> exact NumberText.ne_of_isDigit hd (by simp)
  rcases hstart with hchars | hchars
  · rw [hchars, List.length_cons] at hlength
    rw [hchars, List.cons_append] at hread
    refine ⟨d, ds, hchars, hskip, ?_⟩
    have hbehind : (ds ++ rest).drop (n.width - 1) = rest := List.drop_left' (by omega)
    simp only [takeToken, hpunctuation, hquote, (takeName?_digit hd _).1, hread, hv, hbehind,
      Bool.false_eq_true, if_false]
  · rw [hchars, List.length_cons] at hlength
    rw [hchars, List.cons_append, List.cons_append] at hread
    refine ⟨'-', d :: ds, hchars, rfl, ?_⟩
    have hbehind : (d :: ds ++ rest).drop (n.width - 1) = rest := List.drop_left' (by omega)
    rw [List.cons_append] at hbehind ⊢
    have hminus : punctuation? '-' = none := rfl
    have hother : ('-' == '"') = false := rfl
    simp only [takeToken, hminus, hother, (takeName?_digit hd _).2, hread, hv, hbehind,
      Bool.false_eq_true, if_false]

/-! ## Integers -/

theorem toList_toString (k : Int) :
    (toString k).toList = (if k < 0 then ['-'] else []) ++ natDigits k.natAbs := by
  rw [Int.toString_eq_repr, Int.repr_eq_if]
  by_cases hk : 0 ≤ k
  · have habs : k.natAbs = k.toNat := by omega
    rw [if_pos hk, if_neg (by omega), Nat.toList_repr, habs]
    rfl
  · have habs : k.natAbs = (-k).toNat := by omega
    rw [if_neg hk, if_pos (by omega), String.toList_append, Nat.toList_repr, habs]
    rfl

theorem natDigits_front (m : Nat) : (natDigits m).head? = some '0' → natDigits m = ['0'] := by
  intro h
  by_cases hm : m = 0
  · rw [hm]
    rfl
  · exact absurd h (Decimal.head?_natDigits hm)

/-- An integer of one digit can be written. -/
theorem isShort_of_natAbs_lt {k : Int} (h : k.natAbs < 10) : isShort (.int k) = true := by
  have hpos : Decimal.maxDigits ≠ 0 := by decide
  unfold isShort
  generalize Decimal.maxDigits = most at hpos ⊢
  exact decide_eq_true (h.trans_le (Nat.le_self_pow hpos 10))

/-- **Integers** are written as numbers that are read back, if they can be written. -/
theorem exists_number_int {k : Int} (hk : isShort (.int k) = true) : ∃ n : NumberText, n.Formed ∧
    n.chars = (toString k).toList ∧ n.value = .ok (.int k) := by
  have hlength : (natDigits k.natAbs).length ≤ Decimal.maxDigits := by
    have hpos : 0 < Decimal.maxDigits := by decide
    unfold isShort at hk
    generalize Decimal.maxDigits = most at hk hpos ⊢
    exact (Nat.length_toDigits_le_iff (by decide) hpos).2 (of_decide_eq_true hk)
  refine ⟨⟨decide (k < 0), natDigits k.natAbs, [], []⟩, ⟨natDigits_ne_nil _, isDigit_natDigits _,
    natDigits_front _, List.forall_mem_nil _, .inl rfl⟩, ?_, ?_⟩
  · rw [toList_toString]
    simp [NumberText.chars]
  · have hread := Decimal.readNat_of_length_le hlength
    simp only [NumberText.value, List.isEmpty_nil, Bool.and_self, if_true, hread,
      Decimal.ofDigits_natDigits]
    refine congrArg (fun m => Except.ok (Json.int m)) ?_
    by_cases hneg : k < 0
    · rw [if_pos (decide_eq_true hneg)]
      omega
    · rw [if_neg (by simpa using hneg)]
      omega

/-! ## Doubles -/

/-- A text as a number that is no integer: with a point or an exponent. -/
structure Parts (cs : List Char) (n : NumberText) : Prop extends n.Formed where
  unsigned : n.negative = false
  eq : cs = n.chars
  point : n.fraction ≠ [] ∨ n.exponent ≠ []

/-- **Positional forms** have a point. -/
theorem exists_parts_positional {s : Scaled} (hs : s.digits = 0 → s.exponent = 0) :
    ∃ n, Parts (standard.positional s) n := by
  by_cases hexponent : 0 ≤ s.exponent
  · obtain ⟨j, hj⟩ := Int.eq_ofNat_of_zero_le hexponent
    refine ⟨⟨false, natDigits s.digits ++ List.replicate j '0', ['0'], []⟩,
      ⟨List.append_ne_nil_of_left_ne_nil (natDigits_ne_nil _) _,
        isDigit_append (isDigit_natDigits _) (isDigit_zeros j), ?_, isDigit_zeros 1, .inl rfl⟩,
      rfl, ?_, .inl (List.cons_ne_nil _ _)⟩
    · intro hfront
      rw [List.head?_append_of_ne_nil _ (natDigits_ne_nil _)] at hfront
      have hzero : s.digits = 0 := by
        by_contra hne
        exact Decimal.head?_natDigits hne hfront
      have hnone : j = 0 := by
        have := hs hzero
        omega
      simp only [hzero, hnone]
      rfl
    · rw [Decimal.positional_of_nonneg hj]
      simp [NumberText.chars, standard]
  · obtain ⟨j, hj⟩ := Int.eq_ofNat_of_zero_le (show 0 ≤ -s.exponent by omega)
    have hne : s.digits ≠ 0 := fun hzero => hexponent (by rw [hs hzero])
    have hpadded : padLeft (j + 1) (natDigits s.digits) =
        List.replicate (j + 1 - (natDigits s.digits).length) '0' ++ natDigits s.digits := rfl
    have hdigits : ∀ c ∈ padLeft (j + 1) (natDigits s.digits), c.isDigit = true :=
      isDigit_append (isDigit_zeros _) (isDigit_natDigits _)
    rw [Decimal.Layout.positional, if_neg hexponent, hj, Int.toNat_natCast]
    dsimp only
    generalize padLeft (j + 1) (natDigits s.digits) = ds at hpadded hdigits
    have hlong : j < ds.length := by
      rw [hpadded, List.length_append, List.length_replicate]
      omega
    have hbehind : ds.drop (ds.length - j) ≠ [] := by
      rw [Ne, List.drop_eq_nil_iff]
      omega
    refine ⟨⟨false, ds.take (ds.length - j), ds.drop (ds.length - j), []⟩,
      ⟨?_, fun c hc => hdigits c (List.mem_of_mem_take hc), ?_,
        fun c hc => hdigits c (List.mem_of_mem_drop hc), .inl rfl⟩, rfl, ?_, .inl hbehind⟩
    · exact List.ne_nil_of_length_pos (by rw [List.length_take]; omega)
    · intro hfront
      by_cases hone : ds.length - j = 1
      · -- the number is less than one, and a single zero stands in front of the point
        obtain ⟨c, cs, rfl⟩ := List.exists_cons_of_length_pos (Nat.zero_lt_of_lt hlong)
        rw [hone] at hfront ⊢
        exact congrArg (· :: []) (Option.some.inj hfront)
      · have hnone : j + 1 - (natDigits s.digits).length = 0 := by
          have := congrArg List.length hpadded
          rw [List.length_append, List.length_replicate] at this
          omega
        rw [hnone, List.replicate_zero, List.nil_append] at hpadded
        rw [List.head?_take, if_neg (by omega), hpadded] at hfront
        exact absurd hfront (Decimal.head?_natDigits hne)
    · simp [NumberText.chars, List.isEmpty_eq_false_iff.2 hbehind]

/-- **Scientific forms** have an exponent. -/
theorem exists_parts_scientific {s : Scaled} (hne : s.digits ≠ 0) (leading : Int) :
    ∃ n, Parts (standard.scientific s leading) n := by
  have hdigits := isDigit_natDigits s.digits
  have hfirst := Decimal.head?_natDigits hne
  have hsome := natDigits_ne_nil s.digits
  have hexponent : NumberText.IsExponent ('e' :: (if leading < 0 then '-' else '+') ::
      padLeft standard.exponentWidth (natDigits leading.natAbs)) := by
    refine ⟨_, _, rfl, ?_, List.append_ne_nil_of_right_ne_nil _ (natDigits_ne_nil _),
      isDigit_append (isDigit_zeros _) (isDigit_natDigits _)⟩
    split
    · exact .inr rfl
    · exact .inl rfl
  unfold Decimal.Layout.scientific
  generalize natDigits s.digits = ds at hdigits hfirst hsome
  match ds with
  | [] => exact absurd rfl hsome
  | d :: ds =>
    obtain ⟨hd, hds⟩ := List.forall_mem_cons.1 hdigits
    refine ⟨⟨false, [d], ds, _⟩, ⟨List.cons_ne_nil _ _, List.forall_mem_singleton.2 hd,
      fun hfront => absurd hfront hfirst, hds, .inr hexponent⟩, rfl, ?_,
      .inr (List.cons_ne_nil _ _)⟩
    cases ds <;> rfl

theorem exists_parts_write {s : Scaled} (hs : s.digits = 0 → s.exponent = 0) :
    ∃ n, Parts (standard.write s) n := by
  unfold Decimal.Layout.write
  dsimp only
  split
  · exact exists_parts_positional hs
  · next h =>
    refine exists_parts_scientific (fun hzero => h ?_) _
    simp [hzero]

theorem exists_readExponent? {cs : List Char} (h : cs = [] ∨ NumberText.IsExponent cs) :
    ∃ k, Decimal.readExponent? cs = some k := by
  rcases h with rfl | ⟨sign, ds, rfl, hsign, hne, hdigits⟩
  · exact ⟨0, rfl⟩
  · have hempty : ds.isEmpty = false := List.isEmpty_eq_false_iff.2 hne
    have hall : ds.all Char.isDigit = true := List.all_eq_true.2 hdigits
    rcases hsign with rfl | rfl <;> simp [Decimal.readExponent?, Decimal.takeSign, hempty, hall]

/-- The value of a number that is no integer is that of the numeral with its parts. -/
theorem Parts.value {cs : List Char} {n : NumberText} (h : Parts cs n) (negative : Bool) : ∃ m,
    Decimal.Numeral.read? ((if negative then ['-'] else []) ++ cs) = some m ∧
    NumberText.value { n with negative } = .ok (.float m.value) := by
  obtain ⟨k, hk⟩ := exists_readExponent? h.exponent
  have hpoint : (n.fraction.isEmpty && n.exponent.isEmpty) = false := by
    rcases h.point with hne | hne <;> simp [List.isEmpty_eq_false_iff.2 hne]
  refine ⟨⟨negative, n.whole, n.fraction, k⟩, ?_, ?_⟩
  · rw [h.eq, NumberText.chars, h.unsigned]
    refine Decimal.read?_eq_some negative h.ne_nil h.whole h.fraction ?_ ?_ hk
    · cases n.fraction with
      | nil => exact .inl ⟨rfl, rfl⟩
      | cons => exact .inr rfl
    · rcases h.exponent with hnil | ⟨sign, ds, hcons, -⟩
      · rw [hnil]
        simp
      · rw [hcons]
        rintro c ⟨⟩
        rfl
  · simp only [NumberText.value, hpoint, hk, Option.getD_some]
    rfl

/-- A numeral of magnitude zero is a zero with a sign. -/
theorem value_of_magnitude_eq_zero {m : Decimal.Numeral} (h : m.magnitude = 0) :
    m.value = if m.negative then -0.0 else 0.0 := by
  have hdigits : Decimal.ofDigits (m.whole ++ m.fraction) = 0 := by
    have hpower : (10 : ℚ) ^ (m.exponent - m.fraction.length) ≠ 0 := zpow_ne_zero _ (by norm_num)
    have := (mul_eq_zero.1 h).resolve_right hpower
    exact_mod_cast this
  unfold Decimal.Numeral.value Decimal.ofParts Decimal.nearest
  dsimp only
  rw [if_pos hdigits]

/-- The numeral with the sign and the shortest decimal of a double has that double as its value. -/
theorem value_eq_of_shortest {x : Float} {b : Decimal.Binary} {m : Decimal.Numeral}
    (hb : Decimal.Binary.ofFloat? x = some b) (hnegative : m.negative = b.negative)
    (hmagnitude : m.magnitude = (Decimal.shortest b).magnitude) : m.value = x := by
  by_cases hzero : b.mantissa = 0
  · have hshortest : Decimal.shortest b = ⟨0, 0⟩ := if_pos hzero
    have hmagnitude : m.magnitude = 0 := by
      rw [hmagnitude, hshortest]
      norm_num [Scaled.magnitude]
    rw [value_of_magnitude_eq_zero hmagnitude, hnegative]
    rcases Decimal.eq_zero_of_ofFloat? hb hzero with rfl | rfl
    · have hparts : Decimal.Binary.ofFloat? 0.0 = some ⟨false, 0, -1074⟩ := by decide
      obtain rfl := Option.some.inj (hparts.symm.trans hb)
      rfl
    · have hparts : Decimal.Binary.ofFloat? (-0.0) = some ⟨true, 0, -1074⟩ := by decide
      obtain rfl := Option.some.inj (hparts.symm.trans hb)
      rfl
  · obtain ⟨hc, hlarge, hunpack⟩ := (Decimal.unpack_of_ofFloat? hb).resolve_left fun h => hzero h.1
    obtain ⟨-, hattracts, -⟩ := Decimal.shortest_spec hc
    rw [Decimal.Numeral.value_eq hc hlarge (hmagnitude ▸ hattracts), hnegative, ← hunpack,
      ← Decimal.eq_ofModel_pack]

/-- **Doubles** are written as numbers that are read back. -/
theorem exists_number_float {x : Float} (hx : x.isFinite = true) : ∃ n : NumberText, n.Formed ∧
    n.chars = (Decimal.text x).toList ∧ n.value = .ok (.float x) := by
  cases hb : Decimal.Binary.ofFloat? x with
  | none =>
    rw [(Decimal.ofFloat?_eq_none_iff x).1 hb] at hx
    cases hx
  | some b =>
    have hdigits : (Decimal.shortest b).digits = 0 → (Decimal.shortest b).exponent = 0 := by
      intro h
      by_cases hzero : b.mantissa = 0
      · rw [Decimal.shortest, if_pos hzero]
      · obtain ⟨hc, -⟩ := (Decimal.unpack_of_ofFloat? hb).resolve_left fun h => hzero h.1
        exact absurd h (Decimal.shortest_spec hc).1
    obtain ⟨n, hn⟩ := exists_parts_write hdigits
    obtain ⟨m, hread, hvalue⟩ := hn.value b.negative
    obtain ⟨m', hread', hnegative, hmagnitude⟩ :=
      Decimal.denotes_write (l := standard) (.inr rfl) (Decimal.shortest b) b.negative
    obtain rfl := Option.some.inj (hread.symm.trans hread')
    refine ⟨{ n with negative := b.negative }, ⟨hn.ne_nil, hn.whole, hn.front, hn.fraction,
      hn.exponent⟩, ?_, ?_⟩
    · have htext := hn.eq
      rw [NumberText.chars, hn.unsigned, if_neg Bool.false_ne_true, List.nil_append] at htext
      rw [Decimal.text, hb]
      simp only [NumberText.chars, String.toList_ofList, htext]
    · rw [hvalue, value_eq_of_shortest hb hnegative hmagnitude]

end Spreadsheet.Json
