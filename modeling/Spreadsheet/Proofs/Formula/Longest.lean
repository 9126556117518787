import Spreadsheet.Proofs.Formula.Lexing

/-!
# The longest token

Which token a text starts with can be said without the order in which the kinds of tokens are
tried: it is the longest one that is written there. So the same token is taken from a text that is
cut off behind it, and where none is taken none is written.

* `Longest`; **`take?_eq_some_iff`**, **`take?_eq_none_iff`**: what is taken, by its characters;
* **`lexFrom_stands`**: the tokens of a text stand at their places;
* **`lexFrom_stuck`**: where the cutting stops no token is written, and what is behind that place
  has no part in the tokens before it.
-/

namespace Spreadsheet.Formula

open Reference (Parts isLetter)

variable {c : Char} {cs rest xs ys : List Char} {p : Parts} {n : Literal} {l : Lexeme}
variable {position place : Nat} {t : Token}

/-! ## What is written is covered -/

theorem length_le_takeWhile {f : Char → Bool} (hxs : ∀ c ∈ xs, f c = true) (ys : List Char) :
    xs.length ≤ ((xs ++ ys).takeWhile f).length := by
  rw [List.takeWhile_append_of_pos hxs, List.length_append]
  exact Nat.le_add_right _ _

theorem exists_take?_of_written (hp : Written p) (rest : List Char) :
    ∃ p', Parts.take? (p.chars ++ rest) = some p' ∧ p.chars.length ≤ p'.chars.length := by
  -- The row number goes on as far as there are digits.
  let long : Parts := ⟨p.pinnedCol, p.word, p.pinnedRow, p.digits ++ rest.takeWhile Char.isDigit⟩
  have hlong : Written long :=
    ⟨hp.word_ne, hp.word, List.append_ne_nil_of_left_ne_nil hp.digits_ne _, fun c hc =>
      (List.mem_append.1 hc).elim (hp.digits c) List.mem_takeWhile_imp⟩
  have hchars : p.chars ++ rest = long.chars ++ rest.dropWhile Char.isDigit := by
    simp only [Parts.chars, long, List.append_assoc, List.takeWhile_append_dropWhile]
  have hend : (rest.dropWhile Char.isDigit).takeWhile Char.isDigit = [] :=
    List.takeWhile_eq_nil_iff.2 fun hl => List.dropWhile_get_zero_not _ _ hl
  exact ⟨long, hchars ▸ take?_chars hlong hend, by simp [Parts.chars, long]⟩

theorem exists_takeReference?_of_take? (h : Parts.take? cs = some p) :
    ∃ l, Lexeme.takeReference? cs = some l ∧ p.chars.length ≤ l.chars.length := by
  unfold Lexeme.takeReference?
  rw [h]
  dsimp only
  split
  · split
    · exact ⟨_, rfl, by simp [Lexeme.chars]⟩
    · exact ⟨_, rfl, Nat.le_refl _⟩
  · exact ⟨_, rfl, Nat.le_refl _⟩

theorem exists_take?_of_name {letters : List Char} (h : (Lexeme.name letters).Formed)
    (rest : List Char) :
    ∃ l, Lexeme.take? (letters ++ rest) = some l ∧ letters.length ≤ l.chars.length := by
  obtain ⟨hne, hletters⟩ := h
  have hword := length_le_takeWhile hletters rest
  cases href : Parts.take? (letters ++ rest) with
  | some p =>
    obtain ⟨l, hl, hle⟩ := exists_takeReference?_of_take? href
    obtain ⟨c, letters', rfl⟩ := List.exists_cons_of_ne_nil hne
    have hpin := ne_pin_of_isLetter (hletters c List.mem_cons_self)
    have hp := (take?_eq_some href).1
    rw [List.cons_append, takePin_of_ne hpin, ← List.cons_append] at hp
    have hchars : p.word.length ≤ p.chars.length := by
      simp only [Parts.chars, List.length_append]
      omega
    rw [← hp] at hword
    exact ⟨l, take?_of_reference hl, hword.trans (hchars.trans hle)⟩
  | none =>
    have hname : Lexeme.takeName? (letters ++ rest) =
        some (.name ((letters ++ rest).takeWhile isLetter)) := by
      unfold Lexeme.takeName?
      have hpos := List.length_pos_iff.2 hne
      exact if_neg fun hempty => by
        rw [List.isEmpty_iff.1 hempty] at hword
        exact absurd hword (Nat.not_le.2 hpos)
    refine ⟨.name ((letters ++ rest).takeWhile isLetter), ?_, hword⟩
    rw [Lexeme.take?, takeReference?_none href, hname]
    rfl

theorem Literal.length_whole_le (n : Literal) : n.whole.length ≤ n.chars.length := by
  rw [Literal.chars, List.length_append]
  exact Nat.le_add_right _ _

theorem exists_literal_take? (h : (Lexeme.number n).Formed) (rest : List Char) :
    ∃ m, Literal.take? (n.chars ++ rest) = some m ∧ n.chars.length ≤ m.chars.length := by
  obtain ⟨whole, fraction⟩ := n
  obtain ⟨hne, hwhole, hfraction⟩ := h
  have hpos := List.length_pos_iff.2 hne
  cases fraction with
  | nil =>
    have hlong : whole.length ≤ ((whole ++ rest).takeWhile Char.isDigit).length :=
      length_le_takeWhile hwhole rest
    have hchars : Literal.chars ⟨whole, []⟩ = whole := List.append_nil _
    rw [hchars]
    unfold Literal.take?
    dsimp only
    rw [if_neg fun hempty => by
      rw [List.isEmpty_iff.1 hempty] at hlong
      exact absurd hlong (Nat.not_le.2 hpos)]
    split
    · exact ⟨_, rfl, hlong.trans (Literal.length_whole_le ⟨_, _⟩)⟩
    · exact ⟨_, rfl, hlong.trans (Literal.length_whole_le ⟨_, _⟩)⟩
  | cons d fraction =>
    have hpoint : ('.' :: (d :: fraction ++ rest)).takeWhile Char.isDigit = [] :=
      List.takeWhile_cons_of_neg (by decide)
    obtain ⟨htake, hdrop⟩ := digits_append hwhole hpoint
    have hchars : Literal.chars ⟨whole, d :: fraction⟩ ++ rest =
        whole ++ '.' :: (d :: fraction ++ rest) := by
      simp [Literal.chars]
    have hlong := length_le_takeWhile hfraction rest
    refine ⟨⟨whole, (d :: fraction ++ rest).takeWhile Char.isDigit⟩, ?_, ?_⟩
    · rw [hchars]
      unfold Literal.take?
      simp only [htake, hdrop, List.isEmpty_eq_false_iff.2 hne, Bool.false_eq_true, if_false]
    · have hd : d.isDigit = true := hfraction d List.mem_cons_self
      rw [List.cons_append, List.takeWhile_cons_of_pos hd] at hlong ⊢
      simpa [Literal.chars] using hlong

/-- **What is taken is at least as long** as any token that is written there. -/
theorem exists_take?_of_formed (hl : l.Formed) (rest : List Char) :
    ∃ l', Lexeme.take? (l.chars ++ rest) = some l' ∧ l.chars.length ≤ l'.chars.length := by
  cases l with
  | number n =>
    obtain ⟨m, hm, hle⟩ := exists_literal_take? hl rest
    obtain ⟨c, whole', hwhole⟩ := List.exists_cons_of_ne_nil hl.1
    have hc : c.isDigit = true := hl.2.1 c (hwhole ▸ List.mem_cons_self)
    refine ⟨.number m, ?_, hle⟩
    rw [Literal.chars, hwhole, List.cons_append, List.cons_append] at hm
    rw [Lexeme.chars, Literal.chars, hwhole, List.cons_append, List.cons_append,
      take?_of_not_isLetter (isLetter_of_isDigit hc) (ne_pin_of_isDigit hc), hm]
    rfl
  | cell p =>
    obtain ⟨p', hp', hle⟩ := exists_take?_of_written hl rest
    obtain ⟨l', hl', hle'⟩ := exists_takeReference?_of_take? hp'
    exact ⟨l', take?_of_reference hl', hle.trans hle'⟩
  | range first last =>
    obtain ⟨last', hlast, hle⟩ := exists_take?_of_written hl.2 rest
    have hcolon : (':' :: (last.chars ++ rest)).takeWhile Char.isDigit = [] :=
      List.takeWhile_cons_of_neg (by decide)
    have hfirst := take?_chars hl.1 hcolon
    refine ⟨.range first last', ?_, ?_⟩
    · rw [Lexeme.chars, List.append_assoc, List.cons_append]
      refine take?_of_reference ?_
      unfold Lexeme.takeReference?
      simp only [hfirst, List.drop_left, hlast]
    · simpa [Lexeme.chars] using hle
  | name letters => exact exists_take?_of_name hl rest
  | symbol s => exact ⟨.symbol s, take?_symbol s, Nat.le_refl _⟩

/-! ## Taking the longest -/

/-- A token that a text starts with and no longer one does. -/
structure Longest (l : Lexeme) (cs : List Char) : Prop where
  formed : l.Formed
  here : l.chars <+: cs
  longest (l' : Lexeme) : l'.Formed → l'.chars <+: cs → l'.chars.length ≤ l.chars.length

theorem Longest.of_take? (h : Lexeme.take? cs = some l) : Longest l cs := by
  obtain ⟨hl, rest, rfl⟩ := formed_of_take? h
  refine ⟨hl, List.prefix_append _ _, fun l' hl' ⟨rest', hrest'⟩ => ?_⟩
  obtain ⟨l₁, htake, hle⟩ := exists_take?_of_formed hl' rest'
  rw [hrest', h] at htake
  exact Option.some.inj htake ▸ hle

/-- Tokens are told apart by their characters. -/
theorem Lexeme.Formed.eq_of_chars {l' : Lexeme} (hl : l.Formed) (hl' : l'.Formed)
    (h : l.chars = l'.chars) : l = l' := by
  have hend : Ends [] := trivial
  have htake := take?_formed hl hend
  rw [h, take?_formed hl' hend] at htake
  exact (Option.some.inj htake).symm

/-- **The token that is taken is the longest.** -/
theorem take?_eq_some_iff : Lexeme.take? cs = some l ↔ Longest l cs := by
  refine ⟨Longest.of_take?, fun h => ?_⟩
  obtain ⟨rest, rfl⟩ := h.here
  obtain ⟨l', htake, hle⟩ := exists_take?_of_formed h.formed rest
  have hl' := Longest.of_take? htake
  have hlength := Nat.le_antisymm hle (h.longest l' hl'.formed hl'.here)
  have hchars := (List.prefix_of_prefix_length_le h.here hl'.here hle).eq_of_length hlength
  rw [htake, h.formed.eq_of_chars hl'.formed hchars]

/-- **No token is taken** where none is written. -/
theorem take?_eq_none_iff : Lexeme.take? cs = none ↔ ∀ l : Lexeme, l.Formed → ¬ l.chars <+: cs := by
  refine ⟨fun h l hl ⟨rest, hrest⟩ => ?_, fun h => ?_⟩
  · obtain ⟨l', htake, -⟩ := exists_take?_of_formed hl rest
    rw [hrest, h] at htake
    cases htake
  · cases htake : Lexeme.take? cs with
    | none => rfl
    | some l => exact absurd (Longest.of_take? htake).here (h l (Longest.of_take? htake).formed)

theorem take?_of_prefix (h : Lexeme.take? cs = some l) (hxs : xs <+: cs) (hl : l.chars <+: xs) :
    Lexeme.take? xs = some l := by
  have hlongest := Longest.of_take? h
  exact take?_eq_some_iff.2
    ⟨hlongest.formed, hl, fun l' hl' hpre => hlongest.longest l' hl' (hpre.trans hxs)⟩

/-! ## Where tokens stand -/

/-- **Each token stands at its place.** -/
theorem lexFrom_stands (h : t ∈ (lexFrom position cs).tokens) :
    position ≤ t.position ∧ Longest t.lexeme (cs.drop (t.position - position)) := by
  fun_induction lexFrom position cs with
  | case1 => cases h
  | case2 position c cs hskip ih =>
    obtain ⟨hle, hlongest⟩ := ih h
    refine ⟨by omega, ?_⟩
    rwa [show t.position - position = t.position - (position + 1) + 1 by omega, List.drop_succ_cons]
  | case3 => cases h
  | case4 position c cs hskip l htake width after ih =>
    rcases List.mem_cons.1 h with rfl | h
    · simpa using Longest.of_take? htake
    · obtain ⟨hl, rest, hrest⟩ := formed_of_take? htake
      obtain ⟨hle, hlongest⟩ := ih h
      rw [drop_length_pred hl.chars_ne_nil hrest] at hlongest
      refine ⟨by omega, ?_⟩
      rwa [show t.position - position = width + (t.position - (position + width)) by omega, hrest,
        List.drop_length_add_append]

/-- A token is cut off the text in the same way if that stops somewhere behind it. -/
theorem lexFrom_token_front {front back : List Char} (hl : l.chars ≠ [])
    (h : Lexeme.take? (l.chars ++ (front ++ back)) = some l) :
    lexFrom position (l.chars ++ front) =
      ⟨⟨l, position⟩ :: (lexFrom (position + l.chars.length) front).tokens,
        (lexFrom (position + l.chars.length) front).stuck?⟩ := by
  have hpre : l.chars ++ front <+: l.chars ++ (front ++ back) := by
    rw [← List.append_assoc]
    exact List.prefix_append _ _
  have htake := take?_of_prefix h hpre (List.prefix_append _ _)
  exact lexFrom_token hl htake position

/-- **Where the cutting stops** no token is written, and the text up to there has the same
tokens. -/
theorem lexFrom_stuck (h : (lexFrom position cs).stuck? = some (c, place)) :
    ∃ front back, cs = front ++ c :: back ∧ place = position + front.length ∧
      isSkipped c = false ∧ Lexeme.take? (c :: back) = none ∧
      lexFrom position front = ⟨(lexFrom position cs).tokens, none⟩ := by
  fun_induction lexFrom position cs with
  | case1 => cases h
  | case2 position c' cs hskip ih =>
    obtain ⟨front, back, rfl, hplace, hc, hnone, hfront⟩ := ih h
    refine ⟨c' :: front, back, rfl, by rw [hplace, List.length_cons]; omega, hc, hnone, ?_⟩
    rw [lexFrom, if_pos hskip, hfront]
  | case3 position c' cs hskip htake =>
    obtain ⟨rfl, rfl⟩ := Prod.mk.inj (Option.some.inj h)
    exact ⟨[], cs, rfl, rfl, by simpa using hskip, htake, by rw [lexFrom]⟩
  | case4 position c' cs hskip l htake width after ih =>
    obtain ⟨hl, rest, hrest⟩ := formed_of_take? htake
    obtain ⟨front, back, hback, hplace, hc, hnone, hfront⟩ := ih h
    rw [drop_length_pred hl.chars_ne_nil hrest] at hback
    rw [hback] at hrest
    refine ⟨l.chars ++ front, back, by rw [hrest, List.append_assoc],
      by rw [hplace, List.length_append]; omega, hc, hnone, ?_⟩
    rw [hrest] at htake
    rw [lexFrom_token_front hl.chars_ne_nil htake, hfront]

theorem lex_stuck {body : String} {p : Nat} (h : (lex body).stuck? = some (c, p)) :
    body.toList[p]? = some c ∧ isSkipped c = false ∧
      (∀ l : Lexeme, l.Formed → ¬ l.chars <+: body.toList.drop p) ∧
      (lex (String.ofList (body.toList.take p))).tokens = (lex body).tokens := by
  obtain ⟨front, back, hbody, hplace, hskip, hnone, hfront⟩ := lexFrom_stuck h
  obtain rfl : p = front.length := by omega
  rw [hbody, List.drop_left, List.take_left, lex, String.toList_ofList, hfront]
  exact ⟨by simp, hskip, take?_eq_none_iff.1 hnone, rfl⟩

end Spreadsheet.Formula
