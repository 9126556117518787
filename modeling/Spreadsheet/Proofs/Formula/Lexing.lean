import Spreadsheet.Proofs.Formula.Notation

/-!
# Taking tokens

What the cutting of a text takes is written there, and a token that is written is taken if what
follows it cannot go on with it: a blank, a punctuation mark or the end of the text.

* `isBreak`, `Ends`: what can follow any token;
* `Lexeme.Formed`: tokens as they stand in a text;
* **`take?_formed`**, **`formed_of_take?`**: what is taken;
* `lexFrom_token`: the token that a text starts with is cut off it.
-/

namespace Spreadsheet.Formula

open Reference (Parts isLetter takePin)

variable {c : Char} {cs rest : List Char} {p q : Parts} {l : Lexeme}

/-! ## Where tokens end -/

/-- A character that can follow any token: one that is skipped or punctuation. -/
def isBreak (c : Char) : Bool := isSkipped c || (Symbol.ofChar? c).isSome

/-- A text that can follow any token. -/
def Ends : List Char → Prop
  | [] => True
  | c :: _ => isBreak c = true

theorem isBreak_spec (h : isBreak c = true) :
    isLetter c = false ∧ c.isDigit = false ∧ c ≠ '$' ∧ c ≠ '.' ∧ c ≠ ':' := by
  have hmem : c ∈ [' ', '\t', '\r', '\n', '+', '-', '*', '/', '(', ')', ','] := by
    unfold isBreak isSkipped Symbol.ofChar? at h
    split at h <;> simp_all [or_assoc]
  have hall : [' ', '\t', '\r', '\n', '+', '-', '*', '/', '(', ')', ','].all (fun c => decide
      (isLetter c = false ∧ c.isDigit = false ∧ c ≠ '$' ∧ c ≠ '.' ∧ c ≠ ':')) = true := by decide
  exact of_decide_eq_true (List.all_eq_true.1 hall c hmem)

theorem Ends.takeWhile_isDigit (h : Ends rest) : rest.takeWhile Char.isDigit = [] := by
  cases rest with
  | nil => rfl
  | cons c rest => exact List.takeWhile_cons_of_neg (by simp [(isBreak_spec h).2.1])

theorem Ends.takeWhile_isLetter (h : Ends rest) : rest.takeWhile isLetter = [] := by
  cases rest with
  | nil => rfl
  | cons c rest => exact List.takeWhile_cons_of_neg (by simp [(isBreak_spec h).1])

theorem Ends.takePin (h : Ends rest) : takePin rest = (false, rest) := by
  cases rest with
  | nil => rfl
  | cons c rest => exact takePin_of_ne (isBreak_spec h).2.2.1

/-! ## Tokens as they are written -/

/-- A token as it stands in a text. -/
def Lexeme.Formed : Lexeme → Prop
  | number n =>
    n.whole ≠ [] ∧ (∀ c ∈ n.whole, c.isDigit = true) ∧ ∀ c ∈ n.fraction, c.isDigit = true
  | cell p => Written p
  | range first last => Written first ∧ Written last
  | name letters => letters ≠ [] ∧ ∀ c ∈ letters, isLetter c = true
  | symbol _ => True

theorem takePin_pin {pinned : Bool} (hc : c ≠ '$') :
    takePin ((if pinned then ['$'] else []) ++ c :: cs) = (pinned, c :: cs) := by
  cases pinned with
  | false => exact takePin_of_ne hc
  | true => rfl

/-- **A written reference is taken as it is.** -/
theorem take?_chars (hp : Written p) (hend : rest.takeWhile Char.isDigit = []) :
    Parts.take? (p.chars ++ rest) = some p := by
  obtain ⟨pinnedCol, word, pinnedRow, digits⟩ := p
  obtain ⟨hword_ne, hword, hdigits_ne, hdigits⟩ := hp
  obtain ⟨b, digits', rfl⟩ := List.exists_cons_of_ne_nil hdigits_ne
  obtain ⟨c, word', rfl⟩ := List.exists_cons_of_ne_nil hword_ne
  have hcpin := ne_pin_of_isLetter (hword c List.mem_cons_self)
  have hb : b.isDigit = true := hdigits b List.mem_cons_self
  have hbpin : b ≠ '$' := fun he => not_isDigit_pin (he ▸ hb)
  have hbletter : ¬ isLetter b = true := fun hletter => not_isDigit_of_isLetter hletter hb
  -- the row, with its pin, and the text behind it
  let row := (if pinnedRow then ['$'] else []) ++ b :: (digits' ++ rest)
  have hchars : (⟨pinnedCol, c :: word', pinnedRow, b :: digits'⟩ : Parts).chars ++ rest =
      (if pinnedCol then ['$'] else []) ++ c :: (word' ++ row) := by
    simp only [Parts.chars, row, List.append_assoc, List.cons_append]
  have hrow : row.takeWhile isLetter = [] ∧ row.dropWhile isLetter = row := by
    cases pinnedRow with
    | false => exact ⟨List.takeWhile_cons_of_neg hbletter, List.dropWhile_cons_of_neg hbletter⟩
    | true => exact ⟨rfl, rfl⟩
  have htake : (c :: (word' ++ row)).takeWhile isLetter = c :: word' := by
    rw [← List.cons_append, List.takeWhile_append_of_pos hword, hrow.1, List.append_nil]
  have hdrop : (c :: (word' ++ row)).dropWhile isLetter = row := by
    rw [← List.cons_append, List.dropWhile_append_of_pos hword, hrow.2]
  have hnumber : (b :: (digits' ++ rest)).takeWhile Char.isDigit = b :: digits' := by
    rw [← List.cons_append, List.takeWhile_append_of_pos hdigits, hend, List.append_nil]
  unfold Parts.take?
  rw [hchars, takePin_pin hcpin]
  simp only [htake, hdrop, row, takePin_pin hbpin, hnumber, List.isEmpty_cons, Bool.or_self,
    Bool.false_eq_true, if_false]

theorem takeReference?_cell (hp : Written p) (hend : Ends rest) :
    Lexeme.takeReference? (p.chars ++ rest) = some (.cell p) := by
  unfold Lexeme.takeReference?
  rw [take?_chars hp hend.takeWhile_isDigit]
  simp only [List.drop_left]
  split
  · exact absurd rfl (isBreak_spec hend).2.2.2.2
  · rfl

theorem takeReference?_range (hp : Written p) (hq : Written q) (hend : Ends rest) :
    Lexeme.takeReference? (p.chars ++ ':' :: (q.chars ++ rest)) = some (.range p q) := by
  unfold Lexeme.takeReference?
  rw [take?_chars hp (List.takeWhile_cons_of_neg (by decide))]
  simp only [List.drop_left, take?_chars hq hend.takeWhile_isDigit]

theorem takeReference?_half (hp : Written p) (hrest : Parts.take? rest = none) :
    Lexeme.takeReference? (p.chars ++ ':' :: rest) = some (.cell p) := by
  unfold Lexeme.takeReference?
  rw [take?_chars hp (List.takeWhile_cons_of_neg (by decide))]
  simp only [List.drop_left, hrest]

theorem parts_take?_none (hc : isLetter c = false) (hpin : c ≠ '$') :
    Parts.take? (c :: cs) = none := by
  unfold Parts.take?
  rw [takePin_of_ne hpin]
  have hword : (c :: cs).takeWhile isLetter = [] := List.takeWhile_cons_of_neg (by simp [hc])
  simp only [hword, List.isEmpty_nil, Bool.true_or, if_true]

theorem takeReference?_none (h : Parts.take? cs = none) : Lexeme.takeReference? cs = none := by
  unfold Lexeme.takeReference?
  rw [h]

theorem parts_take?_word {letters : List Char} (hne : letters ≠ [])
    (hletters : ∀ c ∈ letters, isLetter c = true) (hend : Ends rest) :
    Parts.take? (letters ++ rest) = none := by
  obtain ⟨c, letters', rfl⟩ := List.exists_cons_of_ne_nil hne
  have hpin : takePin (c :: letters' ++ rest) = (false, c :: letters' ++ rest) :=
    takePin_of_ne (ne_pin_of_isLetter (hletters c List.mem_cons_self))
  have hrest : rest.dropWhile isLetter = rest := by
    have happend := List.takeWhile_append_dropWhile (p := isLetter) (l := rest)
    rwa [hend.takeWhile_isLetter, List.nil_append] at happend
  have hdrop : (c :: letters' ++ rest).dropWhile isLetter = rest := by
    rw [List.dropWhile_append_of_pos hletters, hrest]
  unfold Parts.take?
  rw [hpin]
  simp only [hdrop, hend.takePin, hend.takeWhile_isDigit, List.isEmpty_nil, Bool.or_true, if_true]

/-! ## Taking tokens -/

theorem take?_of_reference (h : Lexeme.takeReference? cs = some l) : Lexeme.take? cs = some l := by
  rw [Lexeme.take?, h]
  rfl

theorem take?_name {letters : List Char} (h : (Lexeme.name letters).Formed) (hend : Ends rest) :
    Lexeme.take? (letters ++ rest) = some (.name letters) := by
  obtain ⟨hne, hletters⟩ := h
  have hword : (letters ++ rest).takeWhile isLetter = letters := by
    rw [List.takeWhile_append_of_pos hletters, hend.takeWhile_isLetter, List.append_nil]
  have hname : Lexeme.takeName? (letters ++ rest) = some (.name letters) := by
    unfold Lexeme.takeName?
    simp only [hword]
    rw [if_neg (by simp [hne])]
  rw [Lexeme.take?, takeReference?_none (parts_take?_word hne hletters hend), hname]
  rfl

/-- A text that starts with no letter and no pin starts with a number or punctuation, if with any
token. -/
theorem take?_of_not_isLetter (hc : isLetter c = false) (hpin : c ≠ '$') :
    Lexeme.take? (c :: cs) =
      ((Literal.take? (c :: cs)).map .number <|> (Symbol.ofChar? c).map .symbol) := by
  have hname : Lexeme.takeName? (c :: cs) = none := by
    unfold Lexeme.takeName?
    have hword : (c :: cs).takeWhile isLetter = [] := List.takeWhile_cons_of_neg (by simp [hc])
    simp only [hword, List.isEmpty_nil, if_true]
  rw [Lexeme.take?, takeReference?_none (parts_take?_none hc hpin), hname]
  rfl

theorem isLetter_of_isDigit (h : c.isDigit = true) : isLetter c = false := by
  rw [← Bool.not_eq_true]
  exact fun hletter => not_isDigit_of_isLetter hletter h

theorem ne_pin_of_isDigit (h : c.isDigit = true) : c ≠ '$' := by
  rintro rfl
  exact not_isDigit_pin h

theorem digits_append {digits : List Char} (h : ∀ c ∈ digits, c.isDigit = true)
    (hend : rest.takeWhile Char.isDigit = []) :
    (digits ++ rest).takeWhile Char.isDigit = digits ∧
      (digits ++ rest).dropWhile Char.isDigit = rest := by
  have hrest := List.takeWhile_append_dropWhile (p := Char.isDigit) (l := rest)
  rw [hend, List.nil_append] at hrest
  rw [List.takeWhile_append_of_pos h, List.dropWhile_append_of_pos h, hend, hrest, List.append_nil]
  exact ⟨rfl, rfl⟩

theorem literal_take?_chars {n : Literal} (h : (Lexeme.number n).Formed) (hend : Ends rest) :
    Literal.take? (n.chars ++ rest) = some n := by
  obtain ⟨whole, fraction⟩ := n
  obtain ⟨hne, hwhole, hfraction⟩ := h
  cases fraction with
  | nil =>
    obtain ⟨htake, hdrop⟩ := digits_append hwhole hend.takeWhile_isDigit
    simp only [Literal.chars, List.isEmpty_nil, if_true, List.append_nil]
    unfold Literal.take?
    simp only [htake, hdrop, List.isEmpty_eq_false_iff.2 hne, Bool.false_eq_true, if_false]
    split
    · exact absurd rfl (isBreak_spec hend).2.2.2.1
    · rfl
  | cons c fraction =>
    have hpoint : ('.' :: (c :: fraction ++ rest)).takeWhile Char.isDigit = [] :=
      List.takeWhile_cons_of_neg (by decide)
    obtain ⟨htake, hdrop⟩ := digits_append hwhole hpoint
    have hchars : Literal.chars ⟨whole, c :: fraction⟩ ++ rest =
        whole ++ '.' :: (c :: fraction ++ rest) := by
      simp [Literal.chars]
    rw [hchars]
    unfold Literal.take?
    simp only [htake, hdrop, List.isEmpty_eq_false_iff.2 hne, Bool.false_eq_true, if_false,
      (digits_append hfraction hend.takeWhile_isDigit).1]

theorem take?_number {n : Literal} (h : (Lexeme.number n).Formed) (hend : Ends rest) :
    Lexeme.take? (n.chars ++ rest) = some (.number n) := by
  have hliteral := literal_take?_chars h hend
  obtain ⟨c, whole', hwhole⟩ := List.exists_cons_of_ne_nil h.1
  have hc : c.isDigit = true := h.2.1 c (hwhole ▸ List.mem_cons_self)
  rw [Literal.chars, hwhole, List.cons_append, List.cons_append] at hliteral
  rw [Literal.chars, hwhole, List.cons_append, List.cons_append,
    take?_of_not_isLetter (isLetter_of_isDigit hc) (ne_pin_of_isDigit hc), hliteral]
  rfl

theorem take?_symbol (s : Symbol) : Lexeme.take? (s.char :: rest) = some (.symbol s) := by
  cases s <;> rw [take?_of_not_isLetter (by decide) (by decide)] <;> rfl

/-- **A token is taken as it is written** if it ends there. -/
theorem take?_formed (hl : l.Formed) (hend : Ends rest) :
    Lexeme.take? (l.chars ++ rest) = some l := by
  cases l with
  | number n => exact take?_number hl hend
  | cell p => exact take?_of_reference (takeReference?_cell hl hend)
  | range first last =>
    rw [Lexeme.chars, List.append_assoc, List.cons_append]
    exact take?_of_reference (takeReference?_range hl.1 hl.2 hend)
  | name letters => exact take?_name hl hend
  | symbol s => exact take?_symbol s

theorem formed_of_takeReference? (h : Lexeme.takeReference? cs = some l) :
    l.Formed ∧ ∃ rest, cs = l.chars ++ rest := by
  obtain ⟨first, hfirst, rfl | ⟨last, rest, rfl, hrest, hlast⟩⟩ := takeReference?_cases h
  · obtain ⟨hp, tail, htail, -⟩ := take?_written hfirst
    exact ⟨hp, tail, htail⟩
  · obtain ⟨hp, tail, htail, -⟩ := take?_written hfirst
    obtain ⟨hq, behind, hbehind, -⟩ := take?_written hlast
    rw [htail, List.drop_left] at hrest
    refine ⟨⟨hp, hq⟩, behind, ?_⟩
    rw [htail, hrest, hbehind, Lexeme.chars, List.append_assoc, List.cons_append]

theorem formed_of_takeName? (h : Lexeme.takeName? cs = some l) :
    l.Formed ∧ ∃ rest, cs = l.chars ++ rest := by
  obtain ⟨hne, rfl⟩ := takeName?_eq_some h
  exact ⟨⟨hne, fun c hc => List.mem_takeWhile_imp hc⟩, _, List.takeWhile_append_dropWhile.symm⟩

theorem formed_of_literal_take? {n : Literal} (h : Literal.take? cs = some n) :
    (Lexeme.number n).Formed ∧ ∃ rest, cs = n.chars ++ rest := by
  have happend := List.takeWhile_append_dropWhile (p := Char.isDigit) (l := cs)
  unfold Literal.take? at h
  simp only at h
  split at h
  · cases h
  · rename_i hne
    have hwhole : cs.takeWhile Char.isDigit ≠ [] := fun he => hne (by rw [he]; rfl)
    have hdigits (xs : List Char) : ∀ c ∈ xs.takeWhile Char.isDigit, c.isDigit = true :=
      fun c hc => List.mem_takeWhile_imp hc
    split at h
    · rename_i rest hrest
      obtain rfl := Option.some.inj h
      refine ⟨⟨hwhole, hdigits _, hdigits _⟩, ?_⟩
      rw [hrest] at happend
      by_cases hfraction : rest.takeWhile Char.isDigit = []
      · exact ⟨'.' :: rest, by simp [Literal.chars, hfraction, happend]⟩
      · exact ⟨rest.dropWhile Char.isDigit, by simp [Literal.chars, hfraction, happend]⟩
    · obtain rfl := Option.some.inj h
      refine ⟨⟨hwhole, hdigits _, nofun⟩, cs.dropWhile Char.isDigit, ?_⟩
      simp [Literal.chars, happend]

theorem Symbol.char_of_ofChar? {s : Symbol} (h : Symbol.ofChar? c = some s) : s.char = c := by
  unfold Symbol.ofChar? at h
  split at h <;> cases h <;> rfl

/-- **What is taken is written there.** -/
theorem formed_of_take? (h : Lexeme.take? cs = some l) :
    l.Formed ∧ ∃ rest, cs = l.chars ++ rest := by
  rcases take?_cases h with href | ⟨-, hname | ⟨-, ⟨n, hnumber, rfl⟩ | ⟨-, s, hsymbol, rfl⟩⟩⟩
  · exact formed_of_takeReference? href
  · exact formed_of_takeName? hname
  · exact formed_of_literal_take? hnumber
  · obtain ⟨c, hc, hs⟩ := Option.bind_eq_some_iff.1 hsymbol
    obtain ⟨rest, rfl⟩ := List.head?_eq_some_iff.1 hc
    exact ⟨trivial, rest, by rw [Lexeme.chars, Symbol.char_of_ofChar? hs]; rfl⟩

/-! ## Cutting -/

theorem take?_eq_none (hletter : isLetter c = false) (hdigit : c.isDigit = false) (hpin : c ≠ '$')
    (hsymbol : Symbol.ofChar? c = none) : Lexeme.take? (c :: cs) = none := by
  have hnumber : Literal.take? (c :: cs) = none := by
    unfold Literal.take?
    have hwhole : (c :: cs).takeWhile Char.isDigit = [] :=
      List.takeWhile_cons_of_neg (by simp [hdigit])
    simp only [hwhole, List.isEmpty_nil, if_true]
  rw [take?_of_not_isLetter hletter hpin, hnumber, hsymbol]
  rfl

theorem take?_of_isSkipped (hc : isSkipped c = true) : Lexeme.take? (c :: cs) = none := by
  have hmem : c ∈ [' ', '\t', '\r', '\n'] := by simpa [isSkipped, or_assoc] using hc
  have hall : [' ', '\t', '\r', '\n'].all (fun c => decide
      (isLetter c = false ∧ c.isDigit = false ∧ c ≠ '$' ∧ Symbol.ofChar? c = none)) = true := by
    decide
  obtain ⟨hletter, hdigit, hpin, hsymbol⟩ := of_decide_eq_true (List.all_eq_true.1 hall c hmem)
  exact take?_eq_none hletter hdigit hpin hsymbol

theorem Lexeme.Formed.chars_ne_nil (h : l.Formed) : l.chars ≠ [] := by
  cases l with
  | number n => exact fun he => h.1 (List.append_eq_nil_iff.1 he).1
  | cell p => exact Written.chars_ne_nil h
  | range first last => exact List.append_ne_nil_of_right_ne_nil _ (List.cons_ne_nil _ _)
  | name letters => exact h.1
  | symbol s => exact List.cons_ne_nil _ _

theorem lexFrom_token (hl : l.chars ≠ []) (h : Lexeme.take? (l.chars ++ rest) = some l)
    (position : Nat) : lexFrom position (l.chars ++ rest) =
      ⟨⟨l, position⟩ :: (lexFrom (position + l.chars.length) rest).tokens,
        (lexFrom (position + l.chars.length) rest).stuck?⟩ := by
  obtain ⟨c, chars, hchars⟩ := List.exists_cons_of_ne_nil hl
  have hskip : ¬ isSkipped c = true := by
    intro hc
    rw [hchars, List.cons_append, take?_of_isSkipped hc] at h
    cases h
  have hdrop : (chars ++ rest).drop ((c :: chars).length - 1) = rest := by
    rw [List.length_cons, Nat.add_sub_cancel, List.drop_left]
  rw [hchars, List.cons_append] at h ⊢
  rw [lexFrom, if_neg hskip, h]
  simp only [hchars, hdrop]

end Spreadsheet.Formula
