import Spreadsheet.Proofs.Formula.Composition

/-!
# Searching for references

A shift looks for references with a pattern that may start at any character, while tokens start
only where the one before ends and come in five kinds. In a body that can be cut into tokens both
find the same references: no reference starts inside a name or a number, as what stands behind its
letters or digits is the same from each of their characters on.

* `Pattern`, `Pattern.rests`, `Pattern.search`: patterns that prefer long matches, and their matches
  from left to right;
* `Pattern.reference`, `Pattern.referenceOrRange`; **`head?_rests_referenceOrRange`**: a match is
  what is taken for a reference;
* `Piece.marks`, **`search_eq_marks`**: the pieces that a shift cuts are the matches;
* `Token.marks`, `search_append`; **`search_lex`**: the matches in a body are its references.
-/

namespace Spreadsheet.Formula

open Reference (Parts isLetter takePin)

/-! ## Patterns -/

/-- A pattern of characters. Repetitions and options prefer to match more. -/
inductive Pattern where
  /-- One character of a class. -/
  | one (class? : Char → Bool)
  /-- One or more characters of a class. -/
  | many (class? : Char → Bool)
  /-- A pattern or nothing. -/
  | optional (p : Pattern)
  /-- One pattern behind the other. -/
  | seq (p q : Pattern)

namespace Pattern

/-- What a run of characters of a class can leave of a text, the longest run first. -/
def runs (f : Char → Bool) : List Char → List (List Char)
  | [] => []
  | c :: cs => if f c then runs f cs ++ [cs] else []

/-- What a pattern can leave of a text that it matches the front of, in the order in which the ways
to match it are tried. -/
def rests : Pattern → List Char → List (List Char)
  | one _, [] => []
  | one f, c :: cs => if f c then [cs] else []
  | many f, cs => runs f cs
  | optional p, cs => p.rests cs ++ [cs]
  | seq p q, cs => (p.rests cs).flatMap q.rests

/-- The matches of a pattern in a text that starts at a position, with their places: at each place
the first way to match that there is, and the search goes on behind it. The pattern is one that does
not match the empty text. -/
def search (p : Pattern) (position : Nat) : List Char → List (Nat × List Char)
  | [] => []
  | c :: cs =>
    match (p.rests (c :: cs)).head? with
    | none => p.search (position + 1) cs
    | some rest =>
      let width := (c :: cs).length - rest.length
      (position, (c :: cs).take width) :: p.search (position + width) (cs.drop (width - 1))
termination_by cs => cs.length
decreasing_by
  · simp
  · simp only [List.length_drop, List.length_cons]; omega

variable {p q : Pattern} {f : Char → Bool} {c : Char} {cs : List Char}

/-- A run that is followed by what no character of the run can start is as long as it can be. -/
theorem rests_many_seq (h : ∀ c cs, f c = true → q.rests (c :: cs) = []) (cs : List Char) :
    ((many f).seq q).rests cs = if cs.takeWhile f = [] then [] else q.rests (cs.dropWhile f) := by
  rw [rests, rests]
  induction cs with
  | nil => rfl
  | cons c cs ih =>
    by_cases hc : f c = true
    · rw [runs, if_pos hc, List.flatMap_append, ih, List.takeWhile_cons_of_pos hc,
        List.dropWhile_cons_of_pos hc, if_neg (List.cons_ne_nil _ _), List.flatMap_singleton]
      cases cs with
      | nil => rfl
      | cons b cs =>
        by_cases hb : f b = true
        · rw [if_neg (by simp [hb]), h b cs hb, List.append_nil]
        · rw [if_pos (List.takeWhile_cons_of_neg hb), List.dropWhile_cons_of_neg hb,
            List.nil_append]
    · rw [runs, if_neg hc, List.takeWhile_cons_of_neg hc, if_pos rfl, List.flatMap_nil]

theorem head?_runs (f : Char → Bool) (cs : List Char) : (runs f cs).head? =
    if cs.takeWhile f = [] then none else some (cs.dropWhile f) := by
  induction cs with
  | nil => rfl
  | cons c cs ih =>
    by_cases hc : f c = true
    · rw [runs, if_pos hc, List.head?_append, ih, List.takeWhile_cons_of_pos hc,
        List.dropWhile_cons_of_pos hc, if_neg (List.cons_ne_nil _ _)]
      by_cases hnone : cs.takeWhile f = []
      · have hsame := List.takeWhile_append_dropWhile (p := f) (l := cs)
        rw [hnone, List.nil_append] at hsame
        rw [if_pos hnone, hsame]
        rfl
      · rw [if_neg hnone]
        rfl
    · rw [runs, if_neg hc, List.takeWhile_cons_of_neg hc, if_pos rfl, List.head?_nil]

/-- An option behind a pattern does not change how the pattern is matched. -/
theorem head?_rests_seq_optional (p q : Pattern) (cs : List Char) :
    ((p.seq q.optional).rests cs).head? =
      (p.rests cs).head?.map fun rest => (q.rests rest).head?.getD rest := by
  rw [rests]
  cases p.rests cs with
  | nil => rfl
  | cons rest others =>
    rw [List.flatMap_cons, List.head?_append, rests, List.head?_append]
    simp only [List.head?_cons, Option.map_some]
    cases (q.rests rest).head? with
    | none => rfl
    | some rest' => rfl

/-- The pin of a reference, if there is one. -/
def pin : Pattern := optional (one (· == '$'))

/-- A reference. -/
def reference : Pattern := pin.seq ((many isLetter).seq (pin.seq (many Char.isDigit)))

/-- A pin is left out only if there is none. -/
theorem rests_pin_seq (h : ∀ cs, q.rests ('$' :: cs) = []) (cs : List Char) :
    (pin.seq q).rests cs = q.rests (takePin cs).2 := by
  cases cs with
  | nil => simp [rests, pin, takePin]
  | cons c cs =>
    by_cases hc : c = '$'
    · subst hc
      simp [rests, pin, takePin, h]
    · rw [takePin_of_ne hc]
      simp [rests, pin, hc]

/-- The row of a reference does not start with a letter. -/
theorem rests_row_of_isLetter (c : Char) (cs : List Char) (hc : isLetter c = true) :
    (pin.seq (many Char.isDigit)).rests (c :: cs) = [] := by
  rw [rests_pin_seq fun cs => rfl, takePin_of_ne (ne_pin_of_isLetter hc), rests, runs,
    if_neg (not_isDigit_of_isLetter hc)]

/-- **A match of a reference** is the reference that a text starts with. -/
theorem head?_rests_reference (cs : List Char) :
    (reference.rests cs).head? = (Parts.take? cs).map fun p => cs.drop p.chars.length := by
  have hstart : ∀ cs, ((many isLetter).seq (pin.seq (many Char.isDigit))).rests ('$' :: cs) = [] :=
    fun cs => rests_many_seq rests_row_of_isLetter ('$' :: cs)
  rw [reference, rests_pin_seq hstart, rests_many_seq rests_row_of_isLetter]
  cases htake : Parts.take? cs with
  | none =>
    rcases parts_take?_eq_none_iff.1 htake with hword | hdigits
    · rw [if_pos hword]
      rfl
    · split
      · rfl
      · rw [rests_pin_seq fun cs => rfl, rests, head?_runs]
        exact if_pos hdigits
  | some p =>
    obtain ⟨hword, hword_ne, hdigits, hdigits_ne⟩ := take?_eq_some htake
    have hrest : cs.drop p.chars.length =
        (takePin ((takePin cs).2.dropWhile isLetter)).2.dropWhile Char.isDigit := by
      conv_lhs => rw [← take?_append htake, List.drop_left]
    rw [if_neg (hword ▸ hword_ne), rests_pin_seq fun cs => rfl, rests, head?_runs, Option.map_some,
      hrest]
    exact if_neg fun hnone => hdigits_ne (hdigits.trans hnone)

/-- A colon and a reference behind it, which makes a range. -/
def second : Pattern := (one (· == ':')).seq reference

theorem head?_rests_second_colon (cs : List Char) : (second.rests (':' :: cs)).head? =
    (Parts.take? cs).map fun p => cs.drop p.chars.length := by
  rw [← head?_rests_reference]
  exact congrArg List.head? (List.flatMap_singleton ..)

theorem head?_rests_second_none (h : ∀ xs, cs = ':' :: xs → Parts.take? xs = none) :
    (second.rests cs).head? = none := by
  cases cs with
  | nil => rfl
  | cons c cs =>
    by_cases hcolon : c = ':'
    · subst hcolon
      rw [head?_rests_second_colon, h cs rfl]
      rfl
    · have hone : (one (· == ':')).rests (c :: cs) = [] := if_neg (by simpa using hcolon)
      rw [second, rests, hone]
      rfl

/-- A reference, or two with a colon between them. -/
def referenceOrRange : Pattern := reference.seq second.optional

/-- **A match of a reference or a range** is what is taken for one. -/
theorem head?_rests_referenceOrRange (cs : List Char) : (referenceOrRange.rests cs).head? =
    (Lexeme.takeReference? cs).map fun l => cs.drop l.chars.length := by
  rw [referenceOrRange, head?_rests_seq_optional, head?_rests_reference]
  cases hfirst : Parts.take? cs with
  | none => rw [takeReference?_none hfirst]; rfl
  | some first =>
    obtain ⟨hp, rest, rfl, hend⟩ := take?_written hfirst
    rw [Option.map_some, Option.map_some, List.drop_left]
    by_cases hrange : ∃ xs last, rest = ':' :: xs ∧ Parts.take? xs = some last
    · obtain ⟨xs, last, rfl, hlast⟩ := hrange
      obtain ⟨hq, behind, rfl, hend'⟩ := take?_written hlast
      rw [takeReference?_eq_range hp hq hend', head?_rests_second_colon, hlast, Option.map_some,
        Option.map_some, List.drop_left, ← List.cons_append, ← List.append_assoc]
      exact congrArg some (List.drop_left ..).symm
    · have hcell : ∀ xs, rest = ':' :: xs → Parts.take? xs = none := fun xs hxs =>
        Option.eq_none_iff_forall_ne_some.2 fun last hlast => hrange ⟨xs, last, hxs, hlast⟩
      rw [(takeReference?_eq_cell_iff hp hend).2 hcell, head?_rests_second_none hcell]
      exact congrArg some (List.drop_left ..).symm

end Pattern

/-! ## References of a text -/

variable {c : Char} {cs chars rest : List Char} {l : Lexeme} {position : Nat}

/-- The token is a reference or a range. -/
def Lexeme.isReference : Lexeme → Bool
  | cell _ | range .. => true
  | number _ | name _ | symbol _ => false

/-- The place of a token and its text. -/
def Token.mark (t : Token) : Nat × List Char := (t.position, t.lexeme.chars)

/-- The references that a shift cuts out of a text that starts at a position. -/
def Piece.tokens : Nat → List Piece → List Token
  | _, [] => []
  | position, .cell p :: pieces =>
    ⟨.cell p, position⟩ :: tokens (position + p.chars.length) pieces
  | position, .range p q :: pieces =>
    ⟨.range p q, position⟩ :: tokens (position + (Piece.range p q).chars.length) pieces
  | position, .other _ :: pieces => tokens (position + 1) pieces

theorem search_of_none (h : Lexeme.takeReference? (c :: cs) = none) (position : Nat) :
    Pattern.referenceOrRange.search position (c :: cs) =
      Pattern.referenceOrRange.search (position + 1) cs := by
  rw [Pattern.search, Pattern.head?_rests_referenceOrRange, h]
  rfl

theorem search_of_reference (h : Lexeme.takeReference? (c :: cs) = some l) (position : Nat) :
    Pattern.referenceOrRange.search position (c :: cs) = (position, l.chars) ::
      Pattern.referenceOrRange.search (position + l.chars.length)
        (cs.drop (l.chars.length - 1)) := by
  obtain ⟨-, rest, hrest⟩ := formed_of_takeReference? h
  have hdrop : (c :: cs).drop l.chars.length = rest := by rw [hrest, List.drop_left]
  have hwidth : (c :: cs).length - rest.length = l.chars.length := by
    rw [hrest, List.length_append, Nat.add_sub_cancel]
  have htake : (c :: cs).take l.chars.length = l.chars := by rw [hrest, List.take_left]
  rw [Pattern.search, Pattern.head?_rests_referenceOrRange, h]
  simp only [Option.map_some, hdrop, hwidth, htake]

/-- **What a shift cuts out of a text** are the matches of the pattern, whatever the text is. -/
theorem search_eq_marks (position : Nat) (cs : List Char) :
    Pattern.referenceOrRange.search position cs =
      (Piece.tokens position (pieces cs)).map Token.mark := by
  fun_induction pieces cs generalizing position with
  | case1 => rw [Pattern.search]; rfl
  | case2 c cs p h ih =>
    rw [search_of_reference h, Piece.tokens, List.map_cons]
    exact congrArg _ (ih _)
  | case3 c cs first last h ih =>
    rw [search_of_reference h, Piece.tokens, List.map_cons]
    exact congrArg _ (ih _)
  | case4 c cs hcell hrange ih =>
    rw [search_of_none (takeReference?_none (parts_take?_eq_none hcell hrange)), ih]
    rfl

/-! ## References of a body -/

/-- No reference starts at any of the characters in front of a text. -/
def Plain (chars rest : List Char) : Prop :=
  ∀ front back, chars = front ++ back → back ≠ [] → Parts.take? (back ++ rest) = none

theorem pieces_of_none (h : Parts.take? (c :: cs) = none) :
    pieces (c :: cs) = .other c :: pieces cs := by
  rw [pieces, takeReference?_none h]

/-- A part of a text where no reference starts has no references. -/
theorem Plain.pieces (h : Plain chars rest) :
    Formula.pieces (chars ++ rest) = chars.map .other ++ Formula.pieces rest := by
  induction chars with
  | nil => rfl
  | cons c chars ih =>
    have hrest : Plain chars rest := fun front back hback =>
      h (c :: front) back (congrArg (c :: ·) hback)
    have hnone : Parts.take? (c :: (chars ++ rest)) = none :=
      h [] (c :: chars) rfl (List.cons_ne_nil _ _)
    rw [List.cons_append, pieces_of_none hnone, ih hrest]
    rfl

theorem tokens_other (position : Nat) (chars : List Char) (ps : List Piece) :
    Piece.tokens position (chars.map .other ++ ps) =
      Piece.tokens (position + chars.length) ps := by
  induction chars generalizing position with
  | nil => rfl
  | cons c chars ih =>
    rw [List.map_cons, List.cons_append, Piece.tokens, ih, List.length_cons]
    congr 1
    omega

/-- No reference starts at a character that is neither a letter nor a pin. -/
theorem plain_of_not_isLetter (h : ∀ c ∈ chars, isLetter c = false ∧ c ≠ '$') :
    Plain chars rest := by
  rintro front back rfl hback
  obtain ⟨c, back, rfl⟩ := List.exists_cons_of_ne_nil hback
  obtain ⟨hletter, hpin⟩ := h c (List.mem_append_right _ List.mem_cons_self)
  exact parts_take?_none hletter hpin

/-- **No reference starts inside a name**: behind its last letter there is no row number, and so
behind none of them. -/
theorem plain_of_name {letters : List Char} (h : ∀ c ∈ letters, isLetter c = true)
    (hnone : Parts.take? (letters ++ rest) = none) : Plain letters rest := by
  rintro front back rfl hback
  obtain ⟨hfront, hletters⟩ := List.forall_mem_append.1 h
  have hpin {xs : List Char} (hxs : ∀ c ∈ xs, isLetter c = true) (hne : xs ≠ []) :
      takePin (xs ++ rest) = (false, xs ++ rest) := by
    obtain ⟨c, xs, rfl⟩ := List.exists_cons_of_ne_nil hne
    exact takePin_of_ne (ne_pin_of_isLetter (hxs c List.mem_cons_self))
  have hne : front ++ back ≠ [] := List.append_ne_nil_of_right_ne_nil _ hback
  rw [parts_take?_eq_none_iff, hpin h hne, List.takeWhile_append_of_pos h,
    List.dropWhile_append_of_pos h] at hnone
  rw [parts_take?_eq_none_iff, hpin hletters hback, List.dropWhile_append_of_pos hletters]
  exact .inr (hnone.resolve_left fun hnil => hne (List.append_eq_nil_iff.1 hnil).1)

/-- **No reference starts inside another token**, nor with it. -/
theorem plain_of_take? (htake : Lexeme.take? (l.chars ++ rest) = some l)
    (hl : ¬ l.isReference = true) : Plain l.chars rest := by
  have hformed := (formed_of_take? htake).1
  have hnone : Parts.take? (l.chars ++ rest) = none := by
    refine parts_take?_eq_none (fun p hp => ?_) fun p q hpq => ?_
    · rw [take?_of_reference hp] at htake
      exact hl (Option.some.inj htake ▸ rfl)
    · rw [take?_of_reference hpq] at htake
      exact hl (Option.some.inj htake ▸ rfl)
  cases l with
  | number n => exact plain_of_not_isLetter (number_chars hformed)
  | cell p => exact absurd rfl hl
  | range p q => exact absurd rfl hl
  | name letters => exact plain_of_name hformed.2 hnone
  | symbol s =>
    have hchar : isLetter s.char = false ∧ s.char ≠ '$' := by cases s <;> exact ⟨rfl, by decide⟩
    exact plain_of_not_isLetter (List.forall_mem_singleton.2 hchar)

/-- A token that is a reference is a piece, and a shift sees other tokens as characters. -/
theorem tokens_pieces_of_take? (htake : Lexeme.take? (l.chars ++ rest) = some l) (position : Nat) :
    Piece.tokens position (pieces (l.chars ++ rest)) =
      (if l.isReference then [⟨l, position⟩] else []) ++
        Piece.tokens (position + l.chars.length) (pieces rest) := by
  by_cases hl : l.isReference = true
  · rw [if_pos hl]
    have href : Lexeme.takeReference? (l.chars ++ rest) = some l := by
      rcases take?_cases htake with href | ⟨-, hname | ⟨-, ⟨n, -, rfl⟩ | ⟨-, s, -, rfl⟩⟩⟩
      · exact href
      · rw [(takeName?_eq_some hname).2] at hl
        cases hl
      · cases hl
      · cases hl
    cases l with
    | cell p =>
      rw [Lexeme.chars, pieces_of_cell href]
      rfl
    | range p q =>
      rw [Lexeme.chars, List.append_assoc, List.cons_append] at href ⊢
      rw [pieces_of_range href]
      rfl
    | number n => cases hl
    | name letters => cases hl
    | symbol s => cases hl
  · rw [if_neg hl, (plain_of_take? htake hl).pieces, tokens_other, List.nil_append]

/-- **What a shift cuts out of a body** that can be cut into tokens are its references. -/
theorem tokens_pieces (position : Nat) (cs : List Char) :
    (lexFrom position cs).stuck? = none → Piece.tokens position (pieces cs) =
      (lexFrom position cs).tokens.filter fun t => t.lexeme.isReference := by
  fun_induction lexFrom position cs with
  | case1 => exact fun _ => by rw [pieces]; rfl
  | case2 position c cs hskip ih =>
    intro hstuck
    obtain ⟨hletter, -, hpin, -⟩ := isBreak_spec (c := c) (by rw [isBreak, hskip]; rfl)
    rw [← ih hstuck, pieces_of_none (parts_take?_none hletter hpin)]
    rfl
  | case3 =>
    intro hstuck
    cases hstuck
  | case4 position c cs hskip l hl width after ih =>
    intro hstuck
    obtain ⟨hformed, rest, hrest⟩ := formed_of_take? hl
    have hdrop : cs.drop (width - 1) = rest := drop_length_pred hformed.chars_ne_nil hrest
    have htail : Piece.tokens (position + l.chars.length) (pieces rest) =
        after.tokens.filter fun t => t.lexeme.isReference := by
      rw [← hdrop]
      exact ih hstuck
    rw [hrest] at hl ⊢
    rw [tokens_pieces_of_take? hl, htail, List.filter_cons]
    split <;> rfl

/-- **The matches of the pattern in a body** that can be cut into tokens are its references, at the
same places and with the same texts, and they are what a shift cuts out of it. So a shift leaves
names and numbers alone, misses no reference and takes each as a whole. -/
theorem search_lex (body : String) (h : (lex body).stuck? = none) :
    Pattern.referenceOrRange.search 0 body.toList =
        ((lex body).tokens.filter fun t => t.lexeme.isReference).map Token.mark ∧
      Piece.tokens 0 (pieces body.toList) =
        (lex body).tokens.filter fun t => t.lexeme.isReference := by
  have htokens := tokens_pieces 0 body.toList h
  exact ⟨(search_eq_marks 0 body.toList).trans (congrArg (List.map Token.mark) htokens), htokens⟩

/-- A name with a reference right behind it, a number with another one, and a range. -/
theorem search_lex_close : Pattern.referenceOrRange.search 0 "SUM$A1+12B3:$c4".toList =
    [(3, "$A1".toList), (9, "B3:$c4".toList)] := by
  refine (search_lex "SUM$A1+12B3:$c4" (by decide +kernel)).1.trans ?_
  decide +kernel

end Spreadsheet.Formula
