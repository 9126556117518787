import Spreadsheet.Proofs.Formula.Lexing

/-!
# How tokens are laid out in a text

A text holds tokens with blanks between them; where a number, a reference or a name ends, a blank, a
punctuation mark or the end of the text has to follow. A text laid out like this is cut into just
these tokens, and accepted bodies are, since the parser wants punctuation there.

A shift goes over the same text without cutting it into tokens. It finds the references of a laid
out text nevertheless, and what it writes is laid out again, unless a reference is lost.

* `Laid`; `laid_lexFrom`, **`Laid.lexFrom`**: laid out texts and their tokens;
* `Shifts`: shifting by the character; `Stuck`: texts that are not cut to their end;
* **`Laid.shift`**: shifting a laid out text.
-/

namespace Spreadsheet.Formula

open Reference (Parts isLetter)

variable {c : Char} {cs rest out : List Char} {p q : Parts} {l : Lexeme} {ls : List Lexeme}

/-! ## Layouts -/

/-- A text that holds just these tokens. It starts where any token is free to stand,
or only a break. -/
inductive Laid : Bool → List Char → List Lexeme → Prop where
  | nil (free : Bool) : Laid free [] []
  | skip (free : Bool) {c : Char} {cs : List Char} {ls : List Lexeme} (hc : isSkipped c = true)
    (h : Laid true cs ls) : Laid free (c :: cs) ls
  | symbol (free : Bool) (s : Symbol) {cs : List Char} {ls : List Lexeme} (h : Laid true cs ls) :
    Laid free (s.char :: cs) (.symbol s :: ls)
  | token {l : Lexeme} {cs : List Char} {ls : List Lexeme} (hl : l.Formed)
    (h : Laid false cs ls) : Laid true (l.chars ++ cs) (l :: ls)

theorem isBreak_char (s : Symbol) : isBreak s.char = true := by cases s <;> rfl

theorem Laid.ends (h : Laid false cs ls) : Ends cs := by
  cases h with
  | nil => trivial
  | skip _ hc => exact Bool.or_eq_true_iff.2 (.inl hc)
  | symbol _ s => exact isBreak_char s

/-- **A laid out text is cut into its tokens.** -/
theorem Laid.lexFrom {free : Bool} (h : Laid free cs ls) (position : Nat) :
    (lexFrom position cs).stuck? = none ∧ (lexFrom position cs).tokens.map (·.lexeme) = ls := by
  induction h generalizing position with
  | nil => simp [Formula.lexFrom]
  | skip _ hc _ ih =>
    rw [Formula.lexFrom, if_pos hc]
    exact ih (position + 1)
  | symbol _ s _ ih =>
    rename_i cs ls _
    have hlex : Formula.lexFrom position (s.char :: cs) =
        ⟨⟨.symbol s, position⟩ :: (Formula.lexFrom (position + 1) cs).tokens,
          (Formula.lexFrom (position + 1) cs).stuck?⟩ :=
      lexFrom_token (l := .symbol s) (List.cons_ne_nil _ _) (take?_symbol s) position
    obtain ⟨hstuck, htokens⟩ := ih (position + 1)
    rw [hlex]
    exact ⟨hstuck, congrArg (Lexeme.symbol s :: ·) htokens⟩
  | token hl h ih =>
    rename_i l _ _
    obtain ⟨hstuck, htokens⟩ := ih (position + l.chars.length)
    rw [lexFrom_token hl.chars_ne_nil (take?_formed hl h.ends) position]
    exact ⟨hstuck, congrArg (l :: ·) htokens⟩

/-- A text behind punctuation may start with any token. -/
theorem Laid.append {free : Bool} {ds : List Char} {ms : List Lexeme} (h : Laid free cs ls)
    (h' : Laid true ds ms) (hlast : ∀ l ∈ ls.getLast?, ∃ s, l = .symbol s) :
    Laid true (cs ++ ds) (ls ++ ms) ∧
      (free = false → ls ≠ [] → Laid false (cs ++ ds) (ls ++ ms)) := by
  induction h with
  | nil free => exact ⟨h', fun _ hne => absurd rfl hne⟩
  | skip free hc h ih =>
    have hrest := (ih hlast).1
    exact ⟨.skip true hc hrest, fun _ _ => .skip false hc hrest⟩
  | @symbol free s cs ls h ih =>
    have hrest : Laid true (cs ++ ds) (ls ++ ms) := by
      cases ls with
      | nil => exact (ih nofun).1
      | cons l ls => exact (ih hlast).1
    exact ⟨.symbol true s hrest, fun _ _ => .symbol false s hrest⟩
  | @token l cs ls hl h ih =>
    refine ⟨?_, nofun⟩
    rw [List.append_assoc]
    cases ls with
    | nil =>
      obtain ⟨s, rfl⟩ := hlast l rfl
      exact .symbol true s (ih nofun).1
    | cons l' ls => exact .token hl ((ih hlast).2 rfl (List.cons_ne_nil _ _))

/-- The token is punctuation. -/
def Token.IsSymbol (t : Token) : Prop := ∃ s, t.lexeme = .symbol s

/-- Tokens that are not punctuation are followed by punctuation or nothing. -/
def Parted : List Token → Prop
  | [] => True
  | t :: ts => (t.IsSymbol ∨ ∀ u ∈ ts.head?, u.IsSymbol) ∧ Parted ts

/-- On both sides of a token that is no punctuation there is punctuation or nothing. -/
theorem Parted.around {ts us : List Token} {t : Token} (h : Parted (ts ++ t :: us))
    (ht : ¬ t.IsSymbol) : Parted ts ∧ (∀ u ∈ ts.getLast?, u.IsSymbol) ∧ Parted us ∧
      ∀ u ∈ us.head?, u.IsSymbol := by
  induction ts with
  | nil => exact ⟨trivial, nofun, h.2, h.1.resolve_left ht⟩
  | cons v ts ih =>
    obtain ⟨hparted, hlast, hback⟩ := ih h.2
    cases ts with
    | nil =>
      refine ⟨⟨.inr nofun, trivial⟩, fun u hu => ?_, hback⟩
      obtain rfl := Option.some.inj hu
      exact h.1.resolve_right fun hnext => ht (hnext t rfl)
    | cons w ts => exact ⟨⟨h.1, hparted⟩, hlast, hback⟩

/-- **A text that is cut into parted tokens is laid out.** -/
theorem laid_lexFrom {position : Nat} (hstuck : (lexFrom position cs).stuck? = none)
    (hparted : Parted (lexFrom position cs).tokens) :
    Laid true cs ((lexFrom position cs).tokens.map (·.lexeme)) ∧
      ((∀ u ∈ (lexFrom position cs).tokens.head?, u.IsSymbol) →
        Laid false cs ((lexFrom position cs).tokens.map (·.lexeme))) := by
  fun_induction lexFrom position cs with
  | case1 => exact ⟨.nil _, fun _ => .nil _⟩
  | case2 position c cs hskip ih =>
    have hlaid := (ih hstuck hparted).1
    exact ⟨.skip _ hskip hlaid, fun _ => .skip _ hskip hlaid⟩
  | case3 position c cs hskip htake => cases hstuck
  | case4 position c cs hskip l htake width after ih =>
    obtain ⟨hl, rest, hrest⟩ := formed_of_take? htake
    have hdrop : cs.drop (width - 1) = rest := drop_length_pred hl.chars_ne_nil hrest
    obtain ⟨hlaid, hends⟩ := ih hstuck hparted.2
    rw [hdrop] at hlaid hends
    have hnext := hparted.1
    simp only [after, hdrop] at hnext ⊢
    rw [hrest, List.map_cons]
    by_cases hsymbol : ∃ s, l = .symbol s
    · obtain ⟨s, rfl⟩ := hsymbol
      exact ⟨.symbol _ s hlaid, fun _ => .symbol _ s hlaid⟩
    · refine ⟨.token hl (hends (hnext.resolve_left hsymbol)), fun hfirst => ?_⟩
      exact absurd (hfirst _ rfl) hsymbol

theorem laid_of_lexFrom {position : Nat} {ts : List Token} (h : lexFrom position cs = ⟨ts, none⟩)
    (hparted : Parted ts) : Laid true cs (ts.map (·.lexeme)) ∧
      ((∀ u ∈ ts.head?, u.IsSymbol) → Laid false cs (ts.map (·.lexeme))) := by
  have htokens : (lexFrom position cs).tokens = ts := by rw [h]
  have hstuck : (lexFrom position cs).stuck? = none := by rw [h]
  subst htokens
  exact laid_lexFrom hstuck hparted

/-! ## Shifted texts -/

variable {d : Offset}

/-- The characters of a text, shifted. -/
def Shifts (d : Offset) (cs out : List Char) : Prop :=
  ∃ outs, (pieces cs).mapM (Piece.shift d) = .ok outs ∧ outs.flatten = out

theorem Shifts.shift {body : String} (h : Shifts d body.toList out) :
    shift d body = .ok (String.ofList out) := by
  obtain ⟨outs, houts, rfl⟩ := h
  unfold Formula.shift
  rw [houts]
  rfl

theorem shifts_nil : Shifts d [] [] := ⟨[], by rw [pieces]; rfl, rfl⟩

theorem Shifts.cons {piece : Piece} {new : List Char} (h : Shifts d rest out)
    (hpieces : pieces cs = piece :: pieces rest) (hshift : piece.shift d = .ok new) :
    Shifts d cs (new ++ out) := by
  obtain ⟨outs, houts, rfl⟩ := h
  refine ⟨new :: outs, ?_, rfl⟩
  rw [hpieces, List.mapM_cons, hshift, houts]
  rfl

theorem Shifts.other (h : Shifts d cs out) (hc : Parts.take? (c :: cs) = none) :
    Shifts d (c :: cs) (c :: out) := by
  have hpieces : pieces (c :: cs) = .other c :: pieces cs := by
    rw [pieces, takeReference?_none hc]
  exact h.cons hpieces rfl

theorem Shifts.break (h : Shifts d cs out) (hc : isBreak c = true) :
    Shifts d (c :: cs) (c :: out) := by
  obtain ⟨hletter, -, hpin, -, -⟩ := isBreak_spec hc
  exact h.other (parts_take?_none hletter hpin)

theorem Shifts.word {letters : List Char} (h : Shifts d rest out) (hend : Ends rest)
    (hletters : ∀ c ∈ letters, isLetter c = true) :
    Shifts d (letters ++ rest) (letters ++ out) := by
  induction letters with
  | nil => exact h
  | cons c letters ih =>
    have hnone := parts_take?_word (List.cons_ne_nil c letters) hletters hend
    exact (ih fun c' hc' => hletters c' (List.mem_cons_of_mem c hc')).other hnone

theorem Shifts.plain {chars : List Char} (h : Shifts d rest out)
    (hchars : ∀ c ∈ chars, isLetter c = false ∧ c ≠ '$') :
    Shifts d (chars ++ rest) (chars ++ out) := by
  induction chars with
  | nil => exact h
  | cons c chars ih =>
    obtain ⟨⟨hletter, hpin⟩, hchars⟩ := List.forall_mem_cons.1 hchars
    exact (ih hchars).other (parts_take?_none hletter hpin)

theorem pieces_of_cell (h : Lexeme.takeReference? (p.chars ++ rest) = some (.cell p)) :
    pieces (p.chars ++ rest) = .cell p :: pieces rest := by
  have hne : p.chars ≠ [] := Written.chars_ne_nil (formed_of_takeReference? h).1
  obtain ⟨c, cs, hcs⟩ := List.exists_cons_of_ne_nil (List.append_ne_nil_of_left_ne_nil hne rest)
  have hdrop : cs.drop (p.chars.length - 1) = rest := drop_length_pred hne hcs.symm
  rw [hcs] at h ⊢
  rw [pieces, h]
  simp only [hdrop]

theorem pieces_of_range (h : Lexeme.takeReference? (p.chars ++ ':' :: (q.chars ++ rest)) =
    some (.range p q)) :
    pieces (p.chars ++ ':' :: (q.chars ++ rest)) = .range p q :: pieces rest := by
  have hchars : p.chars ++ ':' :: (q.chars ++ rest) = (Piece.range p q).chars ++ rest := by
    rw [Piece.chars, List.append_assoc, List.cons_append]
  have hne : (Piece.range p q).chars ≠ [] :=
    List.append_ne_nil_of_right_ne_nil _ (List.cons_ne_nil _ _)
  obtain ⟨c, cs, hcs⟩ := List.exists_cons_of_ne_nil (List.append_ne_nil_of_left_ne_nil hne rest)
  have hdrop : cs.drop ((Piece.range p q).chars.length - 1) = rest :=
    drop_length_pred hne hcs.symm
  rw [hchars, hcs] at h ⊢
  rw [pieces, h]
  simp only [hdrop]

theorem pieces_cell (hp : Written p) (hend : Ends rest) :
    pieces (p.chars ++ rest) = .cell p :: pieces rest :=
  pieces_of_cell (takeReference?_cell hp hend)

theorem pieces_range (hp : Written p) (hq : Written q) (hend : Ends rest) :
    pieces (p.chars ++ ':' :: (q.chars ++ rest)) = .range p q :: pieces rest :=
  pieces_of_range (takeReference?_range hp hq hend)

/-- Every reference of a token has a property. -/
def Lexeme.Each (P : Parts → Prop) : Lexeme → Prop
  | cell p => P p
  | range first last => P first ∧ P last
  | number _ | name _ | symbol _ => True

/-- A token with other references. -/
def Lexeme.relabel (f : Parts → Parts) : Lexeme → Lexeme
  | cell p => cell (f p)
  | range first last => range (f first) (f last)
  | number n => number n
  | name letters => name letters
  | symbol s => symbol s

theorem Lexeme.Formed.moved (h : l.Formed) (hs : l.Each (Stays d)) :
    (l.relabel (movedParts d)).Formed := by
  cases l with
  | cell p => exact Stays.written hs
  | range first last => exact ⟨hs.1.written, hs.2.written⟩
  | number | name | symbol => exact h

theorem number_chars {n : Literal} (h : (Lexeme.number n).Formed) :
    ∀ c ∈ n.chars, isLetter c = false ∧ c ≠ '$' := by
  have hdigit (c : Char) (hc : c.isDigit = true) : isLetter c = false ∧ c ≠ '$' :=
    ⟨isLetter_of_isDigit hc, ne_pin_of_isDigit hc⟩
  intro c hc
  rcases List.mem_append.1 hc with hc | hc
  · exact hdigit c (h.2.1 c hc)
  · split at hc
    · exact absurd hc List.not_mem_nil
    · rcases List.mem_cons.1 hc with rfl | hc
      · exact ⟨by decide, by decide⟩
      · exact hdigit c (h.2.2 c hc)

theorem Shifts.token (hl : l.Formed) (hend : Ends rest) (hs : l.Each (Stays d))
    (hm : l.Each (Movable d)) (h : Shifts d rest out) :
    Shifts d (l.chars ++ rest) ((l.relabel (movedParts d)).chars ++ out) := by
  cases l with
  | number n => exact h.plain (number_chars hl)
  | cell p => exact h.cons (pieces_cell hl hend) (shiftParts_of_stays hs hm.2)
  | range first last =>
    simp only [Lexeme.chars, Lexeme.relabel, List.append_assoc, List.cons_append]
    have hshift : (Piece.range first last).shift d =
        .ok ((movedParts d first).chars ++ ':' :: (movedParts d last).chars) := by
      simp only [Piece.shift, shiftParts_of_stays hs.1 hm.1.2, shiftParts_of_stays hs.2 hm.2.2]
      rfl
    have hshifts := h.cons (pieces_range hl.1 hl.2 hend) hshift
    rwa [List.append_assoc, List.cons_append] at hshifts
  | name letters => exact h.word hend hl.2
  | symbol s => exact h.break (isBreak_char s)

/-! ## Lost references -/

/-- A text that is not cut to its end. -/
def Stuck (cs : List Char) : Prop := ∀ position, (lexFrom position cs).stuck? ≠ none

theorem stuck_of_take? (hskip : isSkipped c = false) (h : Lexeme.take? (c :: cs) = none) :
    Stuck (c :: cs) := by
  intro position
  rw [lexFrom, if_neg (by simp [hskip]), h]
  exact Option.some_ne_none _

theorem Stuck.skip (h : Stuck cs) (hc : isSkipped c = true) : Stuck (c :: cs) := by
  intro position
  rw [lexFrom, if_pos hc]
  exact h (position + 1)

theorem stuck_lostReference (cs : List Char) : Stuck (lostReference ++ cs) :=
  stuck_of_take? rfl (take?_eq_none (by decide) (by decide) (by decide) rfl)

theorem stuck_colon (cs : List Char) : Stuck (':' :: cs) :=
  stuck_of_take? rfl (take?_eq_none (by decide) (by decide) (by decide) rfl)

theorem Stuck.token (h : Stuck rest) (hl : l.chars ≠ [])
    (htake : Lexeme.take? (l.chars ++ rest) = some l) : Stuck (l.chars ++ rest) := by
  intro position
  rw [lexFrom_token hl htake]
  exact h _

theorem stuck_half (hp : Written p) (hrest : Parts.take? rest = none) :
    Stuck (p.chars ++ ':' :: rest) :=
  (stuck_colon rest).token (l := .cell p) hp.chars_ne_nil
    (take?_of_reference (takeReference?_half hp hrest))

/-- A token with a reference that is lost, shifted. -/
theorem Shifts.lost (hl : l.Formed) (hend : Ends rest) (hs : ¬ l.Each (Stays d))
    (hm : l.Each (Movable d)) (h : Shifts d rest out) :
    ∃ new, Shifts d (l.chars ++ rest) new ∧ Stuck new := by
  cases l with
  | number | name | symbol => exact absurd trivial hs
  | cell p =>
    exact ⟨_, h.cons (pieces_cell hl hend) (shiftParts_of_lost hm.1 hs), stuck_lostReference out⟩
  | range first last =>
    obtain ⟨⟨hnames, hshort⟩, hnames', hshort'⟩ := hm
    have hpieces := pieces_range hl.1 hl.2 hend
    obtain ⟨new', hnew'⟩ : ∃ new', shiftParts d last = .ok new' := by
      by_cases hlast : Stays d last
      · exact ⟨_, shiftParts_of_stays hlast hshort'⟩
      · exact ⟨_, shiftParts_of_lost hnames' hlast⟩
    rw [Lexeme.chars, List.append_assoc, List.cons_append]
    by_cases hfirst : Stays d first
    · -- the second half is the lost one
      have hlast : ¬ Stays d last := fun hlast => hs ⟨hfirst, hlast⟩
      have hshift : (Piece.range first last).shift d =
          .ok ((movedParts d first).chars ++ ':' :: lostReference) := by
        simp only [Piece.shift, shiftParts_of_stays hfirst hshort,
          shiftParts_of_lost hnames' hlast]
        rfl
      refine ⟨_, h.cons hpieces hshift, ?_⟩
      rw [List.append_assoc, List.cons_append]
      exact stuck_half hfirst.written (parts_take?_none (by decide) (by decide))
    · have hshift : (Piece.range first last).shift d = .ok (lostReference ++ ':' :: new') := by
        simp only [Piece.shift, shiftParts_of_lost hnames hfirst, hnew']
        rfl
      refine ⟨_, h.cons hpieces hshift, ?_⟩
      rw [List.append_assoc]
      exact stuck_lostReference _

/-- **A laid out text that is shifted** is laid out again with the same tokens, their references
moved, or is not cut to its end if a reference is lost. -/
theorem Laid.shift {free : Bool} (h : Laid free cs ls) (hm : ∀ l ∈ ls, l.Each (Movable d)) :
    ∃ out, Shifts d cs out ∧ (free = false → Ends out) ∧
      ((∀ l ∈ ls, l.Each (Stays d)) → Laid free out (ls.map (Lexeme.relabel (movedParts d)))) ∧
      ((¬ ∀ l ∈ ls, l.Each (Stays d)) → Stuck out) := by
  induction h with
  | nil free => exact ⟨[], shifts_nil, fun _ => trivial, fun _ => .nil _, fun hs => absurd nofun hs⟩
  | skip free hc h ih =>
    obtain ⟨out, hshifts, -, hstays, hlost⟩ := ih hm
    have hbreak : isBreak _ = true := Bool.or_eq_true_iff.2 (.inl hc)
    exact ⟨_, hshifts.break hbreak, fun _ => hbreak, fun hs => .skip free hc (hstays hs),
      fun hs => (hlost hs).skip hc⟩
  | symbol free s h ih =>
    obtain ⟨out, hshifts, -, hstays, hlost⟩ := ih (List.forall_mem_cons.1 hm).2
    have hbreak := isBreak_char s
    refine ⟨_, hshifts.break hbreak, fun _ => hbreak, fun hs => ?_, fun hs => ?_⟩
    · exact .symbol free s (hstays (List.forall_mem_cons.1 hs).2)
    · have hrest := hlost fun hls => hs (List.forall_mem_cons.2 ⟨trivial, hls⟩)
      exact hrest.token (l := .symbol s) (List.cons_ne_nil _ _) (take?_symbol s)
  | token hl h ih =>
    rename_i l cs ls
    obtain ⟨hmoves, hm⟩ := List.forall_mem_cons.1 hm
    obtain ⟨out, hshifts, hends, hstays, hlost⟩ := ih hm
    by_cases hs : l.Each (Stays d)
    · refine ⟨_, hshifts.token hl h.ends hs hmoves, nofun, fun hall => ?_, fun hall => ?_⟩
      · exact .token (hl.moved hs) (hstays (List.forall_mem_cons.1 hall).2)
      · have hrest := hlost fun hls => hall (List.forall_mem_cons.2 ⟨hs, hls⟩)
        exact hrest.token (hl.moved hs).chars_ne_nil (take?_formed (hl.moved hs) (hends rfl))
    · obtain ⟨new, hnew, hstuck⟩ := hshifts.lost hl h.ends hs hmoves
      exact ⟨new, hnew, nofun, fun hall => absurd (List.forall_mem_cons.1 hall).1 hs,
        fun _ => hstuck⟩

end Spreadsheet.Formula
