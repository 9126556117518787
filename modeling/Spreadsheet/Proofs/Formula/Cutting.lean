import Mathlib.Data.List.Forall2
import Spreadsheet.Proofs.Formula.Longest
import Spreadsheet.Proofs.Formula.Safety

/-!
# Cutting loses nothing

A body that can be cut into tokens consists of them and of blanks between them, and at each place
the token is told by the characters alone: it is of the first kind that is written there, a range
before a reference, a name, a number and a punctuation mark, and the longest of its kind. A body
that cannot be cut, or in which a row number is zero, is refused at that place, and the part before
it can be cut.

* `Chosen`: the token at a place, by its characters; `Chosen.of_take?`;
* `Covers`: what is said of the tokens of a body; `lexFrom_apart`, `lexFrom_between`,
  `lexFrom_split`: tokens, the blanks between them, and the text parted between two of them;
* `Valued`: tokens with their values; `tokenize_eq_ok`, `tokenize_eq_error`;
* **`tokenize_lossless`**: bodies that are cut, and where the others stop.
-/

namespace Spreadsheet.Formula

open Reference (Parts)

variable {c : Char} {cs rest : List Char} {p : Parts} {l l' : Lexeme}
variable {position : Nat} {t : Token} {ts before after : List Token}

/-! ## The token at a place -/

/-- The order in which the kinds of tokens come. -/
def Lexeme.rank : Lexeme → Nat
  | range .. => 0
  | cell _ => 1
  | name _ => 2
  | number _ => 3
  | symbol _ => 4

/-- The token that a text starts with: no kind before its own is written there, and no longer token
of its own kind is. -/
structure Chosen (l : Lexeme) (cs : List Char) : Prop where
  formed : l.Formed
  here : l.chars <+: cs
  first (l' : Lexeme) : l'.Formed → l'.chars <+: cs → l.rank ≤ l'.rank
  longest (l' : Lexeme) : l'.Formed → l'.chars <+: cs → l'.rank = l.rank →
    l'.chars.length ≤ l.chars.length

theorem rank_of_takeReference? (h : Lexeme.takeReference? cs = some l) : l.rank ≤ 1 := by
  obtain ⟨first, -, rfl | ⟨last, rest, rfl, -⟩⟩ := takeReference?_cases h
  · exact Nat.le_refl 1
  · exact Nat.zero_le 1

theorem rank_le_of_take? (h : Lexeme.take? cs = some l) :
    l.rank ≤ 4 ∧ ((Literal.take? cs).isSome → l.rank ≤ 3) ∧
      ((Lexeme.takeName? cs).isSome → l.rank ≤ 2) := by
  rcases take?_cases h with href | ⟨-, hname | ⟨hname, ⟨n, -, rfl⟩ | ⟨hnumber, s, -, rfl⟩⟩⟩
  · have hrank := rank_of_takeReference? href
    exact ⟨by omega, fun _ => by omega, fun _ => by omega⟩
  · obtain ⟨-, rfl⟩ := takeName?_eq_some hname
    exact ⟨Nat.le_add_right 2 2, fun _ => Nat.le_succ 2, fun _ => Nat.le_refl 2⟩
  · rw [hname]
    exact ⟨Nat.le_succ 3, fun _ => Nat.le_refl 3, nofun⟩
  · rw [hname, hnumber]
    exact ⟨Nat.le_refl 4, nofun, nofun⟩

/-- What is taken comes no later than any token that is written there. -/
theorem rank_le_of_formed (h : Lexeme.take? cs = some l) (hl' : l'.Formed)
    (hpre : l'.chars <+: cs) : l.rank ≤ l'.rank := by
  obtain ⟨rest, rfl⟩ := hpre
  obtain ⟨hsymbol, hnumber, hname⟩ := rank_le_of_take? h
  cases l' with
  | range first last =>
    obtain ⟨last', hlast, -⟩ := exists_take?_of_written hl'.2 rest
    have hcolon : (':' :: (last.chars ++ rest)).takeWhile Char.isDigit = [] :=
      List.takeWhile_cons_of_neg (by decide)
    have hrange : Lexeme.takeReference? ((Lexeme.range first last).chars ++ rest) =
        some (.range first last') := by
      rw [Lexeme.chars, List.append_assoc, List.cons_append]
      unfold Lexeme.takeReference?
      simp only [take?_chars hl'.1 hcolon, List.drop_left, hlast]
    rw [take?_of_reference hrange] at h
    obtain rfl := Option.some.inj h
    exact Nat.le_refl 0
  | cell p =>
    obtain ⟨p', hp', -⟩ := exists_take?_of_written hl' rest
    obtain ⟨l₁, hl₁, -⟩ := exists_takeReference?_of_take? hp'
    have htake : Lexeme.take? ((Lexeme.cell p).chars ++ rest) = some l₁ := take?_of_reference hl₁
    rw [htake] at h
    obtain rfl := Option.some.inj h
    exact rank_of_takeReference? hl₁
  | name letters =>
    refine hname ?_
    have hlong : letters.length ≤ ((letters ++ rest).takeWhile Reference.isLetter).length :=
      length_le_takeWhile hl'.2 rest
    have hpos := List.length_pos_iff.2 hl'.1
    have hword : (letters ++ rest).takeWhile Reference.isLetter ≠ [] := fun he => by
      rw [he] at hlong
      exact absurd hlong (Nat.not_le.2 hpos)
    unfold Lexeme.takeName?
    simp [Lexeme.chars, hword]
  | number n =>
    obtain ⟨m, hm, -⟩ := exists_literal_take? hl' rest
    exact hnumber (Option.isSome_iff_exists.2 ⟨m, hm⟩)
  | symbol s => exact hsymbol

/-- **What is taken is the token at its place.** -/
theorem Chosen.of_take? (h : Lexeme.take? cs = some l) : Chosen l cs where
  formed := (Longest.of_take? h).formed
  here := (Longest.of_take? h).here
  first _ hl' hpre := rank_le_of_formed h hl' hpre
  longest l' hl' hpre _ := (Longest.of_take? h).longest l' hl' hpre

/-! ## Where tokens stand -/

/-- Where a token ends. -/
def Token.stop (t : Token) : Nat := t.position + t.lexeme.chars.length

/-- **Tokens do not overlap.** -/
theorem lexFrom_apart (position : Nat) (cs : List Char) :
    (lexFrom position cs).tokens.Pairwise fun t u => t.stop ≤ u.position := by
  fun_induction lexFrom position cs with
  | case1 => exact .nil
  | case2 position c cs hskip ih => exact ih
  | case3 => exact .nil
  | case4 position c cs hskip l htake width after ih =>
    exact .cons (fun u hu => (lexFrom_stands hu).1) ih

/-- **Between tokens there are only blanks**, if the text is cut to its end. -/
theorem lexFrom_between (hstuck : (lexFrom position cs).stuck? = none) :
    ∀ i, cs[i]? = some c → isSkipped c = true ∨
      ∃ t ∈ (lexFrom position cs).tokens, t.position ≤ position + i ∧ position + i < t.stop := by
  fun_induction lexFrom position cs with
  | case1 =>
    intro i hi
    rw [List.getElem?_nil] at hi
    cases hi
  | case2 position c' cs hskip ih =>
    intro i hi
    cases i with
    | zero =>
      obtain rfl := Option.some.inj hi
      exact .inl hskip
    | succ i =>
      rcases ih hstuck i hi with hblank | ⟨t, ht, hle, hlt⟩
      · exact .inl hblank
      · exact .inr ⟨t, ht, by omega, by omega⟩
  | case3 => cases hstuck
  | case4 position c' cs hskip l htake width after ih =>
    intro i hi
    by_cases hlt : i < width
    · exact .inr ⟨⟨l, position⟩, List.mem_cons_self, Nat.le_add_right _ _,
        Nat.add_lt_add_left hlt position⟩
    · obtain ⟨hl, rest, hrest⟩ := formed_of_take? htake
      have hdrop : cs.drop (width - 1) = rest := drop_length_pred hl.chars_ne_nil hrest
      rw [hrest, List.getElem?_append_right (Nat.le_of_not_lt hlt), ← hdrop] at hi
      rcases ih hstuck (i - width) hi with hblank | ⟨t, ht, hle, hlt⟩
      · exact .inl hblank
      · exact .inr ⟨t, List.mem_cons_of_mem _ ht, by omega, by omega⟩

/-- **A text can be parted between any two tokens** into texts that are cut into them. The second
one starts with a token, if it holds any. -/
theorem lexFrom_split (position : Nat) (cs : List Char) :
    ∀ before, (lexFrom position cs).tokens = before ++ after → ∃ front back,
      cs = front ++ back ∧ lexFrom position front = ⟨before, none⟩ ∧
        lexFrom (position + front.length) back = ⟨after, (lexFrom position cs).stuck?⟩ ∧
        ∀ t ∈ after.head?, t.position = position + front.length := by
  fun_induction lexFrom position cs with
  | case1 =>
    intro before h
    obtain ⟨rfl, rfl⟩ := List.append_eq_nil_iff.1 h.symm
    exact ⟨[], [], rfl, by rw [lexFrom], by rw [lexFrom], fun _ ht => by cases ht⟩
  | case2 position c cs hskip ih =>
    intro before h
    obtain ⟨front, back, rfl, hfront, hback, hplace⟩ := ih before h
    have hlength : position + (c :: front).length = position + 1 + front.length := by
      rw [List.length_cons]
      omega
    refine ⟨c :: front, back, rfl, ?_, ?_, ?_⟩
    · rw [lexFrom, if_pos hskip, hfront]
    · rw [hlength, hback]
    · rwa [hlength]
  | case3 position c cs hskip htake =>
    intro before h
    obtain ⟨rfl, rfl⟩ := List.append_eq_nil_iff.1 h.symm
    refine ⟨[], c :: cs, rfl, by rw [lexFrom], ?_, fun _ ht => by cases ht⟩
    rw [List.length_nil, Nat.add_zero, lexFrom, if_neg hskip, htake]
  | case4 position c cs hskip l htake width later ih =>
    intro before h
    cases before with
    | nil =>
      rw [List.nil_append] at h
      refine ⟨[], c :: cs, rfl, by rw [lexFrom], ?_, ?_⟩
      · rw [List.length_nil, Nat.add_zero, lexFrom, if_neg hskip, htake, ← h]
      · intro t ht
        rw [← h] at ht
        obtain rfl := Option.some.inj ht
        rfl
    | cons u before =>
      obtain ⟨rfl, hlater⟩ := List.cons.inj h
      obtain ⟨hl, rest, hrest⟩ := formed_of_take? htake
      obtain ⟨front, back, hback, hfront, hafter, hplace⟩ := ih before hlater
      rw [drop_length_pred hl.chars_ne_nil hrest] at hback
      rw [hback] at hrest
      have hlength : position + (l.chars ++ front).length = position + width + front.length := by
        rw [List.length_append]
        omega
      refine ⟨l.chars ++ front, back, by rw [hrest, List.append_assoc], ?_, ?_, ?_⟩
      · rw [hrest] at htake
        rw [lexFrom_token_front hl.chars_ne_nil htake, hfront]
      · rw [hlength, hafter]
      · rwa [hlength]

/-- What is said of the tokens of a text: each is the one at its place and stands there as it is
written, they follow each other without overlapping, and between them there are only blanks. -/
structure Covers (cs : List Char) (ts : List Token) : Prop where
  chosen : ∀ t ∈ ts, Chosen t.lexeme (cs.drop t.position)
  written : ∀ t ∈ ts, (cs.drop t.position).take t.lexeme.chars.length = t.lexeme.chars
  increasing : ts.Pairwise fun t u => t.position < u.position
  apart : ts.Pairwise fun t u => t.stop ≤ u.position
  between : ∀ i c, cs[i]? = some c → isSkipped c = true ∨ ∃ t ∈ ts, t.position ≤ i ∧ i < t.stop

theorem Covers.of_lexFrom (h : (lexFrom 0 cs).stuck? = none) : Covers cs (lexFrom 0 cs).tokens where
  chosen t ht := by
    have htake := take?_eq_some_iff.2 (lexFrom_stands ht).2
    exact Chosen.of_take? htake
  written t ht := (List.prefix_iff_eq_take.1 (lexFrom_stands ht).2.here).symm
  increasing := (lexFrom_apart 0 cs).imp_of_mem fun {t u} ht _ hle => by
    have hpos := List.length_pos_iff.2 (lexFrom_stands ht).2.formed.chars_ne_nil
    exact Nat.lt_of_lt_of_le (Nat.lt_add_of_pos_right hpos) hle
  apart := lexFrom_apart 0 cs
  between i c hi := by simpa using lexFrom_between h i hi

/-! ## Values -/

/-- The references of a token. -/
def Lexeme.references : Lexeme → List Parts
  | cell p => [p]
  | range first last => [first, last]
  | number _ | name _ | symbol _ => []

theorem Lexeme.Short.reference (h : l.Short) (hp : p ∈ l.references) : Formula.Short p := by
  cases l with
  | cell q => exact List.mem_singleton.1 hp ▸ h
  | range first last =>
    rcases List.mem_pair.1 hp with rfl | rfl
    · exact h.1
    · exact h.2
  | number | name | symbol => cases hp

/-- A reference of a token has the row number zero. -/
def Lexeme.HasRowZero (l : Lexeme) : Prop := ∃ p ∈ l.references, RowZero p

theorem resolve_eq_error {f : Failure} (h : resolve position p = .error f) :
    RowZero p ∧ f = .rejected (.invalidReference (String.ofList p.chars) position) ∨
      ¬ Short p ∧ ∃ e, f = .tooLong e := by
  by_cases hshort : Short p
  · simp only [resolve, Parts.resolve?, Decimal.readNat_of_length_le hshort] at h
    by_cases hzero : Decimal.ofDigits p.digits = 0
    · simp only [bind, Except.bind, if_pos hzero] at h
      exact .inl ⟨hzero, (Except.error.inj h).symm⟩
    · simp only [bind, Except.bind, if_neg hzero] at h
      cases h
  · simp only [resolve, Parts.resolve?,
      Decimal.readNat_of_lt_length (Nat.lt_of_not_le hshort)] at h
    exact .inr ⟨hshort, _, (Except.error.inj h).symm⟩

theorem bind_eq_error {ε α β : Type} {x : Except ε α} {k : α → Except ε β} {e : ε} :
    (x >>= k) = .error e ↔ x = .error e ∨ ∃ a, x = .ok a ∧ k a = .error e := by
  cases x <;> simp [bind, Except.bind]

/-- **A token has a value** if its references name cells. -/
theorem Token.exists_value_iff : (∃ v, t.value = .ok v) ↔ ∀ p ∈ t.lexeme.references, Names p := by
  obtain ⟨l, position⟩ := t
  cases l with
  | number | name | symbol => exact iff_of_true ⟨_, rfl⟩ nofun
  | cell p => simp [Token.value, Lexeme.references, Names, resolve_eq_ok, bind_eq_ok, pure,
      Except.pure]
  | range first last =>
    simp [Token.value, Lexeme.references, Names, resolve_eq_ok, bind_eq_ok, pure, Except.pure]

theorem Token.value_eq_error {f : Failure} (h : t.value = .error f) :
    ∃ p ∈ t.lexeme.references, resolve t.position p = .error f := by
  obtain ⟨l, position⟩ := t
  cases l with
  | number | name | symbol => cases h
  | cell p =>
    obtain h | ⟨r, -, h⟩ := bind_eq_error.1 h
    · exact ⟨p, List.mem_cons_self, h⟩
    · cases h
  | range first last =>
    obtain h | ⟨r, -, h⟩ := bind_eq_error.1 h
    · exact ⟨first, List.mem_cons_self, h⟩
    · obtain h | ⟨r', -, h⟩ := bind_eq_error.1 h
      · exact ⟨last, List.mem_cons_of_mem _ List.mem_cons_self, h⟩
      · cases h

/-- Tokens with their values. -/
def Valued (ts : List Token) (valued : List (Token × TokenValue)) : Prop :=
  List.Forall₂ (fun t v => v.1 = t ∧ t.value = .ok v.2) ts valued

variable {valued : List (Token × TokenValue)} {body : String} {f : Failure}

theorem Valued.tokens (h : Valued ts valued) : valued.map (·.1) = ts := by
  induction h with
  | nil => rfl
  | cons hv _ ih => rw [List.map_cons, hv.1, ih]

theorem exists_valued (h : ∀ t ∈ ts, ∃ v, t.value = .ok v) : ∃ valued, Valued ts valued := by
  induction ts with
  | nil => exact ⟨[], .nil⟩
  | cons t ts ih =>
    obtain ⟨⟨v, hv⟩, hts⟩ := List.forall_mem_cons.1 h
    obtain ⟨valued, hvalued⟩ := ih hts
    exact ⟨(t, v) :: valued, .cons ⟨rfl, hv⟩ hvalued⟩

theorem Valued.exists_value (h : Valued ts valued) : ∀ t ∈ ts, ∃ v, t.value = .ok v := by
  induction h with
  | nil => exact nofun
  | cons hv _ ih => exact List.forall_mem_cons.2 ⟨⟨_, hv.2⟩, ih⟩

/-- A list of actions gives what they give one by one. -/
theorem mapM_eq_ok {α β ε : Type} {g : α → Except ε β} {as : List α} {bs : List β} :
    as.mapM g = .ok bs ↔ List.Forall₂ (fun a b => g a = .ok b) as bs := by
  induction as generalizing bs with
  | nil => simp [pure, Except.pure, eq_comm]
  | cons a as ih =>
    rw [List.mapM_cons]
    constructor
    · intro h
      obtain ⟨b, hb, h⟩ := bind_eq_ok.1 h
      obtain ⟨bs', hbs, h⟩ := bind_eq_ok.1 h
      obtain rfl := Except.ok.inj h
      exact .cons hb (ih.1 hbs)
    · rintro (_ | ⟨hb, hbs⟩)
      rw [hb, ih.2 hbs]
      rfl

theorem mapM_valued : (ts.mapM fun t => do return (t, ← t.value)) = .ok valued ↔
    Valued ts valued := by
  have hpair (t : Token) (v : Token × TokenValue) :
      (do return (t, ← t.value) : Except Failure _) = .ok v ↔ v.1 = t ∧ t.value = .ok v.2 := by
    cases t.value <;> simp [bind, Except.bind, pure, Except.pure, Prod.ext_iff, eq_comm]
  simp only [mapM_eq_ok, hpair, Valued]

/-- A list of actions fails where the first of them does. -/
theorem mapM_eq_error {α β ε : Type} {g : α → Except ε β} {as : List α} {e : ε} :
    as.mapM g = .error e ↔ ∃ before a after, as = before ++ a :: after ∧
      (∀ a' ∈ before, ∃ b, g a' = .ok b) ∧ g a = .error e := by
  constructor
  · intro h
    induction as with
    | nil => cases h
    | cons a as ih =>
      rw [List.mapM_cons] at h
      obtain h | ⟨b, hb, h⟩ := bind_eq_error.1 h
      · exact ⟨[], a, as, rfl, nofun, h⟩
      · obtain h | ⟨bs, -, h⟩ := bind_eq_error.1 h
        · obtain ⟨before, a', after, rfl, hbefore, ha'⟩ := ih h
          exact ⟨a :: before, a', after, rfl, List.forall_mem_cons.2 ⟨⟨b, hb⟩, hbefore⟩, ha'⟩
        · cases h
  · rintro ⟨before, a, after, rfl, hbefore, ha⟩
    induction before with
    | nil => rw [List.nil_append, List.mapM_cons, ha]; rfl
    | cons a' before ih =>
      obtain ⟨⟨b, hb⟩, hbefore⟩ := List.forall_mem_cons.1 hbefore
      rw [List.cons_append, List.mapM_cons, hb, ih hbefore]
      rfl

/-- **What it takes to cut a body** into tokens with values. -/
theorem tokenize_eq_ok :
    tokenize body = .ok valued ↔ (lex body).stuck? = none ∧ Valued (lex body).tokens valued := by
  unfold tokenize
  simp only [bind_eq_ok, mapM_valued]
  cases (lex body).stuck? with
  | none => simp [pure, Except.pure]
  | some stuck => simp [throw, throwThe, MonadExceptOf.throw]

/-- **What is reported** is the first token without a value, or else where the cutting stops. -/
theorem tokenize_eq_error : tokenize body = .error f ↔
    (∃ before t after, (lex body).tokens = before ++ t :: after ∧
      (∀ u ∈ before, ∃ v, u.value = .ok v) ∧ t.value = .error f) ∨
    (∀ t ∈ (lex body).tokens, ∃ v, t.value = .ok v) ∧
      ∃ c p, (lex body).stuck? = some (c, p) ∧ f = .rejected (.unexpectedCharacter c p) := by
  have hok (t : Token) : (∃ v, (do return (t, ← t.value) : Except Failure _) = .ok v) ↔
      ∃ v, t.value = .ok v := by
    cases t.value <;> simp [bind, Except.bind, pure, Except.pure]
  have herror (t : Token) (f : Failure) :
      (do return (t, ← t.value) : Except Failure (Token × TokenValue)) = .error f ↔
        t.value = .error f := by
    cases t.value <;> simp [bind, Except.bind, pure, Except.pure]
  unfold tokenize
  simp only [bind_eq_error (x := List.mapM _ _), mapM_eq_error, mapM_valued, hok, herror]
  refine or_congr_right ⟨?_, ?_⟩
  · rintro ⟨valued, hvalued, h⟩
    refine ⟨hvalued.exists_value, ?_⟩
    split at h
    · rename_i c p hstuck
      exact ⟨c, p, hstuck, (Except.error.inj h).symm⟩
    · cases h
  · rintro ⟨hvalues, c, p, hstuck, rfl⟩
    obtain ⟨valued, hvalued⟩ := exists_valued hvalues
    exact ⟨valued, hvalued, by rw [hstuck]; rfl⟩

/-! ## Bodies -/

/-- A body is cut into these tokens, each of which has a value. -/
def CutInto (body : String) (ts : List Token) : Prop :=
  ∃ valued, tokenize body = .ok valued ∧ valued.map (·.1) = ts

theorem cutInto_ofList (h : lexFrom 0 cs = ⟨ts, none⟩) (hvalues : ∀ t ∈ ts, ∃ v, t.value = .ok v) :
    CutInto (String.ofList cs) ts := by
  have hlex : lex (String.ofList cs) = ⟨ts, none⟩ := by rw [lex, String.toList_ofList, h]
  obtain ⟨valued, hvalued⟩ := exists_valued hvalues
  exact ⟨valued, tokenize_eq_ok.2 ⟨by rw [hlex], by rwa [hlex]⟩, hvalued.tokens⟩

theorem Covers.of_tokenize (h : tokenize body = .ok valued) :
    Covers body.toList (valued.map (·.1)) := by
  obtain ⟨hstuck, hvalued⟩ := tokenize_eq_ok.1 h
  rw [hvalued.tokens]
  exact Covers.of_lexFrom hstuck

theorem Token.not_hasRowZero (h : ∃ v, t.value = .ok v) : ¬ t.lexeme.HasRowZero :=
  fun ⟨p, hp, hzero⟩ => hzero.not_names (Token.exists_value_iff.1 h p hp)

/-- Why a body is not cut into tokens with values. -/
theorem tokenize_fault (h : tokenize body = .error f) :
    (∃ c p, f = .rejected (.unexpectedCharacter c p) ∧ (lex body).stuck? = some (c, p) ∧
      CutInto (String.ofList (body.toList.take p)) (lex body).tokens) ∨
    ∃ before t after, (lex body).tokens = before ++ t :: after ∧
      CutInto (String.ofList (body.toList.take t.position)) before ∧
      (∀ u ∈ before, ¬ u.lexeme.HasRowZero) ∧
      ∃ p ∈ t.lexeme.references, resolve t.position p = .error f := by
  rcases tokenize_eq_error.1 h with ⟨before, t, after, htokens, hbefore, ht⟩ |
    ⟨hvalues, c, p, hstuck, rfl⟩
  · refine .inr ⟨before, t, after, htokens, ?_, fun u hu => Token.not_hasRowZero (hbefore u hu),
      Token.value_eq_error ht⟩
    obtain ⟨front, back, hbody, hfront, -, hplace⟩ := lexFrom_split 0 body.toList before htokens
    rw [hplace t rfl, Nat.zero_add, hbody, List.take_left]
    exact cutInto_ofList hfront hbefore
  · refine .inl ⟨c, p, rfl, hstuck, ?_⟩
    obtain ⟨front, back, hbody, hplace, -, -, hfront⟩ := lexFrom_stuck hstuck
    rw [hplace, Nat.zero_add, hbody, List.take_left]
    exact cutInto_ofList hfront hvalues

/-- **Cutting loses nothing.** If a body is cut into tokens, they and blanks make up the body, and
each is the token at its place. If it stops at a character, no token and no blank is written there;
if it stops at a row number zero, this is the first one; and in both cases the part before it can
be cut. There is no other reason to stop as long as no row number is too long. -/
theorem tokenize_lossless (body : String) :
    (∀ valued, tokenize body = .ok valued → Covers body.toList (valued.map (·.1))) ∧
    (∀ c p, tokenize body = .error (.rejected (.unexpectedCharacter c p)) →
      (∃ ts, CutInto (String.ofList (body.toList.take p)) ts) ∧ body.toList[p]? = some c ∧
        isSkipped c = false ∧ ∀ l : Lexeme, l.Formed → ¬ l.chars <+: body.toList.drop p) ∧
    (∀ text p, tokenize body = .error (.rejected (.invalidReference text p)) →
      ∃ before l after, (lex body).tokens = before ++ ⟨l, p⟩ :: after ∧
        CutInto (String.ofList (body.toList.take p)) before ∧
        (∀ u ∈ before, ¬ u.lexeme.HasRowZero) ∧ Chosen l (body.toList.drop p) ∧
        ∃ q ∈ l.references, RowZero q ∧ text = String.ofList q.chars) ∧
    ((∀ t ∈ (lex body).tokens, t.lexeme.Short) → ∀ f, tokenize body = .error f →
      (∃ c p, f = .rejected (.unexpectedCharacter c p)) ∨
        ∃ text p, f = .rejected (.invalidReference text p)) := by
  refine ⟨fun valued => Covers.of_tokenize, fun c p h => ?_, fun text p h => ?_,
    fun hshort f h => ?_⟩
  · rcases tokenize_fault h with ⟨c', p', hf, hstuck, hcut⟩ | ⟨-, t, -, -, -, -, q, -, hq⟩
    · cases hf
      obtain ⟨hc, hskip, hnone, -⟩ := lex_stuck hstuck
      exact ⟨⟨_, hcut⟩, hc, hskip, hnone⟩
    · rcases resolve_eq_error hq with ⟨-, hf⟩ | ⟨-, e, hf⟩ <;> cases hf
  · rcases tokenize_fault h with ⟨c', p', hf, -⟩ |
      ⟨before, t, after, htokens, hcut, hbefore, q, hq, hresolve⟩
    · cases hf
    · rcases resolve_eq_error hresolve with ⟨hzero, hf⟩ | ⟨-, e, hf⟩
      · cases hf
        have ht : t ∈ (lex body).tokens := htokens ▸ List.mem_append_right _ List.mem_cons_self
        have hchosen := Chosen.of_take? (take?_eq_some_iff.2 (lexFrom_stands ht).2)
        exact ⟨before, t.lexeme, after, htokens, hcut, hbefore, hchosen, q, hq, hzero, rfl⟩
      · cases hf
  · rcases tokenize_fault h with ⟨c, p, rfl, -⟩ | ⟨before, t, after, htokens, -, -, q, hq, hresolve⟩
    · exact .inl ⟨c, p, rfl⟩
    · rcases resolve_eq_error hresolve with ⟨-, rfl⟩ | ⟨hlong, -⟩
      · exact .inr ⟨_, _, rfl⟩
      · have ht : t ∈ (lex body).tokens := htokens ▸ List.mem_append_right _ List.mem_cons_self
        exact absurd (Lexeme.Short.reference (hshort t ht) hq) hlong

/-- A range is one token, and a second colon behind it is none; the row zero is found first. -/
theorem tokenize_lossless_range :
    tokenize "$a1:B$2 c" = .ok
      [(⟨.range ⟨true, ['a'], false, ['1']⟩ ⟨false, ['B'], true, ['2']⟩, 0⟩,
          .range ⟨⟨0, 0⟩, false, true⟩ ⟨⟨1, 1⟩, true, false⟩),
        (⟨.name ['c'], 8⟩, .name "C")] ∧
    Covers "$a1:B$2 c".toList
      [⟨.range ⟨true, ['a'], false, ['1']⟩ ⟨false, ['B'], true, ['2']⟩, 0⟩, ⟨.name ['c'], 8⟩] ∧
    tokenize "A1:B2:C0" = .error (.rejected (.unexpectedCharacter ':' 5)) ∧
    (∃ ts, CutInto (String.ofList ("A1:B2:C0".toList.take 5)) ts) ∧
    (∀ t ∈ (lex "A1:B2:C0").tokens, t.lexeme.Short) ∧
    ((∃ c p, (.rejected (.unexpectedCharacter ':' 5) : Failure) =
        .rejected (.unexpectedCharacter c p)) ∨
      ∃ text p, (.rejected (.unexpectedCharacter ':' 5) : Failure) =
        .rejected (.invalidReference text p)) ∧
    tokenize "A1+B2:C0 #" = .error (.rejected (.invalidReference "C0" 3)) ∧
    ∃ before, CutInto (String.ofList ("A1+B2:C0 #".toList.take 3)) before := by
  have hok : tokenize "$a1:B$2 c" = .ok
      [(⟨.range ⟨true, ['a'], false, ['1']⟩ ⟨false, ['B'], true, ['2']⟩, 0⟩,
          .range ⟨⟨0, 0⟩, false, true⟩ ⟨⟨1, 1⟩, true, false⟩),
        (⟨.name ['c'], 8⟩, .name "C")] := by cbv
  have hcolon : tokenize "A1:B2:C0" = .error (.rejected (.unexpectedCharacter ':' 5)) := by cbv
  have hzero : tokenize "A1+B2:C0 #" = .error (.rejected (.invalidReference "C0" 3)) := by cbv
  have hbrief : Brief "A1:B2:C0".toList := by decide
  have hshort : ∀ t ∈ (lex "A1:B2:C0").tokens, t.lexeme.Short := short_of_mem_lexFrom hbrief
  obtain ⟨-, hcharacter, -, hreason⟩ := tokenize_lossless "A1:B2:C0"
  obtain ⟨before, -, -, -, hcut, -⟩ := (tokenize_lossless "A1+B2:C0 #").2.2.1 "C0" 3 hzero
  exact ⟨hok, (tokenize_lossless "$a1:B$2 c").1 _ hok, hcolon, (hcharacter ':' 5 hcolon).1, hshort,
    hreason hshort _ hcolon, hzero, before, hcut⟩

end Spreadsheet.Formula
