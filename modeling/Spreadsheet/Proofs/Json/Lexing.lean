import Mathlib.Data.List.Basic
import Spreadsheet.Proofs.Json.Number
import Spreadsheet.Proofs.Json.Writing
import Spreadsheet.Proofs.Text.Units

/-!
# The tokens of a written value

The text of a value is cut into the tokens of the value: brackets around the items or fields of
arrays and objects, commas between them, names with colons in front of the values of fields, and one
token for anything else. What follows the text is cut as if it stood alone, if it can follow a
value.

* `tokens`; `Lexes`: a text with its tokens; `lex_quoted`, `Lexes.intercalate`: pieces of texts;
* **`lexes_write`**: the tokens of the text of a value that can be written.
-/

namespace Spreadsheet.Json

mutual

/-- The tokens of a value, its texts as they come back. -/
def tokens : Json → List Token
  | array items => .openArray :: ([Token.comma].intercalate (itemTokens items) ++ [.closeArray])
  | object fields =>
    .openObject :: ([Token.comma].intercalate (fieldTokens fields) ++ [.closeObject])
  | string s => [.string (Text.joined s)]
  | v => [.scalar v]

/-- The tokens of the items of an array. -/
def itemTokens : List Json → List (List Token)
  | [] => []
  | v :: vs => v.tokens :: itemTokens vs

/-- The tokens of the fields of an object. -/
def fieldTokens : List (String × Json) → List (List Token)
  | [] => []
  | (k, v) :: rest => (.string (Text.joined k) :: .colon :: v.tokens) :: fieldTokens rest

end

/-! ## Cutting a text -/

variable {c : Char} {cs rest : List Char} {t : Token}

theorem lex_skip (h : isSkipped c = true) : lex (c :: cs) = lex cs := by
  rw [lex, if_pos h]

theorem lex_token (hskip : isSkipped c = false) (h : takeToken c cs = .ok (t, rest)) :
    lex (c :: cs) = (t :: (lex rest).1, (lex rest).2) := by
  rw [lex, if_neg (by simp [hskip])]
  split
  · next heq =>
    rw [h] at heq
    cases heq
  · next heq =>
    rw [h] at heq
    obtain ⟨rfl, rfl⟩ := Prod.mk.inj (Except.ok.inj heq)
    rfl

theorem lex_punctuation (h : punctuation? c = some t) :
    lex (c :: cs) = (t :: (lex cs).1, (lex cs).2) := by
  have hskip : isSkipped c = false := by
    unfold punctuation? at h
    split at h <;> first | rfl | cases h
  refine lex_token hskip ?_
  rw [takeToken, h]

/-! ## Strings -/

theorem takeUnits_unit {u : Nat} (hu : u < 16 ^ 4) :
    takeUnits ('\\' :: 'u' :: (Text.hex 4 u ++ rest)) =
      (takeUnits rest).map fun p => (u :: p.1, p.2) := by
  have hread := Text.ofHex?_hex hu
  have hlength := Text.length_hex 4 u
  generalize Text.hex 4 u = ds at hread hlength
  match ds with
  | [a, b, c, d] =>
    rw [List.cons_append, List.cons_append, List.cons_append, List.cons_append, List.nil_append,
      takeUnits, hread]
    cases takeUnits rest <;> rfl

theorem takeUnits_units {us : List Nat} (hus : ∀ u ∈ us, u < 16 ^ 4) :
    takeUnits (us.flatMap (fun u => '\\' :: 'u' :: Text.hex 4 u) ++ rest) =
      (takeUnits rest).map fun p => (us ++ p.1, p.2) := by
  induction us with
  | nil => rw [List.flatMap_nil, List.nil_append]; cases takeUnits rest <;> rfl
  | cons u us ih =>
    obtain ⟨hu, hus⟩ := List.forall_mem_cons.1 hus
    rw [List.flatMap_cons, List.append_assoc, List.cons_append, List.cons_append,
      takeUnits_unit hu, ih hus]
    cases takeUnits rest <;> rfl

theorem takeUnits_letter {e : Char} (hu : e ≠ 'u') (h : escapes.lookup e = some c) :
    takeUnits ('\\' :: e :: rest) = (takeUnits rest).map fun p => (c.toNat :: p.1, p.2) := by
  rw [takeUnits, h]
  · cases takeUnits rest <;> rfl
  · exact fun _ _ _ _ _ he => absurd he hu

theorem takeUnits_char (hquote : c ≠ '"') (hslash : c ≠ '\\') (h : ' ' ≤ c) :
    takeUnits (c :: rest) = (takeUnits rest).map fun p => (c.toNat :: p.1, p.2) := by
  have hcontrol : ¬ c.toNat < 0x20 := Nat.not_lt.2 (UInt32.le_iff_toNat_le.1 h)
  rw [takeUnits, if_neg (by simp [hcontrol, hslash])]
  · cases takeUnits rest <;> rfl
  · exact hquote
  · exact fun _ _ _ _ _ hc _ => hslash hc
  · exact fun _ _ hc _ => hslash hc

/-- An escaped character is read as its units. -/
theorem takeUnits_escapeChar (c : Char) (rest : List Char) :
    takeUnits (escapeChar Style.plain c ++ rest) =
      (takeUnits rest).map fun p => (Text.units c ++ p.1, p.2) := by
  have hletters : ∀ p ∈ shortEscapes,
      p.2 ≠ 'u' ∧ escapes.lookup p.2 = some p.1 ∧ Text.units p.1 = [p.1.toNat] := by decide
  unfold escapeChar
  split
  · next e h =>
    obtain ⟨_, _, hmem, -⟩ := List.lookup_eq_some_iff.1 h
    obtain ⟨hu, hread, hunits⟩ :=
      hletters (c, e) (hmem ▸ List.mem_append_right _ List.mem_cons_self)
    rw [hunits]
    exact takeUnits_letter hu hread
  · next hlookup =>
    split
    · next h =>
      simp only [Style.plain, Style.line, Bool.not_true, Bool.or_false, Bool.and_eq_true,
        decide_eq_true_eq] at h
      have hquote : c ≠ '"' := by rintro rfl; cases hlookup
      have hslash : c ≠ '\\' := by rintro rfl; cases hlookup
      rw [Text.units_of_le h.2]
      exact takeUnits_char hquote hslash h.1
    · exact takeUnits_units fun u hu => Text.lt_of_mem_units hu

/-- The text of a string is read as that string as it comes back. -/
theorem lex_quoted (s : String) (rest : List Char) :
    lex ((quoted Style.plain s).toList ++ rest) =
      (Token.string (Text.joined s) :: (lex rest).1, (lex rest).2) := by
  have hunits : ∀ cs : List Char, takeUnits (cs.flatMap (escapeChar Style.plain) ++ '"' :: rest) =
      some (cs.flatMap Text.units, rest) := by
    intro cs
    induction cs with
    | nil => rfl
    | cons c cs ih => rw [List.flatMap_cons, List.append_assoc, takeUnits_escapeChar, ih]; rfl
  rw [quoted, String.toList_ofList, List.cons_append, List.cons_append, List.append_assoc]
  refine lex_token rfl ?_
  have hquote : punctuation? '"' = none := rfl
  simp only [takeToken, hquote, beq_self_eq_true, if_true, List.singleton_append, hunits]
  rfl

/-! ## Pieces of a text -/

/-- A text with its tokens, in front of whatever can follow a value. -/
def Lexes (cs : List Char) (ts : List Token) : Prop :=
  ∀ rest, Closes rest → lex (cs ++ rest) = (ts ++ (lex rest).1, (lex rest).2)

theorem closes_cons (h : c ∈ [',', ']', '\x7d']) : Closes (c :: rest) := fun _ hd =>
  Option.some.inj hd ▸ h

theorem closes_nil : Closes [] := fun _ hd => by cases hd

/-- Pieces with commas between them. -/
theorem Lexes.intercalate {pieces : List (List Char)} {tss : List (List Token)}
    (h : List.Forall₂ Lexes pieces tss) :
    Lexes ([',', ' '].intercalate pieces) ([Token.comma].intercalate tss) := by
  induction h with
  | nil => exact fun rest _ => rfl
  | @cons cs ts pieces tss hpiece hpieces ih =>
    cases hpieces with
    | nil =>
      rw [List.intercalate_singleton, List.intercalate_singleton]
      exact hpiece
    | cons hnext hpieces =>
      intro rest hrest
      have hmore := ih rest hrest
      rw [List.intercalate_cons_of_ne_nil (List.cons_ne_nil _ _),
        List.intercalate_cons_of_ne_nil (List.cons_ne_nil _ _)]
      generalize [',', ' '].intercalate (_ :: _) = more at hmore ⊢
      have hcomma : lex (',' :: ' ' :: (more ++ rest)) = _ := lex_punctuation rfl
      rw [lex_skip (c := ' ') rfl, hmore] at hcomma
      have hfirst := hpiece (',' :: ' ' :: (more ++ rest)) (closes_cons (by decide))
      rw [hcomma] at hfirst
      simpa using hfirst

/-- A text between brackets, in front of anything. -/
theorem Lexes.brackets {cs : List Char} {ts : List Token} {o c : Char} {topen tclose : Token}
    (h : Lexes cs ts) (hopen : punctuation? o = some topen) (hclose : punctuation? c = some tclose)
    (hc : c ∈ [',', ']', '\x7d']) : Lexes (o :: (cs ++ [c])) (topen :: (ts ++ [tclose])) := by
  intro rest _
  have hinside := h (c :: rest) (closes_cons hc)
  rw [lex_punctuation hclose] at hinside
  rw [List.cons_append, List.append_assoc, List.singleton_append, lex_punctuation hopen, hinside]
  simp

theorem names_eq : names = [(['n', 'u', 'l', 'l'], null), (['t', 'r', 'u', 'e'], bool true),
    (['f', 'a', 'l', 's', 'e'], bool false), (['N', 'a', 'N'], float (0.0 / 0.0)),
    (['I', 'n', 'f', 'i', 'n', 'i', 't', 'y'], float (1.0 / 0.0)),
    (['-', 'I', 'n', 'f', 'i', 'n', 'i', 't', 'y'], float (-1.0 / 0.0))] := by
  simp [names]

/-- The name of a value, in front of anything. -/
theorem lex_name : ∀ p ∈ names, ∀ rest,
    lex (p.1 ++ rest) = (Token.scalar p.2 :: (lex rest).1, (lex rest).2) := by
  intro p hp rest
  rw [names_eq] at hp
  simp only [List.mem_cons, List.not_mem_nil, or_false] at hp
  rcases hp with rfl | rfl | rfl | rfl | rfl | rfl <;>
  · refine lex_token rfl ?_
    simp [takeToken, takeName?, names_eq, punctuation?, List.isPrefixOf]

theorem exists_name_float {x : Float} (hx : x.isFinite = false) :
    ∃ p ∈ names, p.1 = (floatText x).toList ∧ p.2 = .float x := by
  rw [floatText, hx, if_neg Bool.false_ne_true]
  cases hnumber : x.isNaN with
  | true =>
    have hu : x.toModel.unpack = .notANumber := by
      change x.toModel.unpack.isNaN = true at hnumber
      cases hu : x.toModel.unpack with
      | notANumber => rfl
      | infinity | zero | finite => rw [hu] at hnumber; cases hnumber
    have hsame : x = 0.0 / 0.0 := by
      rw [Decimal.eq_ofModel_pack x, hu]
      rfl
    exact ⟨("NaN".toList, .float (0.0 / 0.0)), by simp [names], rfl, hsame ▸ rfl⟩
  | false =>
    obtain ⟨s, rfl⟩ := (Decimal.isInf_iff x).1 (Decimal.isInf_of_not_isFinite hx hnumber)
    cases s with
    | positive => exact ⟨("Infinity".toList, .float (1.0 / 0.0)), by simp [names], rfl, rfl⟩
    | negative => exact ⟨("-Infinity".toList, .float (-1.0 / 0.0)), by simp [names], rfl, rfl⟩

/-! ## Values -/

theorem lexes_name {v : Json} (h : (cs, v) ∈ names) : Lexes cs [.scalar v] :=
  fun rest _ => lex_name (cs, v) h rest

theorem lexes_number {n : NumberText} {v : Json} (hn : n.Formed) (hv : n.value = .ok v) :
    Lexes n.chars [.scalar v] := by
  intro rest hrest
  obtain ⟨c, cs, hchars, hskip, htoken⟩ := takeToken_number hn hv hrest
  rw [hchars, List.cons_append, lex_token hskip htoken]
  rfl

theorem lexes_float (x : Float) : Lexes (floatText x).toList [.scalar (.float x)] := by
  cases hx : x.isFinite with
  | true =>
    obtain ⟨n, hn, hchars, hv⟩ := exists_number_float hx
    rw [floatText, if_pos hx, ← hchars]
    exact lexes_number hn hv
  | false =>
    obtain ⟨⟨name, v⟩, hp, rfl, rfl⟩ := exists_name_float hx
    exact lexes_name hp

theorem lexes_field (k : String) {v : String} {ts : List Token} (hv : Lexes v.toList ts) :
    Lexes (quoted Style.plain k ++ Style.plain.colon ++ v).toList
      (.string (Text.joined k) :: .colon :: ts) := by
  intro rest hrest
  have hcolon : Style.plain.colon.toList = [':', ' '] := by simp [Style.plain, Style.line]
  have hvalue := hv rest hrest
  rw [String.toList_append, String.toList_append, hcolon, List.append_assoc, List.append_assoc,
    lex_quoted, List.cons_append, List.singleton_append, lex_punctuation (t := .colon) rfl,
    List.cons_append, lex_skip (c := ' ') rfl, hvalue]
  rfl

mutual

/-- **The text of a value** is cut into its tokens. -/
theorem lexes_write : ∀ v : Json, v.all isShort = true →
    Lexes (v.write Style.plain).toList v.tokens
  | null => fun _ => lexes_name (by simp [names, write])
  | bool true => fun _ => lexes_name (by simp [names, write])
  | bool false => fun _ => lexes_name (by simp [names, write])
  | int k => fun h => by
    have hshort : isShort (int k) = true := by simpa only [all] using h
    obtain ⟨n, hn, hchars, hv⟩ := exists_number_int hshort
    rw [write, ← hchars]
    exact lexes_number hn hv
  | float x => fun _ => lexes_float x
  | string s => fun _ rest _ => lex_quoted s rest
  | array items => fun h => by
    rw [all, Bool.and_eq_true] at h
    have hitems := Lexes.intercalate (lexes_writeItems items h.2)
    have hcomma : Style.plain.comma.toList = [',', ' '] := by simp [Style.plain, Style.line]
    rw [write, String.toList_append, String.toList_append, String.toList_intercalate, hcomma]
    exact hitems.brackets rfl rfl (by decide)
  | object fields => fun h => by
    rw [all, Bool.and_eq_true] at h
    have hfields := Lexes.intercalate (lexes_writeFields fields h.2)
    have hcomma : Style.plain.comma.toList = [',', ' '] := by simp [Style.plain, Style.line]
    rw [write, String.toList_append, String.toList_append, String.toList_intercalate, hcomma]
    simp only [Style.plain, Style.line, Bool.false_eq_true, if_false, List.map_map]
    exact hfields.brackets rfl rfl (by decide)

theorem lexes_writeItems : ∀ items : List Json, allItems isShort items = true →
    List.Forall₂ Lexes ((writeItems Style.plain items).map String.toList) (itemTokens items)
  | [], _ => .nil
  | v :: vs, h =>
    .cons (lexes_write v (Bool.and_eq_true_iff.1 h).1)
      (lexes_writeItems vs (Bool.and_eq_true_iff.1 h).2)

theorem lexes_writeFields : ∀ fields : List (String × Json),
    allFields isShort fields = true →
    List.Forall₂ Lexes ((writeFields Style.plain fields).map
      fun f => (quoted Style.plain f.1 ++ Style.plain.colon ++ f.2).toList) (fieldTokens fields)
  | [], _ => .nil
  | (k, v) :: rest, h =>
    .cons (lexes_field k (lexes_write v (Bool.and_eq_true_iff.1 h).1))
      (lexes_writeFields rest (Bool.and_eq_true_iff.1 h).2)

end

end Spreadsheet.Json
