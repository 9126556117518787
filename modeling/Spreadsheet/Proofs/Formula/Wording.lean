import Mathlib.Data.List.Infix
import Spreadsheet.Proofs.Formula.Diagnosis

/-!
# What wordings take from formulas

The wording of a rejection consists of a few fixed words, of something that it takes from the body
and of a position. What it takes is a character, a token, a reference or the name of a function, and
the body is all that limits the length of these.

* `Rejection.quoted`: what is taken from the body; `length_message`, `length_description`: there is
  little beside it;
* `Rejection.Quotes`: it stands in a body; `Blamed`, `Expr.blamed`: what can be wrong with a tree;
* **`Expr.quotes_of_ofBody`**: it stands in the body that is rejected.
-/

namespace Spreadsheet.Formula

open Reference (Parts)

variable {body : String} {r : Rejection} {t : Token} {l : Lexeme} {p : Parts} {f : Failure}
variable {room level : Nat}

/-! ## Wordings -/

/-- What a wording takes from the body. -/
def Rejection.quoted : Rejection → String
  | unexpectedCharacter c _ => String.singleton c
  | unexpectedToken text _ | invalidReference text _ => text
  | unknownFunction name => name
  | unexpectedEnd _ | misplacedRange => ""

theorem length_words {words : String} (h : words.length ≤ 27) (s : String) :
    s.length ≤ (words ++ s).length ∧ (words ++ s).length ≤ s.length + 27 := by
  rw [String.length_append]
  omega

/-- The words beside what is taken from the body are few. -/
theorem Rejection.length_message (r : Rejection) :
    r.quoted.length ≤ r.message.length ∧ r.message.length ≤ r.quoted.length + 27 := by
  cases r with
  | unexpectedCharacter c _ => exact length_words (by decide) _
  | unexpectedToken text _ => exact length_words (by decide) text
  | invalidReference text _ => exact length_words (by decide) text
  | unknownFunction name => exact length_words (by decide) name
  | unexpectedEnd _ => exact ⟨Nat.zero_le _, show "Unexpected end".length ≤ 27 by decide⟩
  | misplacedRange =>
    exact ⟨Nat.zero_le _, show "Invalid range in expression".length ≤ 27 by decide⟩

theorem Rejection.length_description (r : Rejection) : r.description.length =
    r.message.length + r.position?.elim 0 fun p => (toString p).length + 15 := by
  have hfront : " (at position ".length = 14 := by decide
  have hback : ")".length = 1 := by decide
  unfold description
  cases r.position? with
  | none => rfl
  | some p =>
    simp only [String.length_append, Option.elim_some, hfront, hback, Nat.add_assoc]
    rw [Nat.add_left_comm 14]

theorem Rejection.length_quoted_le (r : Rejection) : r.quoted.length ≤ r.description.length := by
  rw [r.length_description]
  exact Nat.le_add_right_of_le r.length_message.1

/-! ## Where they come from -/

/-- What is taken from a body stands there, in upper or lower case, and the place is one of it. -/
structure Rejection.Quotes (r : Rejection) (body : String) : Prop where
  quoted : r.quoted.toList.map Char.toUpper <:+: body.toList.map Char.toUpper
  position : ∀ p ∈ r.position?, p ≤ body.length

theorem Token.isInfix (ht : t ∈ (lex body).tokens) : t.lexeme.chars <:+: body.toList :=
  (lexFrom_stands ht).2.here.isInfix.trans (List.drop_suffix _ _).isInfix

theorem Token.position_le (ht : t ∈ (lex body).tokens) : t.position ≤ body.length := by
  obtain ⟨-, hlongest⟩ := lexFrom_stands ht
  rw [← String.length_toList]
  by_contra hlt
  -- behind the end of the body there are no characters
  rw [Nat.sub_zero, List.drop_of_length_le (by omega)] at hlongest
  exact hlongest.formed.chars_ne_nil (List.prefix_nil.1 hlongest.here)

theorem isInfix_of_mem_references (hp : p ∈ l.references) : p.chars <:+: l.chars := by
  cases l with
  | cell q => exact List.mem_singleton.1 hp ▸ List.infix_refl _
  | range first last =>
    rcases List.mem_pair.1 hp with rfl | rfl
    · exact (List.prefix_append _ _).isInfix
    · exact ((List.suffix_cons _ _).trans (List.suffix_append _ _)).isInfix
  | number | name | symbol => cases hp

/-- **What is wrong with a body as a whole** quotes a character or a token. -/
theorem Expr.quotes_of_parse_error (h : Expr.parse body = .error r) : r.Quotes body := by
  have hfaulty := Expr.parse_error_iff.1 h
  cases r with
  | unexpectedToken text position =>
    obtain ⟨before, t, after, htokens, rfl, rfl, -⟩ := hfaulty
    have ht : t ∈ (lex body).tokens := htokens ▸ List.mem_append_right _ List.mem_cons_self
    refine ⟨?_, fun p hp => Option.mem_some.1 hp ▸ Token.position_le ht⟩
    rw [Rejection.quoted, Lexeme.text, String.toList_ofList]
    exact (Token.isInfix ht).map _
  | unexpectedCharacter c position =>
    obtain ⟨-, -, hc, -⟩ := hfaulty
    obtain ⟨hlt, hc⟩ := List.getElem?_eq_some_iff.1 hc
    refine ⟨?_, fun p hp => Option.mem_some.1 hp ▸ ?_⟩
    · have hmem : c ∈ body.toList := hc ▸ List.getElem_mem hlt
      rw [Rejection.quoted, String.toList_singleton]
      exact ((List.singleton_infix_iff _ _).2 hmem).map _
    · rw [← String.length_toList]
      exact hlt.le
  | unexpectedEnd position =>
    obtain ⟨rfl, -⟩ := hfaulty
    exact ⟨List.nil_infix, fun p hp => Option.mem_some.1 hp ▸ le_rfl⟩
  | invalidReference | unknownFunction | misplacedRange => exact hfaulty.elim

/-! ## What can be wrong with a tree -/

/-- A failure of a tree of which these are the bad references and these the functions. -/
def Blamed (references : List Failure) (functions : List String) (f : Failure) : Prop :=
  f = .tooDeep ∨ f ∈ references ∨ f = .rejected .misplacedRange ∨
    ∃ name ∈ functions, f = .rejected (.unknownFunction name)

theorem Blamed.mono {references references' : List Failure} {functions functions' : List String}
    (h : Blamed references functions f) (hreferences : references ⊆ references')
    (hfunctions : functions ⊆ functions') : Blamed references' functions' f := by
  obtain h | h | h | ⟨name, hname, h⟩ := h
  · exact .inl h
  · exact .inr (.inl (hreferences h))
  · exact .inr (.inr (.inl h))
  · exact .inr (.inr (.inr ⟨name, hfunctions hname, h⟩))

theorem mem_faultOf {α : Type} {x : Except Failure α} : f ∈ faultOf x ↔ x = .error f := by
  cases x <;> simp [faultOf, eq_comm]

theorem eq_tooDeep (h : f ∈ faultOf (enter room level)) : f = .tooDeep := by
  rw [mem_faultOf, enter] at h
  split at h
  · cases h
  · exact (Except.error.inj h).symm

mutual

/-- **Whatever is wrong with a tree** is its depth, a reference, a range or the name of a
function. -/
theorem Expr.blamed (room : Nat) : ∀ (e : Expr) (level : Nat) (isArgument : Bool),
    f ∈ e.faults room level isArgument → Blamed e.badReferences e.functions f
  | .number _, _, _, h => .inl (eq_tooDeep h)
  | .cell parts position, _, _, h => by
    rw [Expr.faults, List.append_nil] at h
    exact (List.mem_append.1 h).imp eq_tooDeep .inl
  | .range first last position, _, isArgument, h => by
    rw [Expr.faults, List.mem_append, ← List.append_assoc, List.mem_append] at h
    rcases h with h | h | h
    · exact .inl (eq_tooDeep h)
    · exact .inr (.inl h)
    · cases isArgument with
      | true => cases h
      | false => exact .inr (.inr (.inl (List.mem_singleton.1 h)))
  | .signed _ e, level, _, h =>
    (List.mem_append.1 h).elim (fun h => .inl (eq_tooDeep h)) (Expr.blamed room e (level + 1) false)
  | .binary _ l r, level, _, h => by
    rcases List.mem_append.1 h with h | h
    · exact .inl (eq_tooDeep h)
    · rcases List.mem_append.1 h with h | h
      · exact (Expr.blamed room l (level + 1) false h).mono (List.subset_append_left _ _)
          (List.subset_append_left _ _)
      · exact (Expr.blamed room r (level + 1) false h).mono (List.subset_append_right _ _)
          (List.subset_append_right _ _)
  | .call name args, level, _, h => by
    rcases List.mem_append.1 h with h | h
    · exact .inl (eq_tooDeep h)
    · rcases List.mem_append.1 h with h | h
      · cases hname : Function.ofName? (upperName name) with
        | some _ =>
          rw [hname] at h
          cases h
        | none =>
          rw [hname] at h
          exact .inr (.inr (.inr ⟨_, List.mem_cons_self, List.mem_singleton.1 h⟩))
      · exact (Expr.blamedOfList room args (level + 1) h).mono (List.Subset.refl _)
          (List.subset_cons_self _ _)

theorem Expr.blamedOfList (room : Nat) : ∀ (es : List Expr) (level : Nat),
    f ∈ Expr.faultsOfList room level es →
      Blamed (Expr.badReferencesOfList es) (Expr.functionsOfList es) f
  | [], _, h => by cases h
  | e :: es, level, h => by
    rcases List.mem_append.1 h with h | h
    · exact (Expr.blamed room e level true h).mono (List.subset_append_left _ _)
        (List.subset_append_left _ _)
    · exact (Expr.blamedOfList room es level h).mono (List.subset_append_right _ _)
        (List.subset_append_right _ _)

end

theorem quotes_of_mem_faults (ht : t ∈ (lex body).tokens) (h : .rejected r ∈ t.faults) :
    r.Quotes body := by
  obtain ⟨p, hp, h⟩ := List.mem_flatMap.1 h
  rcases resolve_eq_error (mem_faultOf.1 h) with ⟨-, hr⟩ | ⟨-, e, hr⟩
  · obtain rfl := Failure.rejected.inj hr
    refine ⟨?_, fun q hq => Option.mem_some.1 hq ▸ Token.position_le ht⟩
    rw [Rejection.quoted, String.toList_ofList]
    exact ((isInfix_of_mem_references hp).trans (Token.isInfix ht)).map _
  · cases hr

theorem quotes_of_function {name : String} (ht : t ∈ (lex body).tokens) (h : name ∈ t.function) :
    (Rejection.unknownFunction name).Quotes body := by
  refine ⟨?_, nofun⟩
  have hinfix := Token.isInfix ht
  unfold Token.function at h
  split at h
  · rename_i letters hletters
    rw [hletters] at hinfix
    rw [Rejection.quoted, List.mem_singleton.1 h, upperName, String.toList_ofList, List.map_map]
    have hupper : Char.toUpper ∘ Char.toUpper = Char.toUpper :=
      funext Char.toUpper_toUpper_eq_toUpper
    rw [hupper]
    exact hinfix.map _
  all_goals cases h

/-- **What the wording of a rejection takes from a formula stands there.** -/
theorem Expr.quotes_of_ofBody (h : Expr.ofBody room body = .error (.rejected r)) :
    r.Quotes body := by
  cases hparse : Expr.parse body with
  | error r' =>
    have hbody : Expr.ofBody room body = _ := (ofBody_of_parse_error hparse).1
    obtain rfl := Failure.rejected.inj (Except.error.inj (h.symm.trans hbody))
    exact quotes_of_parse_error hparse
  | ok e =>
    have hfirst := (ofBody_eq_error_of_parse hparse).1 h
    rcases e.blamed room 0 false (List.mem_of_mem_head? (Option.mem_def.2 hfirst)) with
      hr | hr | hr | ⟨name, hname, hr⟩
    · cases hr
    · rw [Expr.badReferences_of_parse hparse] at hr
      obtain ⟨t, ht, hr⟩ := List.mem_flatMap.1 hr
      exact quotes_of_mem_faults ht hr
    · obtain rfl := Failure.rejected.inj hr
      exact ⟨List.nil_infix, nofun⟩
    · obtain rfl := Failure.rejected.inj hr
      rw [Expr.functions_of_parse hparse] at hname
      obtain ⟨t, ht, hname⟩ := List.mem_flatMap.1 hname
      exact quotes_of_function ht hname

/-! ## A wording of any length -/

/-- Two operands without an operator, the second one a word. -/
def twoOperands (word : List Char) : List Char := '1' :: ' ' :: word

theorem formed_replicate (n : Nat) : (Lexeme.name (List.replicate (n + 1) 'A')).Formed :=
  ⟨List.cons_ne_nil _ _, fun c hc => by rw [List.eq_of_mem_replicate hc]; decide⟩

theorem lex_twoOperands {word : List Char} (h : (Lexeme.name word).Formed) :
    (lex (String.ofList (twoOperands word))).tokens =
      [⟨.number ⟨['1'], []⟩, 0⟩, ⟨.name word, 2⟩] := by
  have hone : (Lexeme.number ⟨['1'], []⟩).Formed :=
    ⟨List.cons_ne_nil _ _, fun c hc => by rw [List.mem_singleton.1 hc]; rfl, nofun⟩
  have hend : Ends (' ' :: word) := show isBreak ' ' = true by decide
  have hfirst : lexFrom 0 (twoOperands word) = _ :=
    lexFrom_token hone.chars_ne_nil (take?_formed hone hend) 0
  have hskip : lexFrom 1 (' ' :: word) = lexFrom 2 word := by
    rw [lexFrom, if_pos (by decide)]
  have hsecond : lexFrom 2 (word ++ []) = _ :=
    lexFrom_token h.chars_ne_nil (take?_formed h (show Ends [] from trivial)) 2
  rw [List.append_nil] at hsecond
  rw [lex, String.toList_ofList, hfirst]
  change _ :: (lexFrom 1 (' ' :: word)).tokens = _
  rw [hskip, hsecond, lexFrom]

/-- The word is what cannot follow. -/
theorem parse_twoOperands {word : List Char} (h : (Lexeme.name word).Formed) :
    Expr.parse (String.ofList (twoOperands word)) =
      .error (.unexpectedToken (String.ofList word) 2) := by
  rw [Expr.parse_eq_unexpectedToken, lex_twoOperands h]
  rfl

end Spreadsheet.Formula
