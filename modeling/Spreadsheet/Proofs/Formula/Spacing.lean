import Spreadsheet.Proofs.Blank
import Spreadsheet.Proofs.Formula.Context
import Spreadsheet.Proofs.Formula.Naming
import Spreadsheet.Proofs.Formula.Rewriting

/-!
# The blanks of a formula

Between tokens blanks are skipped, and no token has a blank in it. So a text that is laid out in
tokens holds the same tokens when its blanks are squeezed and those at its ends are taken off; no
two tokens grow together, for where a run of blanks was there is still a space. An accepted body
keeps its tree, but for the places of its tokens.

* `Lexeme.Formed.not_isBlank`: tokens have no blanks;
* `Laid.trimLeft`, `Laid.trimRight`, **`Laid.squeeze`**: the same tokens;
* **`Expr.value_of_unplaced`**: trees that differ in places only;
* `Respelled`: bodies that are read alike; **`respelled_respaced`**: an accepted body is, when it is
  normalized.
-/

namespace Spreadsheet.Formula

open Reference (Parts)

variable {c : Char} {cs : List Char} {l : Lexeme} {ls : List Lexeme} {free : Bool} {room : Nat}
  {body body' : String} {e e' : Expr}

/-! ## Tokens and blanks -/

theorem isBlank_of_isSkipped (h : isSkipped c = true) : Text.isBlank c = true := by
  simp only [isSkipped, Bool.or_eq_true, beq_iff_eq] at h
  rcases h with ((rfl | rfl) | rfl) | rfl <;> decide

theorem not_isBlank_char (s : Symbol) : Text.isBlank s.char = false := by
  cases s <;> decide

/-- **No token has a blank in it.** -/
theorem Lexeme.Formed.not_isBlank (h : l.Formed) : ∀ c ∈ l.chars, Text.isBlank c = false := by
  have hdigit {ds : List Char} (hds : ∀ c ∈ ds, c.isDigit = true) :
      ∀ c ∈ ds, Text.isBlank c = false := fun c hc =>
    Bool.eq_false_iff.2 fun hblank => not_isDigit_of_isBlank hblank (hds c hc)
  have hmark : Text.isBlank '.' = false ∧ Text.isBlank ':' = false := by decide
  cases l with
  | number n =>
    refine List.forall_mem_append.2 ⟨hdigit h.2.1, ?_⟩
    split
    · exact nofun
    · exact List.forall_mem_cons.2 ⟨hmark.1, hdigit h.2.2⟩
  | cell p => exact Written.not_isBlank h
  | range first last =>
    exact List.forall_mem_append.2
      ⟨h.1.not_isBlank, List.forall_mem_cons.2 ⟨hmark.2, h.2.not_isBlank⟩⟩
  | name letters => exact fun c hc => not_isBlank_of_isLetter (h.2 c hc)
  | symbol s => exact List.forall_mem_singleton.2 (not_isBlank_char s)

theorem Laid.nil_of_nil (h : Laid free [] ls) : ls = [] := by
  generalize hcs : ([] : List Char) = cs at h
  cases h with
  | nil => rfl
  | skip => cases hcs
  | symbol => cases hcs
  | token hl => exact absurd (List.append_eq_nil_iff.1 hcs.symm).1 hl.chars_ne_nil

/-- Behind the blanks in front any token may stand. -/
theorem Laid.trimLeft (h : Laid free cs ls) : Laid true (Text.trimLeft cs) ls := by
  induction h with
  | nil => exact .nil true
  | skip _ hc _ ih =>
    rw [Text.trimLeft_cons_of_isBlank (isBlank_of_isSkipped hc)]
    exact ih
  | symbol _ s h =>
    rw [Text.trimLeft_cons_of_not (not_isBlank_char s)]
    exact .symbol true s h
  | @token l cs ls hl h =>
    rw [Text.trimLeft_eq_self fun c hc => hl.not_isBlank c ?_]
    · exact .token hl h
    · obtain ⟨d, ds, hds⟩ := List.exists_cons_of_ne_nil hl.chars_ne_nil
      rw [hds, List.cons_append, List.head?_cons] at hc
      rw [hds, ← Option.some.inj hc]
      exact List.mem_cons_self

theorem Laid.trimRight (h : Laid free cs ls) : Laid free (Text.trimRight cs) ls := by
  induction h with
  | nil => exact .nil _
  | skip free hc _ ih =>
    rw [Text.trimRight_cons, isBlank_of_isSkipped hc]
    split
    · rename_i hnil
      rw [hnil] at ih
      rw [ih.nil_of_nil]
      exact .nil free
    · exact .skip free hc ih
  | symbol free s _ ih =>
    rw [Text.trimRight_cons_of_not (not_isBlank_char s)]
    exact .symbol free s ih
  | token hl _ ih =>
    rw [Text.trimRight_append hl.not_isBlank]
    exact .token hl ih

/-- **A text holds the same tokens** when its blanks are squeezed. -/
theorem Laid.squeeze (h : Laid free cs ls) : Laid free (Text.squeeze cs) ls := by
  induction h with
  | nil => exact .nil _
  | skip free hc _ ih =>
    rw [Text.squeeze_cons_of_isBlank (isBlank_of_isSkipped hc)]
    exact .skip free rfl ih.trimLeft
  | symbol free s _ ih =>
    rw [Text.squeeze_cons_of_not (not_isBlank_char s)]
    exact .symbol free s ih
  | token hl _ ih =>
    rw [Text.squeeze_append hl.not_isBlank]
    exact .token hl ih

/-! ## Trees that differ in places -/

/-- **Trees that are the same, but for the places of their tokens, are evaluated alike**, whatever
answers their references. -/
theorem Expr.value_of_unplaced {m : Type → Type} [Monad m] [LawfulMonad m]
    [MonadExceptOf Failure m] (env : Surroundings m) (h : e'.unplaced = e.unplaced)
    (he : e.Valid false) (he' : e'.Valid false) : e'.value env = e.value env := by
  rw [← Expr.value_unplaced env (Expr.names_of_valid e' false he'), h,
    Expr.value_unplaced env (Expr.names_of_valid e false he)]

theorem Expr.mem_cells_of_unplaced (h : e'.unplaced = e.unplaced) {c : Cell} :
    c ∈ e'.cells ↔ c ∈ e.cells := by
  have hstands := Expr.standsFor_of_unplaced (fun _ => .failed) h
  have hstands' := Expr.standsFor_of_unplaced (fun _ => .failed) h.symm
  exact ⟨fun hc => (hstands.cells hc).resolve_left List.not_mem_nil,
    fun hc => (hstands'.cells hc).resolve_left List.not_mem_nil⟩

/-- Two bodies that are read alike: rejected for the same reason, or accepted with trees that are
the same, but for the places of their tokens. -/
def Respelled (body body' : String) : Prop := ∀ room,
  (∃ f, Expr.ofBody room body = .error f ∧ Expr.ofBody room body' = .error f) ∨
    ∃ e e', Expr.ofBody room body = .ok e ∧ Expr.ofBody room body' = .ok e' ∧
      e'.unplaced = e.unplaced

namespace Respelled

theorem refl (body : String) : Respelled body body := by
  intro room
  cases he : Expr.ofBody room body with
  | error f => exact .inl ⟨f, rfl, rfl⟩
  | ok e => exact .inr ⟨e, e, rfl, rfl, rfl⟩

theorem symm (h : Respelled body body') : Respelled body' body := fun room =>
  (h room).imp (fun ⟨f, hf, hf'⟩ => ⟨f, hf', hf⟩)
    fun ⟨e, e', he, he', htree⟩ => ⟨e', e, he', he, htree.symm⟩

theorem ofBody_ok (h : Respelled body body') (he : Expr.ofBody room body = .ok e) :
    ∃ e', Expr.ofBody room body' = .ok e' ∧ e'.unplaced = e.unplaced := by
  rcases h room with ⟨f, hf, -⟩ | ⟨t, e', ht, he', htree⟩
  · rw [hf] at he
    cases he
  · obtain rfl : t = e := Except.ok.inj (ht.symm.trans he)
    exact ⟨e', he', htree⟩

theorem ofBody_error (h : Respelled body body') {f : Failure}
    (hf : Expr.ofBody room body = .error f) : Expr.ofBody room body' = .error f := by
  rcases h room with ⟨f', hf', hf''⟩ | ⟨e, -, he, -⟩
  · obtain rfl : f' = f := Except.error.inj (hf'.symm.trans hf)
    exact hf''
  · rw [he] at hf
    cases hf

end Respelled

/-! ## Normalized bodies -/

/-- The characters of a body that is normalized together with its formula. -/
def respaced (cs : List Char) : List Char := Text.trimRight (Text.squeeze cs)

/-- **An accepted body that is normalized** is read alike. -/
theorem respelled_respaced (h : Expr.ofBody room (String.ofList cs) = .ok e) :
    Respelled (String.ofList cs) (String.ofList (respaced cs)) := by
  obtain ⟨hparse, hvalid, -⟩ := Expr.ofBody_eq_ok_iff.1 h
  have hlaid := Expr.laid_of_parse hparse
  rw [String.toList_ofList] at hlaid
  obtain ⟨hstuck, htokens⟩ := hlaid.squeeze.trimRight.lexFrom 0
  have hlex : lex (String.ofList (respaced cs)) = lexFrom 0 (respaced cs) := by
    rw [lex, String.toList_ofList]
  obtain ⟨e', hparse', htree⟩ := Expr.parse_relabel (f := id) hparse
    ((congrArg Lexed.stuck? hlex).trans hstuck) (by
      rw [hlex, List.map_congr_left fun l _ => Lexeme.relabel_id l, List.map_id']
      exact htokens)
  have hvalid' : e'.Valid false :=
    (Expr.standsFor_of_unplaced (fun _ => .failed) htree).valid hvalid
  intro room
  rw [Expr.ofBody_of_valid hparse hvalid, Expr.ofBody_of_valid hparse' hvalid',
    Expr.levels_of_unplaced htree]
  split
  · exact .inr ⟨e, e', rfl, rfl, htree⟩
  · exact .inl ⟨.tooDeep, rfl, rfl⟩

end Spreadsheet.Formula
