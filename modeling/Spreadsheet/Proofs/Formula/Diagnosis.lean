import Spreadsheet.Proofs.Formula.Agreement
import Spreadsheet.Proofs.Formula.Viability

/-!
# What is reported of a formula

A check reports the first of everything that is wrong with a tree. The bad references among that
come in the order of the tokens, so the tree and the tokens of a body agree on the first of them. An
examination puts what is wrong with the tokens before everything else; a cell reports what comes
first when the body is parsed and then checked. Both reject the same bodies, and they report the
same unless parsing or checking comes upon something else before a fault of the tokens.

* `Expr.faults`: what is wrong with a tree, in order; **`Expr.check_eq_failFirst`**;
* `Token.faults`; **`Expr.filter_faults`**: bad references of trees and of tokens;
* `Overtaken`: something else comes before a fault of the tokens;
* **`examine_diagnosis`**: examinations and cells; `examine_diagnosis_differs`: they can differ.
-/

namespace Spreadsheet.Formula

open Reference (Parts)

variable {α : Type} {room level : Nat} {isArgument : Bool} {body text : String} {e : Expr}
variable {f f' : Failure} {t : Token} {ts : List Token} {p : Parts} {position : Nat}

/-! ## Everything that is wrong with a tree -/

/-- The fault of an action that fails. -/
def faultOf : Except Failure α → List Failure
  | .ok _ => []
  | .error f => [f]

/-- To fail with the first of some faults. -/
def failFirst : List Failure → Except Failure Unit
  | [] => .ok ()
  | f :: _ => .error f

theorem failFirst_eq_error {fs : List Failure} :
    failFirst fs = .error f ↔ fs.head? = some f := by
  cases fs <;> simp [failFirst]

theorem failFirst_append (fs gs : List Failure) :
    failFirst (fs ++ gs) = failFirst fs >>= fun _ => failFirst gs := by
  cases fs <;> rfl

theorem failFirst_faultOf_append (x : Except Failure α) (fs : List Failure) :
    failFirst (faultOf x ++ fs) = x >>= fun _ => failFirst fs := by
  cases x <;> rfl

theorem failFirst_faultOf (x : Except Failure Unit) : failFirst (faultOf x) = x := by
  cases x <;> rfl

mutual

/-- What is wrong with a tree at a level of nesting, in the order in which it is looked for. -/
def Expr.faults (room level : Nat) (isArgument : Bool) : Expr → List Failure
  | .number _ => faultOf (enter room level)
  | .cell parts position => faultOf (enter room level) ++ (faultOf (resolve position parts) ++ [])
  | .range first last position =>
    faultOf (enter room level) ++ (faultOf (resolve position first) ++
      (faultOf (resolve position last) ++
        if isArgument then [] else [.rejected .misplacedRange]))
  | .signed _ e => faultOf (enter room level) ++ e.faults room (level + 1) false
  | .binary _ l r =>
    faultOf (enter room level) ++
      (l.faults room (level + 1) false ++ r.faults room (level + 1) false)
  | .call name args =>
    faultOf (enter room level) ++
      ((match Function.ofName? (upperName name) with
        | none => [.rejected (.unknownFunction (upperName name))]
        | some _ => []) ++ Expr.faultsOfList room (level + 1) args)

/-- What is wrong with arguments. -/
def Expr.faultsOfList (room level : Nat) : List Expr → List Failure
  | [] => []
  | e :: es => e.faults room level true ++ Expr.faultsOfList room level es

end

mutual

/-- **A check reports the first fault.** -/
theorem Expr.check_eq_failFirst (room : Nat) : ∀ (e : Expr) (level : Nat) (isArgument : Bool),
    e.check room level isArgument = failFirst (e.faults room level isArgument)
  | .number _, level, _ => (failFirst_faultOf (enter room level)).symm
  | .cell _ _, _, _ => by
    simp only [Expr.check, Expr.faults, failFirst_faultOf_append]
    rfl
  | .range _ _ _, _, isArgument => by
    simp only [Expr.check, Expr.faults, failFirst_faultOf_append]
    cases isArgument <;> rfl
  | .signed _ e, level, _ => by
    simp only [Expr.check, Expr.faults, failFirst_faultOf_append,
      Expr.check_eq_failFirst room e (level + 1) false]
  | .binary _ l r, level, _ => by
    simp only [Expr.check, Expr.faults, failFirst_append, failFirst_faultOf,
      Expr.check_eq_failFirst room l (level + 1) false,
      Expr.check_eq_failFirst room r (level + 1) false]
  | .call name args, level, _ => by
    simp only [Expr.check, Expr.faults, failFirst_faultOf_append]
    cases Function.ofName? (upperName name) with
    | none => rfl
    | some _ => rw [List.nil_append, Expr.checkArguments_eq_failFirst room args (level + 1)]

theorem Expr.checkArguments_eq_failFirst (room : Nat) : ∀ (es : List Expr) (level : Nat),
    Expr.checkArguments room level es = failFirst (Expr.faultsOfList room level es)
  | [], _ => rfl
  | e :: es, level => by
    simp only [Expr.checkArguments, Expr.faultsOfList, failFirst_append,
      Expr.check_eq_failFirst room e level true, Expr.checkArguments_eq_failFirst room es level]

end

/-! ## Bad references -/

/-- The failure is that of a reference. -/
def Failure.ofReference : Failure → Bool
  | .rejected (.invalidReference ..) | .tooLong _ => true
  | .rejected (.unexpectedCharacter ..) | .rejected (.unexpectedToken ..)
  | .rejected (.unexpectedEnd _) | .rejected (.unknownFunction _) | .rejected .misplacedRange
  | .tooDeep => false

/-- What is wrong with the references of a token, in order. -/
def Token.faults (t : Token) : List Failure :=
  t.lexeme.references.flatMap fun p => faultOf (resolve t.position p)

mutual

/-- What is wrong with the references of a tree, from left to right. -/
def Expr.badReferences : Expr → List Failure
  | .number _ => []
  | .cell parts position => faultOf (resolve position parts)
  | .range first last position => faultOf (resolve position first) ++ faultOf (resolve position last)
  | .signed _ e => e.badReferences
  | .binary _ l r => l.badReferences ++ r.badReferences
  | .call _ args => Expr.badReferencesOfList args

/-- What is wrong with the references of trees. -/
def Expr.badReferencesOfList : List Expr → List Failure
  | [] => []
  | e :: es => e.badReferences ++ Expr.badReferencesOfList es

end

theorem lists_badReferences : Lists Token.faults Expr.badReferences where
  number _ _ := rfl
  cell parts position := (List.append_nil _).symm
  range first last position := by simp [Expr.badReferences, Token.faults, Lexeme.references]
  signed _ _ := rfl
  binary _ _ _ := rfl
  call _ args _ := eq_flatMap (G := Expr.badReferencesOfList) rfl (fun _ _ => rfl) args
  symbol _ _ := rfl

/-- **The bad references of a tree** are those of the tokens. -/
theorem Expr.badReferences_of_parse (h : Expr.parse body = .ok e) :
    e.badReferences = (lex body).tokens.flatMap Token.faults := lists_badReferences.of_parse h

theorem ofReference_of_resolve (h : resolve position p = .error f) : f.ofReference = true := by
  rcases resolve_eq_error h with ⟨-, rfl⟩ | ⟨-, e, rfl⟩
  · rfl
  · rfl

theorem filter_faultOf_enter (room level : Nat) :
    (faultOf (enter room level)).filter Failure.ofReference = [] := by
  unfold enter
  split <;> rfl

theorem filter_faultOf_resolve (position : Nat) (p : Parts) :
    (faultOf (resolve position p)).filter Failure.ofReference = faultOf (resolve position p) := by
  cases h : resolve position p with
  | ok => rfl
  | error f => rw [faultOf, List.filter_cons_of_pos (ofReference_of_resolve h)]; rfl

mutual

/-- **Among the faults of a tree** its bad references come from left to right. -/
theorem Expr.filter_faults (room : Nat) : ∀ (e : Expr) (level : Nat) (isArgument : Bool),
    (e.faults room level isArgument).filter Failure.ofReference = e.badReferences
  | .number _, level, _ => filter_faultOf_enter room level
  | .cell _ _, _, _ => by
    simp only [Expr.faults, Expr.badReferences, List.filter_append, filter_faultOf_enter,
      filter_faultOf_resolve, List.append_nil, List.nil_append]
  | .range _ _ _, _, isArgument => by
    simp only [Expr.faults, Expr.badReferences, List.filter_append, filter_faultOf_enter,
      filter_faultOf_resolve, List.nil_append]
    cases isArgument <;> simp [Failure.ofReference]
  | .signed _ e, level, _ => by
    simp only [Expr.faults, Expr.badReferences, List.filter_append, filter_faultOf_enter,
      List.nil_append, Expr.filter_faults room e (level + 1) false]
  | .binary _ l r, level, _ => by
    simp only [Expr.faults, Expr.badReferences, List.filter_append, filter_faultOf_enter,
      List.nil_append, Expr.filter_faults room l (level + 1) false,
      Expr.filter_faults room r (level + 1) false]
  | .call name args, level, _ => by
    simp only [Expr.faults, Expr.badReferences, List.filter_append, filter_faultOf_enter,
      List.nil_append, Expr.filter_faultsOfList room args (level + 1)]
    cases Function.ofName? (upperName name) <;> rfl

theorem Expr.filter_faultsOfList (room : Nat) : ∀ (es : List Expr) (level : Nat),
    (Expr.faultsOfList room level es).filter Failure.ofReference = Expr.badReferencesOfList es
  | [], _ => rfl
  | e :: es, level => by
    simp only [Expr.faultsOfList, Expr.badReferencesOfList, List.filter_append,
      Expr.filter_faults room e level true, Expr.filter_faultsOfList room es level]

end

/-! ## Faults of tokens -/

theorem Token.head?_faults : t.faults.head? = some f ↔ t.value = .error f := by
  obtain ⟨l, position⟩ := t
  cases l with
  | number | name | symbol => exact iff_of_false nofun nofun
  | cell p =>
    simp only [Token.faults, Lexeme.references, Token.value, List.flatMap_cons, List.flatMap_nil]
    cases resolve position p <;> simp [faultOf, bind, Except.bind, pure, Except.pure]
  | range first last =>
    simp only [Token.faults, Lexeme.references, Token.value, List.flatMap_cons, List.flatMap_nil]
    cases resolve position first <;> cases resolve position last <;>
      simp [faultOf, bind, Except.bind, pure, Except.pure]

theorem Token.faults_eq_nil : t.faults = [] ↔ ∃ v, t.value = .ok v := by
  rw [← List.head?_eq_none_iff, Option.eq_none_iff_forall_ne_some]
  simp only [ne_eq, Token.head?_faults]
  cases t.value <;> simp

/-- The first fault of tokens is that of the first one without a value. -/
theorem head?_flatMap_faults : (ts.flatMap Token.faults).head? = some f ↔
    ∃ before t after, ts = before ++ t :: after ∧ (∀ u ∈ before, ∃ v, u.value = .ok v) ∧
      t.value = .error f := by
  rw [List.head?_flatMap, List.findSome?_eq_some_iff]
  simp only [Token.head?_faults, List.head?_eq_none_iff, Token.faults_eq_nil]
  grind

/-- A token of a body has a reference that names no cell. -/
def BadReference (body : String) : Prop :=
  ∃ t ∈ (lex body).tokens, ∃ p ∈ t.lexeme.references, ¬ Names p

theorem badReference_iff : BadReference body ↔ (lex body).tokens.flatMap Token.faults ≠ [] := by
  simp only [BadReference, ne_eq, List.flatMap_eq_nil_iff, Token.faults_eq_nil,
    Token.exists_value_iff]
  push Not
  rfl

theorem not_badReference (h : ∀ t ∈ (lex body).tokens, ∃ v, t.value = .ok v) :
    ¬ BadReference body := fun ⟨t, ht, p, hp, hnot⟩ =>
  hnot (Token.exists_value_iff.1 (h t ht) p hp)

theorem ofReference_of_mem_faults (h : f ∈ ts.flatMap Token.faults) : f.ofReference = true := by
  obtain ⟨t, -, h⟩ := List.mem_flatMap.1 h
  obtain ⟨p, -, h⟩ := List.mem_flatMap.1 h
  cases hresolve : resolve t.position p with
  | ok => rw [hresolve] at h; cases h
  | error f' =>
    rw [hresolve] at h
    obtain rfl := List.mem_singleton.1 h
    exact ofReference_of_resolve hresolve

/-! ## Two diagnoses -/

/-- What is told about a failure: its wording, and its place if it has one. -/
def Failure.diagnosis : Failure → String × Option Nat
  | .rejected r => (r.message, r.position?)
  | .tooDeep => (tooDeepMessage, none)
  | .tooLong e => (e.message, none)

/-- The wordings of bad references begin in one of two ways. -/
def isReferenceWording (s : String) : Bool :=
  s.toList.take 11 == "Invalid ref".toList || s.toList.take 11 == "Exceeds the".toList

theorem isReferenceWording_append (s s' : String) (h : 11 ≤ s.toList.length) :
    isReferenceWording (s ++ s') = isReferenceWording s := by
  unfold isReferenceWording
  rw [String.toList_append, List.take_append_of_le_length h]

/-- **The wording tells bad references** from other failures. -/
theorem Failure.isReferenceWording_diagnosis (f : Failure) :
    isReferenceWording f.diagnosis.1 = f.ofReference := by
  have hfront (b : Bool) (s s' : String) (h : 11 ≤ s.toList.length)
      (hs : isReferenceWording s = b) : isReferenceWording (s ++ s') = b :=
    (isReferenceWording_append s s' h).trans hs
  match f with
  | .rejected (.unexpectedCharacter c _) =>
    exact hfront false "Unexpected character " (String.singleton c) (by decide)
      (by decide)
  | .rejected (.unexpectedToken text _) =>
    exact hfront false "Unexpected token " text (by decide) (by decide)
  | .rejected (.unexpectedEnd _) =>
    exact (by decide : isReferenceWording "Unexpected end" = false)
  | .rejected (.invalidReference text _) =>
    exact hfront true "Invalid reference " text (by decide) (by decide)
  | .rejected (.unknownFunction name) =>
    exact hfront false "Unknown function " name (by decide) (by decide)
  | .rejected .misplacedRange =>
    exact (by decide : isReferenceWording "Invalid range in expression" = false)
  | .tooDeep => exact (by decide : isReferenceWording tooDeepMessage = false)
  | .tooLong (.reading digits) =>
    exact (congrArg isReferenceWording (String.append_assoc ..)).trans (hfront true
      "Exceeds the limit (4300 digits) for integer string conversion: value has " _
      (by decide) (by decide))
  | .tooLong .writing =>
    exact hfront true "Exceeds the limit (4300 digits) for integer string conversion; " _
      (by decide) (by decide)

theorem Failure.diagnosis_ne (h : f.ofReference = true) (h' : f'.ofReference = false) :
    f.diagnosis ≠ f'.diagnosis := fun he => by
  rw [← Failure.isReferenceWording_diagnosis, he, Failure.isReferenceWording_diagnosis, h'] at h
  cases h

theorem diagnosis_unexpected_ne (c : Char) (p q : Nat) (text : String) :
    (Failure.rejected (.unexpectedCharacter c p)).diagnosis ≠
      (Failure.rejected (.unexpectedToken text q)).diagnosis := fun he => by
  have hmessage : "Unexpected character " ++ String.singleton c = "Unexpected token " ++ text :=
    congrArg Prod.fst he
  have hlist := congrArg String.toList hmessage
  rw [String.toList_append, String.toList_append] at hlist
  simp at hlist

/-- Parsing and checking a body within some room come upon something else before a fault of its
tokens. -/
inductive Overtaken (room : Nat) (body : String) : Prop where
  /-- A token that cannot follow, before a bad character. -/
  | character {stuck : Char × Nat} (hstuck : (lex body).stuck? = some stuck)
    (h : ¬ Viable (lex body).tokens)
  /-- The body is no expression, whatever its references are. -/
  | reference (hbad : BadReference body) {r : Rejection} (h : Expr.parse body = .error r)
  /-- The tree has another fault before all its bad references. -/
  | tree (hbad : BadReference body) {e : Expr} (h : Expr.parse body = .ok e) {f : Failure}
    (hfirst : (e.faults room 0 false).head? = some f) (hf : f.ofReference = false)

theorem not_overtaken_of_tokenize (room : Nat) {valued : List (Token × TokenValue)}
    (h : tokenize body = .ok valued) : ¬ Overtaken room body := by
  obtain ⟨hstuck, hvalued⟩ := tokenize_eq_ok.1 h
  have hgood := not_badReference hvalued.exists_value
  rintro (⟨hstuck', -⟩ | ⟨hbad, -⟩ | ⟨hbad, -⟩)
  · rw [hstuck] at hstuck'
    cases hstuck'
  · exact hgood hbad
  · exact hgood hbad

theorem ofBody_of_parse_error {r : Rejection} (h : Expr.parse body = .error r) :
    Expr.ofBody room body = .error (.rejected r) ∧ (Failure.rejected r).ofReference = false := by
  constructor
  · rw [Expr.ofBody, h]
    rfl
  · have hfaulty := Expr.parse_error_iff.1 h
    cases r with
    | invalidReference => exact hfaulty.elim
    | _ => rfl

theorem ofBody_eq_error_of_parse (h : Expr.parse body = .ok e) :
    Expr.ofBody room body = .error f ↔ (e.faults room 0 false).head? = some f := by
  rw [← failFirst_eq_error, ← Expr.check_eq_failFirst, Expr.ofBody, h]
  simp only [bind_eq_error]
  refine or_iff_left ?_
  rintro ⟨_, _, hreturn⟩
  cases hreturn

/-- A body whose tokens have this fault is rejected by a cell too, and for the same failure unless
something else comes before it. -/
def Compared (room : Nat) (body : String) (f : Failure) : Prop :=
  ∃ f', Expr.ofBody room body = .error f' ∧
    (¬ Overtaken room body ∧ f = f' ∨ Overtaken room body ∧ f.diagnosis ≠ f'.diagnosis)

/-- **A bad reference** is reported by a cell if nothing else is found before the first one. -/
theorem compared_of_reference (h : ((lex body).tokens.flatMap Token.faults).head? = some f) :
    Compared room body f := by
  have href : f.ofReference = true :=
    ofReference_of_mem_faults (List.mem_of_mem_head? (Option.mem_def.2 h))
  have hbad : BadReference body := badReference_iff.2 fun he => by
    rw [he] at h
    cases h
  cases hparse : Expr.parse body with
  | error r =>
    obtain ⟨hbody, hr⟩ := ofBody_of_parse_error hparse
    exact ⟨_, hbody, .inr ⟨.reference hbad hparse, Failure.diagnosis_ne href hr⟩⟩
  | ok e =>
    have hfilter := Expr.filter_faults room e 0 false
    rw [Expr.badReferences_of_parse hparse] at hfilter
    rw [← hfilter] at h
    cases hfaults : e.faults room 0 false with
    | nil =>
      rw [hfaults] at h
      cases h
    | cons f' later =>
      have hfirst : (e.faults room 0 false).head? = some f' := by rw [hfaults, List.head?_cons]
      refine ⟨f', (ofBody_eq_error_of_parse hparse).2 hfirst, ?_⟩
      cases hf' : f'.ofReference with
      | false => exact .inr ⟨.tree hbad hparse hfirst hf', Failure.diagnosis_ne href hf'⟩
      | true =>
        rw [hfaults, List.filter_cons_of_pos hf', List.head?_cons] at h
        refine .inl ⟨?_, (Option.some.inj h).symm⟩
        rintro (⟨hstuck, -⟩ | ⟨-, hparse'⟩ | ⟨-, hparse', hfirst', hother⟩)
        · rw [(Expr.parse_eq_ok.1 hparse).1] at hstuck
          cases hstuck
        · rw [hparse] at hparse'
          cases hparse'
        · obtain rfl := Except.ok.inj (hparse.symm.trans hparse')
          obtain rfl := Option.some.inj (hfirst.symm.trans hfirst')
          rw [hf'] at hother
          cases hother

/-- **A bad character** is reported by a cell if every token before it can follow. -/
theorem compared_of_stuck {c : Char} {q : Nat}
    (hvalues : ∀ t ∈ (lex body).tokens, ∃ v, t.value = .ok v)
    (hstuck : (lex body).stuck? = some (c, q)) :
    Compared room body (.rejected (.unexpectedCharacter c q)) := by
  have hgood := not_badReference hvalues
  by_cases hviable : Viable (lex body).tokens
  · have hparse : Expr.parse body = .error (.unexpectedCharacter c q) :=
      Expr.parse_eq_error.2 (.inr (.inl ⟨viable_iff_run.1 hviable, c, q, hstuck, rfl⟩))
    refine ⟨_, (ofBody_of_parse_error hparse).1, .inl ⟨?_, rfl⟩⟩
    rintro (⟨-, hnot⟩ | ⟨hbad, -⟩ | ⟨hbad, -⟩)
    · exact hnot hviable
    · exact hgood hbad
    · exact hgood hbad
  · cases hrun : (State.operand []).run (lex body).tokens with
    | ok s => exact absurd (viable_iff_run.2 ⟨s, hrun⟩) hviable
    | error r =>
      obtain ⟨before, t, after, -, -, -, rfl⟩ := run_eq_error_iff.1 hrun
      have hparse : Expr.parse body = .error (.unexpectedToken t.lexeme.text t.position) :=
        Expr.parse_eq_error.2 (.inl hrun)
      exact ⟨_, (ofBody_of_parse_error hparse).1,
        .inr ⟨.character hstuck hviable, diagnosis_unexpected_ne c q _ _⟩⟩

theorem compared_of_tokenize (room : Nat) (h : tokenize body = .error f) : Compared room body f := by
  rcases tokenize_eq_error.1 h with hfirst | ⟨hvalues, c, q, hstuck, rfl⟩
  · exact compared_of_reference (head?_flatMap_faults.2 hfirst)
  · exact compared_of_stuck hvalues hstuck

theorem examine_eq_error : examine room text = .error f ↔
    tokenize (dropEquals text) = .error f ∨
      (∃ valued, tokenize (dropEquals text) = .ok valued) ∧
        Expr.ofBody room (dropEquals text) = .error f := by
  unfold examine
  simp only [bind_eq_error]
  constructor
  · rintro (h | ⟨valued, hvalued, h | ⟨e, -, h⟩⟩)
    · exact .inl h
    · exact .inr ⟨⟨valued, hvalued⟩, h⟩
    · cases h
  · rintro (h | ⟨⟨valued, hvalued⟩, h⟩)
    · exact .inl h
    · exact .inr ⟨valued, hvalued, .inl h⟩

/-- **Examinations and cells** reject the same texts. Their diagnoses are the same just if nothing
else comes before a fault of the tokens; otherwise an examination reports the first fault of the
tokens. -/
theorem examine_diagnosis (room : Nat) (text : String) :
    ((∃ f, examine room text = .error f) ↔ ∃ f, Expr.ofBody room (dropEquals text) = .error f) ∧
    ∀ f f', examine room text = .error f → Expr.ofBody room (dropEquals text) = .error f' →
      (f.diagnosis = f'.diagnosis ↔ ¬ Overtaken room (dropEquals text)) ∧
      (¬ Overtaken room (dropEquals text) → f = f') ∧
      (Overtaken room (dropEquals text) → tokenize (dropEquals text) = .error f) := by
  refine ⟨⟨?_, ?_⟩, fun f f' hf hf' => ?_⟩
  · rintro ⟨f, hf⟩
    rcases examine_eq_error.1 hf with htokens | ⟨-, hbody⟩
    · obtain ⟨f', hf', -⟩ := compared_of_tokenize room htokens
      exact ⟨f', hf'⟩
    · exact ⟨f, hbody⟩
  · rintro ⟨f', hf'⟩
    cases hx : examine room text with
    | error f => exact ⟨f, rfl⟩
    | ok x =>
      obtain ⟨-, e, -, he, -⟩ := examine_eq_ok.1 hx
      rw [hf'] at he
      cases he
  · rcases examine_eq_error.1 hf with htokens | ⟨⟨valued, hvalued⟩, hbody⟩
    · obtain ⟨f₁, hf₁, hcases⟩ := compared_of_tokenize room htokens
      obtain rfl := Except.error.inj (hf'.symm.trans hf₁)
      rcases hcases with ⟨hnot, rfl⟩ | ⟨hovertaken, hne⟩
      · exact ⟨iff_of_true rfl hnot, fun _ => rfl, fun _ => htokens⟩
      · exact ⟨iff_of_false hne (not_not_intro hovertaken), absurd hovertaken, fun _ => htokens⟩
    · obtain rfl := Except.error.inj (hf'.symm.trans hbody)
      have hnot := not_overtaken_of_tokenize room hvalued
      exact ⟨iff_of_true rfl hnot, fun _ => rfl, fun h => absurd h hnot⟩

/-- Two operands before a bad character, and two references to row zero. -/
theorem examine_diagnosis_two_operands :
    examine roomLimit "A1 B2 #" = .error (.rejected (.unexpectedCharacter '#' 6)) ∧
    Expr.ofBody roomLimit "A1 B2 #" = .error (.rejected (.unexpectedToken "B2" 3)) ∧
    Overtaken roomLimit "A1 B2 #" ∧
    tokenize "A1 B2 #" = .error (.rejected (.unexpectedCharacter '#' 6)) ∧
    examine roomLimit "=SUM(A0,B2:C0)" = .error (.rejected (.invalidReference "A0" 4)) ∧
    Expr.ofBody roomLimit "SUM(A0,B2:C0)" = .error (.rejected (.invalidReference "A0" 4)) ∧
    ¬ Overtaken roomLimit "SUM(A0,B2:C0)" := by
  have hdrop : dropEquals "A1 B2 #" = "A1 B2 #" := by cbv
  have hdrop' : dropEquals "=SUM(A0,B2:C0)" = "SUM(A0,B2:C0)" := by cbv
  have hexamined : examine roomLimit "A1 B2 #" =
      .error (.rejected (.unexpectedCharacter '#' 6)) := by cbv
  have hbody : Expr.ofBody roomLimit (dropEquals "A1 B2 #") =
      .error (.rejected (.unexpectedToken "B2" 3)) := by cbv
  have hexamined' : examine roomLimit "=SUM(A0,B2:C0)" =
      .error (.rejected (.invalidReference "A0" 4)) := by cbv
  have hbody' : Expr.ofBody roomLimit (dropEquals "=SUM(A0,B2:C0)") =
      .error (.rejected (.invalidReference "A0" 4)) := by cbv
  obtain ⟨hdiffer, -, htokens⟩ := (examine_diagnosis roomLimit "A1 B2 #").2 _ _ hexamined hbody
  have hovertaken := not_not.1 (mt hdiffer.2 (diagnosis_unexpected_ne '#' 6 3 "B2"))
  obtain ⟨hagree, -⟩ := (examine_diagnosis roomLimit "=SUM(A0,B2:C0)").2 _ _ hexamined' hbody'
  have hnot := hagree.1 rfl
  have hreport := htokens hovertaken
  rw [hdrop] at hbody hovertaken hreport
  rw [hdrop'] at hbody' hnot
  exact ⟨hexamined, hbody, hovertaken, hreport, hexamined', hbody', hnot⟩

/-- **An examination can report something else than the cell**: the bad character behind the two
operands, not the second operand. -/
theorem examine_diagnosis_differs : ¬ ∀ text f, examine roomLimit text = .error f →
    ∃ f', Expr.ofBody roomLimit (dropEquals text) = .error f' ∧ f.diagnosis = f'.diagnosis := by
  intro h
  have hexamined : examine roomLimit "A1 B2 #" =
      .error (.rejected (.unexpectedCharacter '#' 6)) := by cbv
  have hbody : Expr.ofBody roomLimit (dropEquals "A1 B2 #") =
      .error (.rejected (.unexpectedToken "B2" 3)) := by cbv
  obtain ⟨f', hf', hsame⟩ := h _ _ hexamined
  obtain rfl := Except.error.inj (hbody.symm.trans hf')
  exact diagnosis_unexpected_ne '#' 6 3 "B2" hsame

end Spreadsheet.Formula
