import Spreadsheet.Proofs.Formula.Cutting
import Spreadsheet.Proofs.Formula.Leaves
import Spreadsheet.Tooling

/-!
# Tokens and trees agree

A body that is accepted is cut into tokens that all have values, and these say the same as its
tree: the leaves, the functions that it calls and the rectangles that it reads, in their order. An
examination succeeds just if the body is accepted, and describes its tree.

* `Agrees`; `Agrees.of_parse`: what values of tokens say of a tree;
* `exists_valued_of_ofBody`: accepted bodies have values for all tokens;
* **`examine_agrees`**: accepted bodies and examinations.
-/

namespace Spreadsheet.Formula

open Reference (Parts)

variable {room : Nat} {body text : String} {e : Expr} {ts : List Token}
variable {valued : List (Token × TokenValue)}

/-! ## Values of tokens -/

/-- The name that is the value of a token. -/
def TokenValue.name? : TokenValue → Option String
  | name upper => some upper
  | number _ | cell _ | range .. | punctuation => none

/-- The rectangle that is the value of a token; a single cell is both of its corners. -/
def TokenValue.rectangle? : TokenValue → Option (Reference × Reference)
  | cell r => some (r, r)
  | range first last => some (first, last)
  | number _ | name _ | punctuation => none

/-- Tokens with their values say the same as a tree. -/
structure Agrees (valued : List (Token × TokenValue)) (e : Expr) : Prop where
  leaves : e.leaves = (valued.map (·.1)).flatMap Token.leaf
  functions : e.functions = valued.filterMap (·.2.name?)
  references : e.references = .ok (valued.filterMap (·.2.rectangle?))

theorem Token.function_eq {t : Token} {v : TokenValue} (h : t.value = .ok v) :
    t.function = v.name?.toList := by
  obtain ⟨l, position⟩ := t
  cases l with
  | number | name | symbol =>
    obtain rfl := Except.ok.inj h
    rfl
  | cell p =>
    obtain ⟨r, -, h⟩ := bind_eq_ok.1 h
    obtain rfl := Except.ok.inj h
    rfl
  | range first last =>
    obtain ⟨r, -, h⟩ := bind_eq_ok.1 h
    obtain ⟨r', -, h⟩ := bind_eq_ok.1 h
    obtain rfl := Except.ok.inj h
    rfl

theorem Valued.functions (h : Valued ts valued) :
    ts.flatMap Token.function = valued.filterMap (·.2.name?) := by
  induction h with
  | nil => rfl
  | cons hv _ ih =>
    rw [List.flatMap_cons, ih, Token.function_eq hv.2]
    rename_i v _ _ _
    cases hname : v.2.name? <;> simp [hname]

/-- The references that the corners of a rectangle denote. -/
def resolveCorners (q : Parts × Parts × Nat) : Except Failure (Reference × Reference) := do
  return (← resolve q.2.2 q.1, ← resolve q.2.2 q.2.1)

theorem Expr.references_eq (e : Expr) : e.references = e.corners.mapM resolveCorners := rfl

theorem Token.mapM_corners {t : Token} {v : TokenValue} (h : t.value = .ok v) :
    t.corners.mapM resolveCorners = .ok v.rectangle?.toList := by
  obtain ⟨l, position⟩ := t
  cases l with
  | number | name | symbol =>
    obtain rfl := Except.ok.inj h
    rfl
  | cell p =>
    obtain ⟨r, hr, h⟩ := bind_eq_ok.1 h
    obtain rfl := Except.ok.inj h
    simp only [Token.corners, List.mapM_cons, resolveCorners, hr]
    rfl
  | range first last =>
    obtain ⟨r, hr, h⟩ := bind_eq_ok.1 h
    obtain ⟨r', hr', h⟩ := bind_eq_ok.1 h
    obtain rfl := Except.ok.inj h
    simp only [Token.corners, List.mapM_cons, resolveCorners, hr, hr']
    rfl

theorem Valued.references (h : Valued ts valued) :
    (ts.flatMap Token.corners).mapM resolveCorners = .ok (valued.filterMap (·.2.rectangle?)) := by
  induction h with
  | nil => rfl
  | cons hv _ ih =>
    rename_i v _ _ _
    rw [List.flatMap_cons, List.mapM_append, Token.mapM_corners hv.2, ih]
    cases hrectangle : v.2.rectangle? <;> simp [hrectangle, bind, Except.bind, pure, Except.pure]

theorem Agrees.of_parse (h : Expr.parse body = .ok e) (hvalued : Valued (lex body).tokens valued) :
    Agrees valued e where
  leaves := by rw [hvalued.tokens, Expr.leaves_of_parse h]
  functions := by rw [Expr.functions_of_parse h, hvalued.functions]
  references := by rw [Expr.references_eq, Expr.corners_of_parse h, hvalued.references]

/-! ## Accepted bodies -/

theorem Token.exists_value_of_corners {t : Token}
    (h : ∀ q ∈ t.corners, Names q.1 ∧ Names q.2.1) : ∃ v, t.value = .ok v := by
  refine Token.exists_value_iff.2 fun p hp => ?_
  obtain ⟨l, position⟩ := t
  cases l with
  | number | name | symbol => cases hp
  | cell q => exact List.mem_singleton.1 hp ▸ (h _ List.mem_cons_self).1
  | range first last =>
    rcases List.mem_pair.1 hp with rfl | rfl
    · exact (h _ List.mem_cons_self).1
    · exact (h _ List.mem_cons_self).2

/-- **An accepted body** has values for all its tokens. -/
theorem exists_valued_of_ofBody (h : Expr.ofBody room body = .ok e) :
    ∃ valued, tokenize body = .ok valued ∧ Agrees valued e := by
  obtain ⟨hparse, hvalid, -⟩ := Expr.ofBody_eq_ok_iff.1 h
  have hnames := Expr.names_of_valid e false hvalid
  rw [Expr.corners_of_parse hparse] at hnames
  obtain ⟨valued, hvalued⟩ := exists_valued fun t ht => Token.exists_value_of_corners fun q hq =>
    hnames q (List.mem_flatMap.2 ⟨t, ht, hq⟩)
  exact ⟨valued, tokenize_eq_ok.2 ⟨(Expr.parse_eq_ok.1 hparse).1, hvalued⟩, .of_parse hparse hvalued⟩

theorem examine_eq_ok {x : Examination} : examine room text = .ok x ↔ ∃ valued e,
    tokenize (dropEquals text) = .ok valued ∧ Expr.ofBody room (dropEquals text) = .ok e ∧
      x = ⟨valued.map (·.1), e.functions⟩ := by
  unfold examine
  constructor
  · intro h
    obtain ⟨valued, hvalued, h⟩ := bind_eq_ok.1 h
    obtain ⟨e, he, h⟩ := bind_eq_ok.1 h
    exact ⟨valued, e, hvalued, he, (Except.ok.inj h).symm⟩
  · rintro ⟨valued, e, hvalued, he, rfl⟩
    exact bind_eq_ok.2 ⟨valued, hvalued, bind_eq_ok.2 ⟨e, he, rfl⟩⟩

/-- **Examinations and trees agree.** A body that is accepted is cut into tokens which together with
their values say the same as its tree. An examination succeeds just if the body is accepted, and
its tokens and functions are those of the tree. -/
theorem examine_agrees (room : Nat) :
    (∀ body e, Expr.ofBody room body = .ok e →
      ∃ valued, tokenize body = .ok valued ∧ Agrees valued e) ∧
    ∀ text, ((∃ x, examine room text = .ok x) ↔ ∃ e, Expr.ofBody room (dropEquals text) = .ok e) ∧
      ∀ x, examine room text = .ok x → ∃ valued e, tokenize (dropEquals text) = .ok valued ∧
        Expr.ofBody room (dropEquals text) = .ok e ∧ Agrees valued e ∧
        x.tokens = valued.map (·.1) ∧ x.functions = e.functions := by
  refine ⟨fun body e => exists_valued_of_ofBody, fun text => ⟨⟨?_, ?_⟩, ?_⟩⟩
  · rintro ⟨x, hx⟩
    obtain ⟨valued, e, -, he, -⟩ := examine_eq_ok.1 hx
    exact ⟨e, he⟩
  · rintro ⟨e, he⟩
    obtain ⟨valued, hvalued, -⟩ := exists_valued_of_ofBody he
    exact ⟨_, examine_eq_ok.2 ⟨valued, e, hvalued, he, rfl⟩⟩
  · intro x hx
    obtain ⟨valued, e, hvalued, he, rfl⟩ := examine_eq_ok.1 hx
    obtain ⟨valued', hvalued', hagrees⟩ := exists_valued_of_ofBody he
    obtain rfl := Except.ok.inj (hvalued.symm.trans hvalued')
    exact ⟨valued, e, hvalued, he, hagrees, rfl, rfl⟩

/-- A call with a range and a single cell among its arguments; the parentheses leave no trace. -/
theorem examine_agrees_sum : ∃ e valued x,
    Expr.ofBody roomLimit "-SUM(A1:B2,(c3))" = .ok e ∧
    tokenize "-SUM(A1:B2,(c3))" = .ok valued ∧ Agrees valued e ∧
    examine roomLimit "=-SUM(A1:B2,(c3))" = .ok x ∧ x.tokens = valued.map (·.1) ∧
    x.functions = e.functions ∧ x.functions = ["SUM"] := by
  have hbody : Expr.ofBody roomLimit "-SUM(A1:B2,(c3))" = .ok (.signed .negative
      (.call ['S', 'U', 'M'] [.range ⟨false, ['A'], false, ['1']⟩ ⟨false, ['B'], false, ['2']⟩ 5,
        .cell ⟨false, ['c'], false, ['3']⟩ 12])) := by cbv
  have hdrop : dropEquals "=-SUM(A1:B2,(c3))" = "-SUM(A1:B2,(c3))" := by cbv
  obtain ⟨haccepted, hexamined⟩ := examine_agrees roomLimit
  obtain ⟨hiff, hdescribes⟩ := hexamined "=-SUM(A1:B2,(c3))"
  rw [hdrop] at hiff hdescribes
  obtain ⟨x, hx⟩ := hiff.2 ⟨_, hbody⟩
  obtain ⟨valued, e, hvalued, he, -, htokens, hfunctions⟩ := hdescribes x hx
  obtain rfl := Except.ok.inj (hbody.symm.trans he)
  obtain ⟨valued', hvalued', hagrees⟩ := haccepted _ _ hbody
  obtain rfl := Except.ok.inj (hvalued.symm.trans hvalued')
  exact ⟨_, valued, x, hbody, hvalued, hagrees, hx, htokens, hfunctions, hfunctions.trans rfl⟩

end Spreadsheet.Formula
