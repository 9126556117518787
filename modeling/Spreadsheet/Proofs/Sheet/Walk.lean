import Mathlib.Data.List.Pairwise
import Spreadsheet.Proofs.Sheet.Soundness

/-!
# Evaluating dependencies first

A walk over the graph of references evaluates a formula only when every cell that it refers to is
known or on the path of the walk, so that no reference is followed.

* `run_cellValue_known`: a reference that is answered at once;
* **`boundedValue_meets`**: one formula of the walk; `boundedValue_keeps`: whatever is known;
* `Pending`, `Route`: what is still to be done, and how far a walk has come; `Walking`: what holds
  all along; `Walking.leave`, `Walking.skip`, `Walking.enter`: one step;
* **`walk_meets`**: a walk ends with sound results that know its first cell;
* **`valueAt_meets`**: the value of any cell.
-/

namespace Spreadsheet

open Formula (CellValue Outcome Failure)

namespace Grid

variable {g : Grid} {room : Nat} {c : Cell} {v : CellValue} {body : String} {r r' : Results}
  {path : List Cell}

/-! ## Dependencies that are found -/

theorem mem_within {a b d : Cell} (hd : d ∈ g.size) :
    d ∈ g.within a b ↔ d ∈ Formula.rectangle a b := by
  have := Size.mem_iff.1 hd
  rw [Formula.mem_rectangle, within]
  simp only [List.mem_flatMap, List.mem_map, Formula.mem_span]
  constructor
  · rintro ⟨i, hi, j, hj, rfl⟩
    dsimp only
    omega
  · rintro ⟨hr, hk⟩
    exact ⟨d.row, by omega, d.col, by omega, rfl⟩

theorem dependencies_of_ofBody {e : Formula.Expr} (he : Formula.Expr.ofBody room body = .ok e) :
    g.dependencies room body =
      .ok (e.corners.flatMap fun q => g.within q.1.target q.2.1.target) := by
  obtain ⟨refs, hrefs, hcells⟩ :=
    Formula.mapM_resolve (Formula.Expr.names_of_valid e false (Formula.Expr.valid_of_ofBody he))
  have hwithin := congrArg (List.flatMap fun q : Cell × Cell => g.within q.1 q.2) hcells
  rw [List.flatMap_map, List.flatMap_map] at hwithin
  unfold dependencies
  rw [he]
  simp only [Formula.Expr.references, hrefs]
  exact congrArg Except.ok hwithin

/-- The cells found for a formula have to do with the extent of the grid only. -/
theorem dependencies_of_size {g' : Grid} (h : g'.size = g.size) (room : Nat) (body : String) :
    g'.dependencies room body = g.dependencies room body := by
  simp only [dependencies, within, h]

/-- **The cells found for a formula** are its dependencies, other texts aside. -/
theorem dependencies_eq_ok {found : List Cell} (hb : CellText.body? (g.text c) = some body)
    (h : g.dependencies room body = .ok found) {d : Cell}
    (hd : CellText.isFormula (g.text d) = true) : d ∈ found ↔ g.DependsOn room c d := by
  unfold dependencies at h
  rcases he : Formula.Expr.ofBody room body with f | e
  · have hno : ¬ g.DependsOn room c d := fun hdep => by
      obtain ⟨body', e, hb', he'⟩ := hdep.source
      obtain rfl : body = body' := Option.some.inj (hb.symm.trans hb')
      rw [he] at he'
      cases he'
    have hnil : found = [] := by
      rw [he] at h
      cases f <;> first | exact (Except.ok.inj h).symm | cases h
    simp [hnil, hno]
  · obtain ⟨refs, hrefs, hcells⟩ :=
      Formula.Expr.references_of_valid (Formula.Expr.valid_of_ofBody he)
    rw [he] at h
    simp only [hrefs] at h
    obtain rfl : _ = found := Except.ok.inj h
    rw [dependsOn_iff hb he, ← hcells]
    simp only [List.mem_flatMap, mem_within (mem_of_isFormula hd), hd, true_and]

theorem dependencies_eq_error {f : Failure} (h : g.dependencies room body = .error f) :
    ∃ t, f = .tooLong t ∧ Formula.Expr.ofBody room body = .error (.tooLong t) := by
  unfold dependencies at h
  rcases he : Formula.Expr.ofBody room body with f' | e
  · rw [he] at h
    cases f' with
    | tooLong t => exact ⟨t, (Except.error.inj h).symm, rfl⟩
    | rejected q => cases h
    | tooDeep => cases h
  · obtain ⟨refs, hrefs, _⟩ :=
      Formula.Expr.references_of_valid (Formula.Expr.valid_of_ofBody he)
    rw [he] at h
    simp only [hrefs] at h
    cases h

theorem mem_formulas : c ∈ g.formulas ↔ CellText.isFormula (g.text c) = true := by
  rw [formulas, Std.HashSet.mem_ofList, List.contains_iff_mem, List.mem_filter, Size.mem_toList]
  exact ⟨And.right, fun h => ⟨mem_of_isFormula h, h⟩⟩

/-! ## References that are answered at once -/

/-- The answer to a reference that is answered at once. -/
def lookup (g : Grid) (r : Results) (c : Cell) : CellValue :=
  match r.memo[c]? with
  | some v => v
  | none =>
    if CellText.isFormula (g.text c) then .result (.error .circular) else .text (g.text c)

theorem run_cellValue_known {room' : Nat} (h : c ∈ r.memo ∨ c ∈ path ∨
    ¬ CellText.isFormula (g.text c) = true) :
    (g.cellValue room' path c).run r = (.ok (g.lookup r c), r) := by
  unfold lookup
  rw [cellValue, ExceptT.run_get_bind]
  cases hm : r.memo[c]? with
  | some v => rfl
  | none =>
    simp only
    cases hb : CellText.body? (g.text c) with
    | none =>
      rw [if_neg (by simp [CellText.isFormula, hb])]
      rfl
    | some body =>
      have hf := CellText.isFormula_iff.2 ⟨body, hb⟩
      have hp : c ∈ path := by
        rcases h with h | h | h
        · rw [Std.HashMap.mem_iff_isSome_getElem?, hm] at h
          cases h
        · exact h
        · exact absurd hf h
      simp only [hp, if_true, hf]
      rfl

theorem cellValue_known {room' : Nat} (h : c ∈ r.memo ∨ c ∈ path ∨
    ¬ CellText.isFormula (g.text c) = true) :
    (g.cellValue room' path c).Meets r (fun v r' => r' = r ∧ g.Answered path c v r)
      fun _ _ => False := by
  unfold ExceptT.Meets
  rw [run_cellValue_known h]
  refine ⟨rfl, ?_⟩
  unfold lookup
  cases hm : r.memo[c]? with
  | some v => exact .inr (.inl hm)
  | none =>
    by_cases hf : CellText.isFormula (g.text c) = true
    · have hmem : c ∉ r.memo := by simp [Std.HashMap.mem_iff_isSome_getElem?, hm]
      have hp := (h.resolve_left hmem).resolve_right (not_not_intro hf)
      exact .inr (.inr ⟨hf, hp, by simp only [if_pos hf]⟩)
    · exact .inl ⟨hf, by simp only [if_neg hf]⟩

/-- A cell without a formula is answered with its text. -/
theorem cellValue_of_not_isFormula {room' : Nat} (h : ¬ CellText.isFormula (g.text c) = true)
    (hr : r.memo[c]? = none) :
    (g.cellValue room' path c).run r = (.ok (.text (g.text c)), r) := by
  rw [run_cellValue_known (.inr (.inr h)), lookup, hr]
  simp only [if_neg h]

/-- **One formula, its references answered at once.** No reference is followed: all that changes is
what is noted about the cell. -/
theorem boundedValue_meets_of {R : Outcome → Outcome → Prop} {ρ : Cell → CellValue}
    (hR : Formula.Congruence R) (hb : CellText.body? (g.text c) = some body)
    (ha : ∀ e, Formula.Expr.ofBody room body = .ok e →
      Formula.Answers (fun r' => r' = r) (fun _ => False) R ρ
        (fun level d => g.cellValue (room - referenceCost level) (c :: path) d) (e.depth ρ)
        e.cells) :
    (g.boundedValue room path c).Meets r
      (fun v r' => (match Formula.verdict room ρ body with
          | .ok x => ∃ y, v = .result y ∧ R y x
          | .error f => v = .failed ∧ ∀ t, f ≠ .tooLong t) ∧
        r' = r.note c (Formula.verdict room ρ body))
      fun f r' => r' = r ∧ g.Unreadable room c f := by
  unfold boundedValue
  rw [hb]
  simp only
  rw [ExceptT.meets_tryCatch]
  refine (evaluate_meets hR (fun _ => not_false) ha rfl).imp ?_ ?_
  · rintro v _ ⟨hv, _, rfl, rfl⟩
    refine ⟨?_, rfl⟩
    cases hverdict : Formula.verdict room ρ body with
    | ok x =>
      rw [hverdict] at hv
      exact hv
    | error f =>
      rw [hverdict] at hv
      obtain ⟨rfl, q, rfl⟩ := hv
      exact ⟨rfl, nofun⟩
  · rintro f _ ⟨rfl, hf⟩
    obtain ⟨hf, hq⟩ := hf.resolve_left not_false
    cases f with
    | rejected q => exact absurd rfl (hq q)
    | tooDeep =>
      rw [hf]
      exact ⟨⟨rfl, nofun⟩, rfl⟩
    | tooLong t =>
      exact ⟨rfl, body, t, hb, Formula.ofBody_of_verdict hf (by simp), rfl⟩

/-- A cell that a formula reads is answered at once if the formula's dependencies are known or on
the path. -/
theorem known_of_mem_cells {e : Formula.Expr} {d : Cell}
    (hb : CellText.body? (g.text c) = some body) (he : Formula.Expr.ofBody room body = .ok e)
    (hknown : ∀ d, g.DependsOn room c d → d ∈ r.memo ∨ d ∈ c :: path) (hd : d ∈ e.cells) :
    d ∈ r.memo ∨ d ∈ c :: path ∨ ¬ CellText.isFormula (g.text d) = true := by
  by_cases hf : CellText.isFormula (g.text d) = true
  · exact (hknown d ((dependsOn_iff hb he).2 ⟨hf, hd⟩)).imp id .inl
  · exact .inr (.inr hf)

/-- **The formula of a cell whose dependencies are known or on the path** gets a right value. -/
theorem boundedValue_meets (hb : CellText.body? (g.text c) = some body) (hr : r.Sound g room)
    (hpath : g.Leads room path c)
    (hknown : ∀ d, g.DependsOn room c d → d ∈ r.memo ∨ d ∈ c :: path) :
    (g.boundedValue room path c).Meets r
      (fun v r' => g.Right room c v ∧ r' = r.note c (g.verdict room body))
      fun f r' => r' = r ∧ g.Unreadable room c f := by
  refine (boundedValue_meets_of (Formula.congruence_agree (g.ReachesCycle room c)) hb ?_).imp
    (fun v r' ⟨hv, hr'⟩ => ⟨⟨body, hb, hv⟩, hr'⟩) fun _ _ => id
  rintro e he d hd level _ _ rfl
  have hlead := hpath.cons hb he hd
  refine (cellValue_known (known_of_mem_cells hb he hknown hd)).imp ?_ fun _ _ => False.elim
  rintro v _ ⟨rfl, hv⟩
  exact ⟨rfl, (hv.answer hr hlead).agree hb he hd⟩

/-- The formula of a cell whose dependencies are known or on the path makes no other cell known,
whatever is known. -/
theorem boundedValue_keeps (hb : CellText.body? (g.text c) = some body)
    (hknown : ∀ d, g.DependsOn room c d → d ∈ r.memo ∨ d ∈ c :: path) :
    (g.boundedValue room path c).Meets r (fun _ r' => r'.memo = r.memo)
      fun f r' => r' = r ∧ g.Unreadable room c f := by
  refine (boundedValue_meets_of (ρ := g.lookup r) Formula.congruence_eq hb ?_).imp
    (fun _ r' ⟨_, hr'⟩ => by rw [hr', Results.memo_note]) fun _ _ => id
  rintro e he d hd level _ _ rfl
  unfold ExceptT.Meets
  rw [run_cellValue_known (known_of_mem_cells hb he hknown hd)]
  exact ⟨rfl, rfl⟩

/-! ## The walk -/

/-- What is still to be done on a path. The cells to be entered depend on the last cell of the path,
and a cell is left when all it depends on is settled: known, on the path, or entered before. -/
def Pending (g : Grid) (room : Nat) (settled : Cell → Prop) (path : List Cell) : List Visit → Prop
  | [] => path = []
  | .enter c :: stack => (∀ p ∈ path.head?, g.DependsOn room p c) ∧
      g.Pending room (fun d => d = c ∨ settled d) path stack
  | .leave c :: stack => path.head? = some c ∧ (∀ d, g.DependsOn room c d → settled d) ∧
      g.Pending room settled path.tail stack

theorem Pending.mono {settled settled' : Cell → Prop} : ∀ {stack : List Visit} {path : List Cell},
    g.Pending room settled path stack → (∀ d, settled d → settled' d) →
      g.Pending room settled' path stack
  | [], _, h, _ => h
  | .enter _ :: _, _, h, hs => ⟨h.1, h.2.mono fun d => Or.imp id (hs d)⟩
  | .leave _ :: _, _, h, hs => ⟨h.1, fun d hd => hs d (h.2.1 d hd), h.2.2.mono hs⟩

theorem Pending.enter_append {settled : Cell → Prop} {stack : List Visit} {path : List Cell} :
    ∀ {cells : List Cell}, (∀ d ∈ cells, ∀ p ∈ path.head?, g.DependsOn room p d) →
      g.Pending room (fun d => d ∈ cells ∨ settled d) path stack →
        g.Pending room settled path (cells.map .enter ++ stack)
  | [], _, h => h.mono fun d hd => hd.resolve_left List.not_mem_nil
  | c :: cells, hc, h => by
    refine ⟨hc c List.mem_cons_self, Pending.enter_append (fun d hd => hc d (.tail _ hd)) ?_⟩
    refine h.mono fun d hd => ?_
    rw [List.mem_cons, or_assoc] at hd
    tauto

/-- How far a walk from a cell has come, whatever is known. Every formula cell has not been entered
yet, or is on the path, or is known. -/
structure Route (g : Grid) (room : Nat) (start : Cell) (unvisited : Std.HashSet Cell)
    (path : List Cell) (stack : List Visit) (r : Results) : Prop where
  formulas : ∀ c ∈ unvisited, CellText.isFormula (g.text c) = true
  covered : ∀ c, CellText.isFormula (g.text c) = true → c ∈ unvisited ∨ c ∈ path ∨ c ∈ r.memo
  onPath : ∀ c ∈ path, CellText.isFormula (g.text c) = true
  fresh : ∀ c ∈ path, c ∉ unvisited ∧ c ∉ r.memo
  nodup : path.Nodup
  pending : g.Pending room (fun d => d ∈ r.memo ∨ d ∉ unvisited) path stack
  reached : start ∈ r.memo ∨ start ∈ path ∨ .enter start ∈ stack

variable {start : Cell} {r₀ : Results} {unvisited : Std.HashSet Cell} {stack : List Visit}

/-- Leaving a cell: it is known then. -/
theorem Route.leave (h : g.Route room start unvisited (c :: path) (.leave c :: stack) r)
    (hmem : ∀ d, d ∈ r'.memo ↔ c = d ∨ d ∈ r.memo) :
    g.Route room start unvisited path stack r' :=
  have hnot : c ∉ path := (List.nodup_cons.1 h.nodup).1
  { formulas := h.formulas
    covered := fun d hd => by
      have := h.covered d hd
      rw [hmem]
      rw [List.mem_cons] at this
      tauto
    onPath := fun d hd => h.onPath d (.tail _ hd)
    fresh := fun d hd => by
      obtain ⟨h1, h2⟩ := h.fresh d (.tail _ hd)
      rw [hmem]
      exact ⟨h1, fun h' => h'.elim (fun e => hnot (e ▸ hd)) h2⟩
    nodup := (List.nodup_cons.1 h.nodup).2
    pending := h.pending.2.2.mono fun d hd => by rw [hmem]; tauto
    reached := by
      have := h.reached
      rw [hmem]
      simp only [List.mem_cons, reduceCtorEq, false_or] at this
      tauto }

/-- Passing a cell that is known or on the path. -/
theorem Route.skip (h : g.Route room start unvisited path (.enter c :: stack) r)
    (hstart : CellText.isFormula (g.text start) = true) (hc : c ∈ r.memo ∨ c ∉ unvisited) :
    g.Route room start unvisited path stack r :=
  { h with
    pending := h.pending.2.mono fun d hd => hd.elim (fun e => e ▸ hc) id
    reached := by
      rcases h.reached with h1 | h1 | h1
      · exact .inl h1
      · exact .inr (.inl h1)
      · rcases List.mem_cons.1 h1 with e | h1
        · obtain rfl : start = c := by simpa using e
          have := h.covered start hstart
          tauto
        · exact .inr (.inr h1) }

/-- What a cell depends on is entered before it is left. -/
theorem Route.pending_enter (h : g.Route room start unvisited path (.enter c :: stack) r)
    (hb : CellText.body? (g.text c) = some body) {found : List Cell}
    (hfound : g.dependencies room body = .ok found) :
    g.Pending room (fun d => d ∈ r.memo ∨ d ∉ unvisited.erase c) (c :: path)
      ((found.filter (unvisited.erase c).contains).map .enter ++ .leave c :: stack) := by
  have hmem {d : Cell} (hd : d ∈ unvisited.erase c) : d ∈ unvisited :=
    (Std.HashSet.mem_erase.1 hd).2
  refine Pending.enter_append (fun d hd p hp => ?_) ⟨rfl, fun d hd => ?_, ?_⟩
  · obtain rfl : c = p := Option.some.inj hp
    obtain ⟨hd, hleft⟩ := List.mem_filter.1 hd
    have hd' := h.formulas d (hmem (Std.HashSet.mem_iff_contains.2 hleft))
    exact (dependencies_eq_ok hb hfound hd').1 hd
  · by_cases hleft : d ∈ unvisited.erase c
    · have hd' := (dependencies_eq_ok hb hfound hd.isFormula).2 hd
      exact .inl (List.mem_filter.2 ⟨hd', Std.HashSet.mem_iff_contains.1 hleft⟩)
    · exact .inr (.inr hleft)
  · refine h.pending.2.mono fun d hd => .inr ?_
    rcases hd with rfl | hd | hd
    · exact .inr fun h' => by simp at h'
    · exact .inl hd
    · exact .inr fun h' => hd (hmem h')

/-- Entering a cell. -/
theorem Route.enter (h : g.Route room start unvisited path (.enter c :: stack) r)
    (hc : c ∈ unvisited) (hm : c ∉ r.memo) (hb : CellText.body? (g.text c) = some body)
    {found : List Cell} (hfound : g.dependencies room body = .ok found) :
    g.Route room start (unvisited.erase c) (c :: path)
      ((found.filter (unvisited.erase c).contains).map .enter ++ .leave c :: stack) r :=
  have hmem : ∀ d, d ∈ unvisited.erase c ↔ c ≠ d ∧ d ∈ unvisited := fun d => by simp
  { formulas := fun d hd => h.formulas d ((hmem d).1 hd).2
    covered := fun d hd => by
      rw [hmem, List.mem_cons]
      have := h.covered d hd
      by_cases e : c = d
      · exact .inr (.inl (.inl e.symm))
      · tauto
    onPath := List.forall_mem_cons.2 ⟨h.formulas c hc, h.onPath⟩
    fresh := fun d hd => by
      rw [hmem]
      rcases List.mem_cons.1 hd with rfl | hd
      · exact ⟨fun h' => h'.1 rfl, hm⟩
      · exact ⟨fun h' => (h.fresh d hd).1 h'.2, (h.fresh d hd).2⟩
    nodup := List.nodup_cons.2 ⟨fun hp => (h.fresh c hp).1 hc, h.nodup⟩
    pending := h.pending_enter hb hfound
    reached := by
      rcases h.reached with h1 | h1 | h1
      · exact .inl h1
      · exact .inr (.inl (.tail _ h1))
      · rcases List.mem_cons.1 h1 with e | h1
        · obtain rfl : start = c := by simpa using e
          exact .inr (.inl List.mem_cons_self)
        · exact .inr (.inr (List.mem_append_right _ (.tail _ h1))) }

/-- A walk over a grid none of whose cells has been entered. -/
theorem Route.initial : g.Route room c g.formulas [] [.enter c] r where
  formulas _ hd := mem_formulas.1 hd
  covered _ hd := .inl (mem_formulas.2 hd)
  onPath _ hd := absurd hd List.not_mem_nil
  fresh _ hd := absurd hd List.not_mem_nil
  nodup := List.nodup_nil
  pending := ⟨fun _ hp => by simp at hp, rfl⟩
  reached := .inr (.inr List.mem_cons_self)

/-- All that a cell depends on is known or on the path when the cell is left. -/
theorem Route.settled (h : g.Route room start unvisited path (.leave c :: stack) r) {d : Cell}
    (hd : g.DependsOn room c d) : d ∈ r.memo ∨ d ∈ path := by
  have := h.pending.2.1 d hd
  have := h.covered d hd.isFormula
  tauto

/-- A walk from a cell, on results that extend those at its start. -/
structure Walking (g : Grid) (room : Nat) (start : Cell) (r₀ : Results)
    (unvisited : Std.HashSet Cell) (path : List Cell) (stack : List Visit) (r : Results) : Prop
    extends g.Route room start unvisited path stack r where
  sound : r.Sound g room
  extends_ : r₀.Extends g r
  chain : path.Pairwise fun a b => Relation.TransGen (g.DependsOn room) b a
  led : ∀ c, c ∈ path ∨ .enter c ∈ stack → Relation.ReflTransGen (g.DependsOn room) start c

/-- Leaving a cell: it is known then. -/
theorem Walking.leave (h : g.Walking room start r₀ unvisited (c :: path) (.leave c :: stack) r)
    (hb : CellText.body? (g.text c) = some body) (hv : g.Right room c v) :
    g.Walking room start r₀ unvisited path stack
      ((r.note c (g.verdict room body)).memoize c v) :=
  have hc : r.memo[c]? = none := Std.HashMap.getElem?_eq_none (h.fresh c List.mem_cons_self).2
  { toRoute := h.toRoute.leave fun d => by simp [Results.memoize, Std.HashMap.mem_insert]
    sound := (h.sound.note hb).memoize hb hv (by rw [Results.failures_note, if_pos rfl])
    extends_ := h.extends_.trans ((Results.Extends.refl g r).settle hc hb _ v)
    chain := (List.pairwise_cons.1 h.chain).2
    led := fun d hd => h.led d (hd.imp (.tail _) (.tail _)) }

/-- Passing a cell that is known or on the path. -/
theorem Walking.skip (h : g.Walking room start r₀ unvisited path (.enter c :: stack) r)
    (hstart : CellText.isFormula (g.text start) = true) (hc : c ∈ r.memo ∨ c ∉ unvisited) :
    g.Walking room start r₀ unvisited path stack r :=
  { h with
    toRoute := h.toRoute.skip hstart hc
    led := fun d hd => h.led d (hd.imp id (.tail _)) }

/-- The cells of the path lead to a cell that is entered from its last one. -/
theorem Walking.transGen (h : g.Walking room start r₀ unvisited path (.enter c :: stack) r)
    {p : Cell} (hp : p ∈ path) : Relation.TransGen (g.DependsOn room) p c := by
  obtain ⟨q, rest, rfl⟩ := List.exists_cons_of_ne_nil (List.ne_nil_of_mem hp)
  have hq : g.DependsOn room q c := h.pending.1 q rfl
  rcases List.mem_cons.1 hp with rfl | hp
  · exact .single hq
  · exact ((List.pairwise_cons.1 h.chain).1 p hp).tail hq

/-- What is to be entered is led to from the start. -/
theorem Walking.led_enter (h : g.Walking room start r₀ unvisited path (.enter c :: stack) r)
    (hb : CellText.body? (g.text c) = some body) {found : List Cell}
    (hfound : g.dependencies room body = .ok found) {d : Cell}
    (hd : d ∈ c :: path ∨
      .enter d ∈ (found.filter (unvisited.erase c).contains).map .enter ++ .leave c :: stack) :
    Relation.ReflTransGen (g.DependsOn room) start d := by
  have hc : Relation.ReflTransGen (g.DependsOn room) start c := h.led c (.inr List.mem_cons_self)
  rcases hd with hd | hd
  · rcases List.mem_cons.1 hd with rfl | hd
    · exact hc
    · exact h.led d (.inl hd)
  · rcases List.mem_append.1 hd with hd | hd
    · obtain ⟨e, he, hde⟩ := List.mem_map.1 hd
      obtain rfl : e = d := Visit.enter.inj hde
      obtain ⟨hfound', hleft⟩ := List.mem_filter.1 he
      have he' := h.formulas e (Std.HashSet.mem_erase.1 (Std.HashSet.mem_iff_contains.2 hleft)).2
      exact hc.tail ((dependencies_eq_ok hb hfound he').1 hfound')
    · exact h.led d (.inr (.tail _ ((List.mem_cons.1 hd).resolve_left nofun)))

/-- Entering a cell. -/
theorem Walking.enter (h : g.Walking room start r₀ unvisited path (.enter c :: stack) r)
    (hc : c ∈ unvisited) (hm : c ∉ r.memo) (hb : CellText.body? (g.text c) = some body)
    {found : List Cell} (hfound : g.dependencies room body = .ok found) :
    g.Walking room start r₀ (unvisited.erase c) (c :: path)
      ((found.filter (unvisited.erase c).contains).map .enter ++ .leave c :: stack) r where
  toRoute := h.toRoute.enter hc hm hb hfound
  sound := h.sound
  extends_ := h.extends_
  chain := List.pairwise_cons.2 ⟨fun _ hp => h.transGen hp, h.chain⟩
  led _ hd := h.led_enter hb hfound hd

/-! ## Its end -/

/-- A walk ends and its first cell is known then, or a row number is too long where it leads. -/
def Ends (g : Grid) (room : Nat) (start : Cell) (r₀ : Results) (unvisited : Std.HashSet Cell)
    (path : List Cell) (stack : List Visit) (r : Results) : Prop :=
  (g.walk room unvisited path stack).Meets r
    (fun _ r' => (r'.Sound g room ∧ r₀.Extends g r') ∧ start ∈ r'.memo)
    fun f r' => (r'.Sound g room ∧ r₀.Extends g r') ∧ g.Overlong room start f

theorem Walking.ends_nil (h : g.Walking room start r₀ unvisited path [] r) :
    g.Ends room start r₀ unvisited path [] r := by
  have hpath : path = [] := h.pending
  rw [Ends, walk, ExceptT.meets_pure]
  refine ⟨⟨h.sound, h.extends_⟩, ?_⟩
  simpa [hpath] using h.reached

theorem Walking.ends_leave (h : g.Walking room start r₀ unvisited path (.leave c :: stack) r)
    (hrest : ∀ {path r'}, g.Walking room start r₀ unvisited path stack r' →
      g.Ends room start r₀ unvisited path stack r') :
    g.Ends room start r₀ unvisited path (.leave c :: stack) r := by
  obtain ⟨rest, rfl⟩ := List.head?_eq_some_iff.1 h.pending.1
  have hchain := List.pairwise_cons.1 h.chain
  obtain ⟨body, hb⟩ := CellText.isFormula_iff.1 (h.onPath c List.mem_cons_self)
  rw [Ends, walk, ExceptT.meets_bind]
  refine (boundedValue_meets hb h.sound (fun _ => hchain.1) fun _ => h.settled).imp ?_ ?_
  · rintro v _ ⟨hv, rfl⟩
    rw [ExceptT.meets_bind, ExceptT.meets_modify]
    exact hrest (h.leave hb hv)
  · rintro f _ ⟨rfl, hf⟩
    exact ⟨⟨h.sound, h.extends_⟩, c, h.led c (.inl List.mem_cons_self), hf⟩

theorem Walking.ends_enter (h : g.Walking room start r₀ unvisited path (.enter c :: stack) r)
    (hstart : CellText.isFormula (g.text start) = true)
    (hskip : g.Walking room start r₀ unvisited path stack r →
      g.Ends room start r₀ unvisited path stack r)
    (henter : c ∈ unvisited → ∀ {stack'},
      g.Walking room start r₀ (unvisited.erase c) (c :: path) stack' r →
        g.Ends room start r₀ (unvisited.erase c) (c :: path) stack' r) :
    g.Ends room start r₀ unvisited path (.enter c :: stack) r := by
  rw [Ends, walk]
  split
  · rename_i hc
    rw [ExceptT.meets_bind, ExceptT.meets_get]
    by_cases hm : c ∈ r.memo
    · rw [if_pos (Std.HashMap.mem_iff_contains.1 hm)]
      exact hskip (h.skip hstart (.inl hm))
    · rw [if_neg (by rwa [← Std.HashMap.mem_iff_contains])]
      obtain ⟨body, hb⟩ := CellText.isFormula_iff.1 (h.formulas c hc)
      rw [hb, Option.getD_some, ExceptT.meets_bind, ExceptT.meets_ofExcept]
      rcases hfound : g.dependencies room body with f | found
      · obtain ⟨t, rfl, hlong⟩ := dependencies_eq_error hfound
        exact ⟨⟨h.sound, h.extends_⟩, c, h.led c (.inr List.mem_cons_self), body, t, hb, hlong, rfl⟩
      · exact henter hc (h.enter hc hm hb hfound)
  · exact hskip (h.skip hstart (.inr ‹_›))

theorem size_erase_lt (hc : c ∈ unvisited) : (unvisited.erase c).size < unvisited.size := by
  have hpos := Std.HashSet.isEmpty_eq_false_iff_exists_mem.2 ⟨c, hc⟩
  rw [Std.HashSet.isEmpty_eq_size_eq_zero] at hpos
  rw [Std.HashSet.size_erase, if_pos hc]
  simp at hpos
  omega

/-- **A walk ends, and its first cell is known then.** It fails only for a row number that is too
long. -/
theorem walk_meets (hstart : CellText.isFormula (g.text start) = true)
    (h : g.Walking room start r₀ unvisited path stack r) :
    g.Ends room start r₀ unvisited path stack r := by
  -- entering a cell lengthens the stack, and leaves fewer cells to be entered
  induction hn : unvisited.size using Nat.strong_induction_on
    generalizing unvisited path stack r with
  | _ n ihn =>
  induction stack generalizing path r with
  | nil => exact h.ends_nil
  | cons visit stack ih =>
    cases visit with
    | leave c => exact h.ends_leave ih
    | enter c =>
      refine h.ends_enter hstart ih fun hc stack' h' => ?_
      exact ihn _ (hn ▸ size_erase_lt hc) h' rfl

/-- A walk from a formula cell over a grid none of whose cells has been entered. -/
theorem Walking.initial (hr : r.Sound g room) :
    g.Walking room c r g.formulas [] [.enter c] r where
  toRoute := .initial
  sound := hr
  extends_ := .refl g r
  chain := .nil
  led d hd := by
    obtain rfl : d = c := by simpa using hd
    exact .refl

/-! ## Any cell -/

/-- Asking for a cell recursively with all the room there is can only fail on a formula cell. -/
theorem isFormula_of_tooDeep {room' : Nat} {r₁ : Results}
    (h : (g.cellValue room' path c).run r = (.error .tooDeep, r₁)) :
    CellText.isFormula (g.text c) = true := by
  by_contra hf
  exact (cellValue_known (.inr (.inr hf))).of_run_error h

/-- **Starting again with a walk.** The cell is known at its end. -/
theorem walk_getD_meets (hr : r.Sound g room) (hc : CellText.isFormula (g.text c) = true) :
    (do g.walk room g.formulas [] [.enter c]
        return (← get).memo.getD c .failed : Evaluation CellValue).Meets r
      (fun v r' => (r'.Sound g room ∧ r.Extends g r') ∧ r'.memo[c]? = some v)
      fun f r' => (r'.Sound g room ∧ r.Extends g r') ∧ g.Overlong room c f := by
  rw [ExceptT.meets_bind]
  refine (walk_meets hc (.initial hr)).imp (fun _ r' ⟨hr', hm⟩ => ?_) fun _ _ => id
  rw [ExceptT.meets_bind, ExceptT.meets_get, ExceptT.meets_pure]
  refine ⟨hr', ?_⟩
  rw [Std.HashMap.getD_eq_getD_getElem?]
  obtain ⟨v, hv⟩ := Option.isSome_iff_exists.1 (Std.HashMap.mem_iff_isSome_getElem?.1 hm)
  rw [hv]
  rfl

/-- **The value of any cell** is right and keeps results sound. There is none only for a row number
that is too long. -/
theorem valueAt_meets (hr : r.Sound g room) :
    (g.valueAt room c).Meets r
      (fun v r' => (r'.Sound g room ∧ r.Extends g r') ∧
        ((¬ CellText.isFormula (g.text c) = true ∧ v = .text (g.text c)) ∨ r'.memo[c]? = some v))
      fun f r' => (r'.Sound g room ∧ r.Extends g r') ∧ g.Overlong room c f := by
  have hlead : g.Leads room [] c := fun _ _ hp => absurd hp List.not_mem_nil
  have hask := cellValue_meets (.inl le_rfl) hlead hr
  unfold valueAt
  rw [ExceptT.meets_tryCatch]
  unfold ExceptT.Meets
  rcases hrun : (g.cellValue room [] c).run r with ⟨f | v, r₁⟩
  · obtain ⟨⟨hr₁, hext⟩, hf⟩ := hask.of_run_error hrun
    cases f with
    | tooDeep =>
      have hc := isFormula_of_tooDeep hrun
      exact (walk_getD_meets hr₁ hc).imp
        (fun v r' h => ⟨⟨h.1.1, hext.trans h.1.2⟩, .inr h.2⟩)
        fun f r' h => ⟨⟨h.1.1, hext.trans h.1.2⟩, h.2⟩
    | rejected q =>
      obtain ⟨t, ht⟩ := (hf.resolve_left nofun).exists_tooLong
      cases ht
    | tooLong t => exact ⟨⟨hr₁, hext⟩, hf.resolve_left nofun⟩
  · obtain ⟨hr₁, hanswered⟩ := hask.of_run_ok hrun
    refine ⟨hr₁, hanswered.imp id fun h => h.resolve_right ?_⟩
    rintro ⟨_, hpath, _⟩
    exact List.not_mem_nil hpath

end Grid

end Spreadsheet
