import Spreadsheet.Proofs.Formula.Placement

/-!
# Ranges and the lists of their cells

A function reads its arguments as one list of numbers, so a range gives it what the references to
its cells give it, row by row. In an accepted formula a range stands nowhere but as an argument, and
such a list can take its place. The parentheses that a range may have around it have to go with it,
since a list is no expression.

* `resolving`: references answered by a resolver; `Expr.numbers`: the numbers of arguments;
  **`Expr.numbers_resolving_range`**;
* `Expr.Serves`, `Expr.ServeAll`: trees and arguments that are accepted and evaluated as others are;
  **`Expr.Serves.fill`**: in any context;
* `InCall`, **`Surrounds.inCall`**: what stands around a range; **`InCall.exists_listed`**:
  references in its stead;
* `Wraps`, **`exists_stretch`**: a range and its parentheses in a text;
* **`exists_expansion`**, **`range_eq_expansion`**: formulas; `not_list_in_parentheses`.
-/

namespace Spreadsheet.Formula

open Reference (Parts)

variable {k : Category} {ts us : List Token} {C : Context} {e s t : Expr}
variable {first last : Parts} {ps : List Parts} {isArgument : Bool} {position room : Nat}

theorem rectangle_ne_nil (a b : Cell) : rectangle a b ≠ [] := by
  refine List.ne_nil_of_mem (a := a) ?_
  rw [mem_rectangle]
  omega

/-! ## The numbers of arguments -/

section

variable {n : Type → Type} [Monad n] {m : Type → Type} [Monad m] [MonadExceptOf Failure m]

/-- The surroundings of a formula whose references a resolver answers, or fails to answer, at every
level alike. -/
def resolving (room : Nat) (resolver : Cell → ExceptT Failure n CellValue) :
    Surroundings (ExceptT Failure n) where
  cell _ c := resolver c
  enter level := MonadExcept.ofExcept (enter room level)

/-- The numbers that a function gets from its arguments. -/
def Expr.numbers (env : Surroundings m) (level : Nat) (es : List Expr) : m (List Outcome) :=
  List.flatMap Operand.outcomes <$> Expr.evalArguments env level es

variable {env : Surroundings m} {level : Nat} {es fs : List Expr}

theorem Expr.numbers_nil [LawfulMonad m] : Expr.numbers env level [] = pure [] := by
  rw [numbers, evalArguments, map_pure, List.flatMap_nil]

theorem Expr.numbers_cons [LawfulMonad m] : Expr.numbers env level (e :: es) = do
    let x ← e.eval env level
    let xs ← Expr.numbers env level es
    return x.outcomes ++ xs := by
  simp only [numbers, evalArguments, map_eq_pure_bind, bind_assoc, pure_bind, List.flatMap_cons]

theorem Expr.numbers_append [LawfulMonad m] : Expr.numbers env level (es ++ fs) = do
    let xs ← Expr.numbers env level es
    let ys ← Expr.numbers env level fs
    return xs ++ ys := by
  induction es with
  | nil => simp only [List.nil_append, numbers_nil, pure_bind, bind_pure]
  | cons e es ih =>
    simp only [List.cons_append, numbers_cons, ih, bind_assoc, pure_bind, List.append_assoc]

/-- The value of a call depends on the numbers that its function gets. -/
theorem Expr.eval_call [LawfulMonad m] (name : List Char) :
    (Expr.call name es).eval env level = do
      env.enter level
      match Function.ofName? (upperName name) with
      | none => throw (.rejected (.unknownFunction (upperName name)))
      | some f => return .number (collect (← Expr.numbers env (level + 2) es) >>= f.reduce) := by
  simp only [eval, numbers, map_eq_pure_bind, bind_assoc, pure_bind]
  rfl

theorem Expr.eval_call_congr [LawfulMonad m] (name : List Char)
    (h : Expr.numbers env (level + 2) es = Expr.numbers env (level + 2) fs) :
    (Expr.call name es).eval env level = (Expr.call name fs).eval env level := by
  rw [eval_call, eval_call, h]

variable [LawfulMonad n] {resolver : Cell → ExceptT Failure n CellValue} {p : Parts}

theorem Expr.eval_resolving_cell (hp : Names p) (hlevel : level < room) :
    (Expr.cell p position).eval (resolving room resolver) level =
      (fun v => .number v.number) <$> resolver p.target := by
  obtain ⟨q, hq, htarget⟩ := hp.resolve position
  have henter : enter room level = .ok () := if_pos hlevel
  simp only [eval, resolving, henter, hq, htarget, MonadExcept.ofExcept, pure_bind,
    bind_pure_comp]

theorem Expr.eval_resolving_range (hfirst : Names first) (hlast : Names last)
    (hlevel : level < room) :
    (Expr.range first last position).eval (resolving room resolver) level =
      .range <$> (rectangle first.target last.target).mapM fun c =>
        CellValue.number <$> resolver c := by
  obtain ⟨q, hq, htarget⟩ := hfirst.resolve position
  obtain ⟨q', hq', htarget'⟩ := hlast.resolve position
  have henter : enter room level = .ok () := if_pos hlevel
  simp only [eval, resolving, henter, hq, htarget, hq', htarget', MonadExcept.ofExcept, pure_bind,
    bind_pure_comp]

/-- References give the numbers of their cells, one by one. -/
theorem Expr.numbers_resolving_cells (hlevel : level < room) (hps : ∀ p ∈ ps, Names p) :
    Expr.numbers (resolving room resolver) level (ps.map (.cell · 0)) =
      (ps.map Parts.target).mapM fun c => CellValue.number <$> resolver c := by
  induction ps with
  | nil => exact numbers_nil
  | cons p ps ih =>
    obtain ⟨hp, hps⟩ := List.forall_mem_cons.1 hps
    rw [List.map_cons, List.map_cons, List.mapM_cons, numbers_cons, ih hps,
      eval_resolving_cell hp hlevel]
    simp only [bind_map_left, Operand.outcomes, List.singleton_append]

/-- **References to the cells of a range** give a function the numbers that the range gives. -/
theorem Expr.numbers_resolving_range (hfirst : Names first) (hlast : Names last)
    (hps : ∀ p ∈ ps, Names p)
    (hcells : ps.map Parts.target = rectangle first.target last.target) :
    Expr.numbers (resolving room resolver) level (ps.map (.cell · 0)) =
      Expr.numbers (resolving room resolver) level [.range first last position] := by
  by_cases hlevel : level < room
  · rw [numbers_resolving_cells hlevel hps, hcells, numbers_cons, numbers_nil,
      eval_resolving_range hfirst hlast hlevel]
    simp only [bind_map_left, pure_bind, Operand.outcomes, List.append_nil, bind_pure]
  · -- the first cell of the list finds as little room as the range
    have hfull (e : Expr) (h : e.eval (resolving room resolver) level = throw .tooDeep)
        (es : List Expr) :
        Expr.numbers (resolving room resolver) level (e :: es) = throw .tooDeep := by
      rw [numbers_cons, h]
      simp
    have henter : enter room level = .error .tooDeep := if_neg hlevel
    obtain ⟨p, ps, rfl⟩ : ∃ p ps', ps = p :: ps' :=
      List.exists_cons_of_ne_nil fun hnil => rectangle_ne_nil _ _ (hnil ▸ hcells).symm
    rw [List.map_cons, hfull, hfull]
    · simp [eval, resolving, henter, MonadExcept.ofExcept]
    · simp [eval, resolving, henter, MonadExcept.ofExcept]

end

/-! ## Taking the place of a range -/

theorem Expr.levelsAll_append (es fs : List Expr) :
    levelsAll (es ++ fs) = max (levelsAll es) (levelsAll fs) := by
  induction es with
  | nil => exact (Nat.zero_max _).symm
  | cons e es ih => rw [List.cons_append, levelsAll, levelsAll, ih, Nat.max_assoc]

theorem Expr.allValid_append {es fs : List Expr} :
    AllValid (es ++ fs) ↔ AllValid es ∧ AllValid fs := by
  induction es with
  | nil => exact ⟨fun h => ⟨trivial, h⟩, And.right⟩
  | cons e es ih => rw [List.cons_append, AllValid, AllValid, ih, and_assoc]

/-- A tree that is accepted where another one is and evaluated as that one is. -/
structure Expr.Serves (t s : Expr) : Prop where
  levels : t.levels ≤ s.levels
  valid {isArgument : Bool} : s.Valid isArgument → t.Valid isArgument
  eval {n : Type → Type} [Monad n] [LawfulMonad n] (room : Nat)
    (resolver : Cell → ExceptT Failure n CellValue) (level : Nat) :
    t.eval (resolving room resolver) level = s.eval (resolving room resolver) level

/-- Arguments that are accepted where others are and give the same numbers as they do. -/
structure Expr.ServeAll (fs es : List Expr) : Prop where
  levels : levelsAll fs ≤ levelsAll es
  valid : AllValid es → AllValid fs
  numbers {n : Type → Type} [Monad n] [LawfulMonad n] (room : Nat)
    (resolver : Cell → ExceptT Failure n CellValue) (level : Nat) :
    numbers (resolving room resolver) level fs = numbers (resolving room resolver) level es

theorem Expr.Serves.single (h : t.Serves s) : ServeAll [t] [s] where
  levels := max_le_max h.levels (Nat.le_refl _)
  valid hv := ⟨h.valid hv.1, hv.2⟩
  numbers room resolver level := by rw [numbers_cons, numbers_cons, h.eval]

namespace Expr.ServeAll

variable {es fs : List Expr}

/-- Between other arguments. -/
theorem between (h : ServeAll fs es) (front back : List Expr) :
    ServeAll (front ++ (fs ++ back)) (front ++ (es ++ back)) where
  levels := by
    have hlevels := h.levels
    simp only [levelsAll_append]
    omega
  valid := by
    simp only [allValid_append]
    exact And.imp_right (And.imp_left h.valid)
  numbers room resolver level := by simp only [numbers_append, h.numbers]

theorem call (h : ServeAll fs es) (name : List Char) :
    (Expr.call name fs).Serves (.call name es) where
  levels := Nat.add_le_add_right h.levels 1
  valid hv := ⟨hv.1, h.valid hv.2⟩
  eval room resolver level := eval_call_congr name (h.numbers room resolver (level + 2))

/-- **References to the cells of a range** serve for the range. -/
theorem expansion (hfirst : Names first) (hlast : Names last) (hps : ∀ p ∈ ps, Names p)
    (hcells : ps.map Parts.target = rectangle first.target last.target) :
    ServeAll (ps.map (.cell · 0)) [.range first last position] where
  levels := by
    have hbound : levelsAll (ps.map (.cell · 0)) ≤ 1 := by
      clear hcells hps
      induction ps with
      | nil => exact Nat.zero_le 1
      | cons p ps ih => exact Nat.max_le.2 ⟨Nat.le_refl 1, ih⟩
    exact hbound.trans (Nat.le_max_left _ _)
  valid _ := by
    clear hcells
    induction ps with
    | nil => trivial
    | cons p ps ih =>
      obtain ⟨hp, hps⟩ := List.forall_mem_cons.1 hps
      exact ⟨hp, ih hps⟩
  numbers _ _ _ := numbers_resolving_range hfirst hlast hps hcells

end Expr.ServeAll

/-- **What serves for a part** does so in any context. -/
theorem Expr.Serves.fill (h : t.Serves s) (C : Context) : (C.fill t).Serves (C.fill s) := by
  induction C with
  | hole => exact h
  | signed sign C ih =>
    refine ⟨Nat.add_le_add_right ih.levels 1, ih.valid, fun room resolver level => ?_⟩
    simp only [Context.fill, Expr.eval, ih.eval]
  | left op C r ih =>
    refine ⟨?_, fun hv => ⟨ih.valid hv.1, hv.2⟩, fun room resolver level => ?_⟩
    · exact Nat.add_le_add_right (max_le_max ih.levels (Nat.le_refl _)) 1
    · simp only [Context.fill, Expr.eval, ih.eval]
  | right op l C ih =>
    refine ⟨?_, fun hv => ⟨hv.1, ih.valid hv.2⟩, fun room resolver level => ?_⟩
    · exact Nat.add_le_add_right (max_le_max (Nat.le_refl _) ih.levels) 1
    · simp only [Context.fill, Expr.eval, ih.eval]
  | argument name front C back ih => exact (ih.single.between front back).call name

theorem Expr.Serves.value {n : Type → Type} [Monad n] [LawfulMonad n] (h : t.Serves s)
    (resolver : Cell → ExceptT Failure n CellValue) :
    t.value (resolving room resolver) = s.value (resolving room resolver) := by
  rw [Expr.value, Expr.value, h.eval]

/-! ## The call of a range -/

/-- Parentheses that are opened, and as many that are closed. -/
def Parenthesized (opens closes : List Token) : Prop := ∃ n,
  opens.map (·.lexeme) = List.replicate n (.symbol .openParen) ∧
    closes.map (·.lexeme) = List.replicate n (.symbol .closeParen)

/-- Tokens around an argument of a call, which has nothing but parentheses around it there. -/
inductive InCall (k : Category) (C : Context) : List Token → List Token → Prop where
  | intro {before after opens closes : List Token} {D : Context}
    (h : Surrounds .primary k before after D) (name : List Char) (position opening : Nat)
    (front : List (Derivation .expression × Nat)) (hparens : Parenthesized opens closes)
    (back : Derivation .others) (closing : Nat)
    (hfill : ∀ s, C.fill s = D.fill (.call name (front.map (·.1.tree) ++ s :: back.tree))) :
    InCall k C
      (before ++ (⟨.name name, position⟩ :: Symbol.openParen.at opening :: leading front) ++ opens)
      (closes ++ (back.tokens ++ Symbol.closeParen.at closing :: after))

/-- A call in further surroundings. -/
theorem InCall.lift {k' : Category} {C' : Context} (h : InCall k C ts us) (ts' us' : List Token)
    (g : Expr → Expr) (hC : ∀ s, C'.fill s = g (C.fill s))
    (hlift : ∀ {before after D}, Surrounds .primary k before after D →
      ∃ D', Surrounds .primary k' (ts' ++ before) (after ++ us') D' ∧
        ∀ s, D'.fill s = g (D.fill s)) : InCall k' C' (ts' ++ ts) (us ++ us') := by
  obtain ⟨h, name, position, opening, front, hparens, back, closing, hfill⟩ := h
  obtain ⟨D', hD', hfill'⟩ := hlift h
  have hcall := InCall.intro (C := C') hD' name position opening front hparens back closing
    fun s => by rw [hC, hfill, hfill']
  simpa only [List.append_assoc, List.cons_append] using hcall

/-- The same call, where the category of the whole is another one. -/
theorem InCall.same {k' : Category} (h : InCall k C ts us)
    (hlift : ∀ {before after D}, Surrounds .primary k before after D →
      Surrounds .primary k' before after D) : InCall k' C ts us := by
  obtain ⟨hD, name, position, opening, front, hparens, back, closing, hfill⟩ := h
  exact .intro (hlift hD) name position opening front hparens back closing hfill

/-- **A range is an argument of a call**: in accepted surroundings there are parentheses around it
and nothing else, up to those of a call. -/
theorem Surrounds.inCall (h : Surrounds .primary k ts us C)
    (hv : (C.fill (.range first last position)).Valid isArgument) :
    InCall k C ts us ∨ isArgument = true ∧ C = .hole ∧ Parenthesized ts us := by
  -- as long as there are only parentheses around it, the range has to be an argument itself, which
  -- what is under a sign or an operation is not
  induction h generalizing isArgument with
  | here => exact .inr ⟨hv.1, rfl, 0, rfl, rfl⟩
  | term _ ih => exact (ih hv).imp_left fun h => h.same .term
  | factor _ ih => exact (ih hv).imp_left fun h => h.same .factor
  | primary _ ih => exact (ih hv).imp_left fun h => h.same .primary
  | @left op ts us vs C r _ position hr ih =>
    obtain h | ⟨hno, -⟩ := ih hv.1
    · exact .inl <| h.lift [] _ (.binary op · r) (fun _ => rfl) fun hD =>
        ⟨.left op _ r, hD.left position hr, fun _ => rfl⟩
    · cases hno
  | @right op ts us vs C l hl position _ ih =>
    obtain h | ⟨hno, -⟩ := ih hv.2
    · have hcall := h.lift (vs ++ [op.symbol.at position]) [] (.binary op l ·)
        (fun _ => (rfl : Context.fill (.right op l C) _ = _))
        fun hD => ⟨.right op l _, by simpa using hD.right hl position, fun _ => rfl⟩
      exact .inl (by simpa using hcall)
    · cases hno
  | @signed ts us C sign position _ ih =>
    obtain h | ⟨hno, -⟩ := ih hv
    · have hcall := h.lift [sign.symbol.at position] [] (.signed sign ·)
        (fun _ => (rfl : Context.fill (.signed sign C) _ = _))
        fun hD => ⟨.signed sign _, by simpa using hD.signed sign position, fun _ => rfl⟩
      exact .inl (by simpa using hcall)
    · cases hno
  | paren opening _ closing ih =>
    obtain h | ⟨hargument, hhole, n, hopens, hcloses⟩ := ih hv
    · exact .inl <| h.lift [Symbol.openParen.at opening] _ id (fun _ => rfl) fun hD =>
        ⟨_, hD.paren opening closing, fun _ => rfl⟩
    · refine .inr ⟨hargument, hhole, n + 1, ?_, ?_⟩
      · rw [List.map_cons, hopens]
        rfl
      · rw [List.map_append, hcloses, List.replicate_succ']
        rfl
  | argument name position opening front _ back closing ih =>
    obtain h | ⟨-, rfl, hparens⟩ := ih (Expr.allValid_append.1 hv.2).2.1
    · exact .inl <| h.lift (⟨.name name, position⟩ :: Symbol.openParen.at opening :: leading front)
        _ (fun s => .call name (front.map (·.1.tree) ++ s :: back.tree)) (fun _ => rfl) fun hD =>
          ⟨.argument name _ _ _, hD.argument name position opening front back closing,
            fun _ => rfl⟩
    · exact .inl <| .intro .here name position opening front hparens back closing fun _ => rfl

/-! ## Lists of references -/

/-- References with commas between them. -/
def listed (ps : List Parts) : List Char := [','].intercalate (ps.map Parts.chars)

/-- The tokens of references with commas between them. -/
def listedTokens (p : Parts) (ps : List Parts) : List Token :=
  ⟨.cell p, 0⟩ :: ps.flatMap fun q => [Symbol.comma.at 0, ⟨.cell q, 0⟩]

theorem listed_cons (p : Parts) (ps : List Parts) :
    listed (p :: ps) = p.chars ++ ps.flatMap fun q => ',' :: q.chars := by
  induction ps generalizing p with
  | nil => simp [listed]
  | cons q ps ih =>
    rw [listed, List.map_cons, List.map_cons, List.intercalate_cons_cons, ← List.map_cons, ← listed,
      ih]
    simp

theorem Laid.listed {p : Parts} {ps : List Parts} {cs : List Char} {ls : List Lexeme}
    (hps : ∀ q ∈ p :: ps, Written q) (h : Laid false cs ls) :
    Laid true (listed (p :: ps) ++ cs) ((listedTokens p ps).map (·.lexeme) ++ ls) := by
  have hrest {ps : List Parts} (hps : ∀ q ∈ ps, Written q) :
      Laid false ((ps.flatMap fun q => ',' :: q.chars) ++ cs)
        ((ps.flatMap fun q => [Lexeme.symbol .comma, .cell q]) ++ ls) := by
    induction ps with
    | nil => exact h
    | cons q ps ih =>
      obtain ⟨hq, hps⟩ := List.forall_mem_cons.1 hps
      have hnext := Laid.symbol false .comma (.token (l := .cell q) hq (ih hps))
      simpa [Lexeme.chars, Symbol.char] using hnext
  obtain ⟨hp, hps⟩ := List.forall_mem_cons.1 hps
  have hall := Laid.token (l := .cell p) hp (hrest hps)
  simpa [listed_cons, listedTokens, List.map_flatMap, Lexeme.chars, Symbol.at] using hall

/-- References among arguments. -/
theorem exists_arguments_listed (front : List (Derivation .expression × Nat)) (p : Parts)
    (ps : List Parts) (back : Derivation .others) : ∃ args : Derivation .arguments,
      args.tokens = leading front ++ (listedTokens p ps ++ back.tokens) ∧
        args.tree = front.map (·.1.tree) ++ ((p :: ps).map (.cell · 0) ++ back.tree) := by
  have hcell (q : Parts) : ∃ d : Derivation .expression, d.tokens = [⟨.cell q, 0⟩] ∧
      d.tree = .cell q 0 := Makes.expression (k := .primary) ⟨.cell q 0, rfl, rfl⟩
  have hmore : ∃ more : Derivation .others,
      more.tokens = (ps.flatMap fun q => [Symbol.comma.at 0, ⟨.cell q, 0⟩]) ++ back.tokens ∧
        more.tree = ps.map (.cell · 0) ++ back.tree := by
    induction ps with
    | nil => exact ⟨back, rfl, rfl⟩
    | cons q ps ih =>
      obtain ⟨more, htokens, htrees⟩ := ih
      obtain ⟨d, hd, htree⟩ := hcell q
      exact ⟨.others 0 d more, by rw [Derivation.tokens, hd, htokens]; rfl,
        by rw [Derivation.tree, htree, htrees]; rfl⟩
  obtain ⟨more, hmore, hmoreTree⟩ := hmore
  obtain ⟨d, hd, htree⟩ := hcell p
  obtain ⟨args, hargs, hargsTree⟩ := exists_arguments front d more
  refine ⟨args, ?_, ?_⟩
  · rw [hargs, hd, hmore]
    rfl
  · rw [hargsTree, htree, hmoreTree]
    rfl

/-- Tokens behind which an argument begins: they end with the name and the parenthesis of a call, or
with a comma. -/
def AwaitsArgument (ts : List Token) : Prop :=
  (∃ us name position opening, ts = us ++ [⟨.name name, position⟩, Symbol.openParen.at opening]) ∨
    ∃ us comma, ts = us ++ [Symbol.comma.at comma]

theorem awaitsArgument_leading (ts : List Token) (name : List Char) (position opening : Nat)
    (front : List (Derivation .expression × Nat)) :
    AwaitsArgument
      (ts ++ ⟨.name name, position⟩ :: Symbol.openParen.at opening :: leading front) := by
  rcases List.eq_nil_or_concat front with rfl | ⟨front, d, rfl⟩
  · exact .inl ⟨ts, name, position, opening, rfl⟩
  · exact .inr ⟨ts ++ ⟨.name name, position⟩ :: Symbol.openParen.at opening ::
      (leading front ++ d.1.tokens), d.2, by simp [leading]⟩

theorem AwaitsArgument.isSymbol (h : AwaitsArgument ts) : ∀ u ∈ ts.getLast?, u.IsSymbol := by
  rcases h with ⟨us, name, position, opening, rfl⟩ | ⟨us, comma, rfl⟩
  · intro u hu
    have hlast : Symbol.openParen.at opening = u := by simpa using hu
    exact ⟨.openParen, hlast ▸ rfl⟩
  · intro u hu
    have hlast : Symbol.comma.at comma = u := by simpa using hu
    exact ⟨.comma, hlast ▸ rfl⟩

/-- **References in the stead of an argument** and of the parentheses around it. -/
theorem InCall.exists_listed (h : InCall k C ts us) : ∃ front opens closes back,
    ts = front ++ opens ∧ us = closes ++ back ∧ Parenthesized opens closes ∧
    AwaitsArgument front ∧ (∀ u ∈ back.head?, u.IsSymbol) ∧ ∀ p ps, ∃ e,
      Makes k (front ++ (listedTokens p ps ++ back)) e ∧
      ∀ {s}, Expr.ServeAll ((p :: ps).map (.cell · 0)) [s] → e.Serves (C.fill s) := by
  obtain @⟨_, _, _, _, D, hD, name, position, opening, front, hparens, back, closing, hfill⟩ := h
  refine ⟨_, _, _, _, rfl, rfl, hparens, awaitsArgument_leading .., ?_, fun p ps => ?_⟩
  · cases back with
    | noOthers =>
      rintro u ⟨⟩
      exact ⟨.closeParen, rfl⟩
    | others comma first rest =>
      rintro u ⟨⟩
      exact ⟨.comma, rfl⟩
  · obtain ⟨args, hargs, htrees⟩ := exists_arguments_listed front p ps back
    have hcall : Makes .primary _ (.call name args.tree) :=
      ⟨.call name position opening args closing, rfl, rfl⟩
    refine ⟨D.fill (.call name args.tree), ?_, fun hs => ?_⟩
    · have hwhole := hD.makes hcall
      simpa only [Derivation.tokens, hargs, List.append_assoc, List.cons_append,
        List.nil_append] using hwhole
    · rw [hfill, htrees]
      exact ((hs.between _ _).call name).fill _

/-! ## The stretch of an argument -/

variable {cs opening closing : List Char}

/-- As many parentheses in front of a stretch of a text as behind it, with blanks between them and
towards the stretch. -/
def Wraps (opening closing : List Char) : Prop :=
  (∃ n, opening.filter (fun c => !isSkipped c) = List.replicate n '(' ∧
    closing.filter (fun c => !isSkipped c) = List.replicate n ')') ∧
  (∀ c ∈ opening.head?, isSkipped c = false) ∧ ∀ c ∈ closing.getLast?, isSkipped c = false

/-- A text of nothing but one symbol has as many of its character. -/
theorem Laid.filter_symbols {free : Bool} {ls : List Lexeme} (h : Laid free cs ls) {x : Symbol}
    (hls : ∀ l ∈ ls, l = .symbol x) :
    cs.filter (fun c => !isSkipped c) = List.replicate ls.length x.char := by
  have hchar : isSkipped x.char = false := by cases x <;> rfl
  have hcons {cs : List Char} {n : Nat}
      (ih : cs.filter (fun c => !isSkipped c) = List.replicate n x.char) :
      (x.char :: cs).filter (fun c => !isSkipped c) = List.replicate (n + 1) x.char := by
    rw [List.filter_cons_of_pos (by simp [hchar]), ih, List.replicate_succ]
  induction h with
  | nil => rfl
  | skip _ hc _ ih => rw [List.filter_cons_of_neg (by simp [hc]), ih hls]
  | symbol _ y _ ih =>
    obtain ⟨hy, hrest⟩ := List.forall_mem_cons.1 hls
    exact Lexeme.symbol.inj hy ▸ hcons (ih hrest)
  | token _ _ ih =>
    obtain ⟨rfl, hrest⟩ := List.forall_mem_cons.1 hls
    exact hcons (ih hrest)

theorem Parted.of_append (h : Parted (ts ++ us)) : Parted ts ∧ Parted us := by
  induction ts with
  | nil => exact ⟨trivial, h⟩
  | cons t ts ih =>
    obtain ⟨hts, hus⟩ := ih h.2
    refine ⟨⟨h.1.imp id fun hnext u hu => hnext u ?_, hts⟩, hus⟩
    cases ts with
    | nil => cases hu
    | cons => exact hu

/-- A text whose first token stands at its start does not start with a blank. -/
theorem not_isSkipped_of_place {t : Token} (ht : t ∈ (lexFrom position cs).tokens)
    (hplace : t.position = position) : ∀ c ∈ cs.head?, isSkipped c = false := by
  rintro c hc
  obtain ⟨cs, rfl⟩ : ∃ cs', cs = c :: cs' := by
    cases cs with
    | nil => cases hc
    | cons d cs => exact ⟨cs, by rw [Option.some.inj hc]⟩
  by_contra hskip
  rw [lexFrom, if_pos (Bool.not_eq_false _ ▸ hskip)] at ht
  have hle := (lexFrom_stands ht).1
  omega

theorem parted_of_isSymbol (h : ∀ t ∈ ts, t.IsSymbol) : Parted ts := by
  induction ts with
  | nil => trivial
  | cons t ts ih =>
    obtain ⟨ht, hts⟩ := List.forall_mem_cons.1 h
    exact ⟨.inl ht, ih hts⟩

/-- The text of tokens that are all the same symbol. -/
theorem filter_of_lexFrom (h : lexFrom position cs = ⟨ts, none⟩) {n : Nat} {x : Symbol}
    (hts : ts.map (·.lexeme) = List.replicate n (.symbol x)) :
    cs.filter (fun c => !isSkipped c) = List.replicate n x.char := by
  obtain ⟨hlength, hall⟩ := List.eq_replicate_iff.1 hts
  have hparted : Parted ts := parted_of_isSymbol fun t ht => ⟨x, hall _ (List.mem_map_of_mem ht)⟩
  rw [(laid_of_lexFrom h hparted).1.filter_symbols hall, hlength]

theorem Laid.blanks {ls : List Lexeme} (h : Laid false cs ls) {blanks : List Char}
    (hblanks : ∀ c ∈ blanks, isSkipped c = true) : Laid false (blanks ++ cs) ls := by
  have hfree {cs : List Char} (h : Laid false cs ls) : Laid true cs ls := by
    cases h with
    | nil => exact .nil true
    | skip _ hc hcs => exact .skip true hc hcs
    | symbol _ x hcs => exact .symbol true x hcs
  induction blanks with
  | nil => exact h
  | cons c blanks ih =>
    obtain ⟨hc, hblanks⟩ := List.forall_mem_cons.1 hblanks
    exact .skip false hc (hfree (ih hblanks))

/-- **The stretch of an argument** with parentheses around it: blanks in front of them and behind
them are no part of it. -/
theorem exists_stretch {front opens closes back : List Token} {t : Token}
    (h : lexFrom 0 cs = ⟨front ++ opens ++ t :: (closes ++ back), none⟩)
    (hparted : Parted (front ++ opens ++ t :: (closes ++ back))) (ht : ¬ t.IsSymbol)
    (hback : ∀ u ∈ back.head?, u.IsSymbol) (hparens : Parenthesized opens closes) :
    ∃ before opening closing after,
      cs = before ++ (opening ++ (t.lexeme.chars ++ (closing ++ after))) ∧
      (before ++ opening).length = t.position ∧ Wraps opening closing ∧
      lexFrom 0 before = ⟨front, none⟩ ∧ Laid true before (front.map (·.lexeme)) ∧
      Laid false after (back.map (·.lexeme)) := by
  obtain ⟨n, hopens, hcloses⟩ := hparens
  obtain ⟨hfrontOpens, -, hclosesBack, -⟩ := hparted.around ht
  obtain ⟨before, rest, rfl, hbefore, hrest, hplace⟩ :=
    lexFrom_split 0 cs front (by rw [h, List.append_assoc])
  rw [h, Nat.zero_add] at hrest
  obtain ⟨opening, rest', rfl, hopening, hrest', hplace'⟩ :=
    lexFrom_split before.length rest opens (by rw [hrest])
  rw [hrest] at hrest'
  have hposition := hplace' t rfl
  obtain ⟨rest'', rfl, -, hrest''⟩ := lexFrom_uncons (by rw [hrest']) hposition
  rw [hrest'] at hrest''
  obtain ⟨closing, after, rfl, hclosing, hafter, -⟩ :=
    lexFrom_split _ rest'' closes (by rw [hrest''])
  rw [hrest''] at hafter
  -- the blanks behind the last parenthesis stay behind the stretch
  have hcut : closing.rdropWhile isSkipped ++ closing.rtakeWhile isSkipped = closing :=
    List.rdropWhile_append_rtakeWhile
  have hblanks : ∀ c ∈ closing.rtakeWhile isSkipped, isSkipped c = true :=
    fun c hc => List.mem_rtakeWhile_imp hc
  have hnone : (closing.rtakeWhile isSkipped).filter (fun c => !isSkipped c) = [] :=
    List.filter_eq_nil_iff.2 fun c hc => by simp [hblanks c hc]
  refine ⟨before, opening, closing.rdropWhile isSkipped, closing.rtakeWhile isSkipped ++ after,
    ?_, ?_, ⟨⟨n, filter_of_lexFrom hopening hopens, ?_⟩, fun c hc => ?_, fun c hc => ?_⟩, hbefore,
    ?_, ?_⟩
  · rw [← List.append_assoc (closing.rdropWhile _), hcut]
  · rw [List.length_append, hposition]
  · have hfilter := filter_of_lexFrom hclosing hcloses
    rwa [← hcut, List.filter_append, hnone, List.append_nil] at hfilter
  · -- the first token of the stretch stands where the text in front of it ends
    obtain ⟨u, hu⟩ : ∃ u, u ∈ (opens ++ t :: (closes ++ back)).head? :=
      ⟨_, List.head?_eq_some_head (List.append_ne_nil_of_right_ne_nil _ (List.cons_ne_nil _ _))⟩
    have hmem : u ∈ (lexFrom before.length (opening ++
        (t.lexeme.chars ++ (closing ++ after)))).tokens := by
      rw [hrest]
      exact List.mem_of_mem_head? hu
    exact not_isSkipped_of_place hmem ((hplace u hu).trans (Nat.zero_add _)) c
      (List.mem_head?_append_of_mem_head? hc)
  · obtain ⟨hne, rfl⟩ := List.mem_getLast?_eq_getLast hc
    exact Bool.eq_false_iff.2 (List.rdropWhile_last_not _ _ hne)
  · exact (laid_of_lexFrom hbefore hfrontOpens.of_append.1).1
  · exact ((laid_of_lexFrom hafter hclosesBack.of_append.2).2 hback).blanks hblanks

/-! ## Expansions of formulas -/

variable {body body' : String} {e' : Expr}

/-- A formula whose tree serves for the tree of an accepted one. -/
theorem Expr.Serves.ofBody (h : t.Serves e) (he : Expr.ofBody room body = .ok e)
    (hparse : Expr.parse body' = .ok e') (htree : e'.unplaced = t.unplaced) :
    Expr.ofBody room body' = .ok e' ∧
      ∀ {n : Type → Type} [Monad n] [LawfulMonad n] (room' : Nat)
        (resolver : Cell → ExceptT Failure n CellValue),
        e'.value (resolving room' resolver) = e.value (resolving room' resolver) := by
  obtain ⟨-, hvalid, hlevels⟩ := Expr.ofBody_eq_ok_iff.1 he
  have ht := h.valid hvalid
  have hvalid' := (Expr.standsFor_of_unplaced (fun _ => .failed) htree).valid ht
  refine ⟨Expr.ofBody_eq_ok_iff.2 ⟨hparse, hvalid', ?_⟩, fun room' resolver => ?_⟩
  · exact (Expr.levels_of_unplaced htree).trans_le (h.levels.trans hlevels)
  · rw [← Expr.value_unplaced _ (Expr.names_of_valid e' false hvalid'), htree,
      Expr.value_unplaced _ (Expr.names_of_valid t false ht), h.value]

/-- A text behind which an argument begins. -/
def OpensArgument (cs : List Char) : Prop := ∃ ts, lexFrom 0 cs = ⟨ts, none⟩ ∧ AwaitsArgument ts

/-- **A range can be replaced by references to its cells**, in whatever way they are written. -/
theorem exists_expansion (he : Expr.ofBody room body = .ok e)
    (ht : ⟨.range first last, position⟩ ∈ (lex body).tokens) :
    ∃ before opening closing after,
      body = String.ofList (before ++
        (opening ++ ((Lexeme.range first last).chars ++ (closing ++ after)))) ∧
      (before ++ opening).length = position ∧ OpensArgument before ∧ Wraps opening closing ∧
      ∀ ps, (∀ p ∈ ps, Written p) → (∀ p ∈ ps, Names p) →
        ps.map Parts.target = rectangle first.target last.target →
        ∃ e', Expr.ofBody room (String.ofList (before ++ (listed ps ++ after))) = .ok e' ∧
          ∀ {n : Type → Type} [Monad n] [LawfulMonad n] (room' : Nat)
            (resolver : Cell → ExceptT Failure n CellValue),
            e'.value (resolving room' resolver) = e.value (resolving room' resolver) := by
  obtain ⟨hparse, hvalid, -⟩ := Expr.ofBody_eq_ok_iff.1 he
  obtain ⟨ts, us, C, hlex, hC, rfl⟩ := exists_surrounds hparse ht rfl
  have hparted : Parted (ts ++ ⟨.range first last, position⟩ :: us) :=
    (hC.makes (Token.makes rfl)).parted
  obtain ⟨-, -, hfirst, hlast⟩ := (C.includes _).valid hvalid
  obtain hcall | ⟨hno, -⟩ := hC.inCall hvalid
  · obtain ⟨front, opens, closes, back, rfl, rfl, hparens, hfront, hback, hlisted⟩ :=
      hcall.exists_listed
    obtain ⟨before, opening, closing, after, hbody, hposition, hwraps, hbefore, hlaid, hlaid'⟩ :=
      exists_stretch hlex hparted nofun hback hparens
    refine ⟨before, opening, closing, after, ?_, hposition, ⟨front, hbefore, hfront⟩, hwraps,
      fun ps hwritten hnames hcells => ?_⟩
    · rw [← hbody, String.ofList_toList]
    · have hserve : Expr.ServeAll (ps.map (.cell · 0)) [.range first last position] :=
        .expansion hfirst hlast hnames hcells
      obtain ⟨p, ps, rfl⟩ : ∃ p ps', ps = p :: ps' :=
        List.exists_cons_of_ne_nil fun hnil => rectangle_ne_nil _ _ (hnil ▸ hcells).symm
      obtain ⟨t, hmakes, hserves⟩ := hlisted p ps
      have hlast (l : Lexeme) (hl : l ∈ (front.map (·.lexeme)).getLast?) : ∃ x, l = .symbol x := by
        rw [List.getLast?_map, Option.mem_map] at hl
        obtain ⟨u, hu, rfl⟩ := hl
        exact hfront.isSymbol u hu
      have hwhole := (hlaid.append (.listed hwritten hlaid') hlast).1
      rw [← List.map_append, ← List.map_append] at hwhole
      obtain ⟨e', hparse', htree⟩ := hmakes.parse hwhole
      exact ⟨e', (hserves hserve).ofBody he hparse' htree⟩
  · cases hno

/-- The corners of a range in an accepted formula name cells, and can be written as they are. -/
theorem corners_of_ofBody (he : Expr.ofBody room body = .ok e)
    (ht : ⟨.range first last, position⟩ ∈ (lex body).tokens) :
    (Written first ∧ Names first) ∧ Written last ∧ Names last := by
  obtain ⟨hparse, hvalid, -⟩ := Expr.ofBody_eq_ok_iff.1 he
  have hcorners : (first, last, position) ∈ e.corners := by
    rw [Expr.corners_of_parse hparse]
    exact List.mem_flatMap.2 ⟨_, ht, List.mem_singleton_self _⟩
  obtain ⟨hfirst, hlast⟩ := Expr.names_of_valid e false hvalid _ hcorners
  obtain ⟨hwritten, hwritten'⟩ : Written first ∧ Written last := (lexFrom_stands ht).2.formed
  exact ⟨⟨hwritten, hfirst⟩, hwritten', hlast⟩

/-- The cells between two that are named can be named. -/
theorem fits_of_mem_rectangle (hfirst : Written first ∧ Names first)
    (hlast : Written last ∧ Names last) {c : Cell}
    (hc : c ∈ rectangle first.target last.target) :
    0 ≤ c.row ∧ 0 ≤ c.col ∧ (Reference.mk c false false).Fits := by
  obtain ⟨hwritten, r, hr⟩ := hfirst
  obtain ⟨hwritten', r', hr'⟩ := hlast
  obtain ⟨hrow, hcol, hfits⟩ := hwritten.bounds (Names.short ⟨r, hr⟩) hr
  obtain ⟨hrow', hcol', hfits'⟩ := hwritten'.bounds (Names.short ⟨r', hr'⟩) hr'
  rw [target_of_resolve? hr, target_of_resolve? hr', mem_rectangle] at hc
  simp only [Reference.Fits] at hfits hfits' ⊢
  omega

/-- **A range is the list of its cells.** In an accepted formula, replace a range and the
parentheses around it, if there are any, by the names of the cells of the range, row by row and with
commas between them: the formula is accepted again, and has the same value, whatever its references
are answered with. -/
theorem range_eq_expansion (he : Expr.ofBody room body = .ok e)
    (ht : ⟨.range first last, position⟩ ∈ (lex body).tokens) :
    ∃ names before opening closing after,
      (rectangle first.target last.target).mapM Address.text = .ok names ∧
      body = String.ofList (before ++
        (opening ++ ((Lexeme.range first last).chars ++ (closing ++ after)))) ∧
      (before ++ opening).length = position ∧ OpensArgument before ∧ Wraps opening closing ∧
      ∃ e', Expr.ofBody room
          (String.ofList (before ++ ((",".intercalate names).toList ++ after))) = .ok e' ∧
        ∀ {n : Type → Type} [Monad n] [LawfulMonad n] (room' : Nat)
          (resolver : Cell → ExceptT Failure n CellValue),
          e'.value (resolving room' resolver) = e.value (resolving room' resolver) := by
  obtain ⟨before, opening, closing, after, hbody, hposition, hopens, hwraps, hlisted⟩ :=
    exists_expansion he ht
  obtain ⟨hfirst, hlast⟩ := corners_of_ofBody he ht
  let cells := rectangle first.target last.target
  let written (c : Cell) : Parts := (Reference.mk c false false).written
  have hcell (c : Cell) (hc : c ∈ cells) :
      Address.text c = .ok (String.ofList (written c).chars) ∧ Names (written c) ∧
        (written c).target = c := by
    obtain ⟨hrow, hcol, hfits⟩ := fits_of_mem_rectangle hfirst hlast hc
    have hresolve := Reference.resolve?_written hrow hcol hfits
    exact ⟨Reference.text_eq_written hrow hfits, ⟨_, hresolve⟩, target_of_resolve? hresolve⟩
  have hnames : cells.mapM Address.text =
      .ok (cells.map fun c => String.ofList (written c).chars) := by
    rw [mapM_eq_ok, List.forall₂_map_right_iff, List.forall₂_same]
    exact fun c hc => (hcell c hc).1
  have hlist : (",".intercalate (cells.map fun c => String.ofList (written c).chars)).toList =
      listed (cells.map written) := by
    simp [listed, String.toList_intercalate, Function.comp_def]
  have htargets : (cells.map written).map Parts.target = cells := by
    rw [List.map_map]
    exact (List.map_congr_left fun c hc => (hcell c hc).2.2).trans (List.map_id _)
  obtain ⟨e', he', hvalue⟩ := hlisted (cells.map written)
    (List.forall_mem_map.2 fun _ _ => Reference.written_written)
    (List.forall_mem_map.2 fun c hc => (hcell c hc).2.1) htargets
  exact ⟨_, before, opening, closing, after, hnames, hbody, hposition, hopens, hwraps, e',
    hlist ▸ he', hvalue⟩

/-- The range in `SUM( (B2:$A$1) ,3)` and the parentheses around it. -/
theorem range_eq_expansion_sum : ∃ e before opening closing after e',
    Expr.ofBody roomLimit "SUM( (B2:$A$1) ,3)" = .ok e ∧
    "SUM( (B2:$A$1) ,3)" =
      String.ofList (before ++ (opening ++ ("B2:$A$1".toList ++ (closing ++ after)))) ∧
    OpensArgument before ∧ Wraps opening closing ∧
    Expr.ofBody roomLimit (String.ofList (before ++ ("A1,B1,A2,B2".toList ++ after))) = .ok e' ∧
    ∀ resolver : Cell → ExceptT Failure Id CellValue,
      e'.value (resolving roomLimit resolver) = e.value (resolving roomLimit resolver) := by
  let first : Parts := ⟨false, ['B'], false, ['2']⟩
  let last : Parts := ⟨true, ['A'], true, ['1']⟩
  have he : Expr.ofBody roomLimit "SUM( (B2:$A$1) ,3)" = .ok (.call ['S', 'U', 'M']
      [.range first last 6, .number ⟨['3'], []⟩]) := by cbv
  have ht : ⟨.range first last, 6⟩ ∈ (lex "SUM( (B2:$A$1) ,3)").tokens := by
    have htokens : (lex "SUM( (B2:$A$1) ,3)").tokens = [⟨.name ['S', 'U', 'M'], 0⟩,
        ⟨.symbol .openParen, 3⟩, ⟨.symbol .openParen, 5⟩, ⟨.range first last, 6⟩,
        ⟨.symbol .closeParen, 13⟩, ⟨.symbol .comma, 15⟩, ⟨.number ⟨['3'], []⟩, 16⟩,
        ⟨.symbol .closeParen, 17⟩] := by cbv
    simp [htokens]
  have hcells : (rectangle first.target last.target).mapM Address.text =
      .ok ["A1", "B1", "A2", "B2"] := by decide +kernel
  obtain ⟨names, before, opening, closing, after, hnames, hbody, -, hopens, hwraps, e', he',
    hvalue⟩ := range_eq_expansion he ht
  obtain rfl := Except.ok.inj (hcells.symm.trans hnames)
  have hlist : (",".intercalate ["A1", "B1", "A2", "B2"]).toList = "A1,B1,A2,B2".toList := by
    decide +kernel
  exact ⟨_, before, opening, closing, after, e', he, hbody, hopens, hwraps, hlist ▸ he',
    fun resolver => hvalue roomLimit resolver⟩

/-- A list is no expression: in parentheses it cannot stand, as a range can. -/
theorem not_list_in_parentheses : ¬ ∀ (body : String) (e : Expr) (first last : Parts)
    (front back : List Char) (names : List String), Expr.ofBody roomLimit body = .ok e →
    ⟨.range first last, front.length⟩ ∈ (lex body).tokens →
    body = String.ofList (front ++ ((Lexeme.range first last).chars ++ back)) →
    (rectangle first.target last.target).mapM Address.text = .ok names →
    ∃ e', Expr.ofBody roomLimit
      (String.ofList (front ++ ((",".intercalate names).toList ++ back))) = .ok e' := by
  intro h
  let first : Parts := ⟨false, ['A'], false, ['1']⟩
  let last : Parts := ⟨false, ['B'], false, ['1']⟩
  have he : Expr.ofBody roomLimit "SUM((A1:B1))" =
      .ok (.call ['S', 'U', 'M'] [.range first last 5]) := by cbv
  have ht : ⟨.range first last, 5⟩ ∈ (lex "SUM((A1:B1))").tokens := by
    have htokens : (lex "SUM((A1:B1))").tokens = [⟨.name ['S', 'U', 'M'], 0⟩,
        ⟨.symbol .openParen, 3⟩, ⟨.symbol .openParen, 4⟩, ⟨.range first last, 5⟩,
        ⟨.symbol .closeParen, 10⟩, ⟨.symbol .closeParen, 11⟩] := by cbv
    simp [htokens]
  have hnames : (rectangle first.target last.target).mapM Address.text = .ok ["A1", "B1"] := by
    decide +kernel
  obtain ⟨e', he'⟩ := h "SUM((A1:B1))" _ first last ['S', 'U', 'M', '(', '('] [')', ')'] _ he ht
    (by decide +kernel) hnames
  have hlist : String.ofList (['S', 'U', 'M', '(', '('] ++
      ((",".intercalate ["A1", "B1"]).toList ++ [')', ')'])) = "SUM((A1,B1))" := by decide +kernel
  have hrejected : Expr.ofBody roomLimit "SUM((A1,B1))" =
      .error (.rejected (.unexpectedToken "," 7)) := by cbv
  rw [hlist, hrejected] at he'
  cases he'

end Spreadsheet.Formula
