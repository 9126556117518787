import Spreadsheet.Proofs.Editor.Telling
import Spreadsheet.Proofs.Editor.Failure
import Spreadsheet.Proofs.Formula.Naming

/-!
# What has been told of failing formulas

Events tell of failing cells whenever what is noted of them changes from one recompute that goes
through to the next, and at no other time. So the last event of a cell says why it fails, and no
event is told again unless something else was told of, or nothing was wrong, in between. A recompute
that fails tells of nothing, and what it has found is told of later.

* `Called`: the name of a cell; `subject?`: the name in an event that tells of one;
* `Editor.Completes`, `Editor.overlaid`: what was noted when a recompute last went through;
  `reports`: what the next one tells of; **`events_perform`**: one operation;
* `lastReport?`, `lastReport_after`: the last event of a cell;
* `Separated`, `known_or_separated`, `separated_after`: two events of a cell;
* **`reports_after`**: a run.
-/

namespace Spreadsheet

/-! ## Names of cells -/

/-- A cell of the plane has a name. -/
structure Called (c : Cell) (name : String) : Prop where
  row : 0 ≤ c.row
  col : 0 ≤ c.col
  text : Address.text c = .ok name

variable {c c' : Cell} {name : String}

theorem fits_of_text (h : Address.text c = .ok name) : (Reference.mk c false false).Fits := by
  unfold Address.text Reference.text Decimal.writeInt at h
  unfold Reference.Fits
  generalize Decimal.maxDigits = k at h ⊢
  by_contra hlong
  simp only at h hlong
  rw [← Nat.pow_eq] at hlong
  rw [if_neg hlong] at h
  cases h

theorem Called.read (h : Called c name) : Address.read name = .ok c := by
  obtain ⟨s, hs, hread⟩ := Address.read_text h.row h.col (fits_of_text h.text)
  obtain rfl : s = name := Except.ok.inj (hs.symm.trans h.text)
  exact hread

theorem Called.injective (h : Called c name) (h' : Called c' name) : c = c' :=
  Except.ok.inj (h.read.symm.trans h'.read)

namespace Editor

open Journal (Event)

variable {ed : Editor} {s : Sheet} {known : Cell → Option String} {message : String} {e : Event}

/-- The name of the failing cell that an event tells of. -/
def subject? (e : Event) : Option String :=
  match e.type, e.context.lookup "addr" with
  | .formulaError, some (.string name) => some name
  | _, _ => none

theorem subject?_failureEvent (s : Sheet) (c : Cell) (message : String) :
    subject? (failureEvent s c message) = some ((Address.text c).toOption.getD "") := rfl

theorem subject?_of_bland {events : List Event} (h : Bland events) (he : e ∈ events) :
    subject? e = none := by
  have htype := h e he
  unfold subject?
  split
  · exact absurd ‹_› htype
  · rfl

/-- The event of a cell in a grid has the name of another one only if that is the same. -/
theorem eq_of_subject? (hc : c ∈ s.size) (h : Called c' name)
    (he : subject? (failureEvent s c message) = some name) : c = c' := by
  rw [subject?_failureEvent, Option.some.injEq] at he
  have hmem := Size.mem_iff.1 hc
  rcases htext : Address.text c with t | n
  · rw [htext] at he
    obtain rfl : "" = name := he
    have hread := h.read
    rw [show Address.read "" = .error (.invalid "") from rfl] at hread
    cases hread
  · rw [htext] at he
    obtain rfl : n = name := he
    exact Called.injective ⟨hmem.1, hmem.2.2.1, htext⟩ h

/-! ## One operation -/

/-- A recompute goes through while an operation is performed. -/
def Completes (ed : Editor) (op : Operation) : Prop :=
  (ed.perform op).timer.runs ≠ ed.timer.runs

instance (op : Operation) : Decidable (ed.Completes op) := inferInstanceAs (Decidable (_ ≠ _))

/-- What was noted of the cells when the last recompute went through, if one did. -/
def overlaid (ed : Editor) (known : Cell → Option String) : List Operation → Cell → Option String
  | [] => known
  | op :: ops =>
    (ed.perform op).overlaid (if ed.Completes op then (ed.perform op).sheet.failure? else known) ops

/-- The event of a cell, if something new is noted of it. -/
def report? (known : Cell → Option String) (s : Sheet) (c : Cell) : Option Event :=
  (s.failure? c).bind fun message =>
    if known c = some message then none else some (failureEvent s c message)

/-- The events of the cells of which something new is noted, row by row. -/
def reports (known : Cell → Option String) (s : Sheet) : List Event :=
  s.size.toList.filterMap (report? known s)

theorem overlaid_append (ops : List Operation) (op : Operation) :
    ed.overlaid known (ops ++ [op]) =
      if (ed.after ops).Completes op then ((ed.after ops).perform op).sheet.failure?
      else ed.overlaid known ops := by
  induction ops generalizing ed known with
  | nil => rfl
  | cons first ops ih => exact ih

theorem lookup_filterMap {β : Type} (f : Cell → Option β) (cs : List Cell) (c : Cell) :
    (cs.filterMap fun c => (f c).map (c, ·)).lookup c = if c ∈ cs then f c else none := by
  induction cs with
  | nil => rfl
  | cons d cs ih =>
    cases hd : f d with
    | none =>
      rw [List.filterMap_cons_none (by rw [hd]; rfl), ih]
      by_cases hc : c = d
      · subst d
        simp [hd]
      · simp [hc]
    | some b =>
      rw [List.filterMap_cons_some (b := (d, b)) (by rw [hd]; rfl), List.lookup_cons, ih]
      by_cases hc : c = d
      · subst d
        simp [hd]
      · simp [hc, beq_false_of_ne hc]

theorem mem_of_failure? (hs : s.Coherent Formula.roomLimit) (h : s.failure? c = some message) :
    c ∈ s.size := by
  by_contra hc
  have hf : ¬ CellText.isFormula (s.grid.text c) = true := by
    rw [Grid.text_of_not_mem hc, CellText.isFormula_empty]
    exact Bool.false_ne_true
  rw [Sheet.failure?, hs.tidy hf] at h
  cases h

theorem lookup_failures (hs : s.Coherent Formula.roomLimit) (c : Cell) :
    s.failures.lookup c = s.failure? c := by
  rw [Sheet.failures_eq, lookup_filterMap]
  simp only [Size.mem_toList]
  split
  · rfl
  · cases h : s.failure? c with
    | none => rfl
    | some message => exact absurd (mem_of_failure? hs h) (by assumption)

theorem news_eq_reports {reported : List (Cell × String)}
    (h : ∀ c, reported.lookup c = known c) : news reported s = reports known s := by
  rw [news, Sheet.failures_eq, reports, List.filter_filterMap, List.map_filterMap]
  refine List.filterMap_congr fun c _ => ?_
  unfold report?
  cases s.failure? c with
  | none => rfl
  | some message =>
    by_cases hknown : known c = some message
    · simp [h, hknown]
    · simp [h, hknown]

theorem report?_eq_some_iff : report? known s c = some e ↔ ∃ message,
    s.failure? c = some message ∧ known c ≠ some message ∧ failureEvent s c message = e := by
  simp only [report?, Option.bind_eq_some_iff, Option.ite_none_left_eq_some, Option.some.injEq]

/-- A recompute tells of a cell as often as there is something new, that is, at most once. -/
theorem mem_reports (hname : Called c name) (he : subject? e = some name) :
    e ∈ reports known s ↔ c ∈ s.size ∧ report? known s c = some e := by
  simp only [reports, List.mem_filterMap, Size.mem_toList]
  constructor
  · rintro ⟨d, hd, hreport⟩
    obtain ⟨message, -, -, rfl⟩ := report?_eq_some_iff.1 hreport
    obtain rfl := eq_of_subject? hd hname he
    exact ⟨hd, hreport⟩
  · exact fun h => ⟨c, h⟩

theorem pairwise_reports (hname : Called c name) : (reports known s).Pairwise fun e e' =>
    subject? e = some name → subject? e' ≠ some name := by
  rw [reports, List.pairwise_filterMap]
  refine s.size.nodup_toList.imp_of_mem fun {d d'} hd hd' hne e he e' he' hsubject hsubject' => ?_
  rw [Size.mem_toList] at hd hd'
  obtain ⟨message, -, -, rfl⟩ := report?_eq_some_iff.1 he
  obtain ⟨message', -, -, rfl⟩ := report?_eq_some_iff.1 he'
  exact hne ((eq_of_subject? hd hname hsubject).trans (eq_of_subject? hd' hname hsubject').symm)

theorem after_append (ed : Editor) (ops : List Operation) (op : Operation) :
    ed.after (ops ++ [op]) = (ed.after ops).perform op := List.foldl_append

theorem Loud.completes {op : Operation} (h : Loud ed (ed.perform op)) : ed.Completes op := by
  rw [Completes, h.runs]
  exact Nat.succ_ne_self _

theorem Quiet.not_completes {op : Operation} (h : Quiet ed (ed.perform op)) : ¬ ed.Completes op :=
  not_not.2 h.runs

/-- What an operation tells of. -/
def told (ed : Editor) (known : Cell → Option String) (op : Operation) : List Event :=
  if ed.Completes op then reports known (ed.perform op).sheet else []

theorem mem_told {op : Operation} (hname : Called c name) (he : subject? e = some name)
    (hmem : e ∈ ed.told known op) : ed.Completes op ∧
      (ed.perform op).sheet.failure? c = some e.message ∧ known c ≠ some e.message := by
  unfold told at hmem
  split at hmem
  case isFalse => exact absurd hmem List.not_mem_nil
  case isTrue hcompletes =>
    obtain ⟨-, hreport⟩ := (mem_reports hname he).1 hmem
    obtain ⟨message, hnoted, hknown, rfl⟩ := report?_eq_some_iff.1 hreport
    exact ⟨hcompletes, hnoted, hknown⟩

theorem pairwise_told (hname : Called c name) (op : Operation) :
    (ed.told known op).Pairwise fun e e' => subject? e = some name → subject? e' ≠ some name := by
  unfold told
  split
  · exact pairwise_reports hname
  · exact .nil

/-- Among some events, those that tell of failing formulas are the given ones. -/
def Amid (told events : List Event) : Prop :=
  ∃ front back, Bland front ∧ Bland back ∧ events = front ++ told ++ back

theorem Amid.mem {told events : List Event} (h : Amid told events) (he : subject? e = some name)
    (hmem : e ∈ events) : e ∈ told := by
  obtain ⟨front, back, hfront, hback, rfl⟩ := h
  have hbland {events : List Event} (h : Bland events) : e ∉ events := fun hmem =>
    Option.some_ne_none _ (he.symm.trans (subject?_of_bland h hmem))
  rcases List.mem_append.1 hmem with hmem | hmem
  · exact (List.mem_append.1 hmem).resolve_left (hbland hfront)
  · exact absurd hmem (hbland hback)

theorem Amid.pairwise {told events : List Event} (h : Amid told events)
    (htold : told.Pairwise fun e e' => subject? e = some name → subject? e' ≠ some name) :
    events.Pairwise fun e e' => subject? e = some name → subject? e' ≠ some name := by
  obtain ⟨front, back, hfront, hback, rfl⟩ := h
  have hother {events : List Event} (h : Bland events) {e : Event} (he : e ∈ events) :
      subject? e ≠ some name := by
    rw [subject?_of_bland h he]
    exact nofun
  have hbland {events : List Event} (h : Bland events) : events.Pairwise fun e e' =>
      subject? e = some name → subject? e' ≠ some name :=
    List.pairwise_of_forall_mem_list fun e he _ _ hsubject => absurd hsubject (hother h he)
  refine List.pairwise_append.2 ⟨List.pairwise_append.2 ⟨hbland hfront, htold, ?_⟩, hbland hback, ?_⟩
  · exact fun e he _ _ hsubject => absurd hsubject (hother hfront he)
  · exact fun _ _ _ he' _ => hother hback he'

/-! ## The last event of a cell -/

/-- The last event that tells of a cell. -/
def lastReport? (events : List Event) (name : String) : Option Event :=
  (events.filter fun e => subject? e == some name).getLast?

theorem lastReport?_append {events told more : List Event} (h : Amid told more) (name : String) :
    lastReport? (events ++ more) name = (lastReport? told name).or (lastReport? events name) := by
  obtain ⟨front, back, hfront, hback, rfl⟩ := h
  have hbland {events : List Event} (h : Bland events) :
      events.filter (fun e => subject? e == some name) = [] := by
    refine List.filter_eq_nil_iff.2 fun e he => ?_
    rw [subject?_of_bland h he]
    exact Bool.false_ne_true
  simp only [lastReport?, List.filter_append, hbland hfront, hbland hback, List.nil_append,
    List.append_nil, List.getLast?_append]

/-- The reports of a sheet tell of a failing cell what is noted of it, or that was noted before. -/
theorem lastReport?_reports (hs : s.Coherent Formula.roomLimit) (hname : Called c name)
    (hnoted : s.failure? c = some message) :
    (∃ e, lastReport? (reports known s) name = some e ∧ e.message = message) ∨
      lastReport? (reports known s) name = none ∧ known c = some message := by
  cases hlast : lastReport? (reports known s) name with
  | some e =>
    have hmem := List.mem_of_getLast? hlast
    rw [List.mem_filter, beq_iff_eq] at hmem
    obtain ⟨-, hreport⟩ := (mem_reports hname hmem.2).1 hmem.1
    obtain ⟨message', hnoted', -, rfl⟩ := report?_eq_some_iff.1 hreport
    exact .inl ⟨_, rfl, Option.some.inj (hnoted'.symm.trans hnoted)⟩
  | none =>
    refine .inr ⟨rfl, ?_⟩
    by_contra hknown
    have hsubject : subject? (failureEvent s c message) = some name := by
      rw [subject?_failureEvent, hname.text]
      rfl
    have hmem : failureEvent s c message ∈ reports known s :=
      (mem_reports hname hsubject).2
        ⟨mem_of_failure? hs hnoted, report?_eq_some_iff.2 ⟨message, hnoted, hknown, rfl⟩⟩
    have hempty := List.getLast?_eq_none_iff.1 hlast
    exact List.filter_eq_nil_iff.1 hempty _ hmem (beq_iff_eq.2 hsubject)

/-! ## Runs -/

section

variable {settings : Settings} {clocked : Bool} {observe : Observer} {first : Editor}
  (hfirst : first = start settings clocked observe)

include hfirst

theorem valid_after (ops : List Operation) : (first.after ops).Valid observe := by
  subst hfirst
  exact valid_of_after rfl

/-- What has been reported is what was noted when the last recompute went through. -/
theorem lookup_reported (ops : List Operation) (c : Cell) :
    (first.after ops).reported.lookup c = first.overlaid (fun _ => none) ops c := by
  induction ops using List.reverseRecOn with
  | nil =>
    subst hfirst
    rfl
  | append_singleton ops op ih =>
    have hvalid := valid_after hfirst (ops ++ [op])
    rw [overlaid_append]
    rw [after_append] at hvalid ⊢
    rcases perform_steps (first.after ops) op with h | h
    · rw [if_neg h.not_completes, h.reported, ih]
    · rw [if_pos h.completes, h.reported, lookup_failures hvalid.sheet]

/-- **One more operation** tells of what is noted now and was not noted before, if a recompute goes
through. -/
theorem events_perform (ops : List Operation) (op : Operation) :
    ((first.after ops).Completes op →
      ((first.after ops).perform op).timer.runs = (first.after ops).timer.runs + 1 ∧
      ∃ front, Bland front ∧ ((first.after ops).perform op).events = (first.after ops).events ++
        front ++ reports (first.overlaid (fun _ => none) ops) ((first.after ops).perform op).sheet ++
          [recomputeEvent ((first.after ops).perform op).timer.runs (.ok ())]) ∧
    (¬ (first.after ops).Completes op → ∃ more, Bland more ∧
      ((first.after ops).perform op).events = (first.after ops).events ++ more) := by
  rcases perform_steps (first.after ops) op with h | h
  · exact ⟨fun hc => absurd hc h.not_completes, fun _ => h.events⟩
  · refine ⟨fun _ => ⟨h.runs, ?_⟩, fun hc => absurd h.completes hc⟩
    rw [← news_eq_reports (lookup_reported hfirst ops)]
    exact h.events

theorem exists_events_append (ops : List Operation) (op : Operation) : ∃ more,
    Amid ((first.after ops).told (first.overlaid (fun _ => none) ops) op) more ∧
      (first.after (ops ++ [op])).events = (first.after ops).events ++ more := by
  rw [after_append, told]
  obtain ⟨hloud, hquiet⟩ := events_perform hfirst ops op
  split
  case isTrue hcompletes =>
    obtain ⟨-, front, hfront, hevents⟩ := hloud hcompletes
    have hback : Bland [recomputeEvent ((first.after ops).perform op).timer.runs (.ok ())] :=
      bland_singleton (by simp [recomputeEvent])
    refine ⟨_, ⟨front, _, hfront, hback, rfl⟩, ?_⟩
    rw [hevents]
    simp only [List.append_assoc]
  case isFalse hquits =>
    obtain ⟨more, hmore, hevents⟩ := hquiet hquits
    refine ⟨more, ⟨more, [], hmore, bland_nil, ?_⟩, hevents⟩
    rw [List.append_nil, List.append_nil]

/-- **The last event of a cell** tells of what was noted of it when the last recompute went
through. -/
theorem lastReport_after (ops : List Operation) (hname : Called c name)
    (hknown : first.overlaid (fun _ => none) ops c = some message) :
    ∃ e, lastReport? (first.after ops).events name = some e ∧ e.message = message := by
  induction ops using List.reverseRecOn generalizing message with
  | nil => cases hknown
  | append_singleton ops op ih =>
    have hvalid := valid_after hfirst (ops ++ [op])
    obtain ⟨more, hmore, hevents⟩ := exists_events_append hfirst ops op
    rw [hevents, lastReport?_append hmore, told]
    rw [after_append] at hvalid
    rw [overlaid_append] at hknown
    split
    case isFalse hquits =>
      rw [if_neg hquits] at hknown
      exact ih hknown
    case isTrue hcompletes =>
      rw [if_pos hcompletes] at hknown
      rcases lastReport?_reports hvalid.sheet hname hknown with ⟨e, he, hmessage⟩ | ⟨hnone, hbefore⟩
      · exact ⟨e, by rw [he, Option.some_or], hmessage⟩
      · rw [hnone, Option.none_or]
        exact ih hbefore

end

/-- Between two places in the events of a run, a recompute goes through at which something else than
a reason is noted of a cell, or nothing. -/
def Separated (ed : Editor) (ops : List Operation) (c : Cell) (message : String) (i j : Nat) :
    Prop :=
  ∃ before op later, ops = before ++ op :: later ∧ (ed.after before).Completes op ∧
    i < (ed.after before).events.length ∧ ((ed.after before).perform op).events.length ≤ j ∧
    ((ed.after before).perform op).sheet.failure? c ≠ some message

theorem Separated.append {ops : List Operation} {i j j' : Nat} (h : ed.Separated ops c message i j)
    (hj : j ≤ j') (op : Operation) : ed.Separated (ops ++ [op]) c message i j' := by
  obtain ⟨before, first, later, rfl, hcompletes, hi, hle, hne⟩ := h
  exact ⟨before, first, later ++ [op], by simp, hcompletes, hi, hle.trans hj, hne⟩

section

variable {settings : Settings} {clocked : Bool} {observe : Observer} {first : Editor}
  (hfirst : first = start settings clocked observe) {i j : Nat} {e' : Event}

include hfirst

/-- An event of a cell tells of what was noted last of it, or something else has been noted since. -/
theorem known_or_separated (ops : List Operation) (hname : Called c name)
    (hi : (first.after ops).events[i]? = some e) (hsubject : subject? e = some name) :
    first.overlaid (fun _ => none) ops c = some e.message ∨
      first.Separated ops c e.message i (first.after ops).events.length := by
  induction ops using List.reverseRecOn with
  | nil =>
    subst hfirst
    cases hi
  | append_singleton ops op ih =>
    obtain ⟨more, hmore, hevents⟩ := exists_events_append hfirst ops op
    have hlength : (first.after ops).events.length ≤ (first.after (ops ++ [op])).events.length := by
      rw [hevents, List.length_append]
      exact Nat.le_add_right _ _
    rw [overlaid_append]
    by_cases hlt : i < (first.after ops).events.length
    · rw [hevents, List.getElem?_append_left hlt] at hi
      rcases ih hi with hknown | hseparated
      · split
        case isFalse => exact .inl hknown
        case isTrue hcompletes =>
          by_cases hnoted : ((first.after ops).perform op).sheet.failure? c = some e.message
          · exact .inl hnoted
          · rw [after_append]
            exact .inr ⟨ops, op, [], rfl, hcompletes, hlt, le_rfl, hnoted⟩
      · exact .inr (hseparated.append hlength op)
    · rw [hevents, List.getElem?_append_right (Nat.le_of_not_lt hlt)] at hi
      obtain ⟨hcompletes, hnoted, -⟩ :=
        mem_told hname hsubject (hmore.mem hsubject (List.mem_of_getElem? hi))
      rw [if_pos hcompletes]
      exact .inl hnoted

/-- **Two events of a cell for the same reason** are separated. -/
theorem separated_after (ops : List Operation) (hname : Called c name) (hij : i < j)
    (hi : (first.after ops).events[i]? = some e) (hj : (first.after ops).events[j]? = some e')
    (he : subject? e = some name) (he' : subject? e' = some name)
    (hmessage : e.message = e'.message) : first.Separated ops c e.message i j := by
  induction ops using List.reverseRecOn with
  | nil =>
    subst hfirst
    cases hi
  | append_singleton ops op ih =>
    obtain ⟨more, hmore, hevents⟩ := exists_events_append hfirst ops op
    rw [hevents] at hi hj
    by_cases hlt : j < (first.after ops).events.length
    · rw [List.getElem?_append_left hlt] at hj
      rw [List.getElem?_append_left (hij.trans hlt)] at hi
      exact (ih hi hj).append le_rfl op
    · have hle := Nat.le_of_not_lt hlt
      rw [List.getElem?_append_right hle] at hj
      by_cases hlt' : i < (first.after ops).events.length
      · rw [List.getElem?_append_left hlt'] at hi
        obtain ⟨-, -, hnew⟩ := mem_told hname he' (hmore.mem he' (List.mem_of_getElem? hj))
        rcases known_or_separated hfirst ops hname hi he with hknown | hseparated
        · exact absurd (hknown.trans (congrArg some hmessage)) hnew
        · exact hseparated.append hle op
      · rw [List.getElem?_append_right (Nat.le_of_not_lt hlt')] at hi
        obtain ⟨hi', rfl⟩ := List.getElem?_eq_some_iff.1 hi
        obtain ⟨hj', rfl⟩ := List.getElem?_eq_some_iff.1 hj
        have honce := List.pairwise_iff_getElem.1 (hmore.pairwise (pairwise_told hname op))
        exact absurd he' (honce _ _ hi' hj' (by omega) he)

end

/-- **Events tell of failing formulas as the overlay changes.** In every run,

* reasons are noted of cells of the grid;
* an operation tells of failing formulas only if a recompute goes through while it is performed, and
  then it tells of all those cells, row by row, of which something is noted that was not noted when a
  recompute last went through, right before it ends;
* the last event of a cell tells of what was noted of it when a recompute last went through;
* between two events of a cell for the same reason, a recompute goes through at which something else
  is noted of it, or nothing. -/
theorem reports_after (settings : Settings) (clocked : Bool) (observe : Observer)
    (ops : List Operation) :
    let first := start settings clocked observe
    let ed := first.after ops
    let known := first.overlaid (fun _ => none) ops
    (∀ c message, ed.sheet.failure? c = some message → c ∈ ed.sheet.size) ∧
    (∀ op,
      (ed.Completes op → (ed.perform op).timer.runs = ed.timer.runs + 1 ∧
        ∃ front, Bland front ∧ (ed.perform op).events = ed.events ++ front ++
          reports known (ed.perform op).sheet ++
            [recomputeEvent (ed.perform op).timer.runs (.ok ())]) ∧
      (¬ ed.Completes op → ∃ more, Bland more ∧ (ed.perform op).events = ed.events ++ more)) ∧
    (∀ c name message, Called c name → known c = some message →
      ∃ e, lastReport? ed.events name = some e ∧ e.message = message) ∧
    (∀ c name i j e e', Called c name → i < j → ed.events[i]? = some e → ed.events[j]? = some e' →
      subject? e = some name → subject? e' = some name → e.message = e'.message →
        first.Separated ops c e.message i j) :=
  ⟨fun _ _ => mem_of_failure? (valid_after rfl ops).sheet,
    fun op => events_perform rfl ops op, fun _ _ _ hname hknown => lastReport_after rfl ops hname hknown,
    fun _ _ _ _ _ _ hname hij hi hj he he' hmessage =>
      separated_after rfl ops hname hij hi hj he he' hmessage⟩

end Editor

end Spreadsheet
