import Mathlib
import Spreadsheet.Debounce

/-!
# Runs of a timer

A recompute that is put off is run once: at the first flush after the request for it, or when its
time has come, unless another request or a cancellation comes first. This holds of every run of
requests from the start of a timer, however the recomputes go.

* `Moment`, `after`, `clock`: requests one after another, and the time before each of them;
* `Executes`, `Superseded`, `Outstanding`: what a timer makes of a request;
* `Calls`, `Turn`, `Waits`: when a recompute is needed, and what is open until then;
* **`Knows.answers`**: one moment; `knows_after`: a timer knows what is open;
* `executes_iff_turn`, `pending_iff_outstanding`, `executes_iff_of_unclocked`, `runs_after`;
  **`executed_in_turn`**: all of it.
-/

namespace Spreadsheet.Debounce

/-- A request, and how a recompute would go at that moment. -/
structure Moment where
  request : Request
  outcome : Except Fault Unit

/-- The milliseconds that pass with a request. -/
def Request.duration : Request → Nat
  | advance ms => ms
  | schedule | flush | cancel => 0

/-- A timer that nothing has been asked of. -/
def start (delay? : Option Nat) (clocked : Bool) : Debounce := { delay?, clocked }

/-- A timer after one moment. -/
def next (d : Debounce) (m : Moment) : Debounce := (d.step m.request m.outcome).1

/-- A timer after some moments. -/
def after (d : Debounce) (h : List Moment) : Debounce := h.foldl next d

/-- The request at a place of a run. -/
def requestAt (h : List Moment) (i : Nat) : Option Request := h[i]?.map Moment.request

/-- The time before the request at a place of a run. -/
def clock (h : List Moment) (n : Nat) : Nat := ((h.take n).map fun m => m.request.duration).sum

/-! ## What a timer does -/

/-- How the recompute goes that is run at a place, if one is run there. -/
def outcomeAt? (d : Debounce) (h : List Moment) (j : Nat) : Option (Except Fault Unit) :=
  h[j]?.bind fun m =>
    if ((d.after (h.take j)).step m.request m.outcome).2 then some m.outcome else none

/-- A recompute is run at a place. -/
def RunsAt (d : Debounce) (h : List Moment) (j : Nat) : Prop := (d.outcomeAt? h j).isSome

/-- How the recomputes of a run go, one after another. -/
def outcomes (d : Debounce) (h : List Moment) : List (Except Fault Unit) :=
  (List.range h.length).filterMap (d.outcomeAt? h)

/-- The recompute that is run at `j` is the one asked for at `i`: it is the last one that has been
asked for, and it has been pending ever since. -/
structure Executes (d : Debounce) (h : List Moment) (i j : Nat) : Prop where
  asked : requestAt h i = some .schedule
  le : i ≤ j
  last : ∀ k, i < k → k ≤ j → requestAt h k ≠ some .schedule
  pending : ∀ n, i < n → n ≤ j → (d.after (h.take n)).pending = true
  runs : d.RunsAt h j

/-- A request takes the place of those before it, or drops them. -/
def Request.Supersedes (r : Request) : Prop := r = .schedule ∨ r = .cancel

/-- Another request or a cancellation comes before the recompute asked for at `i` is run. -/
def Superseded (d : Debounce) (h : List Moment) (i : Nat) : Prop :=
  ∃ k r, i < k ∧ requestAt h k = some r ∧ r.Supersedes ∧ ∀ j < k, ¬ d.Executes h i j

/-- At the end of a run the recompute asked for at `i` has not been run, and nothing has superseded
it. -/
structure Outstanding (d : Debounce) (h : List Moment) (i : Nat) : Prop where
  asked : requestAt h i = some .schedule
  kept : ∀ k r, i < k → requestAt h k = some r → ¬ r.Supersedes
  unexecuted : ∀ j, ¬ d.Executes h i j

/-! ## What it ought to do -/

/-- At `j` the recompute asked for at `i` is needed, or its time has come. -/
def Calls (delay? : Option Nat) (h : List Moment) (i j : Nat) : Prop :=
  requestAt h j = some .flush ∨ ∃ ms delay, requestAt h j = some (.advance ms) ∧
    delay? = some delay ∧ clock h i + delay ≤ clock h (j + 1)

/-- The first place after `i` where the recompute asked for there is called for. -/
structure Turn (delay? : Option Nat) (h : List Moment) (i j : Nat) : Prop where
  lt : i < j
  calls : Calls delay? h i j
  first : ∀ k, i < k → k < j → ¬ Calls delay? h i k

/-- The request at `i` is open before the request at `n`. -/
structure Waits (delay? : Option Nat) (h : List Moment) (i n : Nat) : Prop where
  asked : requestAt h i = some .schedule
  lt : i < n
  kept : ∀ k r, i < k → k < n → requestAt h k = some r → ¬ r.Supersedes
  uncalled : ∀ k, i < k → k < n → ¬ Calls delay? h i k

variable {delay? : Option Nat} {h : List Moment} {d : Debounce} {i j n : Nat} {m : Moment}

theorem Waits.mono {k : Nat} (hw : Waits delay? h i n) (hk : i < k) (hkn : k ≤ n) :
    Waits delay? h i k where
  asked := hw.asked
  lt := hk
  kept k' r h1 h2 := hw.kept k' r h1 (by omega)
  uncalled k' h1 h2 := hw.uncalled k' h1 (by omega)

/-- At most one request is open. -/
theorem Waits.unique (hi : Waits delay? h i n) (hj : Waits delay? h j n) : i = j := by
  rcases Nat.lt_trichotomy i j with hlt | heq | hlt
  · exact absurd (.inl rfl) (hi.kept j _ hlt hj.lt hj.asked)
  · exact heq
  · exact absurd (.inl rfl) (hj.kept i _ hlt hi.lt hi.asked)

theorem not_supersedes_of_calls {r : Request} (hc : Calls delay? h i j)
    (hr : requestAt h j = some r) : ¬ r.Supersedes := by
  rintro (rfl | rfl)
  · rcases hc with hf | ⟨ms, delay, ha, -⟩
    · rw [hf] at hr; cases hr
    · rw [ha] at hr; cases hr
  · rcases hc with hf | ⟨ms, delay, ha, -⟩
    · rw [hf] at hr; cases hr
    · rw [ha] at hr; cases hr

/-- A request stays open while nothing happens to it, and becomes open when it is made. -/
theorem waits_succ {r : Request} (hr : requestAt h n = some r) :
    Waits delay? h i (n + 1) ↔
      i = n ∧ r = .schedule ∨ Waits delay? h i n ∧ ¬ r.Supersedes ∧ ¬ Calls delay? h i n := by
  constructor
  · intro hw
    by_cases hin : i = n
    · subst hin
      exact .inl ⟨rfl, Option.some.inj (hr.symm.trans hw.asked)⟩
    · have hlt : i < n := by have := hw.lt; omega
      exact .inr ⟨hw.mono hlt (by omega), hw.kept n r hlt (by omega) hr,
        hw.uncalled n hlt (by omega)⟩
  · rintro (⟨rfl, rfl⟩ | ⟨hw, hs, hc⟩)
    · exact ⟨hr, by omega, fun k _ h1 h2 => by omega, fun k h1 h2 => by omega⟩
    · refine ⟨hw.asked, by have := hw.lt; omega, fun k r' h1 h2 hk => ?_, fun k h1 h2 => ?_⟩
      · by_cases hkn : k = n
        · subst hkn
          obtain rfl := Option.some.inj (hr.symm.trans hk)
          exact hs
        · exact hw.kept k r' h1 (by omega) hk
      · by_cases hkn : k = n
        · subst hkn
          exact hc
        · exact hw.uncalled k h1 (by omega)

/-! ## One moment -/

theorem after_append (h h' : List Moment) : d.after (h ++ h') = (d.after h).after h' :=
  List.foldl_append ..

theorem after_take_succ (hm : h[n]? = some m) :
    d.after (h.take (n + 1)) = (d.after (h.take n)).next m := by
  rw [List.take_add_one, hm, after_append]
  rfl

theorem requestAt_eq (hm : h[n]? = some m) : requestAt h n = some m.request := by
  rw [requestAt, hm]
  rfl

theorem clock_succ {r : Request} (hr : requestAt h n = some r) :
    clock h (n + 1) = clock h n + r.duration := by
  obtain ⟨m, hm, rfl⟩ := Option.map_eq_some_iff.1 hr
  unfold clock
  rw [List.take_add_one, hm]
  simp

theorem outcomeAt?_eq (hm : h[n]? = some m) : d.outcomeAt? h n =
    if ((d.after (h.take n)).step m.request m.outcome).2 then some m.outcome else none := by
  rw [outcomeAt?, hm]
  rfl

theorem runsAt_iff (hm : h[n]? = some m) :
    d.RunsAt h n ↔ ((d.after (h.take n)).request m.request).2 = true := by
  rw [RunsAt, outcomeAt?_eq hm, step]
  cases ((d.after (h.take n)).request m.request).2 <;> simp

section

variable (d : Debounce) (outcome : Except Fault Unit)

@[simp] theorem finish_delay? : (d.finish outcome).delay? = d.delay? := by cases outcome <;> rfl
@[simp] theorem finish_clocked : (d.finish outcome).clocked = d.clocked := by cases outcome <;> rfl
@[simp] theorem finish_now : (d.finish outcome).now = d.now := by cases outcome <;> rfl
@[simp] theorem finish_since? : (d.finish outcome).since? = d.since? := by cases outcome <;> rfl

end

theorem next_eq (d : Debounce) (m : Moment) : d.next m =
    if (d.request m.request).2 then (d.request m.request).1.finish m.outcome
    else (d.request m.request).1 := rfl

theorem isDue_iff : d.isDue = true ↔
    ∃ since delay, d.since? = some since ∧ d.delay? = some delay ∧ since + delay ≤ d.now := by
  unfold isDue
  cases d.since? <;> cases d.delay? <;> simp

/-- A timer whose clock has moved on. -/
def elapse (d : Debounce) (ms : Nat) : Debounce := { d with now := d.now + ms }

theorem request_advance_of_clocked (hc : d.clocked = true) (ms : Nat) : d.request (.advance ms) =
    if (d.elapse ms).isDue then ((d.elapse ms).drop, true) else (d.elapse ms, false) := by
  simp only [request, hc, if_true, elapse]

/-! ## Runs with a clock -/

/-- What a timer with a clock knows before the request at `n`. -/
structure Knows (delay? : Option Nat) (h : List Moment) (n : Nat) (d : Debounce) : Prop where
  delay : d.delay? = delay?
  clocked : d.clocked = true
  now : d.now = clock h n
  since : ∀ t, d.since? = some t ↔ ∃ i, Waits delay? h i n ∧ clock h i = t

theorem Knows.pending_iff (hk : Knows delay? h n d) :
    d.pending = true ↔ ∃ i, Waits delay? h i n := by
  rw [pending, Option.isSome_iff_exists]
  simp only [hk.since]
  exact ⟨fun ⟨_, i, hi, _⟩ => ⟨i, hi⟩, fun ⟨i, hi⟩ => ⟨_, i, hi, rfl⟩⟩

/-- What has to hold of a timer that is asked something at `n`: it knows what is open, and says that
a recompute is due if the open one is called for. -/
def Answers (delay? : Option Nat) (h : List Moment) (n : Nat) (answer : Debounce × Bool) : Prop :=
  Knows delay? h (n + 1) answer.1 ∧
    (answer.2 = true ↔ ∃ i, Waits delay? h i n ∧ Calls delay? h i n)

theorem Knows.schedule (hk : Knows delay? h n d) (hr : requestAt h n = some .schedule) :
    Answers delay? h n (d.request .schedule) := by
  have hcalls (i : Nat) : ¬ Calls delay? h i n :=
    fun hc => not_supersedes_of_calls hc hr (.inl rfl)
  have hrequest : d.request .schedule = ({ d with state := .calculating, since? := some d.now },
      false) := by simp only [request, hk.clocked, if_true]
  rw [hrequest]
  refine ⟨⟨hk.delay, hk.clocked, hk.now.trans (clock_succ hr).symm, fun t => ?_⟩, ?_⟩
  · simp only [Option.some.injEq, waits_succ hr, hk.now]
    constructor
    · rintro rfl
      exact ⟨n, .inl ⟨rfl, trivial⟩, rfl⟩
    · rintro ⟨i, ⟨rfl, -⟩ | ⟨-, hs, -⟩, rfl⟩
      · rfl
      · exact absurd (.inl rfl) hs
  · simp only [Bool.false_eq_true, false_iff]
    exact fun ⟨i, _, hc⟩ => hcalls i hc

theorem Knows.cancel (hk : Knows delay? h n d) (hr : requestAt h n = some .cancel) :
    Answers delay? h n (d.request .cancel) := by
  refine ⟨⟨hk.delay, hk.clocked, hk.now.trans (clock_succ hr).symm, fun t => ?_⟩, ?_⟩
  · simp only [request, drop, waits_succ hr, reduceCtorEq, and_false, false_or, false_iff]
    rintro ⟨i, ⟨-, hs, -⟩, -⟩
    exact hs (.inr rfl)
  · simp only [request, Bool.false_eq_true, false_iff]
    exact fun ⟨i, _, hc⟩ => not_supersedes_of_calls hc hr (.inr rfl)

theorem Knows.flush (hk : Knows delay? h n d) (hr : requestAt h n = some .flush) :
    Answers delay? h n (d.request .flush) := by
  have hcalls (i : Nat) : Calls delay? h i n := .inl hr
  refine ⟨⟨hk.delay, hk.clocked, hk.now.trans (clock_succ hr).symm, fun t => ?_⟩, ?_⟩
  · simp only [request, drop, waits_succ hr, hcalls, reduceCtorEq, and_false, not_true_eq_false,
      false_or, false_and, exists_false]
  · simp only [request, hk.pending_iff, hcalls, and_true]

theorem Knows.advance (hk : Knows delay? h n d) {ms : Nat}
    (hr : requestAt h n = some (.advance ms)) :
    Answers delay? h n (d.request (.advance ms)) := by
  have hnow : d.now + ms = clock h (n + 1) := by rw [hk.now, clock_succ hr]; rfl
  have hkeeps : ¬ (Request.advance ms).Supersedes := by rintro (h | h) <;> cases h
  have hcalls (i : Nat) : Calls delay? h i n ↔
      ∃ delay, delay? = some delay ∧ clock h i + delay ≤ clock h (n + 1) := by
    simp only [Calls, hr, Option.some.injEq, reduceCtorEq, false_or, Request.advance.injEq]
    exact ⟨fun ⟨_, delay, _, h⟩ => ⟨delay, h⟩, fun ⟨delay, h⟩ => ⟨ms, delay, rfl, h⟩⟩
  have hdue : (d.elapse ms).isDue = true ↔ ∃ i, Waits delay? h i n ∧ Calls delay? h i n := by
    simp only [isDue_iff, hcalls, elapse, hk.delay, hnow]
    constructor
    · rintro ⟨since, delay, hsince, hdelay, hle⟩
      obtain ⟨i, hi, rfl⟩ := (hk.since _).1 hsince
      exact ⟨i, hi, delay, hdelay, hle⟩
    · rintro ⟨i, hi, delay, hdelay, hle⟩
      exact ⟨_, delay, (hk.since _).2 ⟨i, hi, rfl⟩, hdelay, hle⟩
  rw [request_advance_of_clocked hk.clocked]
  by_cases hd : (d.elapse ms).isDue = true
  · rw [if_pos hd]
    obtain ⟨i, hi, hc⟩ := hdue.1 hd
    refine ⟨⟨hk.delay, hk.clocked, hnow, fun t => ?_⟩, iff_of_true rfl ⟨i, hi, hc⟩⟩
    simp only [drop, waits_succ hr, reduceCtorEq, and_false, false_or, false_iff]
    rintro ⟨i', ⟨hi', -, hc'⟩, -⟩
    exact hc' (hi.unique hi' ▸ hc)
  · rw [if_neg hd]
    refine ⟨⟨hk.delay, hk.clocked, hnow, fun t => ?_⟩,
      iff_of_false Bool.false_ne_true fun h => hd (hdue.2 h)⟩
    have hsame : (d.elapse ms).since? = d.since? := rfl
    simp only [hsame, hk.since, waits_succ hr, reduceCtorEq, and_false, false_or]
    refine exists_congr fun i => and_congr_left' ⟨fun hi => ⟨hi, hkeeps, ?_⟩, fun hi => hi.1⟩
    exact fun hc => hd (hdue.2 ⟨i, hi, hc⟩)

/-- **One moment of a timer with a clock.** -/
theorem Knows.answers (hk : Knows delay? h n d) {r : Request} (hr : requestAt h n = some r) :
    Answers delay? h n (d.request r) := by
  cases r with
  | schedule => exact hk.schedule hr
  | flush => exact hk.flush hr
  | cancel => exact hk.cancel hr
  | advance ms => exact hk.advance hr

theorem Knows.next (hk : Knows delay? h n d) (hm : h[n]? = some m) :
    Knows delay? h (n + 1) (d.next m) := by
  have hk' := (hk.answers (requestAt_eq hm)).1
  rw [next_eq]
  split
  · exact ⟨by simp [hk'.delay], by simp [hk'.clocked], by simp [hk'.now], by simpa using hk'.since⟩
  · exact hk'

/-- **A timer with a clock holds the one request that is open.** -/
theorem knows_after (delay? : Option Nat) (h : List Moment) (n : Nat) (hn : n ≤ h.length) :
    Knows delay? h n ((start delay? true).after (h.take n)) := by
  induction n with
  | zero =>
    refine ⟨rfl, rfl, rfl, fun t => ⟨nofun, ?_⟩⟩
    rintro ⟨i, hi, -⟩
    exact absurd hi.lt (Nat.not_lt_zero i)
  | succ n ih =>
    have hm : h[n]? = some h[n] := List.getElem?_eq_getElem hn
    rw [after_take_succ hm]
    exact (ih (by omega)).next hm

theorem lt_length_of_requestAt {r : Request} (hr : requestAt h n = some r) : n < h.length := by
  obtain ⟨m, hm, -⟩ := Option.map_eq_some_iff.1 hr
  exact (List.getElem?_eq_some_iff.1 hm).1

/-- **A recompute is run where one is open and called for.** -/
theorem runsAt_iff_waits : (start delay? true).RunsAt h j ↔
    ∃ i, Waits delay? h i j ∧ Calls delay? h i j := by
  by_cases hj : j < h.length
  · have hm : h[j]? = some h[j] := List.getElem?_eq_getElem hj
    rw [runsAt_iff hm]
    exact ((knows_after delay? h j (Nat.le_of_lt hj)).answers (requestAt_eq hm)).2
  · have hnone : h[j]? = none := List.getElem?_eq_none (by omega)
    constructor
    · intro hruns
      simp [RunsAt, outcomeAt?, hnone] at hruns
    · rintro ⟨i, -, hf | ⟨ms, delay, ha, -⟩⟩
      · exact absurd (lt_length_of_requestAt hf) hj
      · exact absurd (lt_length_of_requestAt ha) hj

theorem Calls.requestAt {r : Request} (hc : Calls delay? h i j) (hr : requestAt h j = some r) :
    r ≠ .schedule := fun h => not_supersedes_of_calls hc hr (.inl h)

theorem Calls.lt_length (hc : Calls delay? h i j) : j < h.length := by
  rcases hc with hf | ⟨ms, delay, ha, -⟩
  · exact lt_length_of_requestAt hf
  · exact lt_length_of_requestAt ha

/-- **A recompute is run for the request that is open and called for.** -/
theorem executes_iff_waits : (start delay? true).Executes h i j ↔
    Waits delay? h i j ∧ Calls delay? h i j := by
  constructor
  · intro he
    obtain ⟨i', hw, hc⟩ := runsAt_iff_waits.1 he.runs
    -- both are the last request before `j`: a later one would have taken the place of the open one
    suffices i = i' from this ▸ ⟨hw, hc⟩
    have hij : i ≠ j := by
      rintro rfl
      exact hc.requestAt he.asked rfl
    have hle := he.le
    rcases Nat.lt_trichotomy i i' with hlt | heq | hlt
    · exact absurd hw.asked (he.last i' hlt (Nat.le_of_lt hw.lt))
    · exact heq
    · exact absurd (.inl rfl) (hw.kept i _ hlt (by omega) he.asked)
  · rintro ⟨hw, hc⟩
    refine ⟨hw.asked, Nat.le_of_lt hw.lt, fun k h1 h2 hk => ?_, fun n h1 h2 => ?_,
      runsAt_iff_waits.2 ⟨i, hw, hc⟩⟩
    · rcases Nat.lt_or_eq_of_le h2 with hlt | rfl
      · exact hw.kept k _ h1 hlt hk (.inl rfl)
      · exact hc.requestAt hk rfl
    · have hn : n ≤ h.length := Nat.le_trans h2 (Nat.le_of_lt hc.lt_length)
      exact (knows_after delay? h n hn).pending_iff.2 ⟨i, hw.mono h1 h2⟩

theorem Turn.not_executes {k : Nat} (ht : Turn delay? h i j) (hk : k < j) :
    ¬ (start delay? true).Executes h i k := by
  rw [executes_iff_waits]
  rintro ⟨hw, hc⟩
  exact ht.first k hw.lt hk hc

/-- **A request that is not superseded is executed at its turn**, and no other one ever is. -/
theorem executes_iff_turn : (start delay? true).Executes h i j ↔
    requestAt h i = some .schedule ∧ ¬ (start delay? true).Superseded h i ∧ Turn delay? h i j := by
  constructor
  · intro he
    obtain ⟨hw, hc⟩ := executes_iff_waits.1 he
    refine ⟨hw.asked, ?_, hw.lt, hc, hw.uncalled⟩
    rintro ⟨k, r, hik, hr, hs, hnone⟩
    rcases Nat.lt_trichotomy k j with hlt | rfl | hlt
    · exact hw.kept k r hik hlt hr hs
    · exact not_supersedes_of_calls hc hr hs
    · exact hnone j hlt he
  · rintro ⟨hasked, hs, ht⟩
    refine executes_iff_waits.2 ⟨⟨hasked, ht.lt, fun k r h1 h2 hr hr' => ?_, ht.first⟩, ht.calls⟩
    exact hs ⟨k, r, h1, hr, hr', fun j' hj' => ht.not_executes (by omega)⟩

theorem outstanding_iff_waits :
    (start delay? true).Outstanding h i ↔ Waits delay? h i h.length := by
  constructor
  · intro ho
    refine ⟨ho.asked, lt_length_of_requestAt ho.asked, fun k r h1 _ => ho.kept k r h1, ?_⟩
    -- the first call would execute the request
    intro k
    induction k using Nat.strongRecOn with
    | ind k ih =>
      intro h1 h2 hc
      have hw : Waits delay? h i k :=
        ⟨ho.asked, h1, fun k' r h3 _ => ho.kept k' r h3,
          fun k' h3 h4 => ih k' h4 h3 (Nat.lt_trans h4 h2)⟩
      exact ho.unexecuted k (executes_iff_waits.2 ⟨hw, hc⟩)
  · intro hw
    refine ⟨hw.asked, fun k r h1 hr => hw.kept k r h1 (lt_length_of_requestAt hr) hr,
      fun j he => ?_⟩
    obtain ⟨hw', hc⟩ := executes_iff_waits.1 he
    exact hw.uncalled j hw'.lt hc.lt_length hc

/-- **A recompute is pending if a request is outstanding**, and at most one is. -/
theorem pending_iff_outstanding : ((start delay? true).after h).pending = true ↔
    ∃! i, (start delay? true).Outstanding h i := by
  have hk := knows_after delay? h h.length (Nat.le_refl _)
  rw [List.take_length] at hk
  rw [hk.pending_iff]
  simp only [outstanding_iff_waits]
  exact ⟨fun ⟨i, hi⟩ => ⟨i, hi, fun _ hj => hj.unique hi⟩, fun ⟨i, hi, _⟩ => ⟨i, hi⟩⟩

theorem not_pending_iff_outstanding : ((start delay? true).after h).pending = false ↔
    ∀ i, ¬ (start delay? true).Outstanding h i := by
  rw [← Bool.not_eq_true, pending_iff_outstanding]
  simp only [outstanding_iff_waits]
  exact ⟨fun hn i hi => hn ⟨i, hi, fun _ hj => hj.unique hi⟩, fun hn ⟨i, hi, _⟩ => hn i hi⟩

/-! ## Runs without a clock -/

theorem not_pending_next (hc : d.clocked = false) (hp : d.since? = none) (m : Moment) :
    (d.next m).clocked = false ∧ (d.next m).since? = none := by
  have hrequest : (d.request m.request).1.clocked = false ∧
      (d.request m.request).1.since? = none := by
    cases m.request <;> simp [request, drop, hc, hp]
  rw [next_eq]
  split
  · simpa using hrequest
  · exact hrequest

/-- **Without a clock nothing is ever pending.** -/
theorem idle_after (delay? : Option Nat) (h : List Moment) :
    ((start delay? false).after h).clocked = false ∧
      ((start delay? false).after h).since? = none := by
  induction h using List.reverseRecOn with
  | nil => exact ⟨rfl, rfl⟩
  | append_singleton h m ih =>
    rw [after_append]
    exact not_pending_next ih.1 ih.2 m

theorem runsAt_iff_of_unclocked :
    (start delay? false).RunsAt h j ↔ requestAt h j = some .schedule := by
  cases hm : h[j]? with
  | none => simp [RunsAt, outcomeAt?, requestAt, hm]
  | some m =>
    obtain ⟨hc, hp⟩ := idle_after delay? (h.take j)
    rw [runsAt_iff hm, requestAt_eq hm]
    cases m.request <;> simp [request, hc, hp, pending]

/-- **Without a clock every request is executed at once.** -/
theorem executes_iff_of_unclocked :
    (start delay? false).Executes h i j ↔ i = j ∧ requestAt h i = some .schedule := by
  constructor
  · intro he
    refine ⟨?_, he.asked⟩
    have hle := he.le
    have hasked := runsAt_iff_of_unclocked.1 he.runs
    exact Nat.le_antisymm hle (Nat.le_of_not_lt fun hlt => he.last j hlt (Nat.le_refl j) hasked)
  · rintro ⟨rfl, hasked⟩
    exact ⟨hasked, Nat.le_refl i, fun k h1 h2 => by omega, fun k h1 h2 => by omega,
      runsAt_iff_of_unclocked.2 hasked⟩

/-! ## Counts -/

theorem outcomeAt?_append_left (h h' : List Moment) (hj : j < h.length) :
    d.outcomeAt? (h ++ h') j = d.outcomeAt? h j := by
  unfold outcomeAt?
  rw [List.getElem?_append_left hj, List.take_append_of_le_length (by omega)]

theorem outcomes_concat (h : List Moment) (m : Moment) : d.outcomes (h ++ [m]) =
    d.outcomes h ++ if ((d.after h).request m.request).2 then [m.outcome] else [] := by
  have hlast : d.outcomeAt? (h ++ [m]) h.length =
      if ((d.after h).step m.request m.outcome).2 then some m.outcome else none := by
    rw [outcomeAt?_eq (List.getElem?_concat_length ..), List.take_left]
  have hbefore : (List.range h.length).filterMap (d.outcomeAt? (h ++ [m])) = d.outcomes h :=
    List.filterMap_congr fun j hj => outcomeAt?_append_left h [m] (List.mem_range.1 hj)
  unfold outcomes at hbefore ⊢
  rw [List.length_append, List.length_singleton, List.range_succ, List.filterMap_append, hbefore]
  congr 1
  rw [List.filterMap_cons, hlast, step]
  split <;> simp_all

/-- What went wrong in the last of some recomputes. -/
def lastFault? (outcomes : List (Except Fault Unit)) : Option Fault :=
  match outcomes.getLast? with
  | some (.error fault) => some fault
  | _ => none

theorem runs_request (d : Debounce) (r : Request) :
    (d.request r).1.runs = d.runs ∧ (d.request r).1.lastError? = d.lastError? := by
  cases r with
  | schedule => simp only [request]; split <;> exact ⟨rfl, rfl⟩
  | flush => exact ⟨rfl, rfl⟩
  | cancel => exact ⟨rfl, rfl⟩
  | advance ms =>
    simp only [request]
    split
    · split <;> exact ⟨rfl, rfl⟩
    · exact ⟨rfl, rfl⟩

/-- **A timer counts the recomputes that went through**, and knows how the last one failed. -/
theorem runs_after (delay? : Option Nat) (clocked : Bool) (h : List Moment) :
    ((start delay? clocked).after h).runs =
        ((start delay? clocked).outcomes h).countP Except.isOk ∧
      ((start delay? clocked).after h).lastError? =
        (lastFault? ((start delay? clocked).outcomes h)).map Fault.message := by
  induction h using List.reverseRecOn with
  | nil => exact ⟨rfl, rfl⟩
  | append_singleton h m ih =>
    generalize hd : start delay? clocked = d at ih ⊢
    obtain ⟨hruns, hlast⟩ := runs_request (d.after h) m.request
    have hnext : d.after (h ++ [m]) = (d.after h).next m := by rw [after_append]; rfl
    rw [hnext, next_eq, outcomes_concat]
    by_cases hdue : ((d.after h).request m.request).2 = true
    · rw [if_pos hdue, if_pos hdue]
      cases m.outcome with
      | ok u => simp [finish, hruns, ih.1, lastFault?, Except.isOk, Except.toBool]
      | error fault => simp [finish, hruns, ih.1, lastFault?, Except.isOk, Except.toBool]
    · rw [if_neg hdue, if_neg hdue, List.append_nil]
      exact ⟨hruns.trans ih.1, hlast.trans ih.2⟩

/-! ## All of it -/

/-- **Recomputes are run in their turn.** With a clock, a request is executed once if nothing
supersedes it, where it is first called for, and never otherwise; nothing else is run, and a
recompute is pending if and only if one request is outstanding. Without a clock, every request is
executed at once. The counts are those of the recomputes that were run. -/
theorem executed_in_turn (delay? : Option Nat) (h : List Moment) :
    (∀ i j, (start delay? true).Executes h i j ↔
      requestAt h i = some .schedule ∧ ¬ (start delay? true).Superseded h i ∧
        Turn delay? h i j) ∧
    (∀ j, (start delay? true).RunsAt h j ↔ ∃ i, (start delay? true).Executes h i j) ∧
    (((start delay? true).after h).pending = true ↔ ∃! i, (start delay? true).Outstanding h i) ∧
    (((start delay? true).after h).pending = false ↔
      ∀ i, ¬ (start delay? true).Outstanding h i) ∧
    (∀ i j, (start delay? false).Executes h i j ↔ i = j ∧ requestAt h i = some .schedule) ∧
    (∀ j, (start delay? false).RunsAt h j ↔ requestAt h j = some .schedule) ∧
    ((start delay? false).after h).pending = false ∧
    ∀ clocked, ((start delay? clocked).after h).runs =
        ((start delay? clocked).outcomes h).countP Except.isOk ∧
      ((start delay? clocked).after h).lastError? =
        (lastFault? ((start delay? clocked).outcomes h)).map Fault.message := by
  refine ⟨fun i j => executes_iff_turn, fun j => ?_, pending_iff_outstanding,
    not_pending_iff_outstanding, fun i j => executes_iff_of_unclocked,
    fun j => runsAt_iff_of_unclocked, ?_, fun clocked => runs_after delay? clocked h⟩
  · refine ⟨fun hr => ?_, fun ⟨i, he⟩ => he.runs⟩
    obtain ⟨i, hi⟩ := runsAt_iff_waits.1 hr
    exact ⟨i, executes_iff_waits.2 hi⟩
  · rw [pending, (idle_after delay? h).2]
    rfl

end Spreadsheet.Debounce
