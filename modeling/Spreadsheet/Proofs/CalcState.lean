import Spreadsheet.Proofs.Debounce

/-!
# What the state of a timer says

A timer says that it is calculating while a recompute is pending, and how the last one went when
none is, with one exception: a cancellation drops the pending recompute and leaves the state as it
is, so that the timer goes on calculating until a recompute is asked for again.

* `Effect`, `request_effect`: all that a request does to a state;
* `Cancelled`: the recompute that was asked for has been dropped;
* `Tells`, `Tells.next`: what a state says, and that one moment keeps it true;
* **`truthful_after_iff`**: when the state says what is the case; `not_truthful`: not always.
-/

namespace Spreadsheet.Debounce

variable {d d' : Debounce} {h : List Moment} {m : Moment} {r : Request} {due : Bool}

/-! ## One request -/

/-- What a request can do to a timer. -/
inductive Effect (d : Debounce) (r : Request) (d' : Debounce) (due : Bool) : Prop where
  /-- A recompute is due that was pending or has just been asked for. -/
  | runs (hdue : due = true) (hasked : r = .schedule ∨ d.pending = true) (hr : r ≠ .cancel)
    (hidle : d'.pending = false)
  /-- A recompute is put off. -/
  | puts (hdue : due = false) (hr : r = .schedule) (hpending : d'.pending = true)
    (hstate : d'.state = .calculating)
  /-- A recompute that was pending is dropped. -/
  | drops (hdue : due = false) (hr : r = .cancel) (hidle : d'.pending = false)
    (hstate : d'.state = d.state)
  /-- Nothing happens. -/
  | keeps (hdue : due = false) (hr : r ≠ .schedule ∧ r ≠ .cancel)
    (hpending : d'.pending = d.pending) (hstate : d'.state = d.state)

theorem request_effect (d : Debounce) (r : Request) :
    Effect d r (d.request r).1 (d.request r).2 := by
  cases r with
  | schedule =>
    by_cases hc : d.clocked = true
    · exact .puts (by simp [request, hc]) rfl (by simp [request, hc, pending])
        (by simp [request, hc])
    · exact .runs (by simp [request, hc]) (.inl rfl) (by simp)
        (by simp [request, hc, pending, drop])
  | flush =>
    by_cases hp : d.pending = true
    · exact .runs hp (.inr hp) (by simp) rfl
    · rw [Bool.not_eq_true] at hp
      exact .keeps hp (by simp) hp.symm rfl
  | cancel => exact .drops rfl rfl rfl rfl
  | advance ms =>
    by_cases hc : d.clocked = true
    · rw [request_advance_of_clocked hc]
      by_cases hd : (d.elapse ms).isDue = true
      · rw [if_pos hd]
        obtain ⟨since, -, hsince, -, -⟩ := isDue_iff.1 hd
        exact .runs rfl (.inr (Option.isSome_of_eq_some hsince)) (by simp) rfl
      · rw [if_neg hd]
        exact .keeps rfl (by simp) rfl rfl
    · exact .keeps (by simp [request, hc]) (by simp) (by simp [request, hc])
        (by simp [request, hc])

/-! ## Cancellations -/

/-- A recompute has been dropped by a cancellation, and none has been asked for since. -/
def Cancelled (d : Debounce) (h : List Moment) : Prop :=
  ∃ i, requestAt h i = some .cancel ∧ (d.after (h.take i)).pending = true ∧
    ∀ k, i < k → requestAt h k ≠ some .schedule

theorem requestAt_append_left (h' : List Moment) {i : Nat} (hi : i < h.length) :
    requestAt (h ++ h') i = requestAt h i := by
  rw [requestAt, List.getElem?_append_left hi, requestAt]

theorem requestAt_length (h : List Moment) (m : Moment) :
    requestAt (h ++ [m]) h.length = some m.request := by
  simp [requestAt]

theorem requestAt_concat {i : Nat} (hi : requestAt (h ++ [m]) i = some r) :
    i < h.length ∧ requestAt h i = some r ∨ i = h.length ∧ m.request = r := by
  have hlt : i < h.length + 1 := by simpa using lt_length_of_requestAt hi
  rcases Nat.lt_succ_iff_lt_or_eq.1 hlt with hlt | rfl
  · rw [requestAt_append_left _ hlt] at hi
    exact .inl ⟨hlt, hi⟩
  · rw [requestAt_length] at hi
    exact .inr ⟨rfl, Option.some.inj hi⟩

/-- A new request ends a cancellation, and one comes about where a recompute is dropped. -/
theorem cancelled_concat : d.Cancelled (h ++ [m]) ↔ m.request ≠ .schedule ∧
    (d.Cancelled h ∨ m.request = .cancel ∧ (d.after h).pending = true) := by
  constructor
  · rintro ⟨i, hi, hpending, hlast⟩
    rcases requestAt_concat hi with ⟨hlt, hi⟩ | ⟨rfl, hm⟩
    · rw [List.take_append_of_le_length (Nat.le_of_lt hlt)] at hpending
      refine ⟨fun hm => hlast h.length hlt (hm ▸ requestAt_length h m),
        .inl ⟨i, hi, hpending, fun k hk hr => hlast k hk ?_⟩⟩
      rw [requestAt_append_left _ (lt_length_of_requestAt hr), hr]
    · rw [List.take_left] at hpending
      exact ⟨by simp [hm], .inr ⟨hm, hpending⟩⟩
  · rintro ⟨hm, ⟨i, hi, hpending, hlast⟩ | ⟨hcancel, hpending⟩⟩
    · have hlt := lt_length_of_requestAt hi
      refine ⟨i, by rwa [requestAt_append_left _ hlt],
        by rwa [List.take_append_of_le_length (Nat.le_of_lt hlt)], fun k hk hr => ?_⟩
      rcases requestAt_concat hr with ⟨-, hr⟩ | ⟨-, hr⟩
      · exact hlast k hk hr
      · exact hm hr
    · refine ⟨h.length, hcancel ▸ requestAt_length h m, by rwa [List.take_left], fun k hk hr => ?_⟩
      rcases requestAt_concat hr with ⟨hlt, -⟩ | ⟨heq, -⟩ <;> omega

/-! ## What a state says -/

/-- The state of a timer at rest, by what went wrong last. -/
def atRest : Option Fault → CalcState
  | none => .ready
  | some _ => .error

/-- The state of a timer is calculating while a recompute is pending or has been dropped, and at
rest otherwise; nothing is pending after a cancellation. -/
structure Tells (d : Debounce) (h : List Moment) : Prop where
  idle : d.Cancelled h → (d.after h).pending = false
  calculating : (d.after h).pending = true ∨ d.Cancelled h → (d.after h).state = .calculating
  rest : (d.after h).pending = false → ¬ d.Cancelled h →
    (d.after h).state = atRest (lastFault? (d.outcomes h))

theorem state_finish (d : Debounce) (outcomes : List (Except Fault Unit))
    (outcome : Except Fault Unit) :
    (d.finish outcome).state = atRest (lastFault? (outcomes ++ [outcome])) := by
  cases outcome <;> simp [finish, lastFault?, atRest]

/-- **One moment.** -/
theorem Tells.next (ht : Tells d h) (m : Moment) : Tells d (h ++ [m]) := by
  have hnext : d.after (h ++ [m]) = (d.after h).next m := by
    rw [after_append]
    rfl
  have hwaits : ((d.after h).request m.request).2 = false →
      d.after (h ++ [m]) = ((d.after h).request m.request).1 ∧
        d.outcomes (h ++ [m]) = d.outcomes h := fun hdue => by
    rw [hnext, next_eq, outcomes_concat, hdue]
    exact ⟨rfl, List.append_nil _⟩
  cases request_effect (d.after h) m.request with
  | runs hdue hasked hr hidle =>
    -- What is run now was pending or has just been asked for, so that none is dropped.
    have hnot : ¬ d.Cancelled (h ++ [m]) := by
      rw [cancelled_concat]
      rintro ⟨hm, hc | ⟨hc, -⟩⟩
      · rw [ht.idle hc] at hasked
        exact hasked.elim hm Bool.false_ne_true
      · exact hr hc
    have hafter : d.after (h ++ [m]) = ((d.after h).request m.request).1.finish m.outcome := by
      rw [hnext, next_eq, if_pos hdue]
    have hpending : (d.after (h ++ [m])).pending = false := by
      rw [hafter, pending, finish_since?]
      exact hidle
    refine ⟨fun hc => absurd hc hnot, fun hc => ?_, fun _ _ => ?_⟩
    · rw [hpending] at hc
      exact absurd (hc.resolve_left Bool.false_ne_true) hnot
    · rw [hafter, outcomes_concat, if_pos hdue]
      exact state_finish ..
  | puts hdue hr hpending hstate =>
    have hnot : ¬ d.Cancelled (h ++ [m]) := fun hc => (cancelled_concat.1 hc).1 hr
    rw [← (hwaits hdue).1] at hpending hstate
    exact ⟨fun hc => absurd hc hnot, fun _ => hstate, fun hidle => by simp [hidle] at hpending⟩
  | drops hdue hr hidle hstate =>
    have hcancelled : d.Cancelled (h ++ [m]) ↔ (d.after h).pending = true ∨ d.Cancelled h := by
      rw [cancelled_concat, hr]
      simp [or_comm]
    rw [← (hwaits hdue).1] at hidle hstate
    refine ⟨fun _ => hidle, fun hc => ?_, fun _ hc => ?_⟩
    · rw [hidle] at hc
      rw [hstate]
      exact ht.calculating (hcancelled.1 (hc.resolve_left Bool.false_ne_true))
    · rw [hcancelled, not_or, Bool.not_eq_true] at hc
      rw [hstate, (hwaits hdue).2]
      exact ht.rest hc.1 hc.2
  | keeps hdue hr hpending hstate =>
    have hcancelled : d.Cancelled (h ++ [m]) ↔ d.Cancelled h := by
      rw [cancelled_concat]
      simp [hr.1, hr.2]
    rw [← (hwaits hdue).1] at hpending hstate
    constructor <;> rw [hpending, hcancelled]
    · exact ht.idle
    · exact hstate ▸ ht.calculating
    · rw [hstate, (hwaits hdue).2]
      exact ht.rest

theorem tells_start (delay? : Option Nat) (clocked : Bool) : Tells (start delay? clocked) [] where
  idle _ := rfl
  calculating := by
    rintro (hp | ⟨i, hi, -⟩)
    · cases hp
    · cases hi
  rest _ _ := rfl

theorem tells_after (delay? : Option Nat) (clocked : Bool) (h : List Moment) :
    Tells (start delay? clocked) h := by
  induction h using List.reverseRecOn with
  | nil => exact tells_start delay? clocked
  | append_singleton h m ih => exact ih.next m

/-- The state of a timer says what is the case: it is calculating while a recompute is pending, and
tells how the last one went when none is. -/
structure Truthful (d : Debounce) (h : List Moment) : Prop where
  calculating : (d.after h).state = .calculating ↔ (d.after h).pending = true
  error : (d.after h).state = .error ↔ (d.after h).pending = false ∧
    ∃ fault, (d.outcomes h).getLast? = some (.error fault)
  ready : (d.after h).state = .ready ↔ (d.after h).pending = false ∧
    ¬ ∃ fault, (d.outcomes h).getLast? = some (.error fault)

theorem atRest_eq_error_iff (outcomes : List (Except Fault Unit)) :
    atRest (lastFault? outcomes) = .error ↔ ∃ fault, outcomes.getLast? = some (.error fault) := by
  unfold lastFault?
  split <;> simp_all [atRest]

theorem Tells.truthful (ht : Tells d h) (hc : ¬ d.Cancelled h) : Truthful d h := by
  by_cases hp : (d.after h).pending = true
  · have hstate := ht.calculating (.inl hp)
    constructor <;> simp [hp, hstate]
  · rw [Bool.not_eq_true] at hp
    have hstate := ht.rest hp hc
    constructor <;> rw [hstate, hp]
    · cases lastFault? (d.outcomes h) <;> simp [atRest]
    · rw [atRest_eq_error_iff]
      exact (and_iff_right rfl).symm
    · rw [← atRest_eq_error_iff]
      cases lastFault? (d.outcomes h) <;> simp [atRest]

/-- **The state says what is the case after any run, unless a recompute has been dropped** by a
cancellation: then the timer goes on calculating with nothing pending, until one is asked for
again. -/
theorem truthful_after_iff (delay? : Option Nat) (clocked : Bool) (h : List Moment) :
    (Truthful (start delay? clocked) h ↔ ¬ (start delay? clocked).Cancelled h) ∧
    ((start delay? clocked).Cancelled h → ((start delay? clocked).after h).state = .calculating ∧
      ((start delay? clocked).after h).pending = false) := by
  have ht := tells_after delay? clocked h
  refine ⟨⟨fun htruthful hc => ?_, ht.truthful⟩, fun hc => ⟨ht.calculating (.inr hc), ht.idle hc⟩⟩
  have hpending := htruthful.calculating.1 (ht.calculating (.inr hc))
  rw [ht.idle hc] at hpending
  cases hpending

/-- A recompute that is asked for and dropped. -/
theorem cancelled_at_once : (start (some 16) true).Cancelled
      [⟨.schedule, .ok ()⟩, ⟨.cancel, .ok ()⟩] ∧
    ((start (some 16) true).after
      [⟨.schedule, .ok ()⟩, ⟨.cancel, .ok ()⟩]).state = .calculating := by
  have hc : (start (some 16) true).Cancelled [⟨.schedule, .ok ()⟩, ⟨.cancel, .ok ()⟩] := by
    refine ⟨1, rfl, rfl, fun k hk hr => ?_⟩
    have hlt := lt_length_of_requestAt hr
    simp only [List.length_cons, List.length_nil] at hlt
    omega
  exact ⟨hc, ((truthful_after_iff (some 16) true _).2 hc).1⟩

/-- Not every run leaves a state that says what is the case. -/
theorem not_truthful : ¬ ∀ (delay? : Option Nat) (clocked : Bool) (h : List Moment),
    Truthful (start delay? clocked) h := by
  intro htruthful
  have hpending := (htruthful (some 16) true
    [⟨.schedule, .ok ()⟩, ⟨.cancel, .ok ()⟩]).calculating.1 rfl
  cases hpending

end Spreadsheet.Debounce
