import Spreadsheet.Sheet.Display

/-!
# Putting off a recompute

Edits come in bursts, and one recompute after the last of them is enough. A request starts a timer
anew; when it runs out, or when someone needs the results, the recompute is run. Without a clock to
wait for it is run at once.

The timer itself is pure: `Debounce.request` says whether the recompute is due, `Debounce.finish`
takes in how it went, and `Debounce.step` does both for a recompute whose outcome is known.
-/

namespace Spreadsheet

/-- How far the displayed values are. -/
inductive CalcState where
  /-- A recompute has been asked for. -/
  | calculating
  /-- The last recompute went through. -/
  | ready
  /-- The last recompute failed. -/
  | error
  deriving DecidableEq, Repr

/-- The name of a state. -/
def CalcState.text : CalcState → String
  | calculating => "calculating"
  | ready => "ready"
  | error => "error"

/-- A timer for recomputes. -/
structure Debounce where
  /-- The milliseconds that a recompute is put off; none if it is put off for ever. -/
  delay? : Option Nat
  /-- There is a clock to wait for. -/
  clocked : Bool
  /-- The time on the clock, in milliseconds. -/
  now : Nat := 0
  /-- When the pending recompute was asked for. -/
  since? : Option Nat := none
  state : CalcState := .ready
  /-- How many recomputes went through. -/
  runs : Nat := 0
  /-- What went wrong in the last recompute. -/
  lastError? : Option String := none
  deriving DecidableEq, Repr

namespace Debounce

/-- What can be asked of a timer. -/
inductive Request where
  /-- A recompute is needed. -/
  | schedule
  /-- Run a pending recompute now. -/
  | flush
  /-- Drop a pending recompute. -/
  | cancel
  /-- Time has passed. -/
  | advance (ms : Nat)
  deriving DecidableEq, Repr

/-- A recompute is pending. -/
def pending (d : Debounce) : Bool := d.since?.isSome

/-- The time of a pending recompute has come. -/
def isDue (d : Debounce) : Bool :=
  match d.since?, d.delay? with
  | some since, some delay => since + delay ≤ d.now
  | _, _ => false

/-- A timer without a pending recompute. -/
def drop (d : Debounce) : Debounce := { d with since? := none }

/-- The timer after a request, and whether the recompute has to be run now. -/
def request (d : Debounce) : Request → Debounce × Bool
  | .schedule =>
    if d.clocked then ({ d with state := .calculating, since? := some d.now }, false)
    else ({ d.drop with state := .calculating }, true)
  | .flush => (d.drop, d.pending)
  | .cancel => (d.drop, false)
  | .advance ms =>
    if d.clocked then
      let d := { d with now := d.now + ms }
      if d.isDue then (d.drop, true) else (d, false)
    else (d, false)

/-- The timer after a recompute has been run. -/
def finish (d : Debounce) : Except Fault Unit → Debounce
  | .ok () => { d with state := .ready, runs := d.runs + 1, lastError? := none }
  | .error fault => { d with state := .error, lastError? := some fault.message }

/-- The timer after a request, given how a recompute would go, and whether it was run. -/
def step (d : Debounce) (r : Request) (outcome : Except Fault Unit) : Debounce × Bool :=
  let (d, due) := d.request r
  (if due then d.finish outcome else d, due)

end Debounce

end Spreadsheet
