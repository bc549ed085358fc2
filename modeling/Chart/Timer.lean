import Chart.Time.Duration

set_option autoImplicit false

/-!
Counters of a periodic activity during one activation of its state. No clock is read here: each
frame brings its time, and `Timer.step` folds it into the counters. The activity is due when the
time since the first frame reaches the next multiple of the interval, at most once a frame.
-/

namespace Chart

structure Timer where
  startedAt : Option Duration
  elapsedTime : Duration
  frameCount : Nat
  invocationCount : Nat
  boundary : Nat
  running : Bool
deriving DecidableEq, Inhabited

namespace Timer

/-- The number of the next boundary does not grow beyond a word of 32 bits. -/
def greatestBoundary : Nat := 4294967295

def idle : Timer :=
  { startedAt := none
    elapsedTime := .zero
    frameCount := 0
    invocationCount := 0
    boundary := 0
    running := false }

/-- Running and waiting for its first frame. -/
def armed : Timer :=
  { idle with boundary := 1, running := true }

def stopped (timer : Timer) : Timer :=
  { timer with running := false }

/-- A multiple of the interval that is out of range lies beyond every elapsed time. -/
def isDue (interval elapsed : Duration) (boundary : Nat) : Bool :=
  match interval.times? boundary with
  | some due => decide (due ≤ elapsed)
  | none => false

/-- Folds in one frame; the answer says whether the activity is due. -/
def step (timer : Timer) (now interval : Duration) : Timer × Bool :=
  let start := timer.startedAt.getD now
  let elapsed := now.since start
  let due := isDue interval elapsed timer.boundary
  ({ timer with
      startedAt := some start
      elapsedTime := elapsed
      frameCount := timer.frameCount + 1
      invocationCount := timer.invocationCount + (if due then 1 else 0)
      boundary := if due then min (timer.boundary + 1) greatestBoundary else timer.boundary },
    due)

def hasRun (timer : Timer) : Bool :=
  timer.startedAt.isSome

/-- Readings are available once the first frame has been folded in. -/
def elapsed? (timer : Timer) : Option Duration :=
  timer.startedAt.map fun _ => timer.elapsedTime

def frames? (timer : Timer) : Option Nat :=
  timer.startedAt.map fun _ => timer.frameCount

def invocations? (timer : Timer) : Option Nat :=
  timer.startedAt.map fun _ => timer.invocationCount

end Timer
end Chart
