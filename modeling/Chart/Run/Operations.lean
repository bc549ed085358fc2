import Chart.Run.Firing

set_option autoImplicit false

/-!
The operations of a running machine. Callbacks and cascades may ask for further operations, which
may ask for more; the depth bounds how far this goes. An operation that is not exhausted at some
depth has the same answer at every greater one.
-/

namespace Chart.Run

/-- The operations that may still nest to the given depth. -/
def calls : Nat → Calls
  | 0 => .exhausted
  | depth + 1 =>
      { trigger := fun transition memo => trigger (calls depth) transition memo
        enter := fun state => enterDefault (calls depth) state
        activate := fun state => activate (calls depth) state
        completeRegion := fun region => completeRegion (calls depth) region }

/-- Deeper than any chart that is meant to settle. -/
def ordinaryDepth : Nat := 100000

def start (depth : Nat) : Run Unit := do
  let machine ← get
  if machine.isActive then
    warn (.stateAlreadyActive machine.name)
    raise (.usage (.stateAlreadyActive machine.name))
  else (calls (depth + 1)).enter Machine.root

/-- Leaves every active state, innermost first, then the root. -/
def finish (depth : Nat) : Run Unit := do
  let machine ← get
  if machine.isActive then exit (calls depth) Machine.root
  else
    warn (.stateAlreadyInactive machine.name)
    raise (.usage (.stateAlreadyInactive machine.name))

def completion (depth : Nat) (state : StateId) : Run Unit := do
  match (← get).state? state with
  | none => fail (.unknownState state)
  | some node =>
      if node.status.isActive then completeState (calls depth) state
      else
        warn (.stateAlreadyInactive node.name)
        raise (.usage (.stateAlreadyInactive node.name))

def triggerHandle (depth : Nat) (transition : TransitionId) (memo : Value) : Run Outcome :=
  (calls (depth + 1)).trigger transition memo

def triggerNamed (depth : Nat) (name : String) (memo : Value) : Run Outcome :=
  (calls (depth + 1)).triggerNamed name memo

def frame (depth : Nat) (handle : FrameHandle) (now : Duration) : Run Unit :=
  deliverFrame (calls depth) handle now

/-- Delivers all pending frames and answers how many they were. Frames requested meanwhile stay
pending, and an error drops the frames not yet delivered. -/
def advance (depth : Nat) (now : Duration) : Run Nat := do
  let due ← modifyGet fun machine =>
    let (due, frames) := machine.frames.takePending
    (due, { machine with frames })
  due.forM fun handle => frame depth handle now
  return due.length

end Chart.Run
