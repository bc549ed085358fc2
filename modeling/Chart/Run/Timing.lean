import Chart.Run.Basic

set_option autoImplicit false

/-!
Timers of timed states. Starting a timer requests a frame; stopping it only raises a flag, and
the next frame resets the counters.
-/

namespace Chart.Run

/-- The new frame is requested before a stale one is cancelled. -/
def startTimer (state : StateId) : Run Unit := do
  let machine ← get
  let (handle, frames) := machine.frames.schedule state
  let stale := (machine.state? state).bind StateNode.frame
  let kept := match stale with
    | some old => frames.cancel old
    | none => frames
  set ({ machine with frames := kept }.modifyState state fun node =>
    { node with timer := .armed, frame := some handle })
  report (.timerStarted state (machine.stateName state))

def stopTimer (state : StateId) : Run Unit :=
  modify fun machine => machine.modifyState state fun node =>
    if node.timer.running then { node with timer := node.timer.stopped } else node

def resetTimer (state : StateId) : Run Unit := do
  modify fun machine => machine.modifyState state fun node =>
    { node with timer := .idle, frame := none }
  report (.timerStopped state ((← get).stateName state))

def cancelFrame (handle : FrameHandle) : Run Unit :=
  modify fun machine => { machine with frames := machine.frames.cancel handle }

def requestFrame (state : StateId) : Run Unit :=
  modify fun machine =>
    let (handle, frames) := machine.frames.schedule state
    { machine with frames }.modifyState state fun node => { node with frame := some handle }

/-- Requests the next frame, unless the timer was stopped or restarted since this one came. -/
def renewFrame (handle : FrameHandle) : Run Unit := do
  match (← get).state? handle.state with
  | none => pure ()
  | some node =>
      if node.frame = some handle then
        if node.timer.running then requestFrame handle.state else resetTimer handle.state

/-- Folds the frame into the timer and runs the activity if it is due; then waits for the next
frame. -/
def foldFrame (calls : Calls) (handle : FrameHandle) (now : Duration) (node : StateNode) :
    Run Unit := do
  let (timer, due) := node.timer.step now node.config.interval
  note (.delivered handle)
  modify fun machine => machine.modifyState handle.state fun current => { current with timer }
  if due then startBehavior calls handle.state .activity node.activity
  renewFrame handle

/-- A frame that the state does not wait for is cancelled and has no effect. -/
def deliverFrame (calls : Calls) (handle : FrameHandle) (now : Duration) : Run Unit := do
  match (← get).state? handle.state with
  | none => fail (.unknownState handle.state)
  | some node =>
      if node.frame ≠ some handle then cancelFrame handle
      else if node.timer.running then foldFrame calls handle now node
      else resetTimer handle.state

/-- A reading that is not available yet is reported. -/
def reading {Answer : Type} (state : StateId) (read : Timer → Option Answer) :
    Run (Option Answer) := do
  match (← get).state? state with
  | none => return none
  | some node =>
      if (read node.timer).isNone then warn (.timerNotStarted node.name)
      return read node.timer

end Chart.Run
