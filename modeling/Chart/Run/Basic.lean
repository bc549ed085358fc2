import Chart.Machine.Resolution

set_option autoImplicit false

/-!
Running a machine. A run changes the machine and ends with an answer, with an error, or because
its callbacks and cascades were nested too deep. What was changed before an error stays changed.
Configuration errors are reported when they arise, repeated activations and deactivations are
reported and otherwise ignored.
-/

namespace Chart

inductive Halt
  | error (error : MachineError)
  | exhausted
deriving DecidableEq, Repr

abbrev Run := EStateM Halt Machine

namespace Run

def note (event : Event) : Run Unit :=
  modify fun machine => machine.note event

def report (notice : Notice) : Run Unit :=
  note (.notice notice)

def noteAll (texts : List String) : Run Unit :=
  modify fun machine => texts.foldl (fun current text => current.note (.note text)) machine

def raise {Answer : Type} (error : MachineError) : Run Answer :=
  throw (.error error)

/-- Reports a mistake in the chart and stops the run. -/
def fail {Answer : Type} (error : ConfigurationError) : Run Answer := do
  report (.misconfiguration error)
  raise (.configuration error)

/-- Reports a mistake in the use of the machine; the run goes on. -/
def warn (error : UsageError) : Run Unit :=
  report (.misuse error)

/-- The answer or the error of a run, whose changes stay either way; only exhaustion still stops
it. -/
def attempt {Answer : Type} (run : Run Answer) : Run (Except MachineError Answer) :=
  fun machine =>
    match run machine with
    | .ok answer after => .ok (.ok answer) after
    | .error (.error error) after => .ok (.error error) after
    | .error .exhausted after => .error .exhausted after

/-- What the operations of a run may ask for one level further down. -/
structure Calls where
  trigger : TransitionId → Value → Run Outcome
  enter : StateId → Run Unit
  activate : StateId → Run Unit
  completeRegion : RegionId → Run Unit

namespace Calls

/-- Nothing may be asked for any more. -/
def exhausted : Calls :=
  { trigger := fun _ _ => throw .exhausted
    enter := fun _ => throw .exhausted
    activate := fun _ => throw .exhausted
    completeRegion := fun _ => throw .exhausted }

def triggerNamed (calls : Calls) (name : String) (memo : Value) : Run Outcome := do
  match (← get).findTransition? name with
  | some transition => calls.trigger transition memo
  | none => fail (.unknownTransitionName name)

def triggerReference (calls : Calls) (reference : TransitionReference) (memo : Value) :
    Run Outcome :=
  match reference with
  | .handle transition => calls.trigger transition memo
  | .name name => calls.triggerNamed name memo

end Calls

/-- Answers the requests of a behaviour that belongs to the given state. -/
def behave (calls : Calls) (state : StateId) : Behavior → Run Unit
  | .done => pure ()
  | .fail error => raise error
  | .note text next => do
      note (.note text)
      behave calls state next
  | .look next => do
      let machine ← get
      behave calls state (next (machine.view state))
  | .write key value next => do
      let old ← modifyGet fun machine => machine.set key value
      behave calls state (next old)
  | .fire reference memo next => do
      let answer ← attempt (calls.triggerReference reference memo)
      behave calls state (next answer)

/-- Starts one of the behaviours of a state, if the state has it. -/
def startBehavior (calls : Calls) (state : StateId) (phase : Phase)
    (behavior : Option Behavior) : Run Unit := do
  match behavior with
  | none => pure ()
  | some present =>
      note (.started phase state)
      behave calls state present

end Run
end Chart
