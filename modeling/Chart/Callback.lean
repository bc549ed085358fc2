import Chart.Data.Value
import Chart.Error

set_option autoImplicit false

/-!
Callbacks. A guard or a decision only looks at the machine and answers. A behaviour is a tree of
requests: at each node it fails, leaves a note, looks at the machine, writes to the shared bag or
fires a transition, and goes on with what the request answered; it ends when it has nothing left
to ask for. Nothing else can be asked for, so a callback never changes the chart itself.
-/

namespace Chart

/-- What a callback sees of the machine; the state is the one the callback belongs to, or the
source of the firing transition. -/
structure View where
  machineName : String
  state : StateId
  stateName : String
  get? : String → Option Value
  stateData? : String → Option Value
  isActive : String → Bool

/-- An answer, and the notes left while it was found. -/
structure Verdict (Answer : Type) where
  answer : Answer
  notes : List String

/-- What came of a trigger that did not fail. -/
inductive Outcome
  | fired
  | internal
  | guardRejected
  | sourceInactive
deriving DecidableEq, Repr

namespace Outcome

/-- Whether the effect of the transition ran. -/
def hasFired : Outcome → Bool
  | .fired | .internal => true
  | .guardRejected | .sourceInactive => false

def word : Outcome → String
  | .fired => "Fired"
  | .internal => "Internal"
  | .guardRejected => "GuardRejected"
  | .sourceInactive => "SourceInactive"

end Outcome

/-- A transition is asked for by its handle or by the name it is registered under. -/
inductive TransitionReference
  | handle (transition : TransitionId)
  | name (name : String)
deriving DecidableEq, Repr

inductive Behavior
  | done
  | fail (error : MachineError)
  | note (text : String) (next : Behavior)
  | look (next : View → Behavior)
  | write (key : String) (value : Value) (next : Option Value → Behavior)
  | fire (transition : TransitionReference) (memo : Value)
      (next : Except MachineError Outcome → Behavior)

namespace Behavior

/-- The second behaviour goes on where the first one is done. -/
def andThen : Behavior → Behavior → Behavior
  | .done, rest => rest
  | .fail error, _ => .fail error
  | .note text next, rest => .note text (next.andThen rest)
  | .look next, rest => .look fun view => (next view).andThen rest
  | .write key value next, rest => .write key value fun old => (next old).andThen rest
  | .fire transition memo next, rest =>
      .fire transition memo fun answer => (next answer).andThen rest

end Behavior

/-! ### The four sorts of callbacks -/

abbrev Guard := View → Value → Verdict Bool

abbrev Decision := View → Verdict (Option String)

abbrev Effect := Value → Behavior

inductive CallbackSort
  | guard
  | effect
  | action
  | decision
deriving DecidableEq, Repr

/-- What is shown in the place of a callback, whose inside cannot be shown. -/
def CallbackSort.placeholder : CallbackSort → String
  | .guard => "Guard(..)"
  | .effect => "Effect(..)"
  | .action => "Action(..)"
  | .decision => "Decision(..)"

end Chart
