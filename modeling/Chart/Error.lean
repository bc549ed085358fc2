import Chart.Handle
import Chart.Kind

set_option autoImplicit false

/-!
What an operation on a machine can fail with. A configuration error is a mistake in the chart,
a usage error a repeated activation or deactivation, an action error the failure of a callback.
Every cause carries the names its message mentions.
-/

namespace Chart

inductive ConfigurationError
  | unregisteredTransition (transition : String)
  | inactiveContainer (transition region : String)
  | missingInitialTransition (region : String)
  | initialTransitionRejected (transition : String)
  | unknownSource (transition state region : String)
  | unknownTarget (transition state region : String)
  | finalSource (transition : String)
  | initialTarget (transition : String)
  | choiceUndecided (state : String)
  | choiceTargetUnreachable (state target : String)
  | duplicateName (region name : String)
  | alreadyContained (state region : String)
  | alreadyRegistered (transition region : String)
  | containmentCycle (state region : String)
  | rootNotInsertable (state : String)
  | notComposite (state : String) (kind : StateKind)
  | unknownState (state : StateId)
  | unknownRegion (region : RegionId)
  | unknownTransition (transition : TransitionId)
  | unknownTransitionName (name : String)
deriving DecidableEq, Repr

inductive UsageError
  | stateAlreadyActive (state : String)
  | stateAlreadyInactive (state : String)
  | regionAlreadyActive (region : String)
  | regionAlreadyInactive (region : String)
  | timerNotStarted (state : String)
deriving DecidableEq, Repr

inductive MachineError
  | configuration (error : ConfigurationError)
  | usage (error : UsageError)
  | action (message : String)
deriving DecidableEq, Repr

/-- Names are set in single quotes in all messages. -/
def inQuotes (name : String) : String := "'" ++ name ++ "'"

namespace ConfigurationError

def message : ConfigurationError → String
  | .unregisteredTransition transition =>
      "transition " ++ inQuotes transition ++ " is not registered in any region"
  | .inactiveContainer transition region =>
      "region " ++ inQuotes region ++ " containing transition " ++ inQuotes transition ++
        " is inactive"
  | .missingInitialTransition region =>
      "region " ++ inQuotes region ++ " has no initial transition"
  | .initialTransitionRejected transition =>
      "initial transition " ++ inQuotes transition ++ " was rejected by its guard"
  | .unknownSource transition state region =>
      "source state " ++ inQuotes state ++ " of transition " ++ inQuotes transition ++
        " is not a child of region " ++ inQuotes region
  | .unknownTarget transition state region =>
      "target state " ++ inQuotes state ++ " of transition " ++ inQuotes transition ++
        " is not reachable from region " ++ inQuotes region
  | .finalSource transition =>
      "transition " ++ inQuotes transition ++ " cannot leave a final state"
  | .initialTarget transition =>
      "transition " ++ inQuotes transition ++ " cannot target an initial pseudostate"
  | .choiceUndecided state =>
      "choice " ++ inQuotes state ++ " did not produce a target name"
  | .choiceTargetUnreachable state target =>
      "choice " ++ inQuotes state ++ " selected unreachable target " ++ inQuotes target
  | .duplicateName region name =>
      "region " ++ inQuotes region ++ " already contains an entity named " ++ inQuotes name
  | .alreadyContained state region =>
      "state " ++ inQuotes state ++ " already belongs to region " ++ inQuotes region
  | .alreadyRegistered transition region =>
      "transition " ++ inQuotes transition ++ " is already registered in region " ++
        inQuotes region
  | .containmentCycle state region =>
      "adding state " ++ inQuotes state ++ " to region " ++ inQuotes region ++
        " would make it its own ancestor"
  | .rootNotInsertable state =>
      "machine root " ++ inQuotes state ++ " cannot be added to a region"
  | .notComposite state kind =>
      kind.word ++ " state " ++ inQuotes state ++ " cannot own regions"
  | .unknownState state => "unknown state handle " ++ state.label
  | .unknownRegion region => "unknown region handle " ++ region.label
  | .unknownTransition transition => "unknown transition handle " ++ transition.label
  | .unknownTransitionName name => "no transition named " ++ inQuotes name

/-- The word for the cause alone. -/
def word : ConfigurationError → String
  | .unregisteredTransition _ => "UnregisteredTransition"
  | .inactiveContainer _ _ => "InactiveContainer"
  | .missingInitialTransition _ => "MissingInitialTransition"
  | .initialTransitionRejected _ => "InitialTransitionRejected"
  | .unknownSource _ _ _ => "UnknownSource"
  | .unknownTarget _ _ _ => "UnknownTarget"
  | .finalSource _ => "FinalSource"
  | .initialTarget _ => "InitialTarget"
  | .choiceUndecided _ => "ChoiceUndecided"
  | .choiceTargetUnreachable _ _ => "ChoiceTargetUnreachable"
  | .duplicateName _ _ => "DuplicateName"
  | .alreadyContained _ _ => "AlreadyContained"
  | .alreadyRegistered _ _ => "AlreadyRegistered"
  | .containmentCycle _ _ => "ContainmentCycle"
  | .rootNotInsertable _ => "RootNotInsertable"
  | .notComposite _ _ => "NotComposite"
  | .unknownState _ => "UnknownState"
  | .unknownRegion _ => "UnknownRegion"
  | .unknownTransition _ => "UnknownTransition"
  | .unknownTransitionName _ => "UnknownTransitionName"

end ConfigurationError

namespace UsageError

def message : UsageError → String
  | .stateAlreadyActive state => "state " ++ inQuotes state ++ " is already active"
  | .stateAlreadyInactive state => "state " ++ inQuotes state ++ " is already inactive"
  | .regionAlreadyActive region => "region " ++ inQuotes region ++ " is already active"
  | .regionAlreadyInactive region => "region " ++ inQuotes region ++ " is already inactive"
  | .timerNotStarted state => "timer of state " ++ inQuotes state ++ " has not run yet"

def word : UsageError → String
  | .stateAlreadyActive _ => "StateAlreadyActive"
  | .stateAlreadyInactive _ => "StateAlreadyInactive"
  | .regionAlreadyActive _ => "RegionAlreadyActive"
  | .regionAlreadyInactive _ => "RegionAlreadyInactive"
  | .timerNotStarted _ => "TimerNotStarted"

end UsageError

namespace MachineError

def message : MachineError → String
  | .configuration error => error.message
  | .usage error => error.message
  | .action message => "action failed: " ++ message

def word : MachineError → String
  | .configuration error => error.word
  | .usage error => error.word
  | .action _ => "Action"

end MachineError
end Chart
