import Chart.Callback
import Chart.Diagnostic
import Chart.Frame
import Chart.History

set_option autoImplicit false

/-!
The journal of a machine: everything that happened to it, in order. A notice is what an observer
hears about, with its level and message; the other entries tell which callbacks started, which
notes they left, and which transitions were asked for, fired and settled.
-/

namespace Chart

inductive Notice
  | entered (state : StateId) (name : String)
  | left (state : StateId) (name : String)
  | entrySkipped (state : StateId) (name : String)
  | activationSkipped (region : RegionId) (name : String)
  | regionActivated (region : RegionId) (name : String)
  | regionDeactivated (region : RegionId) (name : String)
  | joined (owner : StateId) (name : String)
  | historyResumes (state : StateId) (name : String)
  | machineCompleted
  | timerStarted (state : StateId) (name : String)
  | timerStopped (state : StateId) (name : String)
  | ignored (transition : TransitionId) (name source : String)
  | rejected (transition : TransitionId) (name : String)
  | firingInternal (transition : TransitionId) (name : String)
  | firing (transition : TransitionId) (name source target : String)
  | misuse (error : UsageError)
  | misconfiguration (error : ConfigurationError)
deriving DecidableEq, Repr

namespace Notice

def level : Notice → Level
  | .ignored _ _ _ | .misuse _ => .warn
  | .misconfiguration _ => .error
  | _ => .info

def message : Notice → String
  | .entered _ name => "entered " ++ inQuotes name
  | .left _ name => "left " ++ inQuotes name
  | .entrySkipped _ name => "skipping entry of " ++ inQuotes name ++ ": region left"
  | .activationSkipped _ name => "skipping activation of " ++ inQuotes name ++ ": owner left"
  | .regionActivated _ name => "region " ++ inQuotes name ++ " activated"
  | .regionDeactivated _ name => "region " ++ inQuotes name ++ " deactivated"
  | .joined _ name => "all regions of " ++ inQuotes name ++ " completed"
  | .historyResumes _ name => "history resumes " ++ inQuotes name
  | .machineCompleted => "machine completed"
  | .timerStarted _ name => "timer of " ++ inQuotes name ++ " started"
  | .timerStopped _ name => "timer of " ++ inQuotes name ++ " stopped"
  | .ignored _ name source =>
      "transition " ++ inQuotes name ++ " ignored: " ++ inQuotes source ++ " is not active"
  | .rejected _ name => "transition " ++ inQuotes name ++ " rejected by its guard"
  | .firingInternal _ name => "internal transition " ++ inQuotes name
  | .firing _ name source target =>
      "transition " ++ inQuotes name ++ ": " ++ inQuotes source ++ " -> " ++ inQuotes target
  | .misuse error => error.message
  | .misconfiguration error => error.message

def diagnostic (notice : Notice) : Diagnostic :=
  ⟨notice.level, notice.message⟩

end Notice

/-- The three behaviours of a normal state. -/
inductive Phase
  | entry
  | exit
  | activity
deriving DecidableEq, Repr

inductive Event
  | notice (notice : Notice)
  | note (text : String)
  | started (phase : Phase) (state : StateId)
  | decided (choice : StateId) (target : Option String)
  | requested (transition : TransitionId)
  | recorded (transition : TransitionId) (firing : Firing)
  | settled (transition : TransitionId) (outcome : Outcome)
  | delivered (handle : FrameHandle)
deriving DecidableEq, Repr

namespace Event

/-- The text of an entry for a reader of the journal; diagnostics are shown to observers only. -/
def text? (observed : Bool) : Event → Option String
  | .notice reported => if observed then some reported.diagnostic.text else none
  | .note text => some text
  | _ => none

end Event
end Chart
