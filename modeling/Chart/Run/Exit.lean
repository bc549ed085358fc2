import Chart.Machine.Configuration
import Chart.Run.Timing

set_option autoImplicit false

/-!
Leaving states, and completion. An exit follows the plan made when it began, innermost first. A
region that reaches its final state is left; once all regions of a state are inactive, the state
itself completes: its first outgoing transition fires, or it is left and its region completes in
turn. The completion of the root stops the machine.
-/

namespace Chart.Run

/-- A normal state stops its timer, becomes the last active child of its region and runs its exit
behaviour. -/
def leaveNormal (calls : Calls) (state : StateId) (node : StateNode) : Run Unit := do
  stopTimer state
  if let some region := node.container then
    modify fun machine => machine.modifyRegion region fun members =>
      { members with lastActive := some state }
  startBehavior calls state .exit node.exit

def deactivate (calls : Calls) (state : StateId) : Run Unit := do
  match (← get).state? state with
  | none => pure ()
  | some node =>
      if node.status.isActive then
        modify fun machine => machine.setStateStatus state .inactive
        report (.left state node.name)
        if node.kind = .normal then leaveNormal calls state node
      else warn (.stateAlreadyInactive node.name)

/-- Answers whether the region was active. -/
def deactivateRegion (region : RegionId) : Run Bool := do
  match (← get).region? region with
  | none => return false
  | some members =>
      if members.status.isActive then
        modify fun machine => machine.setRegionStatus region .inactive
        report (.regionDeactivated region members.name)
        return true
      else
        warn (.regionAlreadyInactive members.name)
        return false

def exitStep (calls : Calls) : Machine.Step → Run Unit
  | .state state => deactivate calls state
  | .region region => discard (deactivateRegion region)

def exit (calls : Calls) (state : StateId) : Run Unit := do
  ((← get).exitPlan state).forM (exitStep calls)

/-- The first transition of a region that leaves the state of this name. -/
def firstOutgoing? (machine : Machine) (region : RegionId) (name : String) :
    Option TransitionId :=
  (machine.transitionsOf region).find? fun transition =>
    (machine.transition? transition).any fun found => found.source == some name

def completeState (calls : Calls) (state : StateId) : Run Unit := do
  let machine ← get
  match machine.state? state with
  | none => pure ()
  | some node =>
      match node.container with
      | none =>
          if node.kind = .root then
            report .machineCompleted
            exit calls state
      | some region =>
          match firstOutgoing? machine region node.name with
          | some transition => discard (calls.trigger transition .null)
          | none =>
              exit calls state
              calls.completeRegion region

def completeRegion (calls : Calls) (region : RegionId) : Run Unit := do
  if ← deactivateRegion region then
    let machine ← get
    match machine.region? region with
    | none => pure ()
    | some members =>
        if (machine.regionsOf members.owner).all fun other => !machine.isRegionActive other then
          report (.joined members.owner (machine.stateName members.owner))
          completeState calls members.owner

end Chart.Run
