import Chart.Definition
import Chart.Entity
import Chart.Name
import Chart.Notice
import Chart.Timer

set_option autoImplicit false

/-!
Machines. States, regions and transitions live in three stores and refer to one another by
handles. A state may own regions and a region lists its states; a region also has an index of the
names of its states and of its transitions. The root is the first state and owns the default
region, the first one. The journal and the log only grow.
-/

namespace Chart

structure StateNode where
  entity : Entity
  kind : StateKind
  status : Status
  level : Nat
  container : Option RegionId
  regions : List RegionId
  config : StateConfig
  entry : Option Behavior
  exit : Option Behavior
  activity : Option Behavior
  timer : Timer
  frame : Option FrameHandle
  decision : Option Decision
  choices : Dictionary TransitionId

namespace StateNode

def name (node : StateNode) : String := node.entity.name

/-- An inactive state outside all regions, without callbacks. -/
def bare (name : String) (kind : StateKind) : StateNode :=
  { entity := .named name
    kind
    status := .inactive
    level := 0
    container := none
    regions := []
    config := .standard
    entry := none
    exit := none
    activity := none
    timer := .idle
    frame := none
    decision := none
    choices := [] }

def ofDefinition (name : String) (definition : StateDefinition) : StateNode :=
  { bare name .normal with
    entity := ⟨name, definition.data⟩
    config := definition.config
    entry := definition.entry
    exit := definition.exit
    activity := definition.activity }

def ofDecision (name : String) (decision : Decision) : StateNode :=
  { bare name .choice with decision := some decision }

end StateNode

structure Region where
  name : String
  owner : StateId
  status : Status
  states : List StateId
  stateIndex : Dictionary StateId
  transitions : List TransitionId
  transitionIndex : Dictionary TransitionId
  initial : StateId
  final : StateId
  history : Option StateId
  lastActive : Option StateId

namespace Region

/-- Where a default entry of the region begins. -/
def entryMarker (region : Region) : StateId :=
  region.history.getD region.initial

end Region

/-- A missing source stands for the initial pseudostate of the region that contains the
transition, a missing target for its final state. -/
structure Transition where
  name : String
  source : Option String
  target : Option String
  guard : Option Guard
  effect : Option Effect
  internal : Bool
  container : Option RegionId

namespace Transition

def ofDefinition (name : String) (definition : TransitionDefinition) : Transition :=
  { name
    source := definition.source
    target := definition.target
    guard := definition.guard
    effect := definition.effect
    internal := definition.internal
    container := none }

/-- The transition a choice takes to one of its targets. It belongs to the region of the choice,
but the region does not list it. -/
def ofChoice (name choice target : String) (region : RegionId) : Transition :=
  { name
    source := some choice
    target := some target
    guard := none
    effect := none
    internal := false
    container := some region }

end Transition

structure Machine where
  states : Array StateNode
  regions : Array Region
  transitions : Array Transition
  frames : FrameQueue
  names : NameSource
  log : Array Firing
  journal : Array Event

namespace Machine

def root : StateId := ⟨0⟩

def defaultRegion : RegionId := ⟨0⟩

/-! ### Looking things up -/

def state? (machine : Machine) (state : StateId) : Option StateNode :=
  machine.states[state.index]?

def region? (machine : Machine) (region : RegionId) : Option Region :=
  machine.regions[region.index]?

def transition? (machine : Machine) (transition : TransitionId) : Option Transition :=
  machine.transitions[transition.index]?

def stateName (machine : Machine) (state : StateId) : String :=
  ((machine.state? state).map StateNode.name).getD ""

def regionName (machine : Machine) (region : RegionId) : String :=
  ((machine.region? region).map Region.name).getD ""

def transitionName (machine : Machine) (transition : TransitionId) : String :=
  ((machine.transition? transition).map Transition.name).getD ""

def name (machine : Machine) : String :=
  machine.stateName root

def isStateActive (machine : Machine) (state : StateId) : Bool :=
  (machine.state? state).any fun node => node.status.isActive

def isRegionActive (machine : Machine) (region : RegionId) : Bool :=
  (machine.region? region).any fun members => members.status.isActive

def isActive (machine : Machine) : Bool :=
  machine.isStateActive root

def level (machine : Machine) (state : StateId) : Nat :=
  ((machine.state? state).map StateNode.level).getD 0

def containerOf? (machine : Machine) (state : StateId) : Option RegionId :=
  (machine.state? state).bind StateNode.container

def regionsOf (machine : Machine) (state : StateId) : List RegionId :=
  ((machine.state? state).map StateNode.regions).getD []

def statesOf (machine : Machine) (region : RegionId) : List StateId :=
  ((machine.region? region).map Region.states).getD []

def transitionsOf (machine : Machine) (region : RegionId) : List TransitionId :=
  ((machine.region? region).map Region.transitions).getD []

/-- The state that owns the region a state belongs to. -/
def parentOf? (machine : Machine) (state : StateId) : Option StateId := do
  let region ← machine.containerOf? state
  let members ← machine.region? region
  return members.owner

/-- Every chain of nested regions is at most this long. -/
def nestingBound (machine : Machine) : Nat :=
  machine.regions.size

/-! ### Changing single entries -/

def modifyState (machine : Machine) (state : StateId) (change : StateNode → StateNode) : Machine :=
  { machine with states := machine.states.modify state.index change }

def modifyRegion (machine : Machine) (region : RegionId) (change : Region → Region) : Machine :=
  { machine with regions := machine.regions.modify region.index change }

def modifyTransition (machine : Machine) (transition : TransitionId)
    (change : Transition → Transition) : Machine :=
  { machine with transitions := machine.transitions.modify transition.index change }

theorem state?_modifyState (machine : Machine) (state other : StateId)
    (change : StateNode → StateNode) :
    (machine.modifyState state change).state? other =
      if state = other then (machine.state? other).map change else machine.state? other := by
  cases state
  cases other
  simp [modifyState, state?, Array.getElem?_modify]

theorem region?_modifyRegion (machine : Machine) (region other : RegionId)
    (change : Region → Region) :
    (machine.modifyRegion region change).region? other =
      if region = other then (machine.region? other).map change else machine.region? other := by
  cases region
  cases other
  simp [modifyRegion, region?, Array.getElem?_modify]

theorem transition?_modifyTransition (machine : Machine) (transition other : TransitionId)
    (change : Transition → Transition) :
    (machine.modifyTransition transition change).transition? other =
      if transition = other then (machine.transition? other).map change
      else machine.transition? other := by
  cases transition
  cases other
  simp [modifyTransition, transition?, Array.getElem?_modify]

@[simp] theorem region?_modifyState (machine : Machine) (state : StateId) (region : RegionId)
    (change : StateNode → StateNode) :
    (machine.modifyState state change).region? region = machine.region? region := rfl

@[simp] theorem state?_modifyRegion (machine : Machine) (region : RegionId) (state : StateId)
    (change : Region → Region) :
    (machine.modifyRegion region change).state? state = machine.state? state := rfl

def setStateStatus (machine : Machine) (state : StateId) (status : Status) : Machine :=
  machine.modifyState state fun node => { node with status }

def setRegionStatus (machine : Machine) (region : RegionId) (status : Status) : Machine :=
  machine.modifyRegion region fun members => { members with status }

def pushState (machine : Machine) (node : StateNode) : StateId × Machine :=
  (⟨machine.states.size⟩, { machine with states := machine.states.push node })

def pushTransition (machine : Machine) (transition : Transition) : TransitionId × Machine :=
  (⟨machine.transitions.size⟩, { machine with transitions := machine.transitions.push transition })

def note (machine : Machine) (event : Event) : Machine :=
  { machine with journal := machine.journal.push event }

def generateName (machine : Machine) : String × Machine :=
  let (name, names) := machine.names.generate
  (name, { machine with names })

/-! ### Data bags -/

def stateGet? (machine : Machine) (state : StateId) (key : String) : Option Value :=
  (machine.state? state).bind fun node => node.entity.get? key

/-- The bag of the root is shared by all callbacks. -/
def get? (machine : Machine) (key : String) : Option Value :=
  machine.stateGet? root key

def stateSet (machine : Machine) (state : StateId) (key : String) (value : Value) :
    Option Value × Machine :=
  (machine.stateGet? state key,
    machine.modifyState state fun node => { node with entity := (node.entity.set key value).2 })

def set (machine : Machine) (key : String) (value : Value) : Option Value × Machine :=
  machine.stateSet root key value

end Machine
end Chart
