import Chart.Machine.Basic

set_option autoImplicit false

/-!
Resolving names. As seen from a region, a name means a member of the region itself, or else what
it means as seen from the first of the regions of its states, in order, that knows the name.
Transitions are resolved in the same way, and the machine asks the regions of its root in order.
-/

namespace Chart.Machine

/-- The regions owned by the states of a region, in the order of these states. -/
def regionsWithin (machine : Machine) (region : RegionId) : List RegionId :=
  (machine.statesOf region).flatMap machine.regionsOf

/-- Asks the index of a region, then the nested regions one after the other. -/
def resolveThrough {Entry : Type} (machine : Machine) (index : Region → Dictionary Entry)
    (name : String) : Nat → RegionId → Option Entry
  | 0, _ => none
  | depth + 1, region =>
      match (machine.region? region).bind fun members => Dictionary.find? (index members) name with
      | some found => some found
      | none =>
          (machine.regionsWithin region).findSome? (machine.resolveThrough index name depth)

def resolveState? (machine : Machine) (region : RegionId) (name : String) : Option StateId :=
  machine.resolveThrough Region.stateIndex name machine.nestingBound region

def resolveTransition? (machine : Machine) (region : RegionId) (name : String) :
    Option TransitionId :=
  machine.resolveThrough Region.transitionIndex name machine.nestingBound region

/-- The name of the root means the root. -/
def findState? (machine : Machine) (name : String) : Option StateId :=
  if machine.name = name then some root
  else (machine.regionsOf root).findSome? fun region => machine.resolveState? region name

def findTransition? (machine : Machine) (name : String) : Option TransitionId :=
  (machine.regionsOf root).findSome? fun region => machine.resolveTransition? region name

/-- What a callback that belongs to the state sees. -/
def view (machine : Machine) (state : StateId) : View :=
  { machineName := machine.name
    state
    stateName := machine.stateName state
    get? := machine.get?
    stateData? := machine.stateGet? state
    isActive := fun name => (machine.findState? name).any machine.isStateActive }

/-! ### The endpoints of a transition -/

structure Endpoints where
  source : StateId
  target : StateId
deriving DecidableEq, Repr

def sourceOf (members : Region) (transition : Transition) : Except ConfigurationError StateId :=
  match transition.source with
  | none => .ok members.initial
  | some source =>
      match Dictionary.find? members.stateIndex source with
      | some state => .ok state
      | none => .error (.unknownSource transition.name source members.name)

def targetOf (machine : Machine) (region : RegionId) (members : Region)
    (transition : Transition) : Except ConfigurationError StateId :=
  match transition.target with
  | none => .ok members.final
  | some target =>
      match machine.resolveState? region target with
      | some state => .ok state
      | none => .error (.unknownTarget transition.name target members.name)

def kindOf? (machine : Machine) (state : StateId) : Option StateKind :=
  (machine.state? state).map StateNode.kind

/-- The source is a member of the containing region, which must be active; the target is what its
name means as seen from that region. -/
def endpoints (machine : Machine) (id : TransitionId) : Except ConfigurationError Endpoints :=
  match machine.transition? id with
  | none => .error (.unknownTransition id)
  | some transition =>
      match transition.container with
      | none => .error (.unregisteredTransition transition.name)
      | some region =>
          match machine.region? region with
          | none => .error (.unknownRegion region)
          | some members => do
              if members.status.isActive then pure ()
              else throw (.inactiveContainer transition.name members.name)
              let source ← sourceOf members transition
              let target ← targetOf machine region members transition
              if machine.kindOf? source = some .final then throw (.finalSource transition.name)
              if machine.kindOf? target = some .initial then
                throw (.initialTarget transition.name)
              return ⟨source, target⟩

end Chart.Machine
