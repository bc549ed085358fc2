import Chart.Machine.Basic

set_option autoImplicit false

/-!
Plans of entries. A plan lists the states and regions to be visited before anything is visited. A
default entry visits a state, then all its inactive regions, then the entry marker of each of them,
so that no region is completed while a sibling is still to be entered. An explicit entry first
visits the inactive states around its target, outermost first.
-/

namespace Chart.Machine

inductive Step
  | state (state : StateId)
  | region (region : RegionId)
deriving DecidableEq, Repr

def inactiveRegions (machine : Machine) (state : StateId) : List RegionId :=
  (machine.regionsOf state).filter fun region => !machine.isRegionActive region

def entryMarker? (machine : Machine) (region : RegionId) : Option StateId :=
  (machine.region? region).map Region.entryMarker

def enterMarker (machine : Machine) (region : RegionId) : List Step :=
  ((machine.entryMarker? region).map Step.state).toList

def defaultEntryPlan (machine : Machine) (state : StateId) : List Step :=
  let pending := machine.inactiveRegions state
  .state state :: pending.map Step.region ++ pending.flatMap machine.enterMarker

/-- Enters a chain of states, each in a region of the one before it. The region that leads to the
next state of the chain goes on with it, its siblings enter their markers. -/
def chainEntryPlan (machine : Machine) : List StateId → List Step
  | [] => []
  | [target] => machine.defaultEntryPlan target
  | state :: next :: rest =>
      let inner := machine.chainEntryPlan (next :: rest)
      let pending := machine.inactiveRegions state
      .state state :: pending.map Step.region ++
        pending.flatMap fun region =>
          if machine.containerOf? next = some region then inner else machine.enterMarker region

/-- Puts the inactive states around a state in front of a chain, outermost first. -/
def inactiveChain (machine : Machine) : Nat → StateId → List StateId → List StateId
  | 0, _, chain => chain
  | depth + 1, state, chain =>
      match machine.parentOf? state with
      | none => chain
      | some parent =>
          if machine.isStateActive parent then chain
          else machine.inactiveChain depth parent (parent :: chain)

def activateInactive (machine : Machine) (state : StateId) : List Step :=
  match machine.containerOf? state with
  | none => []
  | some region => if machine.isRegionActive region then [] else [.region region]

def explicitEntryPlan (machine : Machine) (target : StateId) : List Step :=
  let chain := machine.inactiveChain machine.nestingBound target [target]
  (chain.head?.map machine.activateInactive).getD [] ++ machine.chainEntryPlan chain

end Chart.Machine
