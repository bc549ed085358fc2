import Chart.Machine.Plan

set_option autoImplicit false

/-!
What is active in a machine. The active states are listed in pre-order: a state, then for each of
its active regions in order the active states below the region's children in order. The plan of an
exit goes through the active regions and their active children the other way round.
-/

namespace Chart.Machine

def activeFrom (machine : Machine) : Nat → StateId → List StateId
  | 0, _ => []
  | depth + 1, state =>
      if machine.isStateActive state then
        state ::
          ((machine.regionsOf state).filter machine.isRegionActive).flatMap fun region =>
            (machine.statesOf region).flatMap (machine.activeFrom depth)
      else []

def activeStates (machine : Machine) : List StateId :=
  machine.activeFrom (machine.nestingBound + 1) root

/-- The names of the active states below the root. -/
def configuration (machine : Machine) : List String :=
  (machine.activeStates.filter fun state => state != root).map machine.stateName

def activeChild? (machine : Machine) (region : RegionId) : Option StateId :=
  (machine.statesOf region).find? machine.isStateActive

/-- A state, and for each of its active regions the region and what is active in it. -/
def activeSteps (machine : Machine) : Nat → StateId → List Step
  | 0, _ => []
  | depth + 1, state =>
      .state state ::
        ((machine.regionsOf state).filter machine.isRegionActive).flatMap fun region =>
          .region region ::
            match machine.activeChild? region with
            | some child => machine.activeSteps depth child
            | none => []

/-- Innermost first. -/
def exitPlan (machine : Machine) (state : StateId) : List Step :=
  (machine.activeSteps (machine.nestingBound + 1) state).reverse

end Chart.Machine
