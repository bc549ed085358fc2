import Chart.Machine.Basic

set_option autoImplicit false

/-!
Putting a chart together. States and transitions are created detached and then added to regions;
a refused addition names its cause. Every new region comes with an initial and a final state of
its own, and the level of a state is the number of states around it.
-/

namespace Chart

abbrev Construct := EStateM ConfigurationError Machine

namespace Machine

/-! ### Levels -/

def levelFromParent (machine : Machine) (state : StateId) : Nat :=
  match machine.parentOf? state with
  | some parent => machine.level parent + 1
  | none => 0

/-- Gives a state and everything below it the level that follows from its container. -/
def assignLevels : Nat → StateId → Machine → Machine
  | 0, _, machine => machine
  | depth + 1, state, machine =>
      let level := machine.levelFromParent state
      let leveled := machine.modifyState state fun node => { node with level }
      ((leveled.regionsOf state).flatMap leveled.statesOf).foldl
        (fun current child => assignLevels depth child current) leveled

/-- Lists a state in a region. -/
def attach (machine : Machine) (region : RegionId) (state : StateId) : Machine :=
  let name := machine.stateName state
  let listed := machine.modifyRegion region fun members =>
    { members with
      states := members.states ++ [state]
      stateIndex := Dictionary.insert members.stateIndex name state }
  let contained := listed.modifyState state fun node => { node with container := some region }
  assignLevels (contained.nestingBound + 1) state contained

/-- Gives a state one more region, named after the state and the number of its regions. -/
def pushRegion (machine : Machine) (owner : StateId) : RegionId × Machine :=
  let name :=
    machine.stateName owner ++ "-region-" ++ toString (machine.regionsOf owner).length
  let (initial, machine) := machine.pushState (.bare (name ++ "-initial-pseudo") .initial)
  let (final, machine) := machine.pushState (.bare (name ++ "-final") .final)
  let region : RegionId := ⟨machine.regions.size⟩
  let members : Region :=
    { name
      owner
      status := .inactive
      states := []
      stateIndex := []
      transitions := []
      transitionIndex := []
      initial
      final
      history := none
      lastActive := none }
  let machine := { machine with regions := machine.regions.push members }
  let machine := machine.modifyState owner fun node =>
    { node with regions := node.regions ++ [region] }
  (region, (machine.attach region initial).attach region final)

/-- A machine with nothing but its root and the default region. -/
def new (name : String) (names : NameSource) : Machine :=
  let machine : Machine :=
    { states := #[.bare name .root]
      regions := #[]
      transitions := #[]
      frames := .empty
      names
      log := #[]
      journal := #[] }
  (machine.pushRegion root).2

/-- Whether a state owns the region or stands somewhere around it. -/
def enclosesFrom (machine : Machine) (state : StateId) : Nat → StateId → Bool
  | 0, current => current == state
  | depth + 1, current =>
      current == state ||
        (machine.parentOf? current).any (machine.enclosesFrom state depth)

def encloses (machine : Machine) (state : StateId) (region : RegionId) : Bool :=
  (machine.region? region).any fun members =>
    machine.enclosesFrom state machine.nestingBound members.owner

end Machine

namespace Construct

def requireState (state : StateId) : Construct StateNode := do
  match (← get).state? state with
  | some node => return node
  | none => throw (.unknownState state)

def requireRegion (region : RegionId) : Construct Region := do
  match (← get).region? region with
  | some members => return members
  | none => throw (.unknownRegion region)

def requireTransition (transition : TransitionId) : Construct Transition := do
  match (← get).transition? transition with
  | some found => return found
  | none => throw (.unknownTransition transition)

def requireComposite (state : StateId) : Construct StateNode := do
  let node ← requireState state
  if node.kind.mayOwnRegions then return node
  else throw (.notComposite node.name node.kind)

/-- The given name, or else one from the machine's source of names. -/
def nameOrGenerate (name : Option String) : Construct String := do
  match name with
  | some given => return given
  | none => modifyGet Machine.generateName

/-! ### Creating -/

def createState (definition : StateDefinition) : Construct StateId := do
  let name ← nameOrGenerate definition.name
  modifyGet fun machine => machine.pushState (.ofDefinition name definition)

def createTransition (definition : TransitionDefinition) : Construct TransitionId := do
  let name ← nameOrGenerate definition.name
  modifyGet fun machine => machine.pushTransition (.ofDefinition name definition)

def appendRegion (state : StateId) : Construct RegionId := do
  discard (requireComposite state)
  modifyGet fun machine => machine.pushRegion state

/-- The first region of a state, which is made when there is none. -/
def firstRegion (state : StateId) : Construct RegionId := do
  let node ← requireComposite state
  match node.regions with
  | region :: _ => return region
  | [] => modifyGet fun machine => machine.pushRegion state

/-! ### Adding to a region -/

def regionAddState (region : RegionId) (state : StateId) : Construct StateId := do
  let members ← requireRegion region
  let node ← requireState state
  let machine ← get
  if node.kind = .root then throw (.rootNotInsertable node.name)
  if let some existing := node.container then
    throw (.alreadyContained node.name (machine.regionName existing))
  if machine.encloses state region then throw (.containmentCycle node.name members.name)
  if Dictionary.contains members.stateIndex node.name then
    throw (.duplicateName members.name node.name)
  modify fun current => current.attach region state
  return state

def regionAddTransition (region : RegionId) (transition : TransitionId) :
    Construct TransitionId := do
  let members ← requireRegion region
  let found ← requireTransition transition
  let machine ← get
  if let some existing := found.container then
    throw (.alreadyRegistered found.name (machine.regionName existing))
  if Dictionary.contains members.transitionIndex found.name then
    throw (.duplicateName members.name found.name)
  modify fun current =>
    (current.modifyTransition transition fun entry =>
      { entry with container := some region }).modifyRegion region fun entry =>
        { entry with
          transitions := entry.transitions ++ [transition]
          transitionIndex := Dictionary.insert entry.transitionIndex found.name transition }
  return transition

/-- Installs a history pseudostate; one that is there already stays and changes its depth. -/
def installHistory (region : RegionId) (depth : HistoryDepth) : Construct StateId := do
  let members ← requireRegion region
  match members.history with
  | some existing =>
      modify fun machine =>
        machine.modifyState existing fun node => { node with kind := .history depth }
      return existing
  | none =>
      let name := members.name ++ "-history-pseudo"
      if Dictionary.contains members.stateIndex name then
        throw (.duplicateName members.name name)
      modifyGet fun machine =>
        let (history, machine) := machine.pushState (.bare name (.history depth))
        let machine := machine.attach region history
        (history, machine.modifyRegion region fun entry => { entry with history := some history })

/-- The regions of the normal states of a region, in order. -/
def regionsOfNormalStates (machine : Machine) (region : RegionId) : List RegionId :=
  ((machine.statesOf region).filter fun state =>
    (machine.state? state).any fun node => node.kind == .normal).flatMap machine.regionsOf

/-- Installs deep history in every region below a region, outer regions first. -/
def installHistoryBelow : Nat → RegionId → Construct Unit
  | 0, _ => pure ()
  | depth + 1, region => do
      for nested in regionsOfNormalStates (← get) region do
        discard (installHistory nested .deep)
        installHistoryBelow depth nested

def regionAddHistory (region : RegionId) (depth : HistoryDepth) : Construct StateId := do
  let history ← installHistory region depth
  if depth = .deep then installHistoryBelow (← get).nestingBound region
  return history

/-! ### Adding to the machine or to a state -/

def addState (state : StateId) : Construct StateId :=
  regionAddState Machine.defaultRegion state

def addTransition (transition : TransitionId) : Construct TransitionId :=
  regionAddTransition Machine.defaultRegion transition

def addChildState (parent child : StateId) : Construct StateId := do
  regionAddState (← firstRegion parent) child

def addChildTransition (parent : StateId) (transition : TransitionId) :
    Construct TransitionId := do
  regionAddTransition (← firstRegion parent) transition

def addHistory (parent : StateId) (depth : HistoryDepth) : Construct StateId := do
  regionAddHistory (← firstRegion parent) depth

/-- The choice is stored before it is added, so that a refused one still takes a handle. -/
def addChoice (parent : StateId) (name : String) (decision : Decision) : Construct StateId := do
  let region ← firstRegion parent
  let choice ← modifyGet fun machine => machine.pushState (.ofDecision name decision)
  regionAddState region choice

def setStateData (state : StateId) (key : String) (value : Value) :
    Construct (Option Value) := do
  discard (requireState state)
  modifyGet fun machine => machine.stateSet state key value

end Construct
end Chart
