import Chart.Run.Exit

set_option autoImplicit false

/-!
Entering states. An entry follows the plan made when it began; a step whose surroundings were
left in the meantime is skipped. A normal state runs its behaviours when it is entered, and every
other kind passes control on: an initial state along its region's first sourceless transition, a
history state to the last active child, a choice to the state it decides for, a final state to
the completion of its region.
-/

namespace Chart.Run

def activateRegion (region : RegionId) : Run Unit := do
  match (← get).region? region with
  | none => pure ()
  | some members =>
      if members.status.isActive then warn (.regionAlreadyActive members.name)
      else
        modify fun machine => machine.setRegionStatus region .active
        report (.regionActivated region members.name)

/-- The activity of an untimed state runs once; a state that completes by itself then does. -/
def finishEntry (calls : Calls) (state : StateId) (node : StateNode) : Run Unit := do
  startBehavior calls state .activity node.activity
  if (← get).isStateActive state && node.config.autoTransition then completeState calls state

/-- Whatever follows the entry behaviour is dropped when that behaviour already led out of the
state. -/
def enterNormal (calls : Calls) (state : StateId) (node : StateNode) : Run Unit := do
  startBehavior calls state .entry node.entry
  if (← get).isStateActive state then
    if node.config.timer then startTimer state else finishEntry calls state node

def firstSourceless? (machine : Machine) (region : RegionId) : Option TransitionId :=
  (machine.transitionsOf region).find? fun transition =>
    (machine.transition? transition).any fun found => found.source == none

def followInitial (calls : Calls) (region : RegionId) : Run Unit := do
  let machine ← get
  match firstSourceless? machine region with
  | none => fail (.missingInitialTransition (machine.regionName region))
  | some transition =>
      match ← calls.trigger transition .null with
      | .fired => pure ()
      | _ => fail (.initialTransitionRejected (machine.transitionName transition))

/-- The history state itself is left before anything else is entered. -/
def resumeHistory (calls : Calls) (state : StateId) (region : RegionId) : Run Unit := do
  deactivate calls state
  let machine ← get
  match machine.region? region with
  | none => pure ()
  | some members =>
      match members.lastActive with
      | some last =>
          report (.historyResumes last (machine.stateName last))
          calls.enter last
      | none => calls.activate members.initial

/-- The transition a choice takes to a target, made when the target is chosen for the first
time. -/
def choiceTransition (choice : StateId) (node : StateNode) (region : RegionId)
    (target : String) : Run TransitionId := do
  match Dictionary.find? node.choices target with
  | some known => return known
  | none =>
      if ((← get).resolveState? region target).isNone then
        fail (.choiceTargetUnreachable node.name target)
      let name ← modifyGet Machine.generateName
      modifyGet fun machine =>
        let (transition, machine) :=
          machine.pushTransition (.ofChoice name node.name target region)
        (transition, machine.modifyState choice fun current =>
          { current with choices := Dictionary.insert current.choices target transition })

def followChoice (calls : Calls) (state : StateId) (node : StateNode) : Run Unit := do
  match node.decision with
  | none => fail (.choiceUndecided node.name)
  | some decision =>
      let verdict := decision ((← get).view state)
      note (.decided state verdict.answer)
      noteAll verdict.notes
      match verdict.answer with
      | none => fail (.choiceUndecided node.name)
      | some target =>
          match node.container with
          | none => pure ()
          | some region =>
              let transition ← choiceTransition state node region target
              discard (calls.trigger transition .null)

def reachFinal (calls : Calls) (state : StateId) (node : StateNode) : Run Unit := do
  deactivate calls state
  match node.container with
  | none => pure ()
  | some region => completeRegion calls region

def activate (calls : Calls) (state : StateId) : Run Unit := do
  match (← get).state? state with
  | none => pure ()
  | some node =>
      if node.status.isActive then warn (.stateAlreadyActive node.name)
      else
        modify fun machine => machine.setStateStatus state .active
        report (.entered state node.name)
        match node.kind, node.container with
        | .normal, _ => enterNormal calls state node
        | .initial, some region => followInitial calls region
        | .history _, some region => resumeHistory calls state region
        | .initial, none | .history _, none => pure ()
        | .choice, _ => followChoice calls state node
        | .final, _ => reachFinal calls state node
        | .root, _ => pure ()

/-- A state is entered only while its region is active, a region only while its owner is. -/
def entryStep (calls : Calls) : Machine.Step → Run Unit
  | .state state => do
      let machine ← get
      match machine.containerOf? state with
      | none => activate calls state
      | some region =>
          if machine.isRegionActive region then activate calls state
          else report (.entrySkipped state (machine.stateName state))
  | .region region => do
      let machine ← get
      match machine.region? region with
      | none => pure ()
      | some members =>
          if machine.isStateActive members.owner then activateRegion region
          else report (.activationSkipped region members.name)

def enterBy (calls : Calls) (plan : List Machine.Step) : Run Unit :=
  plan.forM (entryStep calls)

def enterDefault (calls : Calls) (state : StateId) : Run Unit := do
  enterBy calls ((← get).defaultEntryPlan state)

def enterExplicit (calls : Calls) (state : StateId) : Run Unit := do
  enterBy calls ((← get).explicitEntryPlan state)

end Chart.Run
