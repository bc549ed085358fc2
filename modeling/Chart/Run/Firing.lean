import Chart.Run.Entry

set_option autoImplicit false

/-!
Firing transitions. The endpoints are resolved before anything runs; an inactive source or a
rejecting guard ends the trigger without further effect. An internal transition only runs its
effect. Any other one leaves its source, runs its effect and enters its target, explicitly when
the target lies deeper than the source. The firing is recorded when the effect has finished.
-/

namespace Chart.Run

def guardAccepts (transition : Transition) (source : StateId) (memo : Value) : Run Bool := do
  match transition.guard with
  | none => return true
  | some guard =>
      let verdict := guard ((← get).view source) memo
      noteAll verdict.notes
      return verdict.answer

def runEffect (calls : Calls) (transition : Transition) (source : StateId) (memo : Value) :
    Run Unit :=
  match transition.effect with
  | none => pure ()
  | some effect => behave calls source (effect memo)

def record (id : TransitionId) (firing : Firing) : Run Unit := do
  modify fun machine => { machine with log := machine.log.push firing }
  note (.recorded id firing)

def fireInternal (calls : Calls) (id : TransitionId) (transition : Transition)
    (source : StateId) (sourceName : String) (memo : Value) : Run Outcome := do
  report (.firingInternal id transition.name)
  runEffect calls transition source memo
  record id ⟨transition.name, sourceName, sourceName, true⟩
  return .internal

/-- Levels are compared when the effect has finished. -/
def fireExternal (calls : Calls) (id : TransitionId) (transition : Transition)
    (ends : Machine.Endpoints) (sourceName targetName : String) (memo : Value) : Run Outcome := do
  report (.firing id transition.name sourceName targetName)
  exit calls ends.source
  runEffect calls transition ends.source memo
  record id ⟨transition.name, sourceName, targetName, false⟩
  let machine ← get
  if machine.level ends.source < machine.level ends.target then enterExplicit calls ends.target
  else enterDefault calls ends.target
  return .fired

def fireResolved (calls : Calls) (id : TransitionId) (transition : Transition)
    (ends : Machine.Endpoints) (memo : Value) : Run Outcome := do
  let machine ← get
  let sourceName := machine.stateName ends.source
  if !machine.isStateActive ends.source then
    report (.ignored id transition.name sourceName)
    return .sourceInactive
  else if !(← guardAccepts transition ends.source memo) then
    report (.rejected id transition.name)
    return .guardRejected
  else if transition.internal then
    fireInternal calls id transition ends.source sourceName memo
  else
    fireExternal calls id transition ends sourceName (machine.stateName ends.target) memo

def trigger (calls : Calls) (id : TransitionId) (memo : Value) : Run Outcome := do
  note (.requested id)
  let machine ← get
  match machine.transition? id, machine.endpoints id with
  | some transition, .ok ends =>
      let outcome ← fireResolved calls id transition ends memo
      note (.settled id outcome)
      return outcome
  | _, .error error => fail error
  | none, .ok _ => fail (.unknownTransition id)

end Chart.Run
