import Chart.Proofs.Forest.SameChart
import Chart.Run.Operations
import Mathlib.Logic.Relation

set_option autoImplicit false

/-!
Elementary changes. Whatever a running machine does, with any callbacks, nested and failing ones
included, it does by these changes, one after the other; a change of a status comes together with
the notice about it. A property that every change keeps is therefore kept by every run, at each of
its moments. Two changes are made by a call from outside only: starting the machine, and taking all
pending frames. What callbacks and cascades do is a sequence of the others.
-/

namespace Chart

/-- The event tells neither of a change nor of regions that have joined. -/
def Event.isPlain : Event → Bool
  | .notice (.entered _ _) | .notice (.left _ _) => false
  | .notice (.regionActivated _ _) | .notice (.regionDeactivated _ _) => false
  | .notice (.joined _ _) | .recorded _ _ | .delivered _ => false
  | _ => true

namespace Machine

def entered (machine : Machine) (state : StateId) (name : String) : Machine :=
  (machine.setStateStatus state .active).note (.notice (.entered state name))

def departed (machine : Machine) (state : StateId) (name : String) : Machine :=
  (machine.setStateStatus state .inactive).note (.notice (.left state name))

def timerStopped (machine : Machine) (state : StateId) : Machine :=
  machine.modifyState state fun node =>
    if node.timer.running then { node with timer := node.timer.stopped } else node

def remembered (machine : Machine) (state : StateId) : Option RegionId → Machine
  | none => machine
  | some region => machine.modifyRegion region fun members =>
      { members with lastActive := some state }

/-- A normal state stops its timer and is remembered by its region when it is left. -/
def left (machine : Machine) (state : StateId) (node : StateNode) : Machine :=
  if node.kind = .normal then
    ((machine.departed state node.name).timerStopped state).remembered state node.container
  else machine.departed state node.name

def opened (machine : Machine) (region : RegionId) (name : String) : Machine :=
  (machine.setRegionStatus region .active).note (.notice (.regionActivated region name))

def closed (machine : Machine) (region : RegionId) (name : String) : Machine :=
  (machine.setRegionStatus region .inactive).note (.notice (.regionDeactivated region name))

def timerArmed (machine : Machine) (state : StateId) : Machine :=
  let frames := (machine.frames.schedule state).2
  let kept := match (machine.state? state).bind StateNode.frame with
    | some old => frames.cancel old
    | none => frames
  { machine with frames := kept }.modifyState state fun node =>
    { node with timer := .armed, frame := some (machine.frames.schedule state).1 }

/-- A frame has been folded into the timer that waited for it. -/
def frameFolded (machine : Machine) (handle : FrameHandle) (node : StateNode) (now : Duration) :
    Machine :=
  (machine.note (.delivered handle)).modifyState handle.state fun current =>
    { current with timer := (node.timer.step now node.config.interval).1 }

def timerReset (machine : Machine) (state : StateId) : Machine :=
  machine.modifyState state fun node => { node with timer := .idle, frame := none }

def frameRequested (machine : Machine) (state : StateId) : Machine :=
  { machine with frames := (machine.frames.schedule state).2 }.modifyState state fun node =>
    { node with frame := some (machine.frames.schedule state).1 }

def frameCancelled (machine : Machine) (handle : FrameHandle) : Machine :=
  { machine with frames := machine.frames.cancel handle }

def framesTaken (machine : Machine) : Machine :=
  { machine with frames := machine.frames.takePending.2 }

/-- The machine with a new transition from a choice to a target, and its handle. -/
def transitionChosen (machine : Machine) (choice : StateId) (name target : String)
    (region : RegionId) : TransitionId × Machine :=
  let named := machine.generateName
  let pushed := named.2.pushTransition (.ofChoice named.1 name target region)
  (pushed.1, pushed.2.modifyState choice fun current =>
    { current with choices := Dictionary.insert current.choices target pushed.1 })

def joined (machine : Machine) (owner : StateId) : Machine :=
  machine.note (.notice (.joined owner (machine.stateName owner)))

def recorded (machine : Machine) (id : TransitionId) (firing : Firing) : Machine :=
  { machine with log := machine.log.push firing }.note (.recorded id firing)

def notedAll (machine : Machine) (texts : List String) : Machine :=
  texts.foldl (fun current text => current.note (.note text)) machine

/-- The endpoints of the transition, whether its region is active or not. -/
def Connects (machine : Machine) (id : TransitionId) (ends : Endpoints) : Prop :=
  ∃ transition region members, machine.transition? id = some transition ∧
    transition.container = some region ∧ machine.region? region = some members ∧
    sourceOf members transition = .ok ends.source ∧
    targetOf machine region members transition = .ok ends.target

/-- The target of the transition lies deeper than its source. -/
def Deepens (machine : Machine) (id : TransitionId) : Prop :=
  ∃ ends, machine.Connects id ends ∧ machine.level ends.source < machine.level ends.target

/-- The last event is the firing of an external transition that leads deeper. -/
def LeadsDeeper (machine : Machine) : Prop :=
  ∃ id firing, machine.journal.back? = some (.recorded id firing) ∧ firing.internal = false ∧
    machine.Deepens id

/-- With `outer`, also what only a call from outside does. A state that lies in no region is entered
from outside, or right after a transition to a state below it has fired. -/
inductive Change (outer : Prop) : Machine → Machine → Prop
  | note {machine : Machine} (event : Event) (plain : event.isPlain = true) :
      Change outer machine (machine.note event)
  | write {machine : Machine} (key : String) (value : Value) :
      Change outer machine (machine.set key value).2
  | enter {machine : Machine} {state : StateId} {node : StateNode}
      (found : machine.state? state = some node) (inactive : node.status.isActive = false)
      (placed : (machine.containerOf? state).isSome ∨ machine.LeadsDeeper ∨ outer) :
      Change outer machine (machine.entered state node.name)
  | leave {machine : Machine} {state : StateId} {node : StateNode}
      (found : machine.state? state = some node) (active : node.status.isActive = true) :
      Change outer machine (machine.left state node)
  | openRegion {machine : Machine} {region : RegionId} {members : Region}
      (found : machine.region? region = some members)
      (inactive : members.status.isActive = false) :
      Change outer machine (machine.opened region members.name)
  | closeRegion {machine : Machine} {region : RegionId} {members : Region}
      (found : machine.region? region = some members)
      (active : members.status.isActive = true) :
      Change outer machine (machine.closed region members.name)
  | join {machine : Machine} {owner : StateId}
      (inactive : ∀ region ∈ machine.regionsOf owner, machine.isRegionActive region = false) :
      Change outer machine (machine.joined owner)
  | armTimer {machine : Machine} {state : StateId} {node : StateNode}
      (found : machine.state? state = some node) (active : node.status.isActive = true)
      (normal : node.kind = .normal) (timed : node.config.timer = true) :
      Change outer machine (machine.timerArmed state)
  | foldFrame {machine : Machine} {handle : FrameHandle} {node : StateNode}
      (found : machine.state? handle.state = some node) (awaited : node.frame = some handle)
      (running : node.timer.running = true) (now : Duration) :
      Change outer machine (machine.frameFolded handle node now)
  | resetTimer {machine : Machine} {state : StateId} {node : StateNode}
      (found : machine.state? state = some node) (stopped : node.timer.running = false) :
      Change outer machine (machine.timerReset state)
  | requestFrame {machine : Machine} {state : StateId} {node : StateNode}
      (found : machine.state? state = some node) (running : node.timer.running = true) :
      Change outer machine (machine.frameRequested state)
  | cancelFrame {machine : Machine} (handle : FrameHandle)
      (stale : ∀ node, machine.state? handle.state = some node → node.frame ≠ some handle) :
      Change outer machine (machine.frameCancelled handle)
  | takeFrames {machine : Machine} (taken : outer) : Change outer machine machine.framesTaken
  | choose {machine : Machine} {choice : StateId} {node : StateNode} {region : RegionId}
      {target : String} (found : machine.state? choice = some node)
      (contained : node.container = some region)
      (fresh : Dictionary.find? node.choices target = none) :
      Change outer machine (machine.transitionChosen choice node.name target region).2
  | record {machine : Machine} (id : TransitionId) (firing : Firing) :
      Change outer machine (machine.recorded id firing)

/-- Any sequence of changes. -/
abbrev Changes : Machine → Machine → Prop := Relation.ReflTransGen (Change True)

/-- What callbacks and cascades do. -/
abbrev Cascade : Machine → Machine → Prop := Relation.ReflTransGen (Change False)

section Change

variable {outer : Prop} {before after : Machine}

theorem Change.one (change : Change outer before after) :
    Relation.ReflTransGen (Change outer) before after := Relation.ReflTransGen.single change

theorem Change.loosen {wider : Prop} (change : Change outer before after) (wide : outer → wider) :
    Change wider before after := by
  cases change with
  | note event plain => exact .note event plain
  | write key value => exact .write key value
  | enter found inactive placed =>
      exact .enter found inactive (placed.imp_right (Or.imp_right wide))
  | leave found active => exact .leave found active
  | openRegion found inactive => exact .openRegion found inactive
  | closeRegion found active => exact .closeRegion found active
  | join inactive => exact .join inactive
  | armTimer found active normal timed => exact .armTimer found active normal timed
  | foldFrame found awaited running now => exact .foldFrame found awaited running now
  | resetTimer found stopped => exact .resetTimer found stopped
  | requestFrame found running => exact .requestFrame found running
  | cancelFrame handle stale => exact .cancelFrame handle stale
  | takeFrames taken => exact .takeFrames (wide taken)
  | choose found contained fresh => exact .choose found contained fresh
  | record id firing => exact .record id firing

theorem changes_of_steps (steps : Relation.ReflTransGen (Change outer) before after) :
    Changes before after :=
  Relation.ReflTransGen.mono (fun _ _ change => change.loosen fun _ => trivial) _ _ steps

theorem changes_notedAll (machine : Machine) (texts : List String) :
    Relation.ReflTransGen (Change outer) machine (machine.notedAll texts) := by
  induction texts generalizing machine with
  | nil => exact Relation.ReflTransGen.refl
  | cons text rest ih =>
      exact Relation.ReflTransGen.head (Change.note (.note text) rfl) (ih _)

end Change

/-! ### What a change leaves as it is -/

@[simp] theorem states_notedAll (machine : Machine) (texts : List String) :
    (machine.notedAll texts).states = machine.states := by
  induction texts generalizing machine with
  | nil => rfl
  | cons text rest ih => exact ih (machine.note (.note text))

@[simp] theorem state?_note (machine : Machine) (event : Event) (state : StateId) :
    (machine.note event).state? state = machine.state? state := rfl

@[simp] theorem region?_note (machine : Machine) (event : Event) (region : RegionId) :
    (machine.note event).region? region = machine.region? region := rfl

@[simp] theorem transition?_note (machine : Machine) (event : Event) (transition : TransitionId) :
    (machine.note event).transition? transition = machine.transition? transition := rfl

@[simp] theorem state?_remembered (machine : Machine) (state other : StateId)
    (region : Option RegionId) :
    (machine.remembered state region).state? other = machine.state? other := by
  cases region <;> rfl

@[simp] theorem nestingBound_modifyRegion (machine : Machine) (region : RegionId)
    (change : Region → Region) :
    (machine.modifyRegion region change).nestingBound = machine.nestingBound := by
  simp [nestingBound, modifyRegion]

theorem SameChart.of_stores {before after : Machine} (states : after.states = before.states)
    (regions : after.regions = before.regions)
    (transitions : after.transitions = before.transitions) : SameChart before after where
  states := by intro state; simp only [state?, states]
  regions := by intro region; simp only [region?, regions]
  nesting := by simp only [nestingBound, regions]
  kept := by
    intro transition found present
    rw [← present]
    simp only [transition?, transitions]
  chosen := by
    intro transition found present
    left
    rw [← present]
    simp only [transition?, transitions]

theorem readState_modifyState {Reading : Type} (read : StateNode → Reading) (machine : Machine)
    (state : StateId) (change : StateNode → StateNode)
    (blind : ∀ node, read (change node) = read node) (other : StateId) :
    ((machine.modifyState state change).state? other).map read =
      (machine.state? other).map read := by
  rw [state?_modifyState]
  split
  · cases machine.state? other with
    | none => rfl
    | some node => exact congrArg some (blind node)
  · rfl

theorem readRegion_modifyRegion {Reading : Type} (read : Region → Reading) (machine : Machine)
    (region : RegionId) (change : Region → Region)
    (blind : ∀ members, read (change members) = read members) (other : RegionId) :
    ((machine.modifyRegion region change).region? other).map read =
      (machine.region? other).map read := by
  rw [region?_modifyRegion]
  split
  · cases machine.region? other with
    | none => rfl
    | some members => exact congrArg some (blind members)
  · rfl

theorem readState_left {Reading : Type} (read : StateNode → Reading) (machine : Machine)
    (state : StateId) (node : StateNode)
    (blind : ∀ node status timer, read { node with status, timer } = read node) (other : StateId) :
    ((machine.left state node).state? other).map read = (machine.state? other).map read := by
  have departs : ((machine.departed state node.name).state? other).map read =
      (machine.state? other).map read := by
    rw [departed, state?_note, setStateStatus]
    exact readState_modifyState read machine state (fun node => { node with status := .inactive })
      (fun node => blind node .inactive node.timer) other
  unfold left
  split
  · have stops : (((machine.departed state node.name).timerStopped state).state? other).map read =
        ((machine.departed state node.name).state? other).map read := by
      refine readState_modifyState read _ state _ (fun node => ?_) other
      split
      · exact blind node node.status node.timer.stopped
      · rfl
    rw [state?_remembered, stops, departs]
  · exact departs

theorem SameChart.modifyState (machine : Machine) (state : StateId)
    (change : StateNode → StateNode) (same : ∀ node, (change node).fixed = node.fixed) :
    SameChart machine (machine.modifyState state change) where
  states := readState_modifyState StateNode.fixed machine state change same
  regions := fun _ => rfl
  nesting := rfl
  kept := fun _ _ found => found
  chosen := fun _ _ found => Or.inl found

theorem SameChart.modifyRegion (machine : Machine) (region : RegionId)
    (change : Region → Region) (same : ∀ members, (change members).fixed = members.fixed) :
    SameChart machine (machine.modifyRegion region change) where
  states := fun _ => rfl
  regions := readRegion_modifyRegion Region.fixed machine region change same
  nesting := nestingBound_modifyRegion machine region change
  kept := fun _ _ found => found
  chosen := fun _ _ found => Or.inl found

theorem SameChart.pushTransition (machine : Machine) (name choice target : String)
    (region : RegionId) :
    SameChart machine (machine.pushTransition (.ofChoice name choice target region)).2 where
  states := fun _ => rfl
  regions := fun _ => rfl
  nesting := rfl
  kept := by
    intro transition found present
    obtain ⟨bounded, at_⟩ := Array.getElem?_eq_some_iff.mp present
    rw [← at_]
    exact Array.getElem?_push_lt bounded
  chosen := by
    intro transition found present
    by_cases last : transition.index = machine.transitions.size
    · right
      refine ⟨name, choice, target, region, ?_⟩
      have pushed : (machine.transitions.push
          (.ofChoice name choice target region))[transition.index]? = some found := present
      rw [last, Array.getElem?_push_size] at pushed
      exact (Option.some.inj pushed).symm
    · left
      have pushed : (machine.transitions.push
          (.ofChoice name choice target region))[transition.index]? = some found := present
      rw [Array.getElem?_push, if_neg last] at pushed
      exact pushed

theorem sameChart_note (machine : Machine) (event : Event) :
    SameChart machine (machine.note event) := SameChart.of_stores rfl rfl rfl

theorem sameChart_setStateStatus (machine : Machine) (state : StateId) (status : Status) :
    SameChart machine (machine.setStateStatus state status) :=
  SameChart.modifyState machine state _ fun _ => rfl

theorem sameChart_setRegionStatus (machine : Machine) (region : RegionId) (status : Status) :
    SameChart machine (machine.setRegionStatus region status) :=
  SameChart.modifyRegion machine region _ fun _ => rfl

theorem sameChart_entered (machine : Machine) (state : StateId) (name : String) :
    SameChart machine (machine.entered state name) :=
  (sameChart_setStateStatus machine state .active).trans (sameChart_note _ _)

theorem state?_entered {machine : Machine} {state : StateId} {node : StateNode}
    (found : machine.state? state = some node) (name : String) :
    (machine.entered state name).state? state = some { node with status := .active } := by
  rw [entered, state?_note, setStateStatus, state?_modifyState, if_pos rfl, found]
  rfl

theorem sameChart_departed (machine : Machine) (state : StateId) (name : String) :
    SameChart machine (machine.departed state name) :=
  (sameChart_setStateStatus machine state .inactive).trans (sameChart_note _ _)

theorem sameChart_timerStopped (machine : Machine) (state : StateId) :
    SameChart machine (machine.timerStopped state) := by
  refine SameChart.modifyState machine state _ fun node => ?_
  split <;> rfl

theorem sameChart_remembered (machine : Machine) (state : StateId) (region : Option RegionId) :
    SameChart machine (machine.remembered state region) := by
  cases region with
  | none => exact SameChart.refl machine
  | some region => exact SameChart.modifyRegion machine region _ fun _ => rfl

theorem sameChart_left (machine : Machine) (state : StateId) (node : StateNode) :
    SameChart machine (machine.left state node) := by
  have departs := sameChart_departed machine state node.name
  unfold left
  split
  · exact (departs.trans (sameChart_timerStopped _ state)).trans (sameChart_remembered _ state _)
  · exact departs

theorem read_left {Reading : Type} (read : Machine → Reading) (machine : Machine)
    (state : StateId) (node : StateNode)
    (blind : ∀ machine states regions journal,
      read { machine with states, regions, journal } = read machine) :
    read (machine.left state node) = read machine := by
  unfold left
  split
  · cases node.container with
    | none => exact blind machine _ machine.regions _
    | some region => exact blind machine _ _ _
  · exact blind machine _ machine.regions _

theorem log_left (machine : Machine) (state : StateId) (node : StateNode) :
    (machine.left state node).log = machine.log :=
  read_left Machine.log machine state node fun _ _ _ _ => rfl

theorem frames_left (machine : Machine) (state : StateId) (node : StateNode) :
    (machine.left state node).frames = machine.frames :=
  read_left Machine.frames machine state node fun _ _ _ _ => rfl

theorem sameChart_transitionChosen (machine : Machine) (choice : StateId) (name target : String)
    (region : RegionId) :
    SameChart machine (machine.transitionChosen choice name target region).2 := by
  have named : SameChart machine machine.generateName.2 := SameChart.of_stores rfl rfl rfl
  have pushed := SameChart.pushTransition machine.generateName.2 machine.generateName.1 name target
    region
  exact (named.trans pushed).trans (SameChart.modifyState _ choice _ fun _ => rfl)

private theorem sameChart_frames (machine : Machine) (frames : FrameQueue) (state : StateId)
    (change : StateNode → StateNode) (same : ∀ node, (change node).fixed = node.fixed) :
    SameChart machine ({ machine with frames }.modifyState state change) := by
  have taken : SameChart machine { machine with frames } := SameChart.of_stores rfl rfl rfl
  exact taken.trans (SameChart.modifyState _ state change same)

theorem sameChart_timerArmed (machine : Machine) (state : StateId) :
    SameChart machine (machine.timerArmed state) :=
  sameChart_frames machine _ state _ fun _ => rfl

theorem Change.sameChart {outer : Prop} {before after : Machine}
    (change : Change outer before after) :
    SameChart before after := by
  cases change with
  | note event _ => exact sameChart_note before event
  | write _ _ => exact SameChart.modifyState before root _ fun _ => rfl
  | enter _ _ _ => exact sameChart_entered before _ _
  | leave _ _ => exact sameChart_left before _ _
  | openRegion _ _ => exact (sameChart_setRegionStatus before _ _).trans (sameChart_note _ _)
  | closeRegion _ _ => exact (sameChart_setRegionStatus before _ _).trans (sameChart_note _ _)
  | join _ => exact sameChart_note before _
  | armTimer _ _ _ _ => exact sameChart_timerArmed before _
  | @foldFrame handle _ _ _ _ _ =>
      exact (sameChart_note before (.delivered handle)).trans
        (SameChart.modifyState _ handle.state _ fun _ => rfl)
  | @resetTimer state _ _ _ => exact SameChart.modifyState before state _ fun _ => rfl
  | requestFrame _ _ => exact sameChart_frames before _ _ _ fun _ => rfl
  | cancelFrame _ _ => exact SameChart.of_stores rfl rfl rfl
  | takeFrames _ => exact SameChart.of_stores rfl rfl rfl
  | choose _ _ _ => exact sameChart_transitionChosen before _ _ _ _
  | record _ _ => exact SameChart.of_stores rfl rfl rfl

theorem Changes.sameChart {before after : Machine} (changes : Changes before after) :
    SameChart before after := by
  induction changes with
  | refl => exact SameChart.refl before
  | tail _ change ih => exact ih.trans change.sameChart

end Machine
end Chart
