import Chart.Proofs.Run.ClosedCharts
import Chart.Proofs.Run.QuietCallbacks
import Mathlib.Data.List.Find

set_option autoImplicit false

/-!
Machines that a run cannot tell apart. Two machines match when they have come from one chart, hold
the same data and have the same statuses; their timers, frames, journals and logs may differ, and so
may their last active children and the transitions their choices have made so far. Matching machines
show a callback the same view, make the same plans, and resolve the same endpoints.
-/

namespace Chart

inductive Behavior.ReadOnly : Behavior → Prop
  | done : ReadOnly .done
  | fail (error : MachineError) : ReadOnly (.fail error)
  | note (text : String) {next : Behavior} (readOnly : ReadOnly next) : ReadOnly (.note text next)
  | look {next : View → Behavior} (readOnly : ∀ view, ReadOnly (next view)) : ReadOnly (.look next)

theorem Behavior.ReadOnly.quiet {behavior : Behavior} (readOnly : behavior.ReadOnly) :
    behavior.Quiet True := by
  induction readOnly with
  | done => exact .done
  | fail error => exact .fail error trivial
  | note text _ ih => exact .note text ih
  | look _ ih => exact .look ih

/-- A transition without its name, which is made up when the transition is. -/
def Transition.unnamed (transition : Transition) : Transition := { transition with name := "" }

theorem Transition.read_unnamed {Reading : Type} {one other : Transition}
    (same : one.unnamed = other.unnamed) (read : Transition → Reading)
    (blind : ∀ transition, read transition.unnamed = read transition) : read one = read other := by
  rw [← blind one, same, blind]

def SameEnd {Answer : Type} : Except ConfigurationError Answer → Except ConfigurationError Answer →
    Prop
  | .ok answer, .ok answer' => answer = answer'
  | .error error, .error error' => error.word = error'.word
  | _, _ => False

private theorem SameEnd.bind {Answer Other : Type}
    {result result' : Except ConfigurationError Other}
    {next next' : Other → Except ConfigurationError Answer} (same : SameEnd result result')
    (sameNext : ∀ answer, SameEnd (next answer) (next' answer)) :
    SameEnd (result >>= next) (result' >>= next') := by
  cases result with
  | ok answer =>
      cases result' with
      | ok answer' =>
          obtain rfl : answer = answer' := same
          exact sameNext answer
      | error error' => exact same.elim
  | error error =>
      cases result' with
      | ok answer' => exact same.elim
      | error error' => exact same

namespace Machine

def entityOf? (machine : Machine) (state : StateId) : Option Entity :=
  (machine.state? state).map StateNode.entity

/-- What the choices have chosen so far can be reached from their regions. -/
def ChoicesResolved (machine : Machine) : Prop :=
  ∀ choice node target id region, machine.state? choice = some node →
    Dictionary.find? node.choices target = some id → node.container = some region →
    (machine.resolveState? region target).isSome = true

private theorem ChoicesResolved.of_sameChart {before after : Machine}
    (choicesResolved : before.ChoicesResolved) (same : SameChart before after)
    (choices : ∀ state, (after.state? state).map StateNode.choices =
      (before.state? state).map StateNode.choices) : after.ChoicesResolved := by
  intro choice node target id region found chosen contained
  obtain ⟨earlier, foundEarlier, fixed⟩ := same.state?_backward found
  have equal := choices choice
  rw [found, foundEarlier] at equal
  rw [same.resolveState?]
  exact choicesResolved choice earlier target id region foundEarlier
    (by rw [← Option.some.inj equal]; exact chosen)
    ((StateNode.read_eq fixed StateNode.container fun _ => rfl).trans contained)

/-- The machine has come from the base, holds the given data, and its choices can be resolved. -/
structure Kept (base : Machine) (bags : StateId → Option Entity) (machine : Machine) : Prop where
  changes : Changes base machine
  entities : ∀ state, machine.entityOf? state = bags state
  choicesResolved : machine.ChoicesResolved

namespace Kept

variable {base machine after : Machine} {bags : StateId → Option Entity} {state : StateId}

theorem sameChart (kept : Kept base bags machine) : SameChart base machine :=
  kept.changes.sameChart

theorem step (kept : Kept base bags machine) (changes : Changes machine after)
    (same : ∀ state, (after.state? state).map (fun node => (node.entity, node.choices)) =
      (machine.state? state).map fun node => (node.entity, node.choices)) :
    Kept base bags after where
  changes := kept.changes.trans changes
  entities := by
    intro state
    have equal := congrArg (Option.map Prod.fst) (same state)
    rw [Option.map_map, Option.map_map] at equal
    rw [← kept.entities state]
    exact equal
  choicesResolved := by
    refine kept.choicesResolved.of_sameChart changes.sameChart fun state => ?_
    have equal := congrArg (Option.map Prod.snd) (same state)
    rw [Option.map_map, Option.map_map] at equal
    exact equal

variable (kept : Kept base bags machine)
include kept

theorem note {event : Event} (plain : event.isPlain = true) : Kept base bags (machine.note event) :=
  kept.step (Change.note event plain).one fun _ => rfl

private theorem notedAll (texts : List String) : Kept base bags (machine.notedAll texts) :=
  kept.step (changes_notedAll machine texts) fun state => by
    unfold state?
    rw [states_notedAll]

private theorem recorded (id : TransitionId) (firing : Firing) :
    Kept base bags (machine.recorded id firing) :=
  kept.step (Change.record id firing).one fun _ => rfl

theorem entered {node : StateNode} (found : machine.state? state = some node)
    (inactive : node.status.isActive = false) : Kept base bags (machine.entered state node.name) :=
  kept.step (Change.enter found inactive (Or.inr (Or.inr trivial))).one
    (readState_modifyState _ machine state (fun node => { node with status := .active })
      fun _ => rfl)

theorem left {node : StateNode} (found : machine.state? state = some node)
    (active : node.status.isActive = true) : Kept base bags (machine.left state node) :=
  kept.step (Change.leave found active).one
    (readState_left _ machine state node fun _ _ _ => rfl)

private theorem opened {region : RegionId} {members : Region}
    (found : machine.region? region = some members)
    (inactive : members.status.isActive = false) :
    Kept base bags (machine.opened region members.name) :=
  kept.step (Change.openRegion found inactive).one fun _ => rfl

theorem closed {region : RegionId} {members : Region}
    (found : machine.region? region = some members)
    (active : members.status.isActive = true) :
    Kept base bags (machine.closed region members.name) :=
  kept.step (Change.closeRegion found active).one fun _ => rfl

theorem joined {owner : StateId}
    (inactive : ∀ region ∈ machine.regionsOf owner, machine.isRegionActive region = false) :
    Kept base bags (machine.joined owner) :=
  kept.step (Change.join inactive).one fun _ => rfl

theorem timerArmed {node : StateNode} (found : machine.state? state = some node)
    (active : node.status.isActive = true) (normal : node.kind = .normal)
    (timed : node.config.timer = true) : Kept base bags (machine.timerArmed state) :=
  kept.step (Change.armTimer found active normal timed).one
    (readState_modifyState _ _ state (fun node =>
      { node with timer := .armed, frame := some (machine.frames.schedule state).1 }) fun _ => rfl)

theorem write (key : String) (value : Value) :
    Kept base (fun state => if root = state then (bags state).map fun entity =>
      (entity.set key value).2 else bags state) (machine.set key value).2 where
  changes := kept.changes.tail (Change.write key value)
  entities := by
    intro state
    change ((machine.modifyState root _).state? state).map StateNode.entity = _
    rw [state?_modifyState, ← kept.entities state]
    unfold Machine.entityOf?
    split
    · rw [Option.map_map, Option.map_map]
      rfl
    · rfl
  choicesResolved :=
    kept.choicesResolved.of_sameChart (TouchesOnly.write root machine key value).toStill.sameChart
      (readState_modifyState StateNode.choices machine root
        (fun node => { node with entity := (node.entity.set key value).2 }) fun _ => rfl)

theorem transitionChosen {choice : StateId} {node : StateNode} {region : RegionId} {target : String}
    (found : machine.state? choice = some node) (contained : node.container = some region)
    (fresh : Dictionary.find? node.choices target = none)
    (reachable : (machine.resolveState? region target).isSome = true) :
    Kept base bags (machine.transitionChosen choice node.name target region).2 where
  changes := kept.changes.tail (Change.choose found contained fresh)
  entities := by
    intro state
    rw [← kept.entities state]
    unfold Machine.entityOf?
    rw [state?_transitionChosen]
    split
    · rw [Option.map_map]
      rfl
    · rfl
  choicesResolved := by
    have same := sameChart_transitionChosen machine choice node.name target region
    intro other node' target' id region' found' chosen contained'
    rw [same.resolveState?]
    rw [state?_transitionChosen] at found'
    split at found'
    · rename_i here
      subst here
      rw [found] at found'
      obtain rfl := Option.some.inj found'
      dsimp only at chosen contained'
      rw [contained] at contained'
      obtain rfl := Option.some.inj contained'
      rw [Dictionary.find?_insert] at chosen
      split at chosen
      · rename_i isTarget
        rw [← isTarget]
        exact reachable
      · exact kept.choicesResolved choice node target' id region found chosen contained
    · exact kept.choicesResolved other node' target' id region' found' chosen contained'

end Kept

private theorem sameEnd_sourceOf {members members' : Region} {found found' : Transition}
    (fixed : members'.fixed = members.fixed) (same : found'.unnamed = found.unnamed) :
    SameEnd (Machine.sourceOf members found) (Machine.sourceOf members' found') := by
  rw [sourceOf_eq_of_fixed fixed]
  unfold Machine.sourceOf
  rw [Transition.read_unnamed same Transition.source fun _ => rfl]
  cases found.source with
  | none => rfl
  | some source =>
      dsimp only
      cases Dictionary.find? members.stateIndex source <;> rfl

/-- The transitions are the same up to their names, or unknown to both machines. -/
def Corresponds (one other : Machine) (id id' : TransitionId) : Prop :=
  (other.transition? id').map Transition.unnamed = (one.transition? id).map Transition.unnamed

/-- Two machines with the same chart, data and statuses. -/
structure Match (base : Machine) (bags : StateId → Option Entity) (one other : Machine) : Prop where
  first : Kept base bags one
  second : Kept base bags other
  states : ∀ state, other.isStateActive state = one.isStateActive state
  regions : ∀ region, other.isRegionActive region = one.isRegionActive region

theorem Match.symm {base one other : Machine} {bags : StateId → Option Entity}
    (alike : Match base bags one other) : Match base bags other one :=
  ⟨alike.second, alike.first, fun state => (alike.states state).symm,
    fun region => (alike.regions region).symm⟩

namespace Match

variable {base one other : Machine} {bags : StateId → Option Entity} {state : StateId}
variable {region : RegionId} (alike : Match base bags one other)
include alike

/-! ### Single steps -/

theorem note {event event' : Event} (plain : event.isPlain = true)
    (plain' : event'.isPlain = true) :
    Match base bags (one.note event) (other.note event') :=
  ⟨alike.first.note plain, alike.second.note plain', alike.states, alike.regions⟩

theorem recorded (id id' : TransitionId) (firing firing' : Firing) :
    Match base bags (one.recorded id firing) (other.recorded id' firing') :=
  ⟨alike.first.recorded id firing, alike.second.recorded id' firing', alike.states, alike.regions⟩

theorem notedAll (texts texts' : List String) :
    Match base bags (one.notedAll texts) (other.notedAll texts') := by
  refine ⟨alike.first.notedAll texts, alike.second.notedAll texts', fun state => ?_,
    fun region => ?_⟩
  · exact ((TouchesOnly.notedAll root other texts').states state).trans
      ((alike.states state).trans ((TouchesOnly.notedAll root one texts).states state).symm)
  · exact ((TouchesOnly.notedAll root other texts').toStill.isRegionActive region).trans
      ((alike.regions region).trans
        ((TouchesOnly.notedAll root one texts).toStill.isRegionActive region).symm)

theorem entered {node node' : StateNode} (found : one.state? state = some node)
    (found' : other.state? state = some node') (inactive : node.status.isActive = false)
    (inactive' : node'.status.isActive = false) :
    Match base bags (one.entered state node.name) (other.entered state node'.name) where
  first := alike.first.entered found inactive
  second := alike.second.entered found' inactive'
  states := by
    intro seen
    rw [Bool.eq_iff_iff, isStateActive_entered found, isStateActive_entered found',
      alike.states seen]
  regions := alike.regions

theorem left {node node' : StateNode} (found : one.state? state = some node)
    (found' : other.state? state = some node') (active : node.status.isActive = true)
    (active' : node'.status.isActive = true) :
    Match base bags (one.left state node) (other.left state node') where
  first := alike.first.left found active
  second := alike.second.left found' active'
  states := by
    intro seen
    rw [Bool.eq_iff_iff, isStateActive_left, isStateActive_left, alike.states seen]
  regions := by
    intro seen
    rw [isRegionActive_left, isRegionActive_left, alike.regions seen]

theorem opened {members members' : Region} (found : one.region? region = some members)
    (found' : other.region? region = some members') (inactive : members.status.isActive = false)
    (inactive' : members'.status.isActive = false) :
    Match base bags (one.opened region members.name) (other.opened region members'.name) where
  first := alike.first.opened found inactive
  second := alike.second.opened found' inactive'
  states := alike.states
  regions := by
    intro seen
    rw [Bool.eq_iff_iff, isRegionActive_opened found, isRegionActive_opened found',
      alike.regions seen]

theorem closed {members members' : Region} (found : one.region? region = some members)
    (found' : other.region? region = some members') (active : members.status.isActive = true)
    (active' : members'.status.isActive = true) :
    Match base bags (one.closed region members.name) (other.closed region members'.name) where
  first := alike.first.closed found active
  second := alike.second.closed found' active'
  states := alike.states
  regions := by
    intro seen
    rw [Bool.eq_iff_iff, isRegionActive_closed, isRegionActive_closed, alike.regions seen]

theorem timerArmed {node node' : StateNode} (found : one.state? state = some node)
    (found' : other.state? state = some node') (fixed : node'.fixed = node.fixed)
    (active : node.status.isActive = true) (active' : node'.status.isActive = true)
    (normal : node.kind = .normal) (timed : node.config.timer = true) :
    Match base bags (one.timerArmed state) (other.timerArmed state) := by
  have normal' : node'.kind = .normal :=
    (StateNode.read_eq fixed StateNode.kind fun _ => rfl).trans normal
  have timed' : node'.config.timer = true :=
    (StateNode.read_eq fixed (fun node => node.config.timer) fun _ => rfl).trans timed
  have keeps := (TouchesOnly.timerArmed found active normal timed).toStill
  have keeps' := (TouchesOnly.timerArmed found' active' normal' timed').toStill
  refine ⟨alike.first.timerArmed found active normal timed,
    alike.second.timerArmed found' active' normal' timed', fun seen => ?_, fun seen => ?_⟩
  · rw [keeps.states, keeps'.states, alike.states seen]
  · rw [keeps.isRegionActive, keeps'.isRegionActive, alike.regions seen]

/-! ### Readings of the chart -/

private theorem readState {Reading : Type} (read : StateNode → Reading)
    (blind : ∀ node, read node.fixed = read node) (state : StateId) :
    (other.state? state).map read = (one.state? state).map read :=
  (alike.second.sameChart.readState read blind state).trans
    (alike.first.sameChart.readState read blind state).symm

private theorem readRegion {Reading : Type} (read : Region → Reading)
    (blind : ∀ members, read members.fixed = read members) (region : RegionId) :
    (other.region? region).map read = (one.region? region).map read :=
  (alike.second.sameChart.readRegion read blind region).trans
    (alike.first.sameChart.readRegion read blind region).symm

theorem containerOf? (state : StateId) : other.containerOf? state = one.containerOf? state :=
  (alike.second.sameChart.containerOf? state).trans (alike.first.sameChart.containerOf? state).symm

private theorem parentOf? (state : StateId) : other.parentOf? state = one.parentOf? state :=
  (alike.second.sameChart.parentOf? state).trans (alike.first.sameChart.parentOf? state).symm

private theorem kindOf? (state : StateId) : other.kindOf? state = one.kindOf? state :=
  (alike.second.sameChart.kindOf? state).trans (alike.first.sameChart.kindOf? state).symm

theorem regionsOf (state : StateId) : other.regionsOf state = one.regionsOf state :=
  (alike.second.sameChart.regionsOf state).trans (alike.first.sameChart.regionsOf state).symm

private theorem statesOf (region : RegionId) : other.statesOf region = one.statesOf region :=
  (alike.second.sameChart.statesOf region).trans (alike.first.sameChart.statesOf region).symm

theorem level (state : StateId) : other.level state = one.level state :=
  (alike.second.sameChart.level state).trans (alike.first.sameChart.level state).symm

theorem stateName (state : StateId) : other.stateName state = one.stateName state :=
  (alike.second.sameChart.stateName state).trans (alike.first.sameChart.stateName state).symm

private theorem nestingBound : other.nestingBound = one.nestingBound :=
  alike.second.sameChart.nesting.trans alike.first.sameChart.nesting.symm

theorem resolveState? (region : RegionId) (name : String) :
    other.resolveState? region name = one.resolveState? region name :=
  (alike.second.sameChart.resolveState? region name).trans
    (alike.first.sameChart.resolveState? region name).symm

theorem state?_forward {node : StateNode} (found : one.state? state = some node) :
    ∃ node', other.state? state = some node' ∧ node'.fixed = node.fixed ∧
      node'.status.isActive = node.status.isActive := by
  have fixed := alike.readState StateNode.fixed (fun _ => rfl) state
  have status := alike.states state
  rw [found] at fixed
  obtain ⟨node', found', same⟩ := Option.map_eq_some_iff.mp fixed
  rw [Machine.isStateActive_eq found, Machine.isStateActive_eq found'] at status
  exact ⟨node', found', same, status⟩

theorem state?_none (absent : one.state? state = none) : other.state? state = none := by
  have fixed := alike.readState StateNode.fixed (fun _ => rfl) state
  rw [absent] at fixed
  exact Option.map_eq_none_iff.mp fixed

theorem region?_forward {members : Region} (found : one.region? region = some members) :
    ∃ members', other.region? region = some members' ∧ members'.fixed = members.fixed ∧
      members'.status.isActive = members.status.isActive := by
  have fixed := alike.readRegion Region.fixed (fun _ => rfl) region
  have status := alike.regions region
  rw [found] at fixed
  obtain ⟨members', found', same⟩ := Option.map_eq_some_iff.mp fixed
  rw [Machine.isRegionActive_eq found, Machine.isRegionActive_eq found'] at status
  exact ⟨members', found', same, status⟩

theorem region?_none (absent : one.region? region = none) : other.region? region = none := by
  have fixed := alike.readRegion Region.fixed (fun _ => rfl) region
  rw [absent] at fixed
  exact Option.map_eq_none_iff.mp fixed

theorem entityOf? (state : StateId) : other.entityOf? state = one.entityOf? state :=
  (alike.second.entities state).trans (alike.first.entities state).symm

theorem view (state : StateId) : other.view state = one.view state := by
  have names : other.name = one.name := alike.stateName root
  have data (state : StateId) : other.stateGet? state = one.stateGet? state := by
    funext key
    have read (machine : Machine) : machine.stateGet? state key =
        (machine.entityOf? state).bind fun entity => entity.get? key := by
      unfold stateGet? Machine.entityOf?
      rw [Option.bind_map]
      rfl
    rw [read, read, alike.entityOf? state]
  have states (name : String) : other.findState? name = one.findState? name := by
    unfold findState?
    rw [names, alike.regionsOf root]
    simp only [alike.resolveState?]
  have shared : other.get? = one.get? := data root
  have active : other.isStateActive = one.isStateActive := funext alike.states
  unfold Machine.view
  rw [names, alike.stateName state, shared, data state, active]
  simp only [states]

/-! ### Plans -/

private theorem inactiveRegions (state : StateId) :
    other.inactiveRegions state = one.inactiveRegions state := by
  unfold Machine.inactiveRegions
  rw [alike.regionsOf state]
  simp only [alike.regions]

private theorem enterMarker (region : RegionId) :
    other.enterMarker region = one.enterMarker region := by
  unfold Machine.enterMarker entryMarker?
  rw [alike.readRegion Region.entryMarker (fun _ => rfl) region]

theorem defaultEntryPlan (state : StateId) :
    other.defaultEntryPlan state = one.defaultEntryPlan state := by
  unfold Machine.defaultEntryPlan
  rw [alike.inactiveRegions state]
  simp only [show other.enterMarker = one.enterMarker from funext alike.enterMarker]

private theorem chainEntryPlan (chain : List StateId) :
    other.chainEntryPlan chain = one.chainEntryPlan chain := by
  -- By induction on the chain.
  induction chain with
  | nil => rfl
  | cons state rest ih =>
      cases rest with
      | nil => exact alike.defaultEntryPlan state
      | cons next rest =>
          unfold Machine.chainEntryPlan
          rw [ih, alike.inactiveRegions state, alike.containerOf? next]
          simp only [show other.enterMarker = one.enterMarker from funext alike.enterMarker]

private theorem inactiveChain (depth : Nat) (state : StateId) (chain : List StateId) :
    other.inactiveChain depth state chain = one.inactiveChain depth state chain := by
  -- By induction on the depth.
  induction depth generalizing state chain with
  | zero => rfl
  | succ depth ih =>
      unfold Machine.inactiveChain
      rw [alike.parentOf? state]
      cases one.parentOf? state with
      | none => rfl
      | some parent =>
          dsimp only
          rw [alike.states parent, ih]

theorem explicitEntryPlan (target : StateId) :
    other.explicitEntryPlan target = one.explicitEntryPlan target := by
  have opening : other.activateInactive = one.activateInactive := by
    funext state
    unfold Machine.activateInactive
    rw [alike.containerOf? state]
    simp only [alike.regions]
  unfold Machine.explicitEntryPlan
  dsimp only
  rw [alike.nestingBound, alike.inactiveChain, alike.chainEntryPlan, opening]

private theorem activeChild? (region : RegionId) :
    other.activeChild? region = one.activeChild? region := by
  unfold Machine.activeChild?
  rw [alike.statesOf region, show other.isStateActive = one.isStateActive from funext alike.states]

private theorem activeSteps (depth : Nat) (state : StateId) :
    other.activeSteps depth state = one.activeSteps depth state := by
  -- By induction on the depth.
  induction depth generalizing state with
  | zero => rfl
  | succ depth ih =>
      unfold Machine.activeSteps
      rw [alike.regionsOf state,
        show other.isRegionActive = one.isRegionActive from funext alike.regions]
      refine congrArg _ (List.flatMap_congr fun region _ => congrArg _ ?_)
      rw [alike.activeChild? region]
      cases one.activeChild? region with
      | none => rfl
      | some child => exact ih child

theorem exitPlan (state : StateId) : other.exitPlan state = one.exitPlan state := by
  unfold Machine.exitPlan
  rw [alike.nestingBound, alike.activeSteps]

/-! ### Transitions -/

theorem find?_transitions (wired : base.Wired) (region : RegionId) (test : Transition → Bool) :
    (other.transitionsOf region).find? (fun id => (other.transition? id).any test) =
        (one.transitionsOf region).find? (fun id => (one.transition? id).any test) ∧
      ∀ id ∈ one.transitionsOf region, other.transition? id = one.transition? id := by
  have same := alike.first.sameChart
  have same' := alike.second.sameChart
  refine ⟨(same'.find?_transitions wired region test).trans
    (same.find?_transitions wired region test).symm, fun id listed => ?_⟩
  rw [same.transitionsOf] at listed
  exact (same'.registered_transition? wired listed).trans
    (same.registered_transition? wired listed).symm

private theorem targetOf {members members' : Region} {found found' : Transition}
    (fixed : members'.fixed = members.fixed) (same : found'.unnamed = found.unnamed) :
    SameEnd (Machine.targetOf one region members found)
      (Machine.targetOf other region members' found') := by
  unfold Machine.targetOf
  rw [Transition.read_unnamed same Transition.target fun _ => rfl,
    Region.read_eq fixed Region.final fun _ => rfl]
  cases found.target with
  | none => rfl
  | some target =>
      dsimp only
      rw [alike.resolveState? region target]
      cases one.resolveState? region target <;> rfl

theorem endpoints {id id' : TransitionId} (corresponds : Corresponds one other id id') :
    SameEnd (one.endpoints id) (other.endpoints id') := by
  unfold Corresponds at corresponds
  unfold Machine.endpoints
  cases known : one.transition? id with
  | none =>
      rw [known] at corresponds
      rw [Option.map_eq_none_iff.mp corresponds]
      rfl
  | some found =>
      rw [known] at corresponds
      obtain ⟨found', known', same⟩ := Option.map_eq_some_iff.mp corresponds
      rw [known']
      dsimp only
      rw [Transition.read_unnamed same Transition.container fun _ => rfl]
      cases found.container with
      | none => rfl
      | some region =>
          dsimp only
          cases stored : one.region? region with
          | none =>
              rw [alike.region?_none stored]
              rfl
          | some members =>
              obtain ⟨members', stored', fixed, status⟩ := alike.region?_forward stored
              rw [stored']
              dsimp only
              rw [status]
              split
              · refine (sameEnd_sourceOf fixed same).bind fun source =>
                  (alike.targetOf fixed same).bind fun target => ?_
                rw [alike.kindOf? source, alike.kindOf? target]
                split
                · rfl
                · split <;> rfl
              · rfl

end Match

end Machine

end Chart
