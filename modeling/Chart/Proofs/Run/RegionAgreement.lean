import Chart.Proofs.Run.FiredTargets
import Mathlib.Data.List.Find

set_option autoImplicit false

/-!
Two machines that agree in a region. They have the same chart, the same statuses inside the region
and the same records of the regions within it, and have recorded the same firings since they were
set going. Single steps inside the region keep the agreement, and both plan the same way through the
region, whatever is active elsewhere.
-/

namespace Chart

/-- The state has no behaviours, decides nothing and does not complete by itself. -/
structure StateNode.Mechanical (node : StateNode) : Prop where
  entry : node.entry = none
  exit : node.exit = none
  activity : node.activity = none
  enduring : node.config.autoTransition = false
  determined : node.kind ≠ .choice

theorem StateNode.Mechanical.of_fixed {node node' : StateNode} (mechanical : node.Mechanical)
    (fixed : node'.fixed = node.fixed) : node'.Mechanical where
  entry := (read_eq fixed StateNode.entry fun _ => rfl).trans mechanical.entry
  exit := (read_eq fixed StateNode.exit fun _ => rfl).trans mechanical.exit
  activity := (read_eq fixed StateNode.activity fun _ => rfl).trans mechanical.activity
  enduring := (read_eq fixed (fun node => node.config.autoTransition) fun _ => rfl).trans
    mechanical.enduring
  determined := by
    rw [read_eq fixed StateNode.kind fun _ => rfl]
    exact mechanical.determined

namespace Machine

/-- The machine runs no callback, decides nothing, and none of its states completes by itself. -/
structure Mechanical (machine : Machine) : Prop where
  states : ∀ state node, machine.state? state = some node → node.Mechanical
  transitions : ∀ id found, machine.transition? id = some found →
    found.guard = none ∧ found.effect = none

theorem Mechanical.of_sameChart {before after : Machine} (mechanical : before.Mechanical)
    (same : SameChart before after) : after.Mechanical where
  states := by
    intro state node found
    obtain ⟨node', found', fixed⟩ := same.state?_backward found
    exact (mechanical.states state node' found').of_fixed fixed.symm
  transitions := by
    intro id found present
    rcases same.chosen id found present with earlier | ⟨name, choice, target, region, rfl⟩
    · exact mechanical.transitions id found earlier
    · exact ⟨rfl, rfl⟩

def Local (machine : Machine) (region : RegionId) (state : StateId) : Prop :=
  machine.Inside region state ∨ machine.ownerOf? region = some state

/-- The machines `one` and `other`, set going at `base` and `image`, agree in the region. -/
structure AgreeIn (base image : Machine) (region : RegionId) (one other : Machine) : Prop where
  changes : Changes base one
  chart : SameChart base other
  transitions : one.transitions = base.transitions
  alike : other.transitions = one.transitions
  states : ∀ state, base.Local region state →
    other.isStateActive state = one.isStateActive state
  regions : ∀ inner, base.Within region inner → other.region? inner = one.region? inner
  owner : ∀ owner, base.ownerOf? region = some owner → one.isStateActive owner = true
  logged : ∃ block, one.log.toList = base.log.toList ++ block ∧
    other.log.toList = image.log.toList ++ block

namespace AgreeIn

variable {base image one other after after' : Machine} {region inner : RegionId} {state : StateId}
variable (agree : AgreeIn base image region one other)
include agree

theorem sameChart : SameChart one other where
  states := fun state => (agree.chart.states state).trans
    (agree.changes.sameChart.states state).symm
  regions := fun region =>
    (agree.chart.regions region).trans (agree.changes.sameChart.regions region).symm
  nesting := agree.chart.nesting.trans agree.changes.sameChart.nesting.symm
  kept := fun id found present => by rw [transition?, agree.alike]; exact present
  chosen := fun id found present => Or.inl (by rw [transition?, ← agree.alike]; exact present)

theorem transition?_eq (id : TransitionId) : other.transition? id = one.transition? id := by
  rw [transition?, agree.alike]
  rfl

theorem isRegionActive (within : base.Within region inner) :
    other.isRegionActive inner = one.isRegionActive inner := by
  unfold Machine.isRegionActive
  rw [agree.regions inner within]

theorem isStateActive (inside : base.Inside region state) :
    other.isStateActive state = one.isStateActive state :=
  agree.states state (Or.inl inside)

/-- Machines agree after a step that both take if their statuses and records in the region do. -/
theorem step (changes : Changes one after) (same : SameChart other after')
    (fixed : after.transitions = one.transitions ∧ after'.transitions = other.transitions)
    (unlogged : after.log = one.log ∧ after'.log = other.log)
    (states : ∀ state, base.Local region state →
      after'.isStateActive state = after.isStateActive state)
    (regions : ∀ inner, base.Within region inner → after'.region? inner = after.region? inner)
    (owner : ∀ owner, base.ownerOf? region = some owner → after.isStateActive owner = true) :
    AgreeIn base image region after after' where
  changes := agree.changes.trans changes
  chart := agree.chart.trans same
  transitions := fixed.1.trans agree.transitions
  alike := fixed.2.trans (agree.alike.trans fixed.1.symm)
  states := states
  regions := regions
  owner := owner
  logged := by
    rw [unlogged.1, unlogged.2]
    exact agree.logged

theorem noted {event : Event} (changes : Change True one (one.note event)) (event' : Event) :
    AgreeIn base image region (one.note event) (other.note event') :=
  agree.step changes.one (sameChart_note other event') ⟨rfl, rfl⟩
  ⟨rfl, rfl⟩ agree.states agree.regions
    agree.owner

theorem note {event : Event} (plain : event.isPlain = true) (event' : Event) :
    AgreeIn base image region (one.note event) (other.note event') :=
  agree.noted (Change.note event plain) event'

theorem recorded (id : TransitionId) (firing : Firing) :
    AgreeIn base image region (one.recorded id firing) (other.recorded id firing) where
  changes := agree.changes.tail (Change.record id firing)
  chart := agree.chart.trans (SameChart.of_stores rfl rfl rfl)
  transitions := agree.transitions
  alike := agree.alike
  states := agree.states
  regions := agree.regions
  owner := agree.owner
  logged := by
    obtain ⟨block, isOne, isOther⟩ := agree.logged
    refine ⟨block ++ [firing], ?_, ?_⟩
    · rw [← List.append_assoc, ← isOne]
      exact Array.toList_push
    · rw [← List.append_assoc, ← isOther]
      exact Array.toList_push

theorem timerArmed {node : StateNode} (found : one.state? state = some node)
    (active : node.status.isActive = true) (normal : node.kind = .normal)
    (timed : node.config.timer = true) :
    AgreeIn base image region (one.timerArmed state) (other.timerArmed state) := by
  have keeps (machine : Machine) (seen : StateId) :
      (machine.timerArmed state).isStateActive seen = machine.isStateActive seen :=
    isStateActive_modifyState (fun node =>
      { node with timer := .armed, frame := some (machine.frames.schedule state).1 })
      (fun _ => rfl) seen
  refine agree.step (Change.armTimer found active normal timed).one
    (sameChart_timerArmed other state)
    ⟨rfl, rfl⟩ ⟨rfl, rfl⟩ (fun seen near => ?_) agree.regions fun owner owned => ?_
  · rw [keeps, keeps]
    exact agree.states seen near
  · rw [keeps]
    exact agree.owner owner owned

theorem entered {node node' : StateNode} (found : one.state? state = some node)
    (found' : other.state? state = some node') (inactive : node.status.isActive = false) :
    AgreeIn base image region (one.entered state node.name) (other.entered state node'.name) := by
  refine agree.step (Change.enter found inactive (Or.inr (Or.inr trivial))).one
    (sameChart_entered other state node'.name) ⟨rfl, rfl⟩ ⟨rfl, rfl⟩ (fun seen near => ?_)
    agree.regions fun owner owned => ?_
  · rw [Bool.eq_iff_iff, isStateActive_entered found, isStateActive_entered found',
      agree.states seen near]
  · exact (isStateActive_entered found node.name owner).mpr (Or.inr (agree.owner owner owned))

theorem left (wired : base.Wired) (inside : base.Inside region state) {node node' : StateNode}
    (found : one.state? state = some node) (fixed : node'.fixed = node.fixed)
    (active : node.status.isActive = true) :
    AgreeIn base image region (one.left state node) (other.left state node') := by
  have kind : node'.kind = node.kind := StateNode.read_eq fixed StateNode.kind fun _ => rfl
  have container : node'.container = node.container :=
    StateNode.read_eq fixed StateNode.container fun _ => rfl
  refine agree.step (Change.leave found active).one (sameChart_left other state node')
    ⟨transitions_left one state node, transitions_left other state node'⟩
    ⟨log_left one state node, log_left other state node'⟩ (fun seen near => ?_)
    (fun inner within => ?_) fun owner owned => ?_
  · rw [Bool.eq_iff_iff, isStateActive_left, isStateActive_left, agree.states seen near]
  · rw [region?_left, region?_left, kind, container, agree.regions inner within]
  · refine (isStateActive_left owner).mpr ⟨?_, agree.owner owner owned⟩
    rintro rfl
    exact wired.not_inside_own_region owned inside

theorem opened {members : Region} (found : one.region? inner = some members)
    (inactive : members.status.isActive = false) :
    AgreeIn base image region (one.opened inner members.name)
    (other.opened inner members.name) := by
  refine agree.step (Change.openRegion found inactive).one
    ((sameChart_setRegionStatus other inner .active).trans (sameChart_note _ _)) ⟨rfl, rfl⟩
    ⟨rfl, rfl⟩ agree.states (fun seen within => ?_) agree.owner
  rw [Machine.opened, Machine.opened, region?_note, region?_note, setRegionStatus, setRegionStatus,
    region?_modifyRegion, region?_modifyRegion, agree.regions seen within]

theorem closed {members : Region} (found : one.region? inner = some members)
    (active : members.status.isActive = true) :
    AgreeIn base image region (one.closed inner members.name)
    (other.closed inner members.name) := by
  refine agree.step (Change.closeRegion found active).one
    ((sameChart_setRegionStatus other inner .inactive).trans (sameChart_note _ _)) ⟨rfl, rfl⟩
    ⟨rfl, rfl⟩ agree.states (fun seen within => ?_) agree.owner
  rw [Machine.closed, Machine.closed, region?_note, region?_note, setRegionStatus, setRegionStatus,
    region?_modifyRegion, region?_modifyRegion, agree.regions seen within]

end AgreeIn

/-! ### Plans through the region -/

/-- The step visits a state inside the region or a region within it. -/
def Step.Lies (machine : Machine) (region : RegionId) : Machine.Step → Prop
  | .state visited => machine.Inside region visited
  | .region visited => machine.Within region visited

section Plans

variable {base image one other : Machine} {region inner : RegionId} {state : StateId}

private theorem inside_of_mem_statesOf (wired : base.Wired) (within : base.Within region inner)
    (member : state ∈ base.statesOf inner) : base.Inside region state :=
  inside_iff.mpr ⟨inner, (wired.listed state inner).mpr member, within⟩

private theorem lies_spread {pending : List RegionId} {plan : RegionId → List Step}
    (inside : base.Inside region state) (within : ∀ inner ∈ pending, base.Within region inner)
    (lies : ∀ inner ∈ pending, ∀ step ∈ plan inner, step.Lies base region) :
    ∀ step ∈ .state state :: pending.map Step.region ++ pending.flatMap plan,
      step.Lies base region := by
  intro step member
  rcases List.mem_append.mp member with first | planned
  · rcases List.mem_cons.mp first with rfl | opening
    · exact inside
    · obtain ⟨inner, listed, rfl⟩ := List.mem_map.mp opening
      exact within inner listed
  · obtain ⟨inner, listed, visited⟩ := List.mem_flatMap.mp planned
    exact lies inner listed step visited

namespace AgreeIn

variable (agree : AgreeIn base image region one other)
include agree

section Exit

variable (wired : base.Wired)
include wired

private theorem within_of_regionsOf (inside : base.Inside region state)
    (member : inner ∈ one.regionsOf state) : base.Within region inner := by
  rw [agree.changes.sameChart.regionsOf] at member
  exact .of_owner ((wired.owned inner state).mpr member) inside

theorem all_inactive (inside : base.Inside region state) :
    (other.regionsOf state).all (fun inner => !other.isRegionActive inner) =
      (one.regionsOf state).all fun inner => !one.isRegionActive inner := by
  have within {inner : RegionId} := @within_of_regionsOf _ _ _ _ _ inner _ agree wired inside
  rw [agree.sameChart.regionsOf, Bool.eq_iff_iff, List.all_eq_true, List.all_eq_true]
  exact forall₂_congr fun inner member => by rw [agree.isRegionActive (within member)]

private theorem activeChild? (within : base.Within region inner) :
    other.activeChild? inner = one.activeChild? inner := by
  unfold Machine.activeChild?
  rw [agree.sameChart.statesOf]
  refine List.find?_congr fun child member => ?_
  rw [agree.changes.sameChart.statesOf] at member
  rw [agree.isStateActive (inside_of_mem_statesOf wired within member)]

omit agree in
private theorem inside_activeChild? (within : base.Within region inner) {child : StateId}
    (same : SameChart base one) (found : one.activeChild? inner = some child) :
    base.Inside region child := by
  have member := List.mem_of_find?_eq_some found
  rw [same.statesOf] at member
  exact inside_of_mem_statesOf wired within member

private theorem activeSteps (depth : Nat) (inside : base.Inside region state) :
    other.activeSteps depth state = one.activeSteps depth state ∧
      ∀ step ∈ one.activeSteps depth state, step.Lies base region := by
  -- By induction on the depth: the regions of the state and their active children are the same.
  have same := agree.changes.sameChart
  induction depth generalizing state with
  | zero => exact ⟨rfl, fun _ member => absurd member List.not_mem_nil⟩
  | succ depth ih =>
      have within {inner : RegionId} := @within_of_regionsOf _ _ _ _ _ inner _ agree wired inside
      have active : (other.regionsOf state).filter other.isRegionActive =
          (one.regionsOf state).filter one.isRegionActive := by
        rw [agree.sameChart.regionsOf]
        exact List.filter_congr fun inner member => by rw [agree.isRegionActive (within member)]
      constructor
      · unfold Machine.activeSteps
        rw [active]
        refine congrArg _ (List.flatMap_congr fun inner listed => ?_)
        have here := within (List.mem_filter.mp listed).1
        rw [agree.activeChild? wired here]
        cases child : one.activeChild? inner with
        | none => rfl
        | some found => exact congrArg _ (ih (inside_activeChild? wired here same child)).1
      · intro step member
        rcases List.mem_cons.mp member with rfl | later
        · exact inside
        · obtain ⟨inner, listed, visited⟩ := List.mem_flatMap.mp later
          have here := within (List.mem_filter.mp listed).1
          rcases List.mem_cons.mp visited with rfl | deeper
          · exact here
          · cases child : one.activeChild? inner with
            | none =>
                rw [child] at deeper
                cases deeper
            | some found =>
                rw [child] at deeper
                exact (ih (inside_activeChild? wired here same child)).2 step deeper

theorem exitPlan (inside : base.Inside region state) :
    other.exitPlan state = one.exitPlan state ∧
      ∀ step ∈ one.exitPlan state, step.Lies base region := by
  obtain ⟨equal, lies⟩ := agree.activeSteps wired (one.nestingBound + 1) inside
  unfold Machine.exitPlan
  rw [agree.sameChart.nesting, equal]
  exact ⟨rfl, fun step member => lies step (List.mem_reverse.mp member)⟩

end Exit

section Entry

variable (formed : base.Formed)
include formed

private theorem inactiveRegions (inside : base.Inside region state) :
    other.inactiveRegions state = one.inactiveRegions state ∧
      ∀ inner ∈ one.inactiveRegions state, base.Within region inner := by
  have within {inner : RegionId} :=
    @within_of_regionsOf _ _ _ _ _ inner _ agree formed.toWired inside
  unfold Machine.inactiveRegions
  rw [agree.sameChart.regionsOf]
  exact ⟨List.filter_congr fun inner member => by rw [agree.isRegionActive (within member)],
    fun inner member => within (List.mem_filter.mp member).1⟩

private theorem enterMarker (within : base.Within region inner) :
    other.enterMarker inner = one.enterMarker inner ∧
      ∀ step ∈ one.enterMarker inner, step.Lies base region := by
  unfold Machine.enterMarker entryMarker?
  rw [agree.regions inner within]
  refine ⟨rfl, fun step member => ?_⟩
  cases stored : one.region? inner with
  | none => simp [stored] at member
  | some members =>
      obtain rfl : step = .state members.entryMarker := by simpa [stored] using member
      have contained := containerOf?_entryMarker stored
        (formed.of_sameChart agree.changes.sameChart)
      rw [agree.changes.sameChart.containerOf?] at contained
      exact inside_iff.mpr ⟨inner, contained, within⟩

private theorem chainEntryPlan {chain : List StateId}
    (inside : ∀ state ∈ chain, base.Inside region state) :
    other.chainEntryPlan chain = one.chainEntryPlan chain ∧
      ∀ step ∈ one.chainEntryPlan chain, step.Lies base region := by
  -- By induction on the chain: each of its states has the same inactive regions in both
  -- machines.
  induction chain with
  | nil => exact ⟨rfl, fun _ member => absurd member List.not_mem_nil⟩
  | cons state rest ih =>
      have here := inside state (List.mem_cons_self ..)
      obtain ⟨pending, within⟩ := agree.inactiveRegions formed here
      cases rest with
      | nil =>
          unfold Machine.chainEntryPlan Machine.defaultEntryPlan
          rw [pending]
          refine ⟨congrArg (HAppend.hAppend _) (List.flatMap_congr fun inner listed => ?_),
            lies_spread here within fun inner listed => ?_⟩
          · exact (agree.enterMarker formed (within inner listed)).1
          · exact (agree.enterMarker formed (within inner listed)).2
      | cons next rest =>
          obtain ⟨equal, lies⟩ := ih fun state member =>
            inside state (List.mem_cons_of_mem _ member)
          unfold Machine.chainEntryPlan
          rw [pending, equal, agree.sameChart.containerOf?]
          refine ⟨congrArg (HAppend.hAppend _) (List.flatMap_congr fun inner listed => ?_),
            lies_spread here within fun inner listed => ?_⟩
          · rw [(agree.enterMarker formed (within inner listed)).1]
          · split
            · exact lies
            · exact (agree.enterMarker formed (within inner listed)).2

theorem defaultEntryPlan (inside : base.Inside region state) :
    other.defaultEntryPlan state = one.defaultEntryPlan state ∧
      ∀ step ∈ one.defaultEntryPlan state, step.Lies base region :=
  agree.chainEntryPlan formed (List.forall_mem_singleton.mpr inside)

omit formed in
private theorem inactiveChain {depth : Nat} {chain : List StateId}
    (inside : base.Inside region state)
    (around : ∀ state ∈ chain, base.Inside region state) :
    other.inactiveChain depth state chain = one.inactiveChain depth state chain ∧
      ∀ link ∈ one.inactiveChain depth state chain, base.Inside region link := by
  -- By induction on the depth: the chain ends at the latest below the owner of the region,
  -- which is active.
  induction depth generalizing state chain with
  | zero => exact ⟨rfl, around⟩
  | succ depth ih =>
      unfold Machine.inactiveChain
      rw [agree.sameChart.parentOf?]
      cases isParent : one.parentOf? state with
      | none => exact ⟨rfl, around⟩
      | some parent =>
          rw [agree.changes.sameChart.parentOf?] at isParent
          obtain ⟨inner, contained, owned⟩ := parentOf?_eq_some.mp isParent
          dsimp only
          rcases (inside.within_container contained).inside_owner owned with same | insideParent
          · rw [same] at owned
            rw [agree.states parent (Or.inr owned), agree.owner parent owned]
            exact ⟨rfl, around⟩
          · rw [agree.isStateActive insideParent]
            split
            · exact ⟨rfl, around⟩
            · refine ih insideParent fun other member => ?_
              rcases List.mem_cons.mp member with rfl | later
              · exact insideParent
              · exact around other later

omit formed in
private theorem activateInactive (inside : base.Inside region state) :
    other.activateInactive state = one.activateInactive state ∧
      ∀ step ∈ one.activateInactive state, step.Lies base region := by
  obtain ⟨inner, contained, within⟩ := inside_iff.mp inside
  unfold Machine.activateInactive
  rw [agree.sameChart.containerOf?, agree.changes.sameChart.containerOf?, contained]
  dsimp only
  rw [agree.isRegionActive within]
  refine ⟨rfl, fun step member => ?_⟩
  split at member
  · cases member
  · rw [List.mem_singleton.mp member]
    exact within

theorem explicitEntryPlan (inside : base.Inside region state) :
    other.explicitEntryPlan state = one.explicitEntryPlan state ∧
      ∀ step ∈ one.explicitEntryPlan state, step.Lies base region := by
  obtain ⟨chain, insideChain⟩ := @inactiveChain _ _ _ _ _ _ agree one.nestingBound _ inside
    (List.forall_mem_singleton.mpr inside)
  obtain ⟨plan, lies⟩ := agree.chainEntryPlan formed insideChain
  unfold Machine.explicitEntryPlan
  dsimp only
  rw [agree.sameChart.nesting, chain, plan]
  generalize one.inactiveChain one.nestingBound state [state] = links at insideChain lies ⊢
  have opening : (links.head?.map other.activateInactive).getD [] =
      (links.head?.map one.activateInactive).getD [] ∧
      ∀ step ∈ (links.head?.map one.activateInactive).getD [], step.Lies base region := by
    cases links with
    | nil => exact ⟨rfl, fun _ member => absurd member List.not_mem_nil⟩
    | cons top rest => exact agree.activateInactive (insideChain top (List.mem_cons_self ..))
  rw [opening.1]
  refine ⟨rfl, fun step member => ?_⟩
  rcases List.mem_append.mp member with first | later
  · exact opening.2 step first
  · exact lies step later

end Entry

end AgreeIn

end Plans

/-! ### What both machines find -/

namespace AgreeIn

variable {base image one other : Machine} {region inner : RegionId} {state : StateId}
variable (agree : AgreeIn base image region one other)
include agree

theorem state?_inside (inside : base.Inside region state) :
    ∃ node node' inner, one.state? state = some node ∧ other.state? state = some node' ∧
      node'.fixed = node.fixed ∧ node'.status.isActive = node.status.isActive ∧
      node.container = some inner ∧ base.Within region inner := by
  obtain ⟨inner, contained, within⟩ := inside_iff.mp inside
  rw [← agree.changes.sameChart.containerOf?] at contained
  obtain ⟨node, found, container⟩ := containerOf?_eq_some.mp contained
  obtain ⟨node', found', fixed⟩ := agree.sameChart.state?_forward found
  have agree := agree.isStateActive inside
  rw [Machine.isStateActive_eq found, Machine.isStateActive_eq found'] at agree
  exact ⟨node, node', inner, found, found', fixed, agree, container, within⟩

theorem endpoints {id : TransitionId} {found : Transition}
    (known : base.transition? id = some found) (contained : found.container = some inner)
    (within : base.Within region inner) : other.endpoints id = one.endpoints id := by
  unfold Machine.endpoints
  rw [agree.transition?_eq, agree.changes.sameChart.kept id found known]
  dsimp only
  rw [contained]
  dsimp only
  rw [agree.regions inner within]
  unfold Machine.targetOf
  simp only [agree.sameChart.kindOf?, agree.sameChart.resolveState?]

theorem find?_transitions (wired : base.Wired) (test : Transition → Bool) :
    (other.transitionsOf inner).find? (fun id => (other.transition? id).any test) =
        (one.transitionsOf inner).find? (fun id => (one.transition? id).any test) ∧
      ∀ id, (one.transitionsOf inner).find? (fun id => (one.transition? id).any test) = some id →
        ∃ found, base.transition? id = some found ∧ found.container = some inner := by
  have same := agree.changes.sameChart
  refine ⟨agree.sameChart.find?_transitions (wired.of_sameChart same) inner test,
    fun id first => ?_⟩
  have member := List.mem_of_find?_eq_some first
  rw [same.transitionsOf] at member
  exact wired.registered inner id member

end AgreeIn

end Machine

end Chart
