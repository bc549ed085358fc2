import Chart.Proofs.Forest.Placement
import Chart.Proofs.Forest.SameChart

set_option autoImplicit false

/-!
Growing charts. Construction adds states, regions and transitions, places states, registers
transitions and changes the depth of histories; it neither activates nor forgets anything. `Grown`
says what is still there afterwards, and the steps below keep the forest wired.
-/

namespace Chart

/-- A state without what construction may still change about it. -/
def StateNode.lasting (node : StateNode) : StateNode :=
  { node with
    entity := .named node.name
    kind := .normal
    level := 0
    container := none
    regions := [] }

/-- A region without what construction may still change about it. -/
def Region.lasting (members : Region) : Region :=
  { members with
    states := []
    stateIndex := []
    transitions := []
    transitionIndex := []
    history := none }

def Transition.lasting (transition : Transition) : Transition :=
  { transition with container := none }

theorem StateNode.read_lasting {Reading : Type} {one other : StateNode}
    (lasting : one.lasting = other.lasting) (read : StateNode → Reading)
    (blind : ∀ node, read node.lasting = read node) : read one = read other := by
  rw [← blind one, lasting, blind]

theorem Region.read_lasting {Reading : Type} {one other : Region}
    (lasting : one.lasting = other.lasting) (read : Region → Reading)
    (blind : ∀ members, read members.lasting = read members) : read one = read other := by
  rw [← blind one, lasting, blind]

/-- A kind stays, except that a history may change its depth. -/
def StateKind.Redeepened (before after : StateKind) : Prop :=
  after = before ∨ ∃ old new, before = .history old ∧ after = .history new

theorem StateKind.Redeepened.trans {first second third : StateKind}
    (one : Redeepened first second) (two : Redeepened second third) : Redeepened first third := by
  rcases one with rfl | ⟨old, middle, rfl, rfl⟩
  · exact two
  · rcases two with rfl | ⟨_, new, _, rfl⟩
    · exact Or.inr ⟨old, middle, rfl, rfl⟩
    · exact Or.inr ⟨old, new, rfl, rfl⟩

theorem StateKind.Redeepened.normal_iff {before after : StateKind}
    (same : Redeepened before after) : after = .normal ↔ before = .normal := by
  rcases same with rfl | ⟨_, _, rfl, rfl⟩
  · exact Iff.rfl
  · simp

structure StateNode.Grown (before after : StateNode) : Prop where
  lasting : after.lasting = before.lasting
  kind : before.kind.Redeepened after.kind
  container : ∀ region, before.container = some region → after.container = some region
  regions : before.regions ⊆ after.regions

structure Region.Grown (before after : Region) : Prop where
  lasting : after.lasting = before.lasting
  history : ∀ state, before.history = some state → after.history = some state
  transitions : before.transitions ⊆ after.transitions

structure Transition.Grown (before after : Transition) : Prop where
  lasting : after.lasting = before.lasting
  container : before.container.isSome → after = before

theorem StateNode.Grown.refl (node : StateNode) : node.Grown node :=
  ⟨rfl, Or.inl rfl, fun _ contained => contained, fun _ owned => owned⟩

theorem StateNode.Grown.trans {first second third : StateNode} (one : first.Grown second)
    (two : second.Grown third) : first.Grown third where
  lasting := two.lasting.trans one.lasting
  kind := one.kind.trans two.kind
  container := fun region contained => two.container region (one.container region contained)
  regions := fun _ owned => two.regions (one.regions owned)

theorem Region.Grown.refl (members : Region) : members.Grown members :=
  ⟨rfl, fun _ marked => marked, fun _ listed => listed⟩

theorem Region.Grown.trans {first second third : Region} (one : first.Grown second)
    (two : second.Grown third) : first.Grown third where
  lasting := two.lasting.trans one.lasting
  history := fun state marked => two.history state (one.history state marked)
  transitions := fun _ listed => two.transitions (one.transitions listed)

theorem Transition.Grown.refl (transition : Transition) : transition.Grown transition :=
  ⟨rfl, fun _ => rfl⟩

theorem Transition.Grown.trans {first second third : Transition} (one : first.Grown second)
    (two : second.Grown third) : first.Grown third where
  lasting := two.lasting.trans one.lasting
  container := by
    intro registered
    have same := one.container registered
    rw [two.container (by rw [same]; exact registered), same]

namespace Machine

/-- Everything that was there is still there, and what is new is inactive. -/
structure Grown (before after : Machine) : Prop where
  states : ∀ state node, before.state? state = some node →
    ∃ node', after.state? state = some node' ∧ node.Grown node'
  newStates : ∀ state node, before.state? state = none → after.state? state = some node →
    node.status = .inactive ∧ node.choices = [] ∧ node.frame = none ∧ node.timer = .idle
  regions : ∀ region members, before.region? region = some members →
    ∃ members', after.region? region = some members' ∧ members.Grown members'
  newRegions : ∀ region members, before.region? region = none →
    after.region? region = some members → members.status = .inactive ∧ members.lastActive = none
  transitions : ∀ transition found, before.transition? transition = some found →
    ∃ found', after.transition? transition = some found' ∧ found.Grown found'
  registrations : ∀ transition found region, after.transition? transition = some found →
    found.container = some region →
    before.transition? transition = some found ∨ transition ∈ after.transitionsOf region
  frames : after.frames = before.frames
  log : after.log = before.log
  journal : after.journal = before.journal

namespace Grown

theorem refl (machine : Machine) : Grown machine machine where
  states := fun _ node found => ⟨node, found, StateNode.Grown.refl node⟩
  newStates := by
    intro state node absent found
    rw [absent] at found
    cases found
  regions := fun _ members found => ⟨members, found, Region.Grown.refl members⟩
  newRegions := by
    intro region members absent found
    rw [absent] at found
    cases found
  transitions := fun _ found present => ⟨found, present, Transition.Grown.refl found⟩
  registrations := fun _ _ _ present _ => Or.inl present
  frames := rfl
  log := rfl
  journal := rfl

theorem trans {before middle after : Machine} (first : Grown before middle)
    (second : Grown middle after) : Grown before after where
  states := by
    intro state node found
    obtain ⟨node', found', grown⟩ := first.states state node found
    obtain ⟨node'', found'', grown'⟩ := second.states state node' found'
    exact ⟨node'', found'', grown.trans grown'⟩
  newStates := by
    intro state node absent found
    cases between : middle.state? state with
    | none => exact second.newStates state node between found
    | some node' =>
        obtain ⟨inactive, chosen, frame, idle⟩ := first.newStates state node' absent between
        obtain ⟨node'', found'', grown⟩ := second.states state node' between
        rw [found] at found''
        obtain rfl := Option.some.inj found''
        refine ⟨?_, ?_, ?_, ?_⟩
        · rw [← inactive]
          exact StateNode.read_lasting grown.lasting StateNode.status fun _ => rfl
        · rw [← chosen]
          exact StateNode.read_lasting grown.lasting StateNode.choices fun _ => rfl
        · rw [← frame]
          exact StateNode.read_lasting grown.lasting StateNode.frame fun _ => rfl
        · rw [← idle]
          exact StateNode.read_lasting grown.lasting StateNode.timer fun _ => rfl
  regions := by
    intro region members found
    obtain ⟨members', found', grown⟩ := first.regions region members found
    obtain ⟨members'', found'', grown'⟩ := second.regions region members' found'
    exact ⟨members'', found'', grown.trans grown'⟩
  newRegions := by
    intro region members absent found
    cases between : middle.region? region with
    | none => exact second.newRegions region members between found
    | some members' =>
        obtain ⟨inactive, forgotten⟩ := first.newRegions region members' absent between
        obtain ⟨members'', found'', grown⟩ := second.regions region members' between
        rw [found] at found''
        obtain rfl := Option.some.inj found''
        refine ⟨?_, ?_⟩
        · rw [← inactive]
          exact Region.read_lasting grown.lasting Region.status fun _ => rfl
        · rw [← forgotten]
          exact Region.read_lasting grown.lasting Region.lastActive fun _ => rfl
  transitions := by
    intro transition found present
    obtain ⟨found', present', grown⟩ := first.transitions transition found present
    obtain ⟨found'', present'', grown'⟩ := second.transitions transition found' present'
    exact ⟨found'', present'', grown.trans grown'⟩
  registrations := by
    intro transition found region present registered
    rcases second.registrations transition found region present registered with earlier | listed
    · rcases first.registrations transition found region earlier registered with
        before | listed
      · exact Or.inl before
      · right
        unfold transitionsOf at listed ⊢
        cases stored : middle.region? region with
        | none =>
            rw [stored] at listed
            cases listed
        | some members =>
            obtain ⟨members', stored', grown⟩ := second.regions region members stored
            rw [stored] at listed
            rw [stored']
            exact grown.transitions listed
    · exact Or.inr listed
  frames := second.frames.trans first.frames
  log := second.log.trans first.log
  journal := second.journal.trans first.journal

theorem grownNode {before after : Machine} (grown : Grown before after) {state : StateId}
    {node node' : StateNode} (found : before.state? state = some node)
    (found' : after.state? state = some node') : node.Grown node' := by
  obtain ⟨again, foundAgain, grownNode⟩ := grown.states state node found
  rw [found'] at foundAgain
  rw [Option.some.inj foundAgain]
  exact grownNode

theorem containerOf? {before after : Machine} (grown : Grown before after)
    {state : StateId} {region : RegionId} (contained : before.containerOf? state = some region) :
    after.containerOf? state = some region := by
  obtain ⟨node, found, inRegion⟩ := containerOf?_eq_some.mp contained
  obtain ⟨node', found', grownNode⟩ := grown.states state node found
  exact containerOf?_eq_some.mpr ⟨node', found', grownNode.container region inRegion⟩

theorem isStateActive {before after : Machine} (grown : Grown before after)
    {state : StateId} : after.isStateActive state = before.isStateActive state := by
  unfold Machine.isStateActive
  cases found : before.state? state with
  | none =>
      cases found' : after.state? state with
      | none => rfl
      | some node => simp [(grown.newStates state node found found').1, Status.isActive]
  | some node =>
      obtain ⟨node', found', grownNode⟩ := grown.states state node found
      have status : node'.status = node.status :=
        StateNode.read_lasting grownNode.lasting StateNode.status fun _ => rfl
      simp [found', status]

theorem isRegionActive {before after : Machine} (grown : Grown before after)
    {region : RegionId} : after.isRegionActive region = before.isRegionActive region := by
  unfold Machine.isRegionActive
  cases found : before.region? region with
  | none =>
      cases found' : after.region? region with
      | none => rfl
      | some members => simp [(grown.newRegions region members found found').1, Status.isActive]
  | some members =>
      obtain ⟨members', found', grownRegion⟩ := grown.regions region members found
      have status : members'.status = members.status :=
        Region.read_lasting grownRegion.lasting Region.status fun _ => rfl
      simp [found', status]

theorem ownerOf? {before after : Machine} (grown : Grown before after) {region : RegionId}
    {owner : StateId} (owned : before.ownerOf? region = some owner) :
    after.ownerOf? region = some owner := by
  obtain ⟨members, found, isOwner⟩ := ownerOf?_eq_some.mp owned
  obtain ⟨members', found', grownRegion⟩ := grown.regions region members found
  refine ownerOf?_eq_some.mpr ⟨members', found', ?_⟩
  rw [← isOwner]
  exact Region.read_lasting grownRegion.lasting Region.owner fun _ => rfl

theorem historyOf? {before after : Machine} (grown : Grown before after) {region : RegionId}
    {history : StateId} (marked : before.historyOf? region = some history) :
    after.historyOf? region = some history := by
  obtain ⟨members, found, isHistory⟩ := historyOf?_eq_some.mp marked
  obtain ⟨members', found', grownRegion⟩ := grown.regions region members found
  exact historyOf?_eq_some.mpr ⟨members', found', grownRegion.history history isHistory⟩

theorem kindOf? {before after : Machine} (grown : Grown before after) {state : StateId}
    {kind : StateKind} (isKind : before.kindOf? state = some kind) :
    ∃ kind', after.kindOf? state = some kind' ∧ kind.Redeepened kind' := by
  obtain ⟨node, found, rfl⟩ := kindOf?_eq_some.mp isKind
  obtain ⟨node', found', grownNode⟩ := grown.states state node found
  exact ⟨node'.kind, kindOf?_eq_some.mpr ⟨node', found', rfl⟩, grownNode.kind⟩

theorem inside {before after : Machine} (grown : Grown before after) {region : RegionId}
    {state : StateId} (inside : before.Inside region state) : after.Inside region state := by
  induction inside with
  | member contained => exact .member (grown.containerOf? contained)
  | deeper contained owned _ ih =>
      exact .deeper (grown.containerOf? contained) (grown.ownerOf? owned) ih

end Grown

/-! ### The steps -/

theorem state?_pushState (machine : Machine) (node : StateNode) (state : StateId) :
    (machine.pushState node).2.state? state =
      if state = (machine.pushState node).1 then some node else machine.state? state := by
  cases state
  simp only [pushState, state?, Array.getElem?_push, StateId.mk.injEq]

theorem transition?_pushTransition (machine : Machine) (added : Transition)
    (transition : TransitionId) :
    (machine.pushTransition added).2.transition? transition =
      if transition = (machine.pushTransition added).1 then some added
      else machine.transition? transition := by
  cases transition
  simp only [pushTransition, transition?, Array.getElem?_push, TransitionId.mk.injEq]

theorem state?_next (machine : Machine) (node : StateNode) :
    machine.state? (machine.pushState node).1 = none :=
  Array.getElem?_eq_none (Nat.le_refl _)

theorem transition?_next (machine : Machine) (added : Transition) :
    machine.transition? (machine.pushTransition added).1 = none :=
  Array.getElem?_eq_none (Nat.le_refl _)

theorem read_pushState {Reading : Type} {machine : Machine} {node : StateNode}
    (read : Option StateNode → Reading) (blank : read (some node) = read none) (state : StateId) :
    read ((machine.pushState node).2.state? state) = read (machine.state? state) := by
  rw [state?_pushState]
  split
  · rename_i here
    rw [here, state?_next]
    exact blank
  · rfl

theorem containerOf?_pushState {machine : Machine} {node : StateNode}
    (detached : node.container = none) (state : StateId) :
    (machine.pushState node).2.containerOf? state = machine.containerOf? state :=
  read_pushState (Option.bind · StateNode.container) detached state

theorem containerOf?_next (machine : Machine) (node : StateNode) :
    machine.containerOf? (machine.pushState node).1 = none := by
  unfold containerOf?
  rw [state?_next]
  rfl

theorem kindOf?_pushState (machine : Machine) (node : StateNode) (state : StateId) :
    (machine.pushState node).2.kindOf? state =
      if state = (machine.pushState node).1 then some node.kind else machine.kindOf? state := by
  unfold kindOf?
  rw [state?_pushState]
  split <;> rfl

theorem state?_pushState_of_some {machine : Machine} {known : StateNode} {state : StateId}
    (node : StateNode) (found : machine.state? state = some known) :
    (machine.pushState node).2.state? state = some known := by
  have different : state ≠ (machine.pushState node).1 := by
    rintro rfl
    rw [state?_next] at found
    cases found
  rw [state?_pushState, if_neg different, found]

theorem kindOf?_pushState_of_some {machine : Machine} {kind : StateKind} {state : StateId}
    (node : StateNode) (isKind : machine.kindOf? state = some kind) :
    (machine.pushState node).2.kindOf? state = some kind := by
  obtain ⟨known, found, same⟩ := kindOf?_eq_some.mp isKind
  exact kindOf?_eq_some.mpr ⟨known, state?_pushState_of_some node found, same⟩

theorem transition?_pushTransition_of_some {machine : Machine} {known : Transition}
    {transition : TransitionId} (added : Transition)
    (found : machine.transition? transition = some known) :
    (machine.pushTransition added).2.transition? transition = some known := by
  have different : transition ≠ (machine.pushTransition added).1 := by
    rintro rfl
    rw [transition?_next] at found
    cases found
  rw [transition?_pushTransition, if_neg different, found]

theorem Wired.pushState {machine : Machine} (wired : machine.Wired) {node : StateNode}
    (detached : node.container = none) (bare : node.regions = []) (low : node.level = 0)
    (notRoot : node.kind ≠ .root) (decides : node.kind = .choice → node.decision.isSome) :
    (machine.pushState node).2.Wired := by
  set after := (machine.pushState node).2
  have lookUp := state?_pushState machine node
  have containers : ∀ state, after.containerOf? state = machine.containerOf? state :=
    containerOf?_pushState detached
  have regions : ∀ state, after.regionsOf state = machine.regionsOf state :=
    read_pushState (fun found => (found.map StateNode.regions).getD []) bare
  have levels : ∀ state, after.level state = machine.level state :=
    read_pushState (fun found => (found.map StateNode.level).getD 0) low
  refine
    { rootKind := kindOf?_pushState_of_some node wired.rootKind
      rootOnly := ?_, rootFree := ?_, listed := ?_, listedOnce := wired.listedOnce
      owned := ?_, ownedOnce := ?_
      leveled := wired.leveled_of_same levels (parentOf?_congr containers fun _ => rfl)
      owners := ?_, indexed := ?_, registered := wired.registered, decided := ?_ }
  · intro state isRoot
    rw [kindOf?_pushState] at isRoot
    split at isRoot
    · exact absurd (Option.some.inj isRoot) notRoot
    · exact wired.rootOnly state isRoot
  · rw [containers]
    exact wired.rootFree
  · intro state region
    rw [containers]
    exact wired.listed state region
  · intro region state
    rw [regions]
    exact wired.owned region state
  · intro state
    rw [regions]
    exact wired.ownedOnce state
  · intro state owning
    rw [regions] at owning
    exact (wired.owners state owning).imp (kindOf?_pushState_of_some node)
      (kindOf?_pushState_of_some node)
  · intro region members name state found
    rw [wired.indexed region members name state found]
    refine and_congr_right fun listed => ?_
    have contained : machine.containerOf? state = some region := by
      rw [wired.listed]
      unfold statesOf
      rw [show machine.region? region = some members from found]
      exact listed
    obtain ⟨node', present, _⟩ := containerOf?_eq_some.mp contained
    unfold stateName
    rw [state?_pushState_of_some node present, present]
  · intro state node' found choice
    rw [lookUp] at found
    split at found
    · obtain rfl := Option.some.inj found
      exact decides choice
    · exact wired.decided state node' found choice

theorem Grown.pushState (machine : Machine) {node : StateNode} (inactive : node.status = .inactive)
    (unchosen : node.choices = []) (unframed : node.frame = none) (untimed : node.timer = .idle) :
    Grown machine (machine.pushState node).2 := by
  refine { Grown.refl machine with states := ?_, newStates := ?_ }
  · intro state found present
    exact ⟨found, state?_pushState_of_some node present, StateNode.Grown.refl found⟩
  · intro state found missing present
    rw [state?_pushState] at present
    split at present
    · obtain rfl := Option.some.inj present
      exact ⟨inactive, unchosen, unframed, untimed⟩
    · rw [missing] at present
      cases present

theorem Wired.pushTransition {machine : Machine} (wired : machine.Wired) (added : Transition) :
    (machine.pushTransition added).2.Wired where
  rootKind := wired.rootKind
  rootOnly := wired.rootOnly
  rootFree := wired.rootFree
  listed := wired.listed
  listedOnce := wired.listedOnce
  owned := wired.owned
  ownedOnce := wired.ownedOnce
  leveled := wired.leveled
  owners := wired.owners
  indexed := wired.indexed
  registered := by
    intro region transition listed
    obtain ⟨found, present, contained⟩ := wired.registered region transition listed
    exact ⟨found, transition?_pushTransition_of_some added present, contained⟩
  decided := wired.decided

theorem Grown.pushTransition (machine : Machine) {added : Transition}
    (free : added.container = none) : Grown machine (machine.pushTransition added).2 := by
  refine { Grown.refl machine with transitions := ?_, registrations := ?_ }
  · intro transition found present
    exact ⟨found, transition?_pushTransition_of_some added present, Transition.Grown.refl found⟩
  · intro transition found region present registered
    rw [transition?_pushTransition] at present
    split at present
    · obtain rfl := Option.some.inj present
      rw [free] at registered
      cases registered
    · exact Or.inl present

end Machine
end Chart
