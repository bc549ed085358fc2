import Chart.Proofs.Forest.Growth

set_option autoImplicit false

/-!
Building keeps the forest formed. Each step of construction is taken by itself: placing a state,
registering a transition, giving a state one more region with its two markers, and giving a region
its history. Together with the machine that has nothing but its root they show that every machine
is formed before it runs.
-/

namespace Chart.Machine

/-! ### Placing a state -/

theorem Placed.grown {region : RegionId} {state : StateId} {before after : Machine}
    (placed : Placed region state before after) (detached : before.containerOf? state = none) :
    Grown before after := by
  have whole (other : StateId) := placed.readState StateNode.unplaced (fun _ => rfl) other
  refine
    { states := ?_, newStates := ?_, regions := ?_, newRegions := ?_, transitions := ?_,
      registrations := ?_, frames := by rw [placed.rest], log := by rw [placed.rest], journal := by
        rw [placed.rest] }
  · intro other node found
    have equal := whole other
    rw [found] at equal
    obtain ⟨node', found', same⟩ := Option.map_eq_some_iff.mp equal
    have lasting := congrArg StateNode.lasting same
    have kind := congrArg StateNode.kind same
    have regions := congrArg StateNode.regions same
    refine ⟨node', found', lasting, Or.inl kind, ?_, ?_⟩
    · intro container contained
      have holds : before.containerOf? other = some container :=
        containerOf?_eq_some.mpr ⟨node, found, contained⟩
      have different : other ≠ state := by
        rintro rfl
        rw [detached] at holds
        cases holds
      have after' := placed.containers other
      rw [if_neg different, holds] at after'
      obtain ⟨again, foundAgain, result⟩ := containerOf?_eq_some.mp after'
      rw [found'] at foundAgain
      rw [Option.some.inj foundAgain]
      exact result
    · intro owned member
      change owned ∈ node'.unplaced.regions
      rw [regions]
      exact member
  · intro other node absent found
    have equal := whole other
    rw [absent, found] at equal
    cases equal
  · intro other members found
    rw [placed.regions, found]
    split
    · exact ⟨_, rfl, rfl, fun _ marked => marked, fun _ listed => listed⟩
    · exact ⟨members, rfl, Region.Grown.refl members⟩
  · intro other members absent found
    rw [placed.regions, absent] at found
    split at found <;> cases found
  · intro transition found present
    rw [placed.transition?]
    exact ⟨found, present, Transition.Grown.refl found⟩
  · intro transition found container present _
    rw [placed.transition?] at present
    exact Or.inl present

/-! ### Registering a transition -/

/-- The region lists the transition under the name, and the transition names the region. -/
def registering (machine : Machine) (region : RegionId) (transition : TransitionId)
    (name : String) : Machine :=
  (machine.modifyTransition transition fun entry =>
    { entry with container := some region }).modifyRegion region fun entry =>
      { entry with
        transitions := entry.transitions ++ [transition]
        transitionIndex := Dictionary.insert entry.transitionIndex name transition }

section Registering

variable {machine : Machine} {region : RegionId} {transition : TransitionId} {name : String}

theorem transition?_registering (other : TransitionId) :
    (machine.registering region transition name).transition? other =
      if other = transition then
        (machine.transition? other).map fun entry => { entry with container := some region }
      else machine.transition? other := by
  rw [registering]
  have same : ∀ change, ((machine.modifyTransition transition fun entry =>
      { entry with container := some region }).modifyRegion region change).transition? other =
      (machine.modifyTransition transition fun entry =>
        { entry with container := some region }).transition? other := fun _ => rfl
  rw [same, transition?_modifyTransition]
  by_cases here : transition = other
  · rw [if_pos here, if_pos here.symm]
  · rw [if_neg here, if_neg fun equal => here equal.symm]

theorem region?_registering (other : RegionId) :
    (machine.registering region transition name).region? other =
      if other = region then (machine.region? other).map fun entry =>
        { entry with
          transitions := entry.transitions ++ [transition]
          transitionIndex := Dictionary.insert entry.transitionIndex name transition }
      else machine.region? other := by
  rw [registering, region?_modifyRegion]
  by_cases here : region = other
  · rw [if_pos here, if_pos here.symm]
    rfl
  · rw [if_neg here, if_neg fun equal => here equal.symm]
    rfl

private theorem readRegion_registering {Reading : Type} (read : Region → Reading)
    (blind : ∀ members transitions index,
      read { members with transitions := transitions, transitionIndex := index } = read members)
    (other : RegionId) :
    ((machine.registering region transition name).region? other).map read =
      (machine.region? other).map read := by
  rw [region?_registering]
  split
  · cases machine.region? other with
    | none => rfl
    | some members => exact congrArg some (blind members _ _)
  · rfl

theorem Wired.registering {found : Transition} (wired : machine.Wired)
    (present : machine.transition? transition = some found) (free : found.container = none) :
    (machine.registering region transition name).Wired := by
  set after := machine.registering region transition name
  have owners (other : RegionId) : after.ownerOf? other = machine.ownerOf? other :=
    readRegion_registering Region.owner (fun _ _ _ => rfl) other
  have members (other : RegionId) : after.statesOf other = machine.statesOf other :=
    congrArg (Option.getD · []) (readRegion_registering Region.states (fun _ _ _ => rfl) other)
  refine
    { rootKind := wired.rootKind, rootOnly := wired.rootOnly, rootFree := wired.rootFree
      listed := ?_, listedOnce := ?_, owned := ?_, ownedOnce := wired.ownedOnce
      leveled := wired.leveled_of_same (fun _ => rfl) (parentOf?_congr (fun _ => rfl) owners)
      owners := wired.owners, indexed := ?_, registered := ?_, decided := wired.decided }
  · intro state other
    rw [members]
    exact wired.listed state other
  · intro other
    rw [members]
    exact wired.listedOnce other
  · intro other state
    rw [owners]
    exact wired.owned other state
  · intro other current key state stored
    have same := @readRegion_registering machine region transition name _
      (fun entry => (entry.stateIndex, entry.states)) (fun _ _ _ => rfl) other
    rw [show (machine.registering region transition name).region? other = some current from
      stored] at same
    obtain ⟨current', stored', equal⟩ := Option.map_eq_some_iff.mp same.symm
    obtain ⟨sameIndex, sameStates⟩ := Prod.mk.inj equal
    rw [← sameIndex, ← sameStates]
    exact wired.indexed other current' key state stored'
  · intro other listed isListed
    have known : listed ∈ machine.transitionsOf other ∨
        (other = region ∧ listed = transition) := by
      unfold transitionsOf at isListed ⊢
      rw [region?_registering] at isListed
      split at isListed
      · rename_i here
        cases stored : machine.region? other with
        | none => simp [stored] at isListed
        | some entry =>
            rw [stored] at isListed
            rcases List.mem_append.mp isListed with earlier | last
            · exact Or.inl earlier
            · exact Or.inr ⟨here, List.mem_singleton.mp last⟩
      · exact Or.inl isListed
    rw [transition?_registering]
    rcases known with earlier | ⟨here, last⟩
    · obtain ⟨entry, stored, contained⟩ := wired.registered other listed earlier
      have different : listed ≠ transition := by
        rintro rfl
        rw [present] at stored
        obtain rfl := Option.some.inj stored
        rw [free] at contained
        cases contained
      rw [if_neg different]
      exact ⟨entry, stored, contained⟩
    · rw [if_pos last, last, present, here]
      exact ⟨_, rfl, rfl⟩

theorem Marked.registering (marked : machine.Marked) :
    (machine.registering region transition name).Marked :=
  marked.of_same (readRegion_registering Region.markers fun _ _ _ => rfl)
    (fun _ _ _ _ => Iff.rfl) marked.contained

theorem Grown.registering {found : Transition} {members : Region}
    (stored : machine.region? region = some members)
    (present : machine.transition? transition = some found) (free : found.container = none) :
    Grown machine (machine.registering region transition name) := by
  refine
    { Grown.refl machine with
      regions := ?_, newRegions := ?_, transitions := ?_, registrations := ?_ }
  · intro other members stored
    rw [region?_registering, stored]
    split
    · exact ⟨_, rfl, rfl, fun _ marked => marked, fun _ listed => List.mem_append_left _ listed⟩
    · exact ⟨members, rfl, Region.Grown.refl members⟩
  · intro other members absent stored
    rw [region?_registering, absent] at stored
    split at stored <;> cases stored
  · intro other entry stored
    rw [transition?_registering, stored]
    split
    · rename_i here
      rw [here, present] at stored
      obtain rfl := Option.some.inj stored
      refine ⟨_, rfl, rfl, ?_⟩
      intro registered
      rw [free] at registered
      cases registered
    · exact ⟨entry, rfl, Transition.Grown.refl entry⟩
  · intro other entry container isEntry registered
    rw [transition?_registering] at isEntry
    split at isEntry
    · rename_i here
      right
      rw [here, present] at isEntry
      obtain rfl := Option.some.inj isEntry
      obtain rfl := Option.some.inj registered
      rw [here, transitionsOf, region?_registering, if_pos rfl, stored]
      exact List.mem_append_right _ (List.mem_singleton_self transition)
    · exact Or.inl isEntry

end Registering

/-! ### One more region -/

def nextRegion (machine : Machine) : RegionId := ⟨machine.regions.size⟩

/-- The state owns one more region, which has no members yet. -/
def withRegion (machine : Machine) (owner : StateId) (members : Region) : Machine :=
  { machine with regions := machine.regions.push members }.modifyState owner fun node =>
    { node with regions := node.regions ++ [machine.nextRegion] }

section WithRegion

variable {machine : Machine} {owner : StateId} {members : Region}

private theorem region?_withRegion (other : RegionId) :
    (machine.withRegion owner members).region? other =
      if other = machine.nextRegion then some members else machine.region? other := by
  cases other
  simp only [withRegion, region?, modifyState, nextRegion, Array.getElem?_push,
    RegionId.mk.injEq]

private theorem region?_nextRegion (machine : Machine) :
    machine.region? machine.nextRegion = none :=
  Array.getElem?_eq_none (Nat.le_refl _)

private theorem state?_withRegion (other : StateId) :
    (machine.withRegion owner members).state? other =
      if other = owner then (machine.state? other).map fun node =>
        { node with regions := node.regions ++ [machine.nextRegion] }
      else machine.state? other := by
  rw [withRegion, state?_modifyState]
  by_cases here : owner = other
  · rw [if_pos here, if_pos here.symm]
    rfl
  · rw [if_neg here, if_neg fun equal => here equal.symm]
    rfl

private theorem readState_withRegion {Reading : Type} (read : StateNode → Reading)
    (blind : ∀ node regions, read { node with regions := regions } = read node)
    (other : StateId) :
    ((machine.withRegion owner members).state? other).map read =
      (machine.state? other).map read := by
  rw [state?_withRegion]
  split
  · cases machine.state? other with
    | none => rfl
    | some node => exact congrArg some (blind node _)
  · rfl

private theorem containerOf?_withRegion (other : StateId) :
    (machine.withRegion owner members).containerOf? other = machine.containerOf? other := by
  unfold containerOf?
  rw [state?_withRegion]
  split
  · cases machine.state? other <;> rfl
  · rfl

private theorem kindOf?_withRegion (other : StateId) :
    (machine.withRegion owner members).kindOf? other = machine.kindOf? other :=
  readState_withRegion StateNode.kind (fun _ _ => rfl) other

private theorem stateName_withRegion (other : StateId) :
    (machine.withRegion owner members).stateName other = machine.stateName other :=
  congrArg (Option.getD · "") (readState_withRegion StateNode.name (fun _ _ => rfl) other)

private theorem statesOf_withRegion (noStates : members.states = []) (region : RegionId) :
    (machine.withRegion owner members).statesOf region = machine.statesOf region := by
  unfold statesOf
  rw [region?_withRegion]
  split
  · rename_i here
    rw [here, region?_nextRegion]
    exact noStates
  · rfl

private theorem regionsOf_withRegion (present : (machine.state? owner).isSome) (state : StateId) :
    (machine.withRegion owner members).regionsOf state =
      if state = owner then machine.regionsOf state ++ [machine.nextRegion]
      else machine.regionsOf state := by
  unfold regionsOf
  rw [state?_withRegion]
  split
  · rename_i here
    obtain ⟨node, found⟩ := Option.isSome_iff_exists.mp present
    rw [here, found]
    rfl
  · rfl

private theorem ownerOf?_withRegion (owned : members.owner = owner) (region : RegionId) :
    (machine.withRegion owner members).ownerOf? region =
      if region = machine.nextRegion then some owner else machine.ownerOf? region := by
  unfold ownerOf?
  rw [region?_withRegion]
  split
  · rw [Option.map_some, owned]
  · rfl

private theorem Wired.ne_nextRegion (wired : machine.Wired) {state : StateId} {region : RegionId}
    (contained : machine.containerOf? state = some region) : region ≠ machine.nextRegion := by
  rintro rfl
  obtain ⟨above, owned⟩ := wired.exists_owner contained
  rw [ownerOf?, region?_nextRegion] at owned
  cases owned

private theorem Wired.nextRegion_free (wired : machine.Wired) (state : StateId) :
    machine.nextRegion ∉ machine.regionsOf state := by
  rw [← wired.owned, ownerOf?, region?_nextRegion]
  simp

private theorem Wired.parentOf?_withRegion (wired : machine.Wired) (owned : members.owner = owner)
    (state : StateId) :
    (machine.withRegion owner members).parentOf? state = machine.parentOf? state := by
  rw [parentOf?_eq, parentOf?_eq, containerOf?_withRegion]
  cases contained : machine.containerOf? state with
  | none => rfl
  | some region =>
      rw [Option.bind_some, Option.bind_some, ownerOf?_withRegion owned,
        if_neg (wired.ne_nextRegion contained)]

private theorem Wired.withRegion (wired : machine.Wired)
    (mayOwn : machine.kindOf? owner = some .normal ∨ machine.kindOf? owner = some .root)
    (owned : members.owner = owner) (noStates : members.states = [])
    (noIndex : members.stateIndex = []) (noTransitions : members.transitions = []) :
    (machine.withRegion owner members).Wired := by
  set after := machine.withRegion owner members
  have present : (machine.state? owner).isSome := by
    rcases mayOwn with kind | kind <;>
    · obtain ⟨node, found, _⟩ := kindOf?_eq_some.mp kind
      rw [found]
      rfl
  have states : ∀ region, after.statesOf region = machine.statesOf region :=
    statesOf_withRegion noStates
  have regions : ∀ state, after.regionsOf state = _ := regionsOf_withRegion present
  have levels (state : StateId) : after.level state = machine.level state :=
    congrArg (Option.getD · 0) (readState_withRegion StateNode.level (fun _ _ => rfl) state)
  refine
    { rootKind := ?_, rootOnly := ?_, rootFree := ?_, listed := ?_, listedOnce := ?_
      owned := ?_, ownedOnce := ?_
      leveled := wired.leveled_of_same levels (wired.parentOf?_withRegion owned)
      owners := ?_, indexed := ?_, registered := ?_, decided := ?_ }
  · rw [kindOf?_withRegion]
    exact wired.rootKind
  · intro state
    rw [kindOf?_withRegion]
    exact wired.rootOnly state
  · rw [containerOf?_withRegion]
    exact wired.rootFree
  · intro state region
    rw [containerOf?_withRegion, states]
    exact wired.listed state region
  · intro region
    rw [states]
    exact wired.listedOnce region
  · intro region state
    rw [ownerOf?_withRegion owned, regions]
    by_cases here : region = machine.nextRegion
    · subst here
      rw [if_pos rfl]
      by_cases same : state = owner
      · simp [same]
      · simp [Ne.symm same, same, wired.nextRegion_free state]
    · rw [if_neg here, wired.owned]
      split
      · simp [here]
      · exact Iff.rfl
  · intro state
    rw [regions]
    split
    · rw [List.nodup_append]
      refine ⟨wired.ownedOnce state, by simp, ?_⟩
      intro region known other single
      rw [List.mem_singleton.mp single]
      rintro rfl
      exact wired.nextRegion_free state known
    · exact wired.ownedOnce state
  · intro state owning
    rw [kindOf?_withRegion]
    rw [regions] at owning
    split at owning
    · rename_i here
      rw [here]
      exact mayOwn
    · exact wired.owners state owning
  · intro region current name state stored
    rw [stateName_withRegion]
    rw [region?_withRegion] at stored
    split at stored
    · obtain rfl := Option.some.inj stored
      rw [noIndex, noStates]
      simp
    · exact wired.indexed region current name state stored
  · intro region transition listed
    unfold transitionsOf at listed
    rw [region?_withRegion] at listed
    split at listed
    · rw [Option.map_some, Option.getD_some, noTransitions] at listed
      cases listed
    · exact wired.registered region transition listed
  · intro state node found choice
    have same := @readState_withRegion machine owner members _
      (fun node => (node.kind, node.decision)) (fun _ _ => rfl) state
    rw [show (machine.withRegion owner members).state? state = some node from found] at same
    obtain ⟨node', found', equal⟩ := Option.map_eq_some_iff.mp same.symm
    obtain ⟨sameKind, sameDecision⟩ := Prod.mk.inj equal
    rw [← sameDecision]
    exact wired.decided state node' found' (by rw [sameKind]; exact choice)

private theorem Grown.withRegion (inactive : members.status = .inactive)
    (forgotten : members.lastActive = none) :
    Grown machine (machine.withRegion owner members) := by
  have absent := region?_nextRegion machine
  refine
    { Grown.refl machine with
      states := ?_, newStates := ?_, regions := ?_, newRegions := ?_
      registrations := fun _ _ _ present _ => Or.inl present }
  · intro state node found
    rw [state?_withRegion, found]
    split
    · exact ⟨_, rfl, rfl, Or.inl rfl, fun _ contained => contained,
        fun _ known => List.mem_append_left _ known⟩
    · exact ⟨node, rfl, StateNode.Grown.refl node⟩
  · intro state node missing found
    rw [state?_withRegion, missing] at found
    split at found <;> cases found
  · intro region current stored
    have different : region ≠ machine.nextRegion := by
      rintro rfl
      rw [absent] at stored
      cases stored
    rw [region?_withRegion, if_neg different]
    exact ⟨current, stored, Region.Grown.refl current⟩
  · intro region current missing stored
    rw [region?_withRegion] at stored
    split at stored
    · obtain rfl := Option.some.inj stored
      exact ⟨inactive, forgotten⟩
    · rw [missing] at stored
      cases stored

end WithRegion

/-! ### A region with its markers -/

private theorem Wired.below_bare {machine : Machine} (wired : machine.Wired) {top state : StateId}
    (bare : machine.regionsOf top = []) (below : machine.Below top state) : state = top := by
  rcases below with same | ⟨region, owned, _⟩
  · exact same
  · have listed := (wired.owned region top).mp owned
    rw [bare] at listed
    cases listed

theorem Wired.bare_of_kind {machine : Machine} (wired : machine.Wired) {state : StateId}
    {kind : StateKind} (isKind : machine.kindOf? state = some kind)
    (pseudo : kind.mayOwnRegions = false) : machine.regionsOf state = [] := by
  by_contra owns
  rcases wired.owners state owns with normal | isRoot
  · rw [isKind] at normal
    rw [Option.some.inj normal] at pseudo
    cases pseudo
  · rw [isKind] at isRoot
    rw [Option.some.inj isRoot] at pseudo
    cases pseudo

theorem Wired.attach_bare {machine : Machine} (wired : machine.Wired) {region : RegionId}
    {state : StateId} {members : Region} (found : machine.region? region = some members)
    (present : (machine.state? state).isSome) (detached : machine.containerOf? state = none)
    (bare : machine.regionsOf state = []) (notRoot : state ≠ root)
    (notOwner : members.owner ≠ state)
    (fresh : Dictionary.find? members.stateIndex (machine.stateName state) = none) :
    (machine.attach region state).Wired ∧
      Placed region state machine (machine.attach region state) := by
  have placed := placed_attach wired (ownerOf?_eq_some.mpr ⟨members, found, rfl⟩) present detached
    fun below => notOwner (wired.below_bare bare below)
  exact ⟨wired.of_placed placed found detached notRoot fresh, placed⟩

/-- Two states without regions, with new and different names, may be placed one after the other in
a region that has no members yet. -/
private theorem Wired.attach_pair {machine : Machine} (wired : machine.Wired) {region : RegionId}
    {members : Region} {one other : StateId} (found : machine.region? region = some members)
    (noIndex : members.stateIndex = []) (different : one ≠ other)
    (present : (machine.state? one).isSome ∧ (machine.state? other).isSome)
    (detached : machine.containerOf? one = none ∧ machine.containerOf? other = none)
    (bare : machine.regionsOf one = [] ∧ machine.regionsOf other = [])
    (notRoot : one ≠ root ∧ other ≠ root) (notOwner : members.owner ≠ one ∧ members.owner ≠ other)
    (names : machine.stateName one ≠ machine.stateName other) :
    ((machine.attach region one).attach region other).Wired ∧
      Placed region one machine (machine.attach region one) ∧
      Placed region other (machine.attach region one)
        ((machine.attach region one).attach region other) := by
  obtain ⟨middleWired, first⟩ := wired.attach_bare found present.1 detached.1 bare.1 notRoot.1
    notOwner.1 (by rw [noIndex]; rfl)
  have foundMiddle : (machine.attach region one).region? region =
      some (members.listing (machine.stateName one) one) := by
    rw [first.regions, if_pos rfl, found]
    rfl
  have presentMiddle : ((machine.attach region one).state? other).isSome := by
    have equal := congrArg Option.isSome (first.nodes other)
    simpa using equal.trans (by simpa using present.2)
  have detachedMiddle : (machine.attach region one).containerOf? other = none := by
    rw [first.containers, if_neg different.symm]
    exact detached.2
  have freshMiddle : Dictionary.find? (members.listing (machine.stateName one) one).stateIndex
      ((machine.attach region one).stateName other) = none := by
    rw [first.stateName]
    simp only [Region.listing, noIndex, Dictionary.insert, Dictionary.find?, if_neg names]
  obtain ⟨lastWired, second⟩ := middleWired.attach_bare foundMiddle presentMiddle detachedMiddle
    (by rw [first.regionsOf]; exact bare.2) notRoot.2 notOwner.2 freshMiddle
  exact ⟨lastWired, first, second⟩

/-- The machine with two more states outside all regions, and their handles. -/
private structure Paired (machine : Machine) (one other : StateNode) (first second : StateId)
    (after : Machine) : Prop where
  wired : after.Wired
  grown : Grown machine after
  different : first ≠ second
  absent : machine.state? first = none ∧ machine.state? second = none
  states : ∀ state, after.state? state =
    if state = first then some one
    else if state = second then some other else machine.state? state
  regions : after.regions = machine.regions

private theorem Paired.kindOf? {machine after : Machine} {one other : StateNode}
    {first second : StateId} (paired : Paired machine one other first second after)
    (state : StateId) : after.kindOf? state =
      if state = first then some one.kind
      else if state = second then some other.kind else machine.kindOf? state := by
  unfold Machine.kindOf?
  rw [paired.states]
  split
  · rfl
  · split <;> rfl

private theorem Paired.containerOf? {machine after : Machine} {initialName finalName : String}
    {first second : StateId} (paired : Paired machine (.bare initialName .initial)
      (.bare finalName .final) first second after) (state : StateId) :
    after.containerOf? state = machine.containerOf? state := by
  unfold Machine.containerOf?
  rw [paired.states]
  split
  · rename_i here
    rw [here, paired.absent.1]
    rfl
  · split
    · rename_i here
      rw [here, paired.absent.2]
      rfl
    · rfl

private theorem paired_pushState {machine : Machine} (wired : machine.Wired)
    (initialName finalName : String) :
    Paired machine (.bare initialName .initial) (.bare finalName .final)
      (machine.pushState (.bare initialName .initial)).1
      ((machine.pushState (.bare initialName .initial)).2.pushState (.bare finalName .final)).1
      ((machine.pushState (.bare initialName .initial)).2.pushState
        (.bare finalName .final)).2 := by
  set middle := (machine.pushState (.bare initialName .initial)).2 with middleIs
  set first := (machine.pushState (.bare initialName .initial)).1 with firstIs
  set second := (middle.pushState (.bare finalName .final)).1 with secondIs
  have firstAbsent : machine.state? first = none := state?_next machine _
  have lookUp (state : StateId) : middle.state? state =
      if state = first then some (.bare initialName .initial) else machine.state? state :=
    state?_pushState machine _ state
  have secondAbsent : middle.state? second = none := state?_next middle _
  have different : first ≠ second := by
    intro same
    rw [← same, lookUp, if_pos rfl] at secondAbsent
    cases secondAbsent
  have middleWired : middle.Wired := wired.pushState rfl rfl rfl (by simp [StateNode.bare])
    (by simp [StateNode.bare])
  refine
    { wired := middleWired.pushState rfl rfl rfl (by simp [StateNode.bare])
        (by simp [StateNode.bare])
      grown := (Grown.pushState machine rfl rfl rfl rfl).trans
        (Grown.pushState middle rfl rfl rfl rfl)
      different := different
      absent := ⟨firstAbsent, ?_⟩
      states := fun state => ?_
      regions := rfl }
  · rw [lookUp, if_neg different.symm] at secondAbsent
    exact secondAbsent
  · rw [state?_pushState, lookUp]
    by_cases here : state = second
    · rw [if_pos here, if_neg fun equal => different (equal.symm.trans here), if_pos here]
    · rw [if_neg here, if_neg here]

structure Extended (machine : Machine) (owner : StateId) (region : RegionId) (after : Machine) :
    Prop where
  wired : after.Wired
  grown : Grown machine after
  added : ∃ initial final members, after.region? region = some members ∧
    members.owner = owner ∧ members.initial = initial ∧ members.final = final ∧
    members.history = none ∧ initial ≠ final ∧
    machine.state? initial = none ∧ machine.state? final = none ∧
    (∀ state, after.containerOf? state =
      if state = initial ∨ state = final then some region else machine.containerOf? state) ∧
    (∀ state, after.kindOf? state =
      if state = initial then some .initial
      else if state = final then some .final else machine.kindOf? state)
  others : ∀ other, other ≠ region → after.region? other = machine.region? other

private theorem extended_of_paired {machine paired : Machine} (wired : machine.Wired)
    {owner initial final : StateId} {members : Region} {initialName finalName : String}
    (mayOwn : machine.kindOf? owner = some .normal ∨ machine.kindOf? owner = some .root)
    (pair : Paired machine (.bare initialName .initial) (.bare finalName .final) initial final
      paired)
    (owned : members.owner = owner) (noStates : members.states = [])
    (noIndex : members.stateIndex = []) (noTransitions : members.transitions = [])
    (inactive : members.status = .inactive) (forgotten : members.lastActive = none)
    (initialIs : members.initial = initial) (finalIs : members.final = final)
    (noHistory : members.history = none) (names : initialName ≠ finalName) :
    Extended machine owner machine.nextRegion
      (((paired.withRegion owner members).attach machine.nextRegion initial).attach
        machine.nextRegion final) := by
  have next : paired.nextRegion = machine.nextRegion := by
    simp only [nextRegion, pair.regions]
  have notMarker {marker : StateId} (absent : machine.state? marker = none) : owner ≠ marker :=
    mayOwn.elim (ne_of_absent · absent) (ne_of_absent · absent)
  have notInitial := notMarker pair.absent.1
  have notFinal := notMarker pair.absent.2
  set spread := paired.withRegion owner members with spreadIs
  have spreadWired : spread.Wired := by
    refine pair.wired.withRegion ?_ owned noStates noIndex noTransitions
    rw [pair.kindOf?, if_neg notInitial, if_neg notFinal]
    exact mayOwn
  have spreadStored (state : StateId) (different : state ≠ owner) :
      spread.state? state = paired.state? state := by
    rw [state?_withRegion, if_neg different]
  have spreadRegion : spread.region? machine.nextRegion = some members := by
    rw [region?_withRegion, next, if_pos rfl]
  have atInitial : spread.state? initial = some (.bare initialName .initial) := by
    rw [spreadStored initial notInitial.symm, pair.states, if_pos rfl]
  have atFinal : spread.state? final = some (.bare finalName .final) := by
    rw [spreadStored final notFinal.symm, pair.states, if_neg pair.different.symm, if_pos rfl]
  have detached : spread.containerOf? initial = none ∧ spread.containerOf? final = none := by
    constructor
    · rw [containerOf?, atInitial]
      rfl
    · rw [containerOf?, atFinal]
      rfl
  obtain ⟨lastWired, first, second⟩ := spreadWired.attach_pair spreadRegion noIndex pair.different
    (by rw [atInitial, atFinal]; exact ⟨rfl, rfl⟩) detached
    (by rw [regionsOf, regionsOf, atInitial, atFinal]; exact ⟨rfl, rfl⟩)
    ⟨(ne_of_absent wired.rootKind pair.absent.1).symm,
      (ne_of_absent wired.rootKind pair.absent.2).symm⟩
    (by rw [owned]; exact ⟨notInitial, notFinal⟩)
    (by rw [stateName, stateName, atInitial, atFinal]; exact names)
  have detachedMiddle : (spread.attach machine.nextRegion initial).containerOf? final = none := by
    rw [first.containers, if_neg pair.different.symm]
    exact detached.2
  refine
    { wired := lastWired, grown := ?_,
      added := ⟨initial, final,
        (members.listing (spread.stateName initial) initial).listing
          ((spread.attach machine.nextRegion initial).stateName final) final,
        ?_, owned, initialIs, finalIs, noHistory, pair.different, pair.absent.1, pair.absent.2,
        fun state => ?_, fun state => ?_⟩,
      others := fun other different => ?_ }
  · have pushed : Grown machine spread :=
      pair.grown.trans (Grown.withRegion inactive forgotten)
    exact (pushed.trans (first.grown detached.1)).trans (second.grown detachedMiddle)
  · rw [second.regions, if_pos rfl, first.regions, if_pos rfl, spreadRegion]
    rfl
  · rw [second.containers, first.containers, containerOf?_withRegion, pair.containerOf?]
    by_cases isFinal : state = final
    · simp [isFinal]
    · simp [isFinal]
  · rw [second.kindOf?, first.kindOf?, kindOf?_withRegion]
    exact pair.kindOf? state
  · rw [second.regions, if_neg different, first.regions, if_neg different, region?_withRegion,
      next, if_neg different]
    unfold region?
    rw [pair.regions]

private theorem markerNames_differ (name : String) :
    name ++ "-initial-pseudo" ≠ name ++ "-final" := by
  intro equal
  have lists := congrArg String.toList equal
  simp only [String.toList_append, List.append_cancel_left_eq] at lists
  exact absurd lists (by decide)

/-- The region as it is stored before its markers are listed in it. -/
private def unlisted (name : String) (owner initial final : StateId) : Region :=
  { name
    owner
    status := .inactive
    states := []
    stateIndex := []
    transitions := []
    transitionIndex := []
    initial
    final
    history := none
    lastActive := none }

/-- The machine with the markers of a new region stored, and their handles. -/
private def withMarkers (machine : Machine) (name : String) : StateId × StateId × Machine :=
  let one := machine.pushState (.bare (name ++ "-initial-pseudo") .initial)
  let two := one.2.pushState (.bare (name ++ "-final") .final)
  (one.1, two.1, two.2)

private theorem pushRegion_eq (machine : Machine) (owner : StateId) :
    machine.pushRegion owner =
      let name :=
        machine.stateName owner ++ "-region-" ++ toString (machine.regionsOf owner).length
      let marked := machine.withMarkers name
      (machine.nextRegion,
        ((marked.2.2.withRegion owner (unlisted name owner marked.1 marked.2.1)).attach
          machine.nextRegion marked.1).attach machine.nextRegion marked.2.1) := rfl

theorem extended_pushRegion {machine : Machine} (wired : machine.Wired) {owner : StateId}
    (mayOwn : machine.kindOf? owner = some .normal ∨ machine.kindOf? owner = some .root) :
    Extended machine owner machine.nextRegion (machine.pushRegion owner).2 := by
  rw [pushRegion_eq]
  generalize
    machine.stateName owner ++ "-region-" ++ toString (machine.regionsOf owner).length = name
  have pair : Paired machine (.bare (name ++ "-initial-pseudo") .initial)
      (.bare (name ++ "-final") .final) (machine.withMarkers name).1
      (machine.withMarkers name).2.1 (machine.withMarkers name).2.2 :=
    paired_pushState wired _ _
  dsimp only
  generalize machine.withMarkers name = marked at pair ⊢
  obtain ⟨initial, final, paired⟩ := marked
  dsimp only at pair ⊢
  exact extended_of_paired wired mayOwn pair rfl rfl rfl rfl rfl rfl rfl rfl rfl
    (markerNames_differ name)

private theorem marks_pair {machine : Machine} {region : RegionId} {members : Region}
    (noHistory : members.history = none)
    (listed : ∀ state, machine.containerOf? state = some region ↔
      state = members.initial ∨ state = members.final)
    (isInitial : machine.kindOf? members.initial = some .initial)
    (isFinal : machine.kindOf? members.final = some .final) : machine.Marks region members where
  initial := by
    intro state
    rw [listed]
    constructor
    · rintro ⟨rfl | rfl, kind⟩
      · rfl
      · rw [isFinal] at kind
        cases kind
    · rintro rfl
      exact ⟨Or.inl rfl, isInitial⟩
  final := by
    intro state
    rw [listed]
    constructor
    · rintro ⟨rfl | rfl, kind⟩
      · rw [isInitial] at kind
        cases kind
      · rfl
    · rintro rfl
      exact ⟨Or.inr rfl, isFinal⟩
  history := by
    intro state
    rw [listed, noHistory]
    constructor
    · rintro ⟨rfl | rfl, depth, kind⟩
      · rw [isInitial] at kind
        cases kind
      · rw [isFinal] at kind
        cases kind
    · intro impossible
      cases impossible

private theorem Formed.of_extended {machine after : Machine} {owner : StateId}
    (formed : machine.Formed)
    (extended : Extended machine owner machine.nextRegion after) : after.Formed := by
  obtain ⟨initial, final, members, found, _, rfl, rfl, noHistory, different,
    initialAbsent, finalAbsent, containers, kinds⟩ := extended.added
  have listed (state : StateId) : after.containerOf? state = some machine.nextRegion ↔
      state = members.initial ∨ state = members.final := by
    rw [containers]
    constructor
    · intro contained
      by_contra notMarker
      rw [if_neg notMarker] at contained
      exact formed.ne_nextRegion contained rfl
    · intro marker
      rw [if_pos marker]
  -- A member of an old region is an old state, placed and of a kind as before.
  have oldMember {state : StateId} {region : RegionId} (kind : StateKind)
      (old : region ≠ machine.nextRegion) :
      after.containerOf? state = some region ∧ after.kindOf? state = some kind ↔
        machine.containerOf? state = some region ∧ machine.kindOf? state = some kind := by
    rw [containers, kinds]
    have absent (missing : machine.state? state = none) :
        machine.containerOf? state ≠ some region := by
      rw [containerOf?, missing]
      simp
    by_cases isInitial : state = members.initial
    · subst isInitial
      simp [Ne.symm old, absent initialAbsent]
    · by_cases isFinal : state = members.final
      · subst isFinal
        simp [Ne.symm old, absent finalAbsent]
      · simp [isInitial, isFinal]
  refine
    { toWired := extended.wired
      toMarked := .of_marks (fun region current stored => ?_) fun state free => ?_ }
  · by_cases new : region = machine.nextRegion
    · subst new
      rw [found] at stored
      obtain rfl := Option.some.inj stored
      refine marks_pair noHistory listed ?_ ?_
      · rw [kinds, if_pos rfl]
      · rw [kinds, if_neg different.symm, if_pos rfl]
    · rw [extended.others region new] at stored
      exact (formed.marks stored).congr rfl fun state kind _ => oldMember kind new
  · unfold Unmarked
    rw [containers] at free
    split at free
    · cases free
    · rename_i notMarker
      obtain ⟨notInitial, notFinal⟩ := not_or.mp notMarker
      rw [kinds, if_neg notInitial, if_neg notFinal]
      exact formed.contained state free

theorem Formed.pushRegion {machine : Machine} (formed : machine.Formed) {owner : StateId}
    (mayOwn : machine.kindOf? owner = some .normal ∨ machine.kindOf? owner = some .root) :
    (machine.pushRegion owner).2.Formed ∧ Grown machine (machine.pushRegion owner).2 := by
  have extended := extended_pushRegion formed.toWired mayOwn
  exact ⟨formed.of_extended extended, extended.grown⟩

/-! ### Placing states that are not markers -/

theorem Marked.of_placed {before after : Machine} {region : RegionId} {state : StateId}
    (marked : before.Marked) (placed : Placed region state before after)
    (unmarked : before.Unmarked state) : after.Marked := by
  refine marked.of_same (placed.readRegion Region.markers fun _ _ => rfl)
    (fun nested other kind isMarker => ?_) fun other free => ?_
  · rw [placed.containers, placed.kindOf?]
    by_cases here : other = state
    · subst here
      have notKind := unmarked.ne isMarker
      exact ⟨fun both => absurd both.2 notKind, fun both => absurd both.2 notKind⟩
    · rw [if_neg here]
  · rw [placed.containers] at free
    split at free
    · cases free
    · unfold Unmarked
      rw [placed.kindOf?]
      exact marked.contained other free

theorem Marked.pushState {machine : Machine} (marked : machine.Marked)
    {node : StateNode} (detached : node.container = none) (notInitial : node.kind ≠ .initial)
    (notFinal : node.kind ≠ .final) (notHistory : ∀ depth, node.kind ≠ .history depth) :
    (machine.pushState node).2.Marked := by
  refine marked.of_same (fun _ => rfl) (fun region state kind _ => ?_) fun state free => ?_
  · rw [containerOf?_pushState detached]
    refine and_congr_right fun contained => ?_
    have different : state ≠ (machine.pushState node).1 := by
      rintro rfl
      rw [containerOf?_next] at contained
      cases contained
    rw [kindOf?_pushState, if_neg different]
  · rw [containerOf?_pushState detached] at free
    unfold Unmarked
    rw [kindOf?_pushState]
    split
    · exact ⟨fun equal => notInitial (Option.some.inj equal),
        fun equal => notFinal (Option.some.inj equal),
        fun depth equal => notHistory depth (Option.some.inj equal)⟩
    · exact marked.contained state free

end Chart.Machine
