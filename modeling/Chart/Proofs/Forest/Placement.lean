import Chart.Proofs.Forest.Levels

set_option autoImplicit false

/-!
Placing a state in a region. The addition writes down the container of the state, lists the state
in the region and levels everything at the state anew; nothing else changes. It keeps the forest
wired when the state stood outside all regions, does not stand around the region, and brings a
name that is new in the region.
-/

namespace Chart

def StateNode.unplaced (node : StateNode) : StateNode := { node with level := 0, container := none }

def Region.listing (members : Region) (name : String) (state : StateId) : Region :=
  { members with
    states := members.states ++ [state]
    stateIndex := Dictionary.insert members.stateIndex name state }

namespace Machine

structure Placed (region : RegionId) (state : StateId) (before after : Machine) : Prop where
  nodes : ∀ other,
    (after.state? other).map StateNode.unplaced = (before.state? other).map StateNode.unplaced
  containers : ∀ other,
    after.containerOf? other = if other = state then some region else before.containerOf? other
  regions : ∀ other, after.region? other =
    if other = region then
      (before.region? other).map fun members => members.listing (before.stateName state) state
    else before.region? other
  stateCount : after.states.size = before.states.size
  nesting : after.nestingBound = before.nestingBound
  rest : after = { before with states := after.states, regions := after.regions }
  leveled : ∀ other, after.level other = after.levelFromParent other

/-! ### The machine in which a state is listed but not yet leveled -/

section Listed

private def listedIn (machine : Machine) (region : RegionId) (state : StateId) : Machine :=
  (machine.modifyRegion region fun members =>
    members.listing (machine.stateName state) state).modifyState state fun node =>
      { node with container := some region }

private theorem attach_eq (machine : Machine) (region : RegionId) (state : StateId) :
    machine.attach region state =
      assignLevels (machine.nestingBound + 1) state (machine.listedIn region state) := by
  have bound : (machine.listedIn region state).nestingBound = machine.nestingBound := by
    simp [listedIn, nestingBound, modifyState, modifyRegion]
  unfold attach
  rw [← bound]
  rfl

variable {machine : Machine} {region : RegionId} {state : StateId}

private theorem region?_listedIn (other : RegionId) :
    (machine.listedIn region state).region? other =
      if other = region then
        (machine.region? other).map fun members =>
          members.listing (machine.stateName state) state
      else machine.region? other := by
  rw [listedIn, region?_modifyState, region?_modifyRegion]
  by_cases same : region = other
  · rw [if_pos same, if_pos same.symm]
  · rw [if_neg same, if_neg fun equal => same equal.symm]

private theorem state?_listedIn (other : StateId) :
    (machine.listedIn region state).state? other =
      if other = state then
        (machine.state? other).map fun node => { node with container := some region }
      else machine.state? other := by
  rw [listedIn, state?_modifyState, state?_modifyRegion]
  by_cases same : state = other
  · rw [if_pos same, if_pos same.symm]
  · rw [if_neg same, if_neg fun equal => same equal.symm]

private theorem containerOf?_listedIn (present : (machine.state? state).isSome)
    (other : StateId) :
    (machine.listedIn region state).containerOf? other =
      if other = state then some region else machine.containerOf? other := by
  unfold containerOf?
  rw [state?_listedIn]
  by_cases same : other = state
  · subst same
    obtain ⟨node, found⟩ := Option.isSome_iff_exists.mp present
    simp [found]
  · rw [if_neg same, if_neg same]

private theorem ownerOf?_listedIn (other : RegionId) :
    (machine.listedIn region state).ownerOf? other = machine.ownerOf? other := by
  unfold ownerOf?
  rw [region?_listedIn]
  by_cases same : other = region
  · rw [if_pos same, Option.map_map]
    rfl
  · rw [if_neg same]

private theorem parentOf?_listedIn_of_ne (present : (machine.state? state).isSome)
    {other : StateId} (different : other ≠ state) :
    (machine.listedIn region state).parentOf? other = machine.parentOf? other := by
  rw [parentOf?_eq, parentOf?_eq, containerOf?_listedIn present, if_neg different]
  exact congrArg (Option.bind _) (funext ownerOf?_listedIn)

private theorem regionsOf_listedIn (other : StateId) :
    (machine.listedIn region state).regionsOf other = machine.regionsOf other := by
  unfold regionsOf
  rw [state?_listedIn]
  by_cases same : other = state
  · rw [if_pos same, Option.map_map]
    rfl
  · rw [if_neg same]

private theorem statesOf_listedIn (present : (machine.region? region).isSome)
    (other : RegionId) :
    (machine.listedIn region state).statesOf other =
      if other = region then machine.statesOf other ++ [state] else machine.statesOf other := by
  unfold statesOf
  rw [region?_listedIn]
  by_cases same : other = region
  · subst same
    obtain ⟨members, found⟩ := Option.isSome_iff_exists.mp present
    simp [found, Region.listing]
  · rw [if_neg same, if_neg same]

private theorem below_listedIn (present : (machine.state? state).isSome)
    (detached : machine.containerOf? state = none) {other : StateId} :
    (machine.listedIn region state).Below state other ↔ machine.Below state other := by
  have step {member parent : StateId} (different : member ≠ state) :
      (machine.listedIn region state).parentOf? member = some parent ↔
        machine.parentOf? member = some parent := by
    rw [parentOf?_listedIn_of_ne present different]
  constructor
  · rintro (same | ⟨nested, owned, inside⟩)
    · exact Or.inl same
    · rw [ownerOf?_listedIn] at owned
      induction inside with
      | @member member contained =>
          by_cases same : member = state
          · exact Or.inl same
          · rw [containerOf?_listedIn present, if_neg same] at contained
            exact Or.inr ⟨nested, owned, .member contained⟩
      | @deeper member owner middle contained owned' _ ih =>
          by_cases same : member = state
          · exact Or.inl same
          · have parent := (step same).mp (parentOf?_eq_some.mpr ⟨middle, contained, owned'⟩)
            exact below_iff_parent.mpr (Or.inr ⟨owner, parent, ih⟩)
  · rintro (same | ⟨nested, owned, inside⟩)
    · exact Or.inl same
    · have contains {member : StateId} {container : RegionId}
          (contained : machine.containerOf? member = some container) :
          (machine.listedIn region state).containerOf? member = some container := by
        have different : member ≠ state := by
          rintro rfl
          rw [detached] at contained
          cases contained
        rw [containerOf?_listedIn present, if_neg different]
        exact contained
      refine Or.inr ⟨nested, by rw [ownerOf?_listedIn]; exact owned, ?_⟩
      induction inside with
      | member contained => exact .member (contains contained)
      | deeper contained owned' _ ih =>
          exact .deeper (contains contained) (by rw [ownerOf?_listedIn]; exact owned') ih

private theorem listing_iff (wired : machine.Wired) (detached : machine.containerOf? state = none)
    (other : StateId) (nested : RegionId) :
    (if other = state then some region else machine.containerOf? other) = some nested ↔
      other ∈ if nested = region then machine.statesOf nested ++ [state]
        else machine.statesOf nested := by
  by_cases same : other = state
  · subst same
    rw [if_pos rfl]
    by_cases here : nested = region
    · simp [here]
    · rw [if_neg here, ← wired.listed, detached]
      simp [Ne.symm here]
  · rw [if_neg same]
    by_cases here : nested = region
    · simp [here, wired.listed, same]
    · rw [if_neg here]
      exact wired.listed other nested

private theorem level_listedIn (other : StateId) :
    (machine.listedIn region state).level other = machine.level other := by
  unfold level
  rw [state?_listedIn]
  split
  · rw [Option.map_map]
    rfl
  · rfl

theorem region?_attach (other : RegionId) :
    (machine.attach region state).region? other =
      if other = region then
        (machine.region? other).map fun members =>
          members.listing (machine.stateName state) state
      else machine.region? other := by
  rw [attach_eq, assignLevels_eq]
  exact region?_listedIn other

theorem state?_attach_of_bare (bare : machine.regionsOf state = []) {other : StateId}
    (different : other ≠ state) :
    (machine.attach region state).state? other = machine.state? other := by
  set listed := machine.listedIn region state with listedIs
  have same : Releveled listed (listed.modifyState state fun node =>
      { node with level := listed.levelFromParent state }) := Releveled.modifyLevel _ _ _
  have childless : (listed.modifyState state fun node =>
      { node with level := listed.levelFromParent state }).regionsOf state = [] := by
    rw [same.regionsOf, listedIs, regionsOf_listedIn, bare]
  rw [attach_eq, ← listedIs, assignLevels, childless, List.flatMap_nil, List.foldl_nil,
    state?_modifyState, if_neg different.symm,
    listedIs, state?_listedIn, if_neg different]

end Listed

/-! ### Adding keeps the levels right -/

section Lowering

variable {machine : Machine} {region : RegionId} {state owner : StateId}

open Classical in
/-- The levels after the addition: whatever lies at the state moves below the owner. -/
private noncomputable def lowered (machine : Machine) (state owner other : StateId) : Nat :=
  if machine.Below state other then machine.level other + (machine.level owner + 1)
  else machine.level other

private theorem lowered_below {other : StateId} (below : machine.Below state other) :
    machine.lowered state owner other = machine.level other + (machine.level owner + 1) := by
  rw [lowered, if_pos below]

private theorem lowered_outside {other : StateId} (outside : ¬machine.Below state other) :
    machine.lowered state owner other = machine.level other := by
  rw [lowered, if_neg outside]

private theorem lowered_self (wired : machine.Wired)
    (detached : machine.containerOf? state = none) :
    machine.lowered state owner state = machine.level owner + 1 := by
  rw [lowered_below (Below.refl machine state), wired.level_eq_zero detached, Nat.zero_add]

private theorem ranks_listedIn (wired : machine.Wired)
    (owned : machine.ownerOf? region = some owner) (present : (machine.state? state).isSome)
    (detached : machine.containerOf? state = none) (around : ¬machine.Below state owner) :
    (machine.listedIn region state).Ranks (machine.lowered state owner) := by
  intro other
  by_cases same : other = state
  · subst same
    rw [parentOf?_eq, containerOf?_listedIn present, if_pos rfl, Option.bind_some,
      ownerOf?_listedIn, owned, lowered_self wired detached]
    simp only [lowered_outside around]
  · rw [parentOf?_listedIn_of_ne present same]
    have leveled := wired.leveled other
    unfold levelFromParent at leveled
    have below_iff : machine.Below state other ↔
        ∃ above, machine.parentOf? other = some above ∧ machine.Below state above := by
      rw [below_iff_parent]
      exact or_iff_right same
    cases parent : machine.parentOf? other with
    | none =>
        have outside : ¬machine.Below state other := by
          rw [below_iff, parent]
          simp
        rw [parent] at leveled
        simp only [lowered_outside outside, leveled]
    | some above =>
        have both : machine.Below state other ↔ machine.Below state above := by
          rw [below_iff, parent]
          simp
        rw [parent] at leveled
        by_cases below : machine.Below state above
        · simp only [lowered_below below, lowered_below (both.mpr below), leveled]
          omega
        · simp only [lowered_outside below, lowered_outside fun it => below (both.mp it), leveled]

private theorem level_of_assigned (present : (machine.state? state).isSome)
    (detached : machine.containerOf? state = none) {after : Machine}
    (assigned : Assigned (machine.lowered state owner) state (machine.listedIn region state) after)
    (other : StateId) : after.level other = machine.lowered state owner other := by
  by_cases below : (machine.listedIn region state).Below state other
  · refine assigned.assigned other below ?_
    rcases below with here | ⟨nested, _, inside⟩
    · rw [here, state?_listedIn, if_pos rfl]
      simpa using present
    · obtain ⟨container, contained, _⟩ := inside_iff.mp inside
      exact isSome_of_contained contained
  · have outside : ¬machine.Below state other := fun inside =>
      below ((below_listedIn present detached).mpr inside)
    have untouched : after.level other = (machine.listedIn region state).level other := by
      unfold level
      rw [assigned.outside other below]
    rw [untouched, level_listedIn, lowered_outside outside]

theorem placed_attach (wired : machine.Wired) (owned : machine.ownerOf? region = some owner)
    (present : (machine.state? state).isSome) (detached : machine.containerOf? state = none)
    (around : ¬machine.Below state owner) :
    Placed region state machine (machine.attach region state) := by
  have regionPresent : (machine.region? region).isSome := by
    obtain ⟨members, found, _⟩ := ownerOf?_eq_some.mp owned
    rw [found]
    rfl
  have ranks := ranks_listedIn wired owned present detached around
  set listed := machine.listedIn region state with listedIs
  have listedNow (other : StateId) (nested : RegionId) :
      listed.containerOf? other = some nested ↔ other ∈ listed.statesOf nested := by
    rw [containerOf?_listedIn present, statesOf_listedIn regionPresent]
    exact listing_iff wired detached other nested
  have ownedNow (nested : RegionId) (other : StateId) :
      listed.ownerOf? nested = some other ↔ nested ∈ listed.regionsOf other := by
    rw [ownerOf?_listedIn, regionsOf_listedIn]
    exact wired.owned nested other
  have bounded (other : StateId) (below : listed.Below state other) :
      machine.lowered state owner other <
        machine.lowered state owner state + (machine.nestingBound + 1) := by
    have bound := wired.level_le_nestingBound other
    rw [lowered_self wired detached, lowered_below ((below_listedIn present detached).mp below)]
    omega
  have topLevel : listed.levelFromParent state = machine.lowered state owner state := by
    have parentState : listed.parentOf? state = some owner := by
      rw [parentOf?_eq, containerOf?_listedIn present, if_pos rfl, Option.bind_some,
        ownerOf?_listedIn, owned]
    rw [levelFromParent, parentState, ranks.child parentState, lowered_outside around]
    simp only [listedIs, level_listedIn]
  have storedNow : (listed.state? state).isSome := by
    rw [state?_listedIn, if_pos rfl]
    simpa using present
  have assigned := assigned_assignLevels ⟨ranks, listedNow, ownedNow⟩ bounded topLevel storedNow
  rw [← attach_eq] at assigned
  have same := assigned.same
  have ranked := level_of_assigned present detached assigned
  set after := machine.attach region state
  refine ⟨fun other => ?_, fun other => ?_, fun other => ?_, ?_, ?_, ?_, fun other => ?_⟩
  · have equal := same.readState StateNode.unplaced (fun _ => rfl) other
    rw [equal, state?_listedIn]
    split
    · rw [Option.map_map]
      rfl
    · rfl
  · rw [same.containerOf?]
    exact containerOf?_listedIn present other
  · rw [same.region?]
    exact region?_listedIn other
  · rw [same.size]
    simp [listedIs, listedIn, modifyState, modifyRegion]
  · unfold nestingBound
    rw [same.rest]
    simp [listedIs, listedIn, modifyState, modifyRegion]
  · rw [same.rest]
    rfl
  · rw [ranked other, ranks other, levelFromParent, same.parentOf?]
    cases listed.parentOf? other with
    | none => rfl
    | some parent => simp only [ranked parent]

end Lowering

/-! ### Reading a machine in which a state was placed -/

namespace Placed

variable {region : RegionId} {state : StateId} {before after : Machine}
variable (placed : Placed region state before after)
include placed

theorem readState {Reading : Type} (read : StateNode → Reading)
    (blind : ∀ node, read node.unplaced = read node) (other : StateId) :
    (after.state? other).map read = (before.state? other).map read := by
  have factored (found : Option StateNode) :
      found.map read = (found.map StateNode.unplaced).map read := by
    cases found with
    | none => rfl
    | some node => exact congrArg some (blind node).symm
  rw [factored, factored (before.state? other), placed.nodes other]

theorem readRegion {Reading : Type} (read : Region → Reading)
    (blind : ∀ members name, read (members.listing name state) = read members)
    (other : RegionId) :
    (after.region? other).map read = (before.region? other).map read := by
  rw [placed.regions]
  split
  · cases before.region? other with
    | none => rfl
    | some members => exact congrArg some (blind members _)
  · rfl

theorem kindOf? (other : StateId) : after.kindOf? other = before.kindOf? other :=
  placed.readState StateNode.kind (fun _ => rfl) other

theorem stateName (other : StateId) : after.stateName other = before.stateName other :=
  congrArg (Option.getD · "") (placed.readState StateNode.name (fun _ => rfl) other)

theorem regionsOf (other : StateId) : after.regionsOf other = before.regionsOf other :=
  congrArg (Option.getD · []) (placed.readState StateNode.regions (fun _ => rfl) other)

private theorem ownerOf? (other : RegionId) : after.ownerOf? other = before.ownerOf? other :=
  placed.readRegion Region.owner (fun _ _ => rfl) other

private theorem transitionsOf (other : RegionId) :
    after.transitionsOf other = before.transitionsOf other :=
  congrArg (Option.getD · []) (placed.readRegion Region.transitions (fun _ _ => rfl) other)

theorem transition? (transition : TransitionId) :
    after.transition? transition = before.transition? transition := by
  rw [placed.rest]
  rfl

private theorem statesOf (present : (before.region? region).isSome) (other : RegionId) :
    after.statesOf other =
      if other = region then before.statesOf other ++ [state] else before.statesOf other := by
  unfold Machine.statesOf
  rw [placed.regions]
  by_cases same : other = region
  · subst same
    obtain ⟨members, found⟩ := Option.isSome_iff_exists.mp present
    simp [found, Region.listing]
  · rw [if_neg same, if_neg same]

end Placed

private theorem indexed_listing {machine : Machine} (wired : machine.Wired) {region : RegionId}
    {state : StateId} {members : Region} (found : machine.region? region = some members)
    (fresh : Dictionary.find? members.stateIndex (machine.stateName state) = none)
    (name : String) (other : StateId) :
    Dictionary.find? (members.listing (machine.stateName state) state).stateIndex name =
        some other ↔
      other ∈ (members.listing (machine.stateName state) state).states ∧
        machine.stateName other = name := by
  have indexed := wired.indexed region members
  simp only [Region.listing, Dictionary.find?_insert, List.mem_append, List.mem_singleton]
  by_cases same : machine.stateName state = name
  · rw [if_pos same]
    constructor
    · intro equal
      obtain rfl := Option.some.inj equal
      exact ⟨Or.inr rfl, same⟩
    · rintro ⟨listed | equal, named⟩
      · have known := (indexed name other found).mpr ⟨listed, named⟩
        rw [← same, fresh] at known
        cases known
      · rw [equal]
  · rw [if_neg same, indexed name other found]
    constructor
    · rintro ⟨listed, named⟩
      exact ⟨Or.inl listed, named⟩
    · rintro ⟨listed | equal, named⟩
      · exact ⟨listed, named⟩
      · rw [equal] at named
        exact absurd named same

theorem Wired.of_placed {before after : Machine} {region : RegionId} {state : StateId}
    {members : Region} (wired : before.Wired) (placed : Placed region state before after)
    (found : before.region? region = some members) (detached : before.containerOf? state = none)
    (notRoot : state ≠ root)
    (fresh : Dictionary.find? members.stateIndex (before.stateName state) = none) :
    after.Wired where
  rootKind := by rw [placed.kindOf?]; exact wired.rootKind
  rootOnly := by
    intro other
    rw [placed.kindOf?]
    exact wired.rootOnly other
  rootFree := by
    rw [placed.containers, if_neg fun equal => notRoot equal.symm]
    exact wired.rootFree
  listed := by
    intro other nested
    rw [placed.containers, placed.statesOf (by rw [found]; rfl)]
    exact listing_iff wired detached other nested
  listedOnce := by
    intro nested
    rw [placed.statesOf (by rw [found]; rfl)]
    split
    · have absent : state ∉ before.statesOf nested := by
        rw [← wired.listed, detached]
        simp
      rw [List.nodup_append]
      refine ⟨wired.listedOnce nested, by simp, ?_⟩
      intro member listed other single
      rw [List.mem_singleton.mp single]
      rintro rfl
      exact absent listed
    · exact wired.listedOnce nested
  owned := by
    intro nested other
    rw [placed.ownerOf?, placed.regionsOf]
    exact wired.owned nested other
  ownedOnce := by
    intro other
    rw [placed.regionsOf]
    exact wired.ownedOnce other
  leveled := placed.leveled
  owners := by
    intro other
    rw [placed.regionsOf, placed.kindOf?]
    exact wired.owners other
  indexed := by
    intro nested current name other present
    rw [placed.regions] at present
    rw [placed.stateName]
    split at present
    · rename_i here
      subst here
      rw [found] at present
      obtain rfl := Option.some.inj present
      exact indexed_listing wired found fresh name other
    · exact wired.indexed nested current name other present
  registered := by
    intro nested transition
    rw [placed.transitionsOf, placed.transition?]
    exact wired.registered nested transition
  decided := by
    intro other node present choice
    have kinds := placed.readState (fun node => (node.kind, node.decision)) (fun _ => rfl) other
    rw [present] at kinds
    obtain ⟨node', found', same⟩ := Option.map_eq_some_iff.mp kinds.symm
    obtain ⟨sameKind, sameDecision⟩ := Prod.mk.inj same
    rw [← sameDecision]
    exact wired.decided other node' found' (by rw [sameKind]; exact choice)

end Machine
end Chart
