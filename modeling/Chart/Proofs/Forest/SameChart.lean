import Chart.Proofs.Forest.Basic

set_option autoImplicit false

/-!
Machines with the same chart. While a machine runs, a state changes only its status, its timer,
its data and the transitions it has chosen, a region only its status and its last active child;
transitions are only added, and only for choices. Whatever is read off the remaining fields is the
same before and after.
-/

namespace Chart

/-- A state without the fields that change while a machine runs. -/
def StateNode.fixed (node : StateNode) : StateNode :=
  { node with
    entity := .named node.entity.name
    status := .inactive
    timer := .idle
    frame := none
    choices := [] }

/-- A region without the fields that change while a machine runs. -/
def Region.fixed (members : Region) : Region :=
  { members with status := .inactive, lastActive := none }

theorem StateNode.read_eq {Reading : Type} {one other : StateNode}
    (fixed : one.fixed = other.fixed) (read : StateNode → Reading)
    (blind : ∀ node, read node.fixed = read node) : read one = read other := by
  rw [← blind one, fixed, blind]

theorem Region.read_eq {Reading : Type} {one other : Region} (fixed : one.fixed = other.fixed)
    (read : Region → Reading) (blind : ∀ members, read members.fixed = read members) :
    read one = read other := by
  rw [← blind one, fixed, blind]

namespace Machine

structure SameChart (before after : Machine) : Prop where
  states : ∀ state,
    (after.state? state).map StateNode.fixed = (before.state? state).map StateNode.fixed
  regions : ∀ region,
    (after.region? region).map Region.fixed = (before.region? region).map Region.fixed
  nesting : after.nestingBound = before.nestingBound
  kept : ∀ transition found, before.transition? transition = some found →
    after.transition? transition = some found
  chosen : ∀ transition found, after.transition? transition = some found →
    before.transition? transition = some found ∨
      ∃ name choice target region, found = .ofChoice name choice target region

namespace SameChart

theorem refl (machine : Machine) : SameChart machine machine :=
  { states := fun _ => rfl
    regions := fun _ => rfl
    nesting := rfl
    kept := fun _ _ found => found
    chosen := fun _ _ found => Or.inl found }

variable {before middle after : Machine}

theorem trans (first : SameChart before middle) (second : SameChart middle after) :
    SameChart before after :=
  { states := fun state => (second.states state).trans (first.states state)
    regions := fun region => (second.regions region).trans (first.regions region)
    nesting := second.nesting.trans first.nesting
    kept := fun transition found present =>
      second.kept transition found (first.kept transition found present)
    chosen := by
      intro transition found present
      rcases second.chosen transition found present with earlier | chosen
      · exact first.chosen transition found earlier
      · exact Or.inr chosen }

variable (same : SameChart before after)
include same

theorem state?_forward {state : StateId} {node : StateNode}
    (found : before.state? state = some node) :
    ∃ node', after.state? state = some node' ∧ node'.fixed = node.fixed := by
  have equal := same.states state
  rw [found] at equal
  obtain ⟨node', found', fixed⟩ := Option.map_eq_some_iff.mp equal
  exact ⟨node', found', fixed⟩

theorem state?_backward {state : StateId} {node : StateNode}
    (found : after.state? state = some node) :
    ∃ node', before.state? state = some node' ∧ node'.fixed = node.fixed := by
  have equal := same.states state
  rw [found] at equal
  obtain ⟨node', found', fixed⟩ := Option.map_eq_some_iff.mp equal.symm
  exact ⟨node', found', fixed⟩

theorem fixed_eq {state : StateId} {node node' : StateNode}
    (found : before.state? state = some node) (found' : after.state? state = some node') :
    node'.fixed = node.fixed := by
  obtain ⟨again, foundAgain, fixed⟩ := same.state?_forward found
  rw [found'] at foundAgain
  rw [Option.some.inj foundAgain]
  exact fixed

theorem region?_forward {region : RegionId} {members : Region}
    (found : before.region? region = some members) :
    ∃ members', after.region? region = some members' ∧ members'.fixed = members.fixed := by
  have equal := same.regions region
  rw [found] at equal
  obtain ⟨members', found', fixed⟩ := Option.map_eq_some_iff.mp equal
  exact ⟨members', found', fixed⟩

theorem region?_backward {region : RegionId} {members : Region}
    (found : after.region? region = some members) :
    ∃ members', before.region? region = some members' ∧ members'.fixed = members.fixed := by
  have equal := same.regions region
  rw [found] at equal
  obtain ⟨members', found', fixed⟩ := Option.map_eq_some_iff.mp equal.symm
  exact ⟨members', found', fixed⟩

theorem readState {Reading : Type} (read : StateNode → Reading)
    (blind : ∀ node, read node.fixed = read node) (state : StateId) :
    (after.state? state).map read = (before.state? state).map read := by
  have factored (found : Option StateNode) :
      found.map read = (found.map StateNode.fixed).map read := by
    cases found with
    | none => rfl
    | some node => exact congrArg some (blind node).symm
  rw [factored, factored (before.state? state), same.states state]

theorem readRegion {Reading : Type} (read : Region → Reading)
    (blind : ∀ members, read members.fixed = read members) (region : RegionId) :
    (after.region? region).map read = (before.region? region).map read := by
  have factored (found : Option Region) :
      found.map read = (found.map Region.fixed).map read := by
    cases found with
    | none => rfl
    | some members => exact congrArg some (blind members).symm
  rw [factored, factored (before.region? region), same.regions region]

theorem containerOf? (state : StateId) :
    after.containerOf? state = before.containerOf? state := by
  have equal := same.readState StateNode.container (fun _ => rfl) state
  have joined (found : Option StateNode) :
      found.bind StateNode.container = (found.map StateNode.container).join := by
    cases found <;> rfl
  unfold Machine.containerOf?
  rw [joined, joined, equal]

theorem ownerOf? (region : RegionId) : after.ownerOf? region = before.ownerOf? region :=
  same.readRegion Region.owner (fun _ => rfl) region

theorem historyOf? (region : RegionId) : after.historyOf? region = before.historyOf? region := by
  have equal := same.readRegion Region.history (fun _ => rfl) region
  have joined (found : Option Region) :
      found.bind Region.history = (found.map Region.history).join := by
    cases found <;> rfl
  unfold Machine.historyOf?
  rw [joined, joined, equal]

theorem kindOf? (state : StateId) : after.kindOf? state = before.kindOf? state :=
  same.readState StateNode.kind (fun _ => rfl) state

theorem regionsOf (state : StateId) : after.regionsOf state = before.regionsOf state :=
  congrArg (Option.getD · []) (same.readState StateNode.regions (fun _ => rfl) state)

theorem stateName (state : StateId) : after.stateName state = before.stateName state :=
  congrArg (Option.getD · "") (same.readState StateNode.name (fun _ => rfl) state)

theorem level (state : StateId) : after.level state = before.level state :=
  congrArg (Option.getD · 0) (same.readState StateNode.level (fun _ => rfl) state)

theorem statesOf (region : RegionId) : after.statesOf region = before.statesOf region :=
  congrArg (Option.getD · []) (same.readRegion Region.states (fun _ => rfl) region)

theorem regionName (region : RegionId) : after.regionName region = before.regionName region :=
  congrArg (Option.getD · "") (same.readRegion Region.name (fun _ => rfl) region)

theorem transitionsOf (region : RegionId) :
    after.transitionsOf region = before.transitionsOf region :=
  congrArg (Option.getD · []) (same.readRegion Region.transitions (fun _ => rfl) region)

theorem parentOf? (state : StateId) : after.parentOf? state = before.parentOf? state :=
  parentOf?_congr same.containerOf? same.ownerOf? state

theorem regionsWithin (region : RegionId) :
    after.regionsWithin region = before.regionsWithin region := by
  unfold Machine.regionsWithin
  rw [same.statesOf]
  exact congrArg (List.flatMap · _) (funext fun state => same.regionsOf state)

theorem resolveThrough {Entry : Type} (index : Region → Dictionary Entry)
    (blind : ∀ members, index members.fixed = index members) (name : String) (depth : Nat)
    (region : RegionId) :
    after.resolveThrough index name depth region =
      before.resolveThrough index name depth region := by
  induction depth generalizing region with
  | zero => rfl
  | succ depth ih =>
      have here : ((after.region? region).bind fun members =>
          Dictionary.find? (index members) name) =
          (before.region? region).bind fun members =>
            Dictionary.find? (index members) name := by
        have equal := same.readRegion (fun members => Dictionary.find? (index members) name)
          (fun members => by rw [blind]) region
        have joined (found : Option Region) :
            (found.bind fun members => Dictionary.find? (index members) name) =
              (found.map fun members => Dictionary.find? (index members) name).join := by
          cases found <;> rfl
        rw [joined, joined, equal]
      unfold Machine.resolveThrough
      rw [here, same.regionsWithin]
      split
      · rfl
      · exact congrArg (List.findSome? · _) (funext fun nested => ih nested)

theorem resolveState? (region : RegionId) (name : String) :
    after.resolveState? region name = before.resolveState? region name := by
  unfold Machine.resolveState?
  rw [same.nesting]
  exact same.resolveThrough Region.stateIndex (fun _ => rfl) name _ region

theorem findTransition? (name : String) :
    after.findTransition? name = before.findTransition? name := by
  have resolved (region : RegionId) :
      after.resolveTransition? region name = before.resolveTransition? region name := by
    unfold Machine.resolveTransition?
    rw [same.nesting]
    exact same.resolveThrough Region.transitionIndex (fun _ => rfl) name _ region
  unfold Machine.findTransition?
  rw [same.regionsOf]
  exact congrArg (List.findSome? · _) (funext resolved)

theorem inside {region : RegionId} {state : StateId} :
    after.Inside region state ↔ before.Inside region state := by
  constructor
  · intro inside
    induction inside with
    | member contained => exact .member (by rw [← same.containerOf?]; exact contained)
    | deeper contained owned _ ih =>
        exact .deeper (by rw [← same.containerOf?]; exact contained)
          (by rw [← same.ownerOf?]; exact owned) ih
  · intro inside
    induction inside with
    | member contained => exact .member (by rw [same.containerOf?]; exact contained)
    | deeper contained owned _ ih =>
        exact .deeper (by rw [same.containerOf?]; exact contained)
          (by rw [same.ownerOf?]; exact owned) ih

theorem within {outer inner : RegionId} :
    after.Within outer inner ↔ before.Within outer inner := by
  unfold Within
  simp only [same.ownerOf?, same.inside]

theorem apart {one other : RegionId} : after.Apart one other ↔ before.Apart one other := by
  unfold Apart
  rw [same.within, same.within]

end SameChart

theorem Wired.of_sameChart {before after : Machine} (same : SameChart before after)
    (wired : before.Wired) : after.Wired where
  rootKind := by rw [same.kindOf?]; exact wired.rootKind
  rootOnly := by
    intro state
    rw [same.kindOf?]
    exact wired.rootOnly state
  rootFree := by rw [same.containerOf?]; exact wired.rootFree
  listed := by
    intro state region
    rw [same.containerOf?, same.statesOf]
    exact wired.listed state region
  listedOnce := by
    intro region
    rw [same.statesOf]
    exact wired.listedOnce region
  owned := by
    intro region state
    rw [same.ownerOf?, same.regionsOf]
    exact wired.owned region state
  ownedOnce := by
    intro state
    rw [same.regionsOf]
    exact wired.ownedOnce state
  leveled := wired.leveled_of_same same.level same.parentOf?
  owners := by
    intro state
    rw [same.regionsOf, same.kindOf?]
    exact wired.owners state
  indexed := by
    intro region members name state found
    obtain ⟨members', found', fixed⟩ := same.region?_backward found
    have index : members'.stateIndex = members.stateIndex :=
      Region.read_eq fixed Region.stateIndex fun _ => rfl
    have states : members'.states = members.states :=
      Region.read_eq fixed Region.states fun _ => rfl
    rw [same.stateName, ← index, ← states]
    exact wired.indexed region members' name state found'
  registered := by
    intro region transition
    rw [same.transitionsOf]
    intro member
    obtain ⟨found, present, contained⟩ := wired.registered region transition member
    exact ⟨found, same.kept transition found present, contained⟩
  decided := by
    intro state node found choice
    obtain ⟨node', found', fixed⟩ := same.state?_backward found
    have kind : node'.kind = node.kind :=
      StateNode.read_eq fixed StateNode.kind fun _ => rfl
    have decision : node'.decision = node.decision :=
      StateNode.read_eq fixed StateNode.decision fun _ => rfl
    rw [← decision]
    exact wired.decided state node' found' (by rw [kind]; exact choice)

theorem Marked.of_sameChart {before after : Machine} (same : SameChart before after)
    (marked : before.Marked) : after.Marked := by
  refine marked.of_same (same.readRegion Region.markers fun _ => rfl)
    (fun region state kind _ => ?_)
    fun state => ?_
  · rw [same.containerOf?, same.kindOf?]
  · unfold Unmarked
    rw [same.containerOf?, same.kindOf?]
    exact marked.contained state

theorem Formed.of_sameChart {before after : Machine} (same : SameChart before after)
    (formed : before.Formed) : after.Formed :=
  { toWired := formed.toWired.of_sameChart same
    toMarked := formed.toMarked.of_sameChart same }

end Machine
end Chart
