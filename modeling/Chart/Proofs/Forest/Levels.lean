import Chart.Proofs.Forest.Basic

set_option autoImplicit false

/-!
Assigning levels. The walk over a state and everything at it changes nothing but levels, leaves
all other states alone, and gives every state it meets the level that a rank of the whole forest
prescribes, provided the walk is bounded by the ranks it meets.
-/

namespace Chart

def StateNode.unleveled (node : StateNode) : StateNode := { node with level := 0 }

namespace Machine

structure Releveled (before after : Machine) : Prop where
  states : ∀ state,
    (after.state? state).map StateNode.unleveled = (before.state? state).map StateNode.unleveled
  size : after.states.size = before.states.size
  rest : after = { before with states := after.states }

namespace Releveled

theorem refl (machine : Machine) : Releveled machine machine := ⟨fun _ => rfl, rfl, rfl⟩

theorem trans {before middle after : Machine} (first : Releveled before middle)
    (second : Releveled middle after) : Releveled before after := by
  refine ⟨fun state => (second.states state).trans (first.states state),
    second.size.trans first.size, ?_⟩
  rw [second.rest, first.rest]

theorem modifyLevel (machine : Machine) (state : StateId) (level : Nat) :
    Releveled machine (machine.modifyState state fun node => { node with level }) := by
  refine ⟨fun other => ?_, by simp [modifyState], rfl⟩
  rw [state?_modifyState]
  split
  · cases machine.state? other <;> rfl
  · rfl

variable {before after : Machine} (same : Releveled before after)
include same

theorem region? (region : RegionId) : after.region? region = before.region? region := by
  rw [same.rest]
  rfl

theorem readState {Reading : Type} (read : StateNode → Reading)
    (blind : ∀ node, read node.unleveled = read node) (state : StateId) :
    (after.state? state).map read = (before.state? state).map read := by
  have factored (found : Option StateNode) :
      found.map read = (found.map StateNode.unleveled).map read := by
    cases found with
    | none => rfl
    | some node => exact congrArg some (blind node).symm
  rw [factored, factored (before.state? state), same.states state]

theorem containerOf? (state : StateId) :
    after.containerOf? state = before.containerOf? state := by
  have equal := same.readState StateNode.container (fun _ => rfl) state
  have joined (found : Option StateNode) :
      found.bind StateNode.container = (found.map StateNode.container).join := by
    cases found <;> rfl
  unfold Machine.containerOf?
  rw [joined, joined, equal]

private theorem ownerOf? (region : RegionId) : after.ownerOf? region = before.ownerOf? region := by
  unfold Machine.ownerOf?
  rw [same.region?]

theorem parentOf? (state : StateId) : after.parentOf? state = before.parentOf? state := by
  rw [parentOf?_eq, parentOf?_eq, same.containerOf?]
  exact congrArg (Option.bind _) (funext fun region => same.ownerOf? region)

theorem regionsOf (state : StateId) : after.regionsOf state = before.regionsOf state :=
  congrArg (Option.getD · []) (same.readState StateNode.regions (fun _ => rfl) state)

private theorem statesOf (region : RegionId) : after.statesOf region = before.statesOf region := by
  unfold Machine.statesOf
  rw [same.region?]

private theorem inside {region : RegionId} {state : StateId} (inside : after.Inside region state) :
    before.Inside region state := by
  induction inside with
  | member contained => exact .member (by rw [← same.containerOf?]; exact contained)
  | deeper contained owned _ ih =>
      exact .deeper (by rw [← same.containerOf?]; exact contained)
        (by rw [← same.ownerOf?]; exact owned) ih

private theorem below {top state : StateId} (below : after.Below top state) :
    before.Below top state := by
  rcases below with equal | ⟨region, owned, inside⟩
  · exact Or.inl equal
  · exact Or.inr ⟨region, by rw [← same.ownerOf?]; exact owned, same.inside inside⟩

theorem symm : Releveled after before := by
  refine ⟨fun state => (same.states state).symm, same.size.symm, ?_⟩
  rw [same.rest]

private theorem below_iff {top state : StateId} : after.Below top state ↔ before.Below top state :=
  ⟨same.below, same.symm.below⟩

private theorem isSome_state? (state : StateId) :
    (after.state? state).isSome = (before.state? state).isSome := by
  simpa using congrArg Option.isSome (same.states state)

end Releveled

/-- Whatever the walk is bounded by, it writes to states only. By induction on the bound. -/
theorem assignLevels_eq (depth : Nat) (state : StateId) (machine : Machine) :
    assignLevels depth state machine =
      { machine with states := (assignLevels depth state machine).states } := by
  induction depth generalizing state machine with
  | zero => rfl
  | succ depth ih =>
      have walk (children : List StateId) (current : Machine) :
          children.foldl (fun current child => assignLevels depth child current) current =
            { current with
              states := (children.foldl (fun current child => assignLevels depth child current)
                current).states } := by
        induction children generalizing current with
        | nil => rfl
        | cons child rest ihRest =>
            rw [List.foldl_cons]
            refine (ihRest _).trans ?_
            rw [ih child current]
      exact walk _ _

/-- Every state has the rank of its parent and one more, or rank zero without a parent. -/
def Ranks (machine : Machine) (rank : StateId → Nat) : Prop :=
  ∀ state, rank state =
    match machine.parentOf? state with
    | some parent => rank parent + 1
    | none => 0

private theorem Ranks.of_releveled {before after : Machine} {rank : StateId → Nat}
    (ranks : before.Ranks rank) (same : Releveled before after) : after.Ranks rank := by
  intro state
  rw [same.parentOf?]
  exact ranks state

theorem Ranks.child {machine : Machine} {rank : StateId → Nat} (ranks : machine.Ranks rank)
    {child parent : StateId} (isParent : machine.parentOf? child = some parent) :
    rank child = rank parent + 1 := by
  rw [ranks child, isParent]

/-- What the walk reads of the machine: the ranks follow the parents, and the lists of states and
regions it goes along are those of the states' own links. No level is part of it. -/
structure Ranked (rank : StateId → Nat) (machine : Machine) : Prop where
  ranks : machine.Ranks rank
  listed : ∀ state region,
    machine.containerOf? state = some region ↔ state ∈ machine.statesOf region
  owned : ∀ region state,
    machine.ownerOf? region = some state ↔ region ∈ machine.regionsOf state

namespace Ranked
variable {rank : StateId → Nat} {machine : Machine} (ranked : Ranked rank machine)
include ranked

private theorem of_releveled {after : Machine} (same : Releveled machine after) :
    Ranked rank after := by
  refine ⟨ranked.ranks.of_releveled same, fun state region => ?_, fun region state => ?_⟩
  · rw [same.containerOf?, same.statesOf]
    exact ranked.listed state region
  · rw [same.ownerOf?, same.regionsOf]
    exact ranked.owned region state

private theorem mem_children {top child : StateId} :
    child ∈ (machine.regionsOf top).flatMap machine.statesOf ↔
      machine.parentOf? child = some top := by
  rw [List.mem_flatMap, parentOf?_eq_some]
  constructor
  · rintro ⟨region, inRegions, inStates⟩
    exact ⟨region, (ranked.listed child region).mpr inStates,
      (ranked.owned region top).mpr inRegions⟩
  · rintro ⟨region, contained, ownedBy⟩
    exact ⟨region, (ranked.owned region top).mp ownedBy,
      (ranked.listed child region).mp contained⟩

private theorem levelFromParent_child {top child : StateId}
    (isChild : machine.parentOf? child = some top) (topLevel : machine.level top = rank top) :
    machine.levelFromParent child = rank child := by
  rw [levelFromParent, isChild, ranked.ranks.child isChild]
  simp only [topLevel]

end Ranked

/-- The walk gave the states of a part of the forest their ranks for levels and left all other
states as they were. -/
structure AssignedIn (rank : StateId → Nat) (part : StateId → Prop) (before after : Machine) :
    Prop where
  same : Releveled before after
  outside : ∀ state, ¬part state → after.state? state = before.state? state
  assigned : ∀ state, part state → (before.state? state).isSome → after.level state = rank state

/-- Every state the walk from the top meets has its rank for a level, all others are as before. -/
abbrev Assigned (rank : StateId → Nat) (top : StateId) (before after : Machine) : Prop :=
  AssignedIn rank (before.Below top) before after

namespace AssignedIn
variable {rank : StateId → Nat} {part rest whole : StateId → Prop} {before middle after : Machine}

theorem refl (machine : Machine) : AssignedIn rank (fun _ => False) machine machine :=
  ⟨Releveled.refl machine, fun _ _ => rfl, fun _ impossible => impossible.elim⟩

private theorem keeps (done : AssignedIn rank part before after) {state : StateId}
    (leveled : before.level state = rank state) : after.level state = rank state := by
  by_cases inPart : part state
  · cases found : before.state? state with
    | none =>
        have equal := done.same.states state
        rw [found] at equal
        have missing : after.state? state = none := Option.map_eq_none_iff.mp equal
        simpa [level, found, missing] using leveled
    | some node => exact done.assigned state inPart (by rw [found]; rfl)
  · simpa [level, done.outside state inPart] using leveled

/-- One part after the other: what the first walk assigned the second keeps, because it could only
assign the same. -/
theorem trans (first : AssignedIn rank part before middle)
    (second : AssignedIn rank rest middle after)
    (covers : ∀ state, whole state ↔ part state ∨ rest state) :
    AssignedIn rank whole before after := by
  refine ⟨first.same.trans second.same, fun state outside => ?_, fun state inside stored => ?_⟩
  · obtain ⟨notPart, notRest⟩ := not_or.mp fun either => outside ((covers state).mpr either)
    exact (second.outside state notRest).trans (first.outside state notPart)
  · rcases (covers state).mp inside with inPart | inRest
    · exact second.keeps (first.assigned state inPart stored)
    · refine second.assigned state inRest ?_
      rw [first.same.isSome_state?]
      exact stored

end AssignedIn

def Suffices (rank : StateId → Nat) (depth : Nat) (machine : Machine) (top : StateId) : Prop :=
  ∀ state, machine.Below top state → rank state < rank top + depth

/-- The walk over the children of a state, one after the other. By induction on the children that
are left; `visit` is what the walk with the bound of the children does from any one state. -/
private theorem assigned_children {rank : StateId → Nat} {depth : Nat}
    (visit : ∀ (child : StateId) (machine : Machine), Ranked rank machine →
      Suffices rank depth machine child → machine.levelFromParent child = rank child →
      (machine.state? child).isSome →
      Assigned rank child machine (assignLevels depth child machine))
    (top : StateId) (children : List StateId) (machine : Machine) (ranked : Ranked rank machine)
    (areChildren : ∀ child ∈ children, machine.parentOf? child = some top)
    (bounded : ∀ child ∈ children, Suffices rank depth machine child)
    (topLevel : machine.level top = rank top) :
    AssignedIn rank (fun state => ∃ child ∈ children, machine.Below child state) machine
      (children.foldl (fun current child => assignLevels depth child current) machine) := by
  induction children generalizing machine with
  | nil => simpa using AssignedIn.refl machine
  | cons child rest ih =>
      obtain ⟨isChild, restAreChildren⟩ := List.forall_mem_cons.mp areChildren
      obtain ⟨childBounded, restBounded⟩ := List.forall_mem_cons.mp bounded
      obtain ⟨region, contained, _⟩ := parentOf?_eq_some.mp isChild
      have first := visit child machine ranked childBounded
        (ranked.levelFromParent_child isChild topLevel) (isSome_of_contained contained)
      have same := first.same
      have later := ih (assignLevels depth child machine) (ranked.of_releveled same)
        (fun other member => (same.parentOf? other).trans (restAreChildren other member))
        (fun other member state below => restBounded other member state (same.below below))
        (first.keeps topLevel)
      refine first.trans later fun state => ?_
      simp only [List.exists_mem_cons_iff, same.below_iff]

theorem assigned_assignLevels {rank : StateId → Nat} {depth : Nat} {top : StateId}
    {machine : Machine} (ranked : Ranked rank machine) (bounded : Suffices rank depth machine top)
    (topLevel : machine.levelFromParent top = rank top) (present : (machine.state? top).isSome) :
    Assigned rank top machine (assignLevels depth top machine) := by
  -- By induction on the bound of the walk.
  induction depth generalizing top machine with
  | zero =>
      have impossible := bounded top (Below.refl machine top)
      omega
  | succ depth ih =>
      set leveled := machine.modifyState top fun node =>
        { node with level := machine.levelFromParent top } with leveledIs
      have atTop : leveled.level top = rank top := by
        obtain ⟨node, found⟩ := Option.isSome_iff_exists.mp present
        simp [leveledIs, level, state?_modifyState, found, topLevel]
      have writes : AssignedIn rank (· = top) machine leveled := by
        refine ⟨Releveled.modifyLevel machine top _, fun state different => ?_, ?_⟩
        · rw [leveledIs, state?_modifyState, if_neg (Ne.symm different)]
        · rintro state rfl _
          exact atTop
      have same := writes.same
      have rankedNow := ranked.of_releveled same
      have walks := assigned_children (fun _ _ ranked bounded => ih ranked bounded) top
        ((leveled.regionsOf top).flatMap leveled.statesOf) leveled rankedNow
        (fun child member => rankedNow.mem_children.mp member)
        (fun child member state below => by
          have isChild := rankedNow.mem_children.mp member
          have rankChild := rankedNow.ranks.child isChild
          have within := bounded state
            (same.below (Machine.below_iff.mpr (Or.inr ⟨child, isChild, below⟩)))
          omega)
        atTop
      refine writes.trans walks fun state => ?_
      simp only [rankedNow.mem_children, same.parentOf?, same.below_iff]
      exact Machine.below_iff

end Machine
end Chart
