import Chart.Proofs.Run.Change

set_option autoImplicit false

/-!
Which states and regions are active. In a coherent machine the active regions have active owners,
the active states below the root have active regions around them, and no region has two active
children. Coherence survives every entry into an idle region, every departure from a state without
active regions, and every opening and closing of a region at the right moment; the lemmas about
what lies inside an idle region follow from it.
-/

namespace Chart.Machine

structure Coherent (machine : Machine) : Prop where
  owned : ∀ region, machine.isRegionActive region = true →
    ∃ owner, machine.ownerOf? region = some owner ∧ machine.isStateActive owner = true
  contained : ∀ state, machine.isStateActive state = true → state ≠ root →
    ∃ region, machine.containerOf? state = some region ∧ machine.isRegionActive region = true
  single : ∀ region one other, machine.containerOf? one = some region →
    machine.containerOf? other = some region → machine.isStateActive one = true →
    machine.isStateActive other = true → one = other

private theorem state_of_isStateActive {machine : Machine} {state : StateId}
    (active : machine.isStateActive state = true) :
    ∃ index : Fin machine.states.size, state = ⟨index⟩ := by
  obtain ⟨node, found, _⟩ := isStateActive_iff.mp active
  obtain ⟨inside, _⟩ := Array.getElem?_eq_some_iff.mp found
  exact ⟨⟨state.index, inside⟩, rfl⟩

private theorem region_of_isRegionActive {machine : Machine} {region : RegionId}
    (active : machine.isRegionActive region = true) :
    ∃ index : Fin machine.regions.size, region = ⟨index⟩ := by
  obtain ⟨members, found, _⟩ := isRegionActive_iff.mp active
  obtain ⟨inside, _⟩ := Array.getElem?_eq_some_iff.mp found
  exact ⟨⟨region.index, inside⟩, rfl⟩

private theorem coherent_iff {machine : Machine} :
    machine.Coherent ↔
      (∀ region : Fin machine.regions.size, machine.isRegionActive ⟨region⟩ = true →
        (machine.ownerOf? ⟨region⟩).any machine.isStateActive = true) ∧
      (∀ state : Fin machine.states.size, machine.isStateActive ⟨state⟩ = true →
        (⟨state⟩ : StateId) ≠ root →
        (machine.containerOf? ⟨state⟩).any machine.isRegionActive = true) ∧
      ∀ one other : Fin machine.states.size, machine.isStateActive ⟨one⟩ = true →
        machine.isStateActive ⟨other⟩ = true → (machine.containerOf? ⟨one⟩).isSome = true →
        machine.containerOf? ⟨other⟩ = machine.containerOf? ⟨one⟩ → one = other := by
  simp only [Option.any_eq_true]
  constructor
  · intro coherent
    refine ⟨fun region => coherent.owned ⟨region⟩, fun state => coherent.contained ⟨state⟩, ?_⟩
    intro one other activeOne activeOther contained same
    obtain ⟨region, inRegion⟩ := Option.isSome_iff_exists.mp contained
    have equal := coherent.single region ⟨one⟩ ⟨other⟩ inRegion (same.trans inRegion) activeOne
      activeOther
    exact Fin.ext (StateId.mk.inj equal)
  · rintro ⟨owned, contained, single⟩
    refine ⟨fun region active => ?_, fun state active => ?_, ?_⟩
    · obtain ⟨index, rfl⟩ := region_of_isRegionActive active
      exact owned index active
    · obtain ⟨index, rfl⟩ := state_of_isStateActive active
      exact contained index active
    · intro region one other inOne inOther activeOne activeOther
      obtain ⟨first, rfl⟩ := state_of_isStateActive activeOne
      obtain ⟨second, rfl⟩ := state_of_isStateActive activeOther
      rw [single first second activeOne activeOther (by rw [inOne]; rfl) (inOther.trans inOne.symm)]

instance (machine : Machine) : Decidable machine.Coherent :=
  decidable_of_iff _ coherent_iff.symm

/-- An active region without an active child. -/
def Idle (machine : Machine) (region : RegionId) : Prop :=
  machine.isRegionActive region = true ∧
    ∀ state, machine.containerOf? state = some region → machine.isStateActive state = false

/-- An active region without an active normal child. -/
def Childless (machine : Machine) (region : RegionId) : Prop :=
  machine.isRegionActive region = true ∧
    ∀ state, machine.containerOf? state = some region → machine.kindOf? state = some .normal →
      machine.isStateActive state = false

theorem Childless.of_statuses {before after : Machine} {region : RegionId}
    (childless : after.Childless region) (same : SameChart before after)
    (states : ∀ state, after.isStateActive state = before.isStateActive state)
    (regions : ∀ region, after.isRegionActive region = before.isRegionActive region) :
    before.Childless region := by
  refine ⟨by rw [← regions]; exact childless.1, fun state contained normal => ?_⟩
  rw [← same.containerOf?] at contained
  rw [← same.kindOf?] at normal
  rw [← states]
  exact childless.2 state contained normal

/-! ### Chains of regions -/

section Chains

variable {machine : Machine} {one other region inner : RegionId} {state : StateId}

theorem Inside.comparable (insideOne : machine.Inside one state)
    (insideOther : machine.Inside other state) :
    machine.Within one other ∨ machine.Within other one := by
  induction insideOne with
  | member contained =>
      exact Or.inr (insideOther.within_container contained)
  | deeper contained owned inside ih =>
      rcases (insideOther.within_container contained).inside_owner owned with same | insideOwner
      · rw [← same]
        exact Or.inl (Within.of_owner owned inside)
      · exact ih insideOwner

theorem Within.comparable (withinOne : machine.Within one inner)
    (withinOther : machine.Within other inner) :
    machine.Within one other ∨ machine.Within other one := by
  rcases withinOne with same | ⟨owner, owned, inside⟩
  · rw [← same]
    exact Or.inr withinOther
  · rcases withinOther.inside_owner owned with same | insideOther
    · rw [← same]
      exact Or.inl (Within.of_owner owned inside)
    · exact inside.comparable insideOther

theorem Apart.within (apart : machine.Apart one other) (within : machine.Within one inner) :
    machine.Apart inner other := by
  constructor
  · intro deeper
    exact apart.1 (within.trans deeper)
  · intro around
    rcases within.comparable around with first | second
    · exact apart.1 first
    · exact apart.2 second

theorem Apart.not_inside (apart : machine.Apart one other) (inside : machine.Inside one state) :
    ¬machine.Inside other state := by
  intro insideOther
  rcases inside.comparable insideOther with first | second
  · exact apart.1 first
  · exact apart.2 second

end Chains

/-! ### Inside a coherent machine -/

namespace Coherent

variable {machine : Machine} (coherent : machine.Coherent)
include coherent

theorem owner_active {region : RegionId} {owner : StateId}
    (active : machine.isRegionActive region = true)
    (owned : machine.ownerOf? region = some owner) : machine.isStateActive owner = true := by
  obtain ⟨found, owned', isActive⟩ := coherent.owned region active
  rw [owned] at owned'
  obtain rfl := Option.some.inj owned'
  exact isActive

theorem container_active {state : StateId} {region : RegionId} (wired : machine.Wired)
    (active : machine.isStateActive state = true)
    (contained : machine.containerOf? state = some region) :
    machine.isRegionActive region = true := by
  have notRoot : state ≠ root := wired.not_inside_root (.member contained)
  obtain ⟨found, contained', isActive⟩ := coherent.contained state active notRoot
  rw [contained] at contained'
  obtain rfl := Option.some.inj contained'
  exact isActive

theorem eq_root_of_detached {state : StateId} (active : machine.isStateActive state = true)
    (detached : machine.containerOf? state = none) : state = root := by
  by_contra notRoot
  obtain ⟨region, contained, _⟩ := coherent.contained state active notRoot
  rw [detached] at contained
  cases contained

theorem region_inactive {region : RegionId} {owner : StateId}
    (owned : machine.ownerOf? region = some owner)
    (inactive : machine.isStateActive owner = false) : machine.isRegionActive region = false := by
  cases active : machine.isRegionActive region with
  | false => rfl
  | true =>
      have contrary := coherent.owner_active active owned
      rw [inactive] at contrary
      cases contrary

theorem active_around {region : RegionId} {state : StateId} (wired : machine.Wired)
    (inside : machine.Inside region state) (active : machine.isStateActive state = true) :
    machine.isRegionActive region = true := by
  induction inside with
  | member contained => exact coherent.container_active wired active contained
  | deeper contained owned _ ih =>
      exact ih (coherent.owner_active (coherent.container_active wired active contained) owned)

theorem active_outside {outer inner : RegionId} (wired : machine.Wired)
    (within : machine.Within outer inner) (active : machine.isRegionActive inner = true) :
    machine.isRegionActive outer = true := by
  rcases within with same | ⟨owner, owned, inside⟩
  · rw [← same]
    exact active
  · exact coherent.active_around wired inside (coherent.owner_active active owned)

theorem inside_inactive {region : RegionId} {state : StateId} (wired : machine.Wired)
    (childless : ∀ child, machine.containerOf? child = some region →
      machine.isStateActive child = false)
    (inside : machine.Inside region state) : machine.isStateActive state = false := by
  induction inside with
  | member contained => exact childless _ contained
  | @deeper state owner nested contained owned _ ih =>
      cases active : machine.isStateActive state with
      | false => rfl
      | true =>
          have around := coherent.container_active wired active contained
          rw [coherent.region_inactive owned ih] at around
          cases around

theorem within_inactive {outer inner : RegionId} (wired : machine.Wired)
    (childless : ∀ child, machine.containerOf? child = some outer →
      machine.isStateActive child = false)
    (within : machine.Within outer inner) (different : inner ≠ outer) :
    machine.isRegionActive inner = false := by
  rcases within with same | ⟨owner, owned, inside⟩
  · exact absurd same different
  · exact coherent.region_inactive owned (coherent.inside_inactive wired childless inside)

theorem eq_of_inside {region : RegionId} {child state : StateId} (wired : machine.Wired)
    (contained : machine.containerOf? child = some region)
    (active : machine.isStateActive child = true)
    (bare : ∀ nested, machine.ownerOf? nested = some child →
      machine.isRegionActive nested = false)
    (inside : machine.Inside region state) (activeState : machine.isStateActive state = true) :
    state = child := by
  induction inside with
  | member contained' => exact coherent.single region _ _ contained' contained activeState active
  | deeper contained' owned _ ih =>
      have around := coherent.container_active wired activeState contained'
      have same := ih (coherent.owner_active around owned)
      rw [same] at owned
      rw [bare _ owned] at around
      cases around

theorem of_statuses {after : Machine} (same : SameChart machine after)
    (states : ∀ state, after.isStateActive state = machine.isStateActive state)
    (regions : ∀ region, after.isRegionActive region = machine.isRegionActive region) :
    after.Coherent where
  owned := by
    intro region active
    rw [regions] at active
    obtain ⟨owner, owned, isActive⟩ := coherent.owned region active
    exact ⟨owner, by rw [same.ownerOf?]; exact owned, by rw [states]; exact isActive⟩
  contained := by
    intro state active notRoot
    rw [states] at active
    obtain ⟨region, contained, isActive⟩ := coherent.contained state active notRoot
    exact ⟨region, by rw [same.containerOf?]; exact contained, by rw [regions]; exact isActive⟩
  single := by
    intro region one other containedOne containedOther activeOne activeOther
    rw [same.containerOf?] at containedOne containedOther
    rw [states] at activeOne activeOther
    exact coherent.single region one other containedOne containedOther activeOne activeOther

end Coherent

/-! ### Statuses after a change -/

section Statuses

variable {machine : Machine}

@[simp] theorem isStateActive_note (event : Event) (state : StateId) :
    (machine.note event).isStateActive state = machine.isStateActive state := rfl

@[simp] theorem isRegionActive_note (event : Event) (region : RegionId) :
    (machine.note event).isRegionActive region = machine.isRegionActive region := rfl

theorem isStateActive_modifyState {state : StateId} (change : StateNode → StateNode)
    (same : ∀ node, (change node).status = node.status) (other : StateId) :
    (machine.modifyState state change).isStateActive other = machine.isStateActive other := by
  unfold isStateActive
  rw [state?_modifyState]
  split
  · cases machine.state? other with
    | none => rfl
    | some node => simp only [Option.map_some, Option.any_some, same]
  · rfl

private theorem isRegionActive_modifyRegion {region : RegionId} (change : Region → Region)
    (same : ∀ members, (change members).status = members.status) (other : RegionId) :
    (machine.modifyRegion region change).isRegionActive other = machine.isRegionActive other := by
  unfold isRegionActive
  rw [region?_modifyRegion]
  split
  · cases machine.region? other with
    | none => rfl
    | some members => simp only [Option.map_some, Option.any_some, same]
  · rfl

theorem isStateActive_entered {state : StateId} {node : StateNode}
    (found : machine.state? state = some node) (name : String) (other : StateId) :
    (machine.entered state name).isStateActive other = true ↔
      other = state ∨ machine.isStateActive other = true := by
  unfold entered
  rw [isStateActive_note, isStateActive, setStateStatus, state?_modifyState]
  by_cases here : state = other
  · subst here
    simp [found, Status.isActive]
  · rw [if_neg here]
    constructor
    · exact Or.inr
    · rintro (same | active)
      · exact absurd same.symm here
      · exact active

@[simp] theorem isRegionActive_entered (state : StateId) (name : String) (region : RegionId) :
    (machine.entered state name).isRegionActive region = machine.isRegionActive region := rfl

theorem isStateActive_left {state : StateId} {node : StateNode} (other : StateId) :
    (machine.left state node).isStateActive other = true ↔
      other ≠ state ∧ machine.isStateActive other = true := by
  have departs : (machine.departed state node.name).isStateActive other = true ↔
      other ≠ state ∧ machine.isStateActive other = true := by
    unfold departed
    rw [isStateActive_note, isStateActive, setStateStatus, state?_modifyState]
    by_cases here : state = other
    · subst here
      cases machine.state? state <;> simp [Status.isActive]
    · rw [if_neg here]
      constructor
      · exact fun active => ⟨fun same => here same.symm, active⟩
      · exact fun both => both.2
  unfold left
  split
  · have stops : ((machine.departed state node.name).timerStopped state).isStateActive other =
        (machine.departed state node.name).isStateActive other := by
      refine isStateActive_modifyState _ (fun node => ?_) other
      split <;> rfl
    rw [isStateActive, state?_remembered]
    rw [isStateActive] at stops
    rw [stops]
    exact departs
  · exact departs

theorem isRegionActive_left (state : StateId) (node : StateNode) (region : RegionId) :
    (machine.left state node).isRegionActive region = machine.isRegionActive region := by
  unfold left
  split
  · cases node.container with
    | none => rfl
    | some container =>
        exact isRegionActive_modifyRegion (fun members =>
          { members with lastActive := some state }) (fun _ => rfl) region
  · rfl

theorem isRegionActive_opened {region : RegionId} {members : Region}
    (found : machine.region? region = some members) (name : String) (other : RegionId) :
    (machine.opened region name).isRegionActive other = true ↔
      other = region ∨ machine.isRegionActive other = true := by
  unfold opened
  rw [isRegionActive_note, isRegionActive, setRegionStatus, region?_modifyRegion]
  by_cases here : region = other
  · subst here
    simp [found, Status.isActive]
  · rw [if_neg here]
    constructor
    · exact Or.inr
    · rintro (same | active)
      · exact absurd same.symm here
      · exact active

theorem isRegionActive_closed (region : RegionId) (name : String) (other : RegionId) :
    (machine.closed region name).isRegionActive other = true ↔
      other ≠ region ∧ machine.isRegionActive other = true := by
  unfold closed
  rw [isRegionActive_note, isRegionActive, setRegionStatus, region?_modifyRegion]
  by_cases here : region = other
  · subst here
    cases machine.region? region <;> simp [Status.isActive]
  · rw [if_neg here]
    constructor
    · exact fun active => ⟨fun same => here same.symm, active⟩
    · exact fun both => both.2

theorem isRegionActive_closed_self (region : RegionId) (name : String) :
    (machine.closed region name).isRegionActive region = false :=
  Bool.eq_false_iff.mpr fun active => ((isRegionActive_closed region name region).mp active).1 rfl

theorem isRegionActive_closed_of_ne {region other : RegionId} (name : String)
    (different : other ≠ region) :
    (machine.closed region name).isRegionActive other = machine.isRegionActive other := by
  rw [Bool.eq_iff_iff, isRegionActive_closed]
  exact ⟨fun both => both.2, fun active => ⟨different, active⟩⟩

@[simp] theorem isStateActive_closed (region : RegionId) (name : String) (state : StateId) :
    (machine.closed region name).isStateActive state = machine.isStateActive state := rfl

end Statuses

/-! ### Coherent changes -/

/-- A state may be entered: the root while it is inactive, any other state while its region is
idle. -/
def Ready (machine : Machine) (state : StateId) : Prop :=
  (state = root ∧ machine.isStateActive root = false) ∨
    ∃ region, machine.containerOf? state = some region ∧ machine.Idle region

namespace Coherent

variable {machine : Machine} (coherent : machine.Coherent)
include coherent

theorem entered {state : StateId} {node : StateNode} (wired : machine.Wired)
    (found : machine.state? state = some node) (ready : machine.Ready state) (name : String) :
    (machine.entered state name).Coherent where
  owned := by
    intro region active
    obtain ⟨owner, owned, isActive⟩ := coherent.owned region active
    refine ⟨owner, ?_, (isStateActive_entered found name owner).mpr (Or.inr isActive)⟩
    rw [(sameChart_entered machine state name).ownerOf?]
    exact owned
  contained := by
    intro other active notRoot
    rw [(sameChart_entered machine state name).containerOf?]
    rcases (isStateActive_entered found name other).mp active with same | before
    · rw [same] at notRoot ⊢
      rcases ready with ⟨isRoot, _⟩ | ⟨region, contained, idle⟩
      · exact absurd isRoot notRoot
      · exact ⟨region, contained, idle.1⟩
    · exact coherent.contained other before notRoot
  single := by
    intro region one other containedOne containedOther activeOne activeOther
    rw [(sameChart_entered machine state name).containerOf?] at containedOne containedOther
    have alone {member : StateId} (here : machine.containerOf? state = some region)
        (contained : machine.containerOf? member = some region)
        (active : machine.isStateActive member = true) : False := by
      rcases ready with ⟨isRoot, _⟩ | ⟨container, contained', idle⟩
      · rw [isRoot, wired.rootFree] at here
        cases here
      · rw [here] at contained'
        obtain rfl := Option.some.inj contained'
        rw [idle.2 member contained] at active
        cases active
    rcases (isStateActive_entered found name one).mp activeOne with sameOne | beforeOne
    · rcases (isStateActive_entered found name other).mp activeOther with sameOther | beforeOther
      · rw [sameOne, sameOther]
      · rw [sameOne] at containedOne
        exact (alone containedOne containedOther beforeOther).elim
    · rcases (isStateActive_entered found name other).mp activeOther with sameOther | beforeOther
      · rw [sameOther] at containedOther
        exact (alone containedOther containedOne beforeOne).elim
      · exact coherent.single region one other containedOne containedOther beforeOne beforeOther

theorem left {state : StateId} {node : StateNode}
    (bare : ∀ region, machine.ownerOf? region = some state →
      machine.isRegionActive region = false) :
    (machine.left state node).Coherent where
  owned := by
    intro region active
    rw [isRegionActive_left] at active
    obtain ⟨owner, owned, isActive⟩ := coherent.owned region active
    refine ⟨owner, ?_, (isStateActive_left owner).mpr ⟨?_, isActive⟩⟩
    · rw [(sameChart_left machine state node).ownerOf?]
      exact owned
    · rintro rfl
      rw [bare region owned] at active
      cases active
  contained := by
    intro other active notRoot
    rw [(sameChart_left machine state node).containerOf?]
    obtain ⟨region, contained, isActive⟩ :=
      coherent.contained other ((isStateActive_left other).mp active).2 notRoot
    exact ⟨region, contained, by rw [isRegionActive_left]; exact isActive⟩
  single := by
    intro region one other containedOne containedOther activeOne activeOther
    rw [(sameChart_left machine state node).containerOf?] at containedOne containedOther
    exact coherent.single region one other containedOne containedOther
      ((isStateActive_left one).mp activeOne).2 ((isStateActive_left other).mp activeOther).2

theorem opened {region : RegionId} {members : Region}
    (found : machine.region? region = some members)
    (ownerActive : machine.isStateActive members.owner = true) (name : String) :
    (machine.opened region name).Coherent where
  owned := by
    intro other active
    have same : (machine.opened region name).ownerOf? other = machine.ownerOf? other :=
      (sameChart_setRegionStatus machine region .active).ownerOf? other
    rcases (isRegionActive_opened found name other).mp active with here | before
    · exact ⟨members.owner, by rw [same, here]; exact ownerOf?_eq_some.mpr ⟨members, found, rfl⟩,
        ownerActive⟩
    · obtain ⟨owner, owned, isActive⟩ := coherent.owned other before
      exact ⟨owner, by rw [same]; exact owned, isActive⟩
  contained := by
    intro state active notRoot
    obtain ⟨container, contained, isActive⟩ := coherent.contained state active notRoot
    exact ⟨container, contained, (isRegionActive_opened found name container).mpr (Or.inr isActive)⟩
  single := coherent.single

theorem closed {region : RegionId}
    (childless : ∀ child, machine.containerOf? child = some region →
      machine.isStateActive child = false) (name : String) :
    (machine.closed region name).Coherent where
  owned := by
    intro other active
    obtain ⟨owner, owned, isActive⟩ :=
      coherent.owned other ((isRegionActive_closed region name other).mp active).2
    refine ⟨owner, ?_, isActive⟩
    rw [show (machine.closed region name).ownerOf? other = machine.ownerOf? other from
      (sameChart_setRegionStatus machine region .inactive).ownerOf? other]
    exact owned
  contained := by
    intro state active notRoot
    obtain ⟨container, contained, isActive⟩ := coherent.contained state active notRoot
    refine ⟨container, contained, (isRegionActive_closed region name container).mpr
      ⟨?_, isActive⟩⟩
    rintro rfl
    have inactive := childless state contained
    rw [show machine.isStateActive state = true from active] at inactive
    cases inactive
  single := coherent.single

end Coherent

end Chart.Machine
