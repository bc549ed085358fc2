import Chart.Proofs.Run.ConfinedChanges

set_option autoImplicit false

/-!
What an operation in one region does. The spot of an operation is the region in which it enters a
state. `Moved` says that every active region apart from the spot is spared, that nothing leaves a
region around the spot whose owner has another active one, and that no region other than the spot
is left without an active normal child; `Settled` adds that the spot is not left so either, and a
relation between the machines that may be any that every single step respects.
-/

namespace Chart

namespace Machine

structure Untouched (region : RegionId) (before after : Machine) : Prop where
  states : ∀ state, before.Inside region state → after.state? state = before.state? state
  regions : ∀ nested, before.Within region nested → after.region? nested = before.region? nested

def Spares (spot : Option RegionId) (before after : Machine) : Prop :=
  ∀ here region, spot = some here → before.isRegionActive region = true →
    before.Apart here region → Untouched region before after

structure Moved (spot : Option RegionId) (before after : Machine) : Prop where
  changes : Changes before after
  coherent : after.Coherent
  spares : Spares spot before after
  confined : ∀ here outer, spot = some here → before.Within outer here → before.Guarded outer →
    Confined outer before after
  childless : ∀ region, after.Childless region → before.Childless region ∨ spot = some region

structure Settled (related : Machine → Machine → Prop) (spot : Option RegionId)
    (before after : Machine) : Prop extends Moved spot before after where
  fed : ∀ region, spot = some region → ¬after.Childless region
  relates : related before after

namespace Untouched

variable {region : RegionId} {before middle after : Machine}

theorem refl (region : RegionId) (machine : Machine) : Untouched region machine machine :=
  ⟨fun _ _ => rfl, fun _ _ => rfl⟩

theorem trans (first : Untouched region before middle) (second : Untouched region middle after)
    (same : SameChart before middle) : Untouched region before after where
  states := fun state inside =>
    (second.states state (same.inside.mpr inside)).trans (first.states state inside)
  regions := fun nested within =>
    (second.regions nested (same.within.mpr within)).trans (first.regions nested within)

variable (untouched : Untouched region before after)
include untouched

theorem isStateActive {state : StateId} (inside : before.Inside region state) :
    after.isStateActive state = before.isStateActive state := by
  unfold Machine.isStateActive
  rw [untouched.states state inside]

theorem isRegionActive {nested : RegionId} (within : before.Within region nested) :
    after.isRegionActive nested = before.isRegionActive nested := by
  unfold Machine.isRegionActive
  rw [untouched.regions nested within]

theorem idle (same : SameChart before after) (idle : before.Idle region) : after.Idle region := by
  refine ⟨?_, fun state contained => ?_⟩
  · rw [untouched.isRegionActive (Within.refl before region)]
    exact idle.1
  · rw [same.containerOf?] at contained
    rw [untouched.isStateActive (.member contained)]
    exact idle.2 state contained

end Untouched

namespace Moved

variable {spot : Option RegionId} {before middle after : Machine}

theorem sameChart (moved : Moved spot before after) : SameChart before after :=
  moved.changes.sameChart

theorem refl (spot : Option RegionId) {machine : Machine} (coherent : machine.Coherent) :
    Moved spot machine machine where
  changes := Relation.ReflTransGen.refl
  coherent := coherent
  spares := fun _ region _ _ _ => Untouched.refl region machine
  confined := fun _ outer _ _ _ => Confined.refl outer machine
  childless := fun _ childless => Or.inl childless

theorem guarded (moved : Moved spot before after) {here outer : RegionId}
    (isSpot : spot = some here)
    (within : before.Within outer here) (guarded : before.Guarded outer) : after.Guarded outer := by
  obtain ⟨owner, sibling, owned, ownedSibling, apart, active⟩ := guarded
  have same := moved.sameChart
  have untouched := moved.spares here sibling isSpot active (apart.within within)
  refine ⟨owner, sibling, by rw [same.ownerOf?]; exact owned,
    by rw [same.ownerOf?]; exact ownedSibling, same.apart.mpr apart, ?_⟩
  rw [untouched.isRegionActive (Within.refl before sibling)]
  exact active

theorem trans (first : Moved spot before middle) (second : Moved spot middle after) :
    Moved spot before after where
  changes := first.changes.trans second.changes
  coherent := second.coherent
  spares := by
    intro here region isSpot active apart
    have untouched := first.spares here region isSpot active apart
    refine untouched.trans (second.spares here region isSpot ?_ ?_) first.sameChart
    · rw [untouched.isRegionActive (Within.refl before region)]
      exact active
    · exact first.sameChart.apart.mpr apart
  confined := fun here outer isSpot within guarded =>
    (first.confined here outer isSpot within guarded).trans
      (second.confined here outer isSpot (first.sameChart.within.mpr within)
        (first.guarded isSpot within guarded)) first.sameChart
  childless := by
    intro region childless
    rcases second.childless region childless with earlier | isSpot
    · exact first.childless region earlier
    · exact Or.inr isSpot

theorem of_touches_outside {state : StateId} (touches : TouchesOnly state before after)
    (wired : before.Wired)
    (coherent : before.Coherent)
    (outside : ∀ here region, spot = some here → before.Apart here region →
      ¬before.Inside region state)
    (around : ∀ here outer, spot = some here → before.Within outer here →
      before.Guarded outer → before.Inside outer state) : Moved spot before after where
  changes := touches.changes
  coherent := touches.coherent coherent
  spares := by
    intro here region isSpot _ apart
    refine ⟨fun other inside => touches.others other ?_ (wired.not_inside_root inside),
      fun nested _ => touches.region? nested⟩
    rintro rfl
    exact outside here region isSpot apart inside
  confined := fun here outer isSpot within guarded =>
    Confined.of_touches touches (around here outer isSpot within guarded)
  childless := fun _ childless => Or.inl (touches.childless childless)

theorem of_touches {state : StateId} (touches : TouchesOnly state before after)
    (wired : before.Wired)
    (coherent : before.Coherent) (contained : before.containerOf? state = spot) :
    Moved spot before after := by
  refine of_touches_outside touches wired coherent (fun here region isSpot apart => ?_)
    fun here outer isSpot within _ => ?_
  · exact apart.not_inside (.member (contained.trans isSpot))
  · exact inside_iff.mpr ⟨here, contained.trans isSpot, within⟩

theorem of_emptied {state : StateId}
    (emptied : Emptied (before.Below state) (before.Beneath state) before after)
    (wired : before.Wired) (contained : before.containerOf? state = spot) :
    Moved spot before after where
  changes := emptied.changes
  coherent := emptied.coherent
  spares := by
    intro here region isSpot _ apart
    have child := contained.trans isSpot
    have notGone {other : StateId} (inside : before.Inside region other) :
        ¬before.Below state other := fun below =>
      apart.not_inside (Inside.of_below child below) inside
    refine ⟨fun other inside => emptied.states other (notGone inside)
      (wired.not_inside_root inside), fun nested within => emptied.regions nested ?_ ?_⟩
    · intro beneath
      rcases (Within.of_beneath child beneath).comparable within with around | around
      · exact apart.1 around
      · exact apart.2 around
    · intro other below containedOther
      exact notGone (inside_iff.mpr ⟨nested, containedOther, within⟩) below
  confined := by
    intro here outer isSpot within _
    have child := contained.trans isSpot
    exact Confined.of_emptied emptied
      (fun other below => (Inside.of_below child below).of_within within)
      fun region beneath => within.trans (Within.of_beneath child beneath)
  childless := by
    intro region childless
    by_cases wasChildless : before.Childless region
    · exact Or.inl wasChildless
    · right
      have notBeneath : ¬before.Beneath state region := by
        intro beneath
        have closed := emptied.closed region beneath
        rw [childless.1] at closed
        cases closed
      have active : before.isRegionActive region = true := by
        rw [← emptied.regionStatuses region notBeneath]
        exact childless.1
      -- A normal child was active before and is not any more, so it is the state itself.
      have child : ∃ other, before.containerOf? other = some region ∧
          before.kindOf? other = some .normal ∧ before.isStateActive other = true := by
        by_contra none'
        refine wasChildless ⟨active, fun other containedOther normal => ?_⟩
        cases isActive : before.isStateActive other with
        | false => rfl
        | true => exact absurd ⟨other, containedOther, normal, isActive⟩ none'
      obtain ⟨other, containedOther, normal, isActive⟩ := child
      have same := emptied.changes.sameChart
      have inactive := childless.2 other (by rw [same.containerOf?]; exact containedOther)
        (by rw [same.kindOf?]; exact normal)
      have below : before.Below state other := by
        by_contra notBelow
        rw [emptied.statuses other notBelow, isActive] at inactive
        cases inactive
      rcases below_iff_parent.mp below with here | ⟨parent, isParent, belowParent⟩
      · rw [← contained, ← here]
        exact containedOther
      · obtain ⟨nested, contained', owned⟩ := parentOf?_eq_some.mp isParent
        rw [containedOther] at contained'
        obtain rfl := Option.some.inj contained'
        exact absurd ⟨parent, owned, belowParent⟩ notBeneath

theorem of_entered {state : StateId} {node : StateNode} (wired : before.Wired)
    (coherent : before.Coherent) (found : before.state? state = some node)
    (ready : before.Ready state) (inactive : node.status.isActive = false)
    (contained : before.containerOf? state = spot) :
    Moved spot before (before.entered state node.name) where
  changes := (Change.enter found inactive (Or.inr (Or.inr trivial))).one
  coherent := coherent.entered wired found ready node.name
  spares := by
    intro here region isSpot _ apart
    refine ⟨fun other inside => ?_, fun _ _ => rfl⟩
    have different : state ≠ other := by
      rintro rfl
      exact apart.not_inside (.member (contained.trans isSpot)) inside
    rw [entered, state?_note, setStateStatus, state?_modifyState, if_neg different]
  confined := fun here outer isSpot within _ =>
    Confined.of_entered node.name (inside_iff.mpr ⟨here, contained.trans isSpot, within⟩)
  childless := by
    intro region childless
    by_cases isSpot : spot = some region
    · exact Or.inr isSpot
    · left
      refine ⟨childless.1, fun other containedOther normal => ?_⟩
      have same := sameChart_entered before state node.name
      have still := childless.2 other (by rw [same.containerOf?]; exact containedOther)
        (by rw [same.kindOf?]; exact normal)
      cases isActive : before.isStateActive other with
      | false => rfl
      | true =>
          rw [(isStateActive_entered found node.name other).mpr (Or.inr isActive)] at still
          cases still

theorem of_closed {region : RegionId} {members : Region} (coherent : before.Coherent)
    (found : before.region? region = some members) (idle : before.Idle region) :
    Moved (some region) before (before.closed region members.name) where
  changes := by
    obtain ⟨members', found', active⟩ := isRegionActive_iff.mp idle.1
    rw [found] at found'
    obtain rfl := Option.some.inj found'
    exact (Change.closeRegion found active).one
  coherent := coherent.closed idle.2 members.name
  spares := by
    intro here other isSpot _ apart
    obtain rfl := Option.some.inj isSpot
    refine ⟨fun _ _ => rfl, fun nested within => region?_closed_of_ne members.name ?_⟩
    rintro rfl
    exact apart.2 within
  confined := by
    intro here outer isSpot within _
    obtain rfl := Option.some.inj isSpot
    exact Confined.of_closed members.name within
  childless := by
    intro other childless
    left
    refine ⟨((isRegionActive_closed region members.name other).mp childless.1).2,
      fun state contained normal => ?_⟩
    have same := sameChart_setRegionStatus before region .inactive
    exact childless.2 state contained normal

theorem of_joined (spot : Option RegionId) {owner : StateId} (coherent : before.Coherent)
    (inactive : ∀ region ∈ before.regionsOf owner, before.isRegionActive region = false) :
    Moved spot before (before.joined owner) where
  changes := (Change.join inactive).one
  coherent := coherent.of_statuses (sameChart_note before _) (fun _ => rfl) fun _ => rfl
  spares := fun _ _ _ _ _ => ⟨fun _ _ => rfl, fun _ _ => rfl⟩
  confined := fun _ outer _ _ _ => Confined.of_joined outer before owner
  childless := fun _ childless => Or.inl (childless.of_statuses (sameChart_note before _)
    (fun _ => rfl) fun _ => rfl)

end Moved

/-! ### What has just happened -/

/-- The state has been entered and nothing has moved since. -/
def JustEntered (owner : StateId) (machine : Machine) : Prop :=
  ∃ (earlier : Machine) (name : String), TouchesOnly owner (earlier.entered owner name) machine

/-- The state has regions, these have joined, and nothing has moved since. -/
def JustJoined (owner : StateId) (machine : Machine) : Prop :=
  ∃ earlier : Machine, earlier.regionsOf owner ≠ [] ∧
  TouchesOnly owner (earlier.joined owner) machine

/-- A child of the region was active, and nothing has begun since. -/
def Vacated (region : RegionId) (machine : Machine) : Prop :=
  ∃ child early late, machine.containerOf? child = some region ∧
    machine.journal.toList = early ++ late ∧ replay (Event.sets child) early = true ∧
    ∀ event ∈ late, event.begins = false

/-- When the child is left, nothing but the completion of its region can follow: it is a final state
or no transition of the region leads on from it. -/
def Terminal (machine : Machine) (region : RegionId) (child : StateId) : Prop :=
  machine.kindOf? child = some .final ∨
    ∀ id ∈ machine.transitionsOf region, ∀ found, machine.transition? id = some found →
      found.source ≠ some (machine.stateName child)

/-- What the journal tells of a region that is about to complete: a terminal child of it was active
and is not any more, and nothing has begun since. -/
def ReachedTerminal (machine : Machine) (region : RegionId) (journal : List Event) : Prop :=
  ∃ child early late, machine.containerOf? child = some region ∧ machine.Terminal region child ∧
    journal = early ++ late ∧ replay (Event.sets child) early = true ∧
    replay (Event.sets child) journal = false ∧ ∀ event ∈ late, event.begins = false

theorem ReachedTerminal.vacated {machine : Machine} {region : RegionId}
    (reachedTerminal : machine.ReachedTerminal region machine.journal.toList) :
    machine.Vacated region := by
  obtain ⟨child, early, late, contained, _, told, active, _, quiet⟩ := reachedTerminal
  exact ⟨child, early, late, contained, told, active, quiet⟩

private theorem SameChart.terminal {before after : Machine} (same : SameChart before after)
    (wired : before.Wired) {region : RegionId} {child : StateId}
    (terminal : before.Terminal region child) : after.Terminal region child := by
  refine terminal.imp (fun isFinal => by rw [same.kindOf?]; exact isFinal) fun free id listed => ?_
  rw [same.transitionsOf] at listed
  rw [same.stateName]
  obtain ⟨earlier, present, _⟩ := wired.registered region id listed
  intro found foundNow
  rw [same.kept id earlier present] at foundNow
  obtain rfl := Option.some.inj foundNow
  exact free id listed earlier present

theorem Terminal.before_sameChart {before after : Machine} {region : RegionId} {child : StateId}
    (terminal : after.Terminal region child) (same : SameChart before after) :
    before.Terminal region child := by
  refine terminal.imp (fun isFinal => ?_) fun free id listed => ?_
  · rw [← same.kindOf?]
    exact isFinal
  · rw [← same.transitionsOf] at listed
    rw [← same.stateName]
    exact fun found present => free id listed found (same.kept id found present)

theorem ReachedTerminal.before_sameChart {before after : Machine} {region : RegionId}
    {journal : List Event}
    (reachedTerminal : after.ReachedTerminal region journal) (same : SameChart before after) :
    before.ReachedTerminal region journal := by
  obtain ⟨child, early, late, contained, terminal, rest⟩ := reachedTerminal
  rw [same.containerOf?] at contained
  exact ⟨child, early, late, contained, terminal.before_sameChart same, rest⟩

/-- The regions of a state have been opened one after the other, and nothing else happened. -/
structure Opened (regions : List RegionId) (before after : Machine) : Prop where
  changes : Changes before after
  coherent : after.Coherent
  states : after.states = before.states
  opened : ∀ region, after.isRegionActive region = true ↔
    region ∈ regions ∨ before.isRegionActive region = true
  others : ∀ region, region ∉ regions → after.region? region = before.region? region
  remembered : ∀ region, after.lastActive? region = before.lastActive? region
  told : Told before after
    (regions.map fun region => .notice (.regionActivated region (before.regionName region)))

theorem Opened.confined {regions : List RegionId} {outer : RegionId} {before after : Machine}
    (opened : Opened regions before after)
    (within : ∀ region ∈ regions, before.Within outer region) : Confined outer before after where
  states := fun state _ _ => by simp only [state?, opened.states]
  regions := fun region outside => opened.others region fun listed => outside (within region listed)
  told := by
    refine ⟨_, opened.told, fun event member region sets => ?_⟩
    obtain ⟨other, listed, rfl⟩ := List.mem_map.mp member
    rw [Event.setsRegion_activated] at sets
    obtain rfl : other = region := by
      by_contra different
      exact sets (if_neg different)
    exact within other listed

theorem Opened.isStateActive {regions : List RegionId} {before after : Machine}
    (opened : Opened regions before after) (state : StateId) :
    after.isStateActive state = before.isStateActive state := by
  simp only [Machine.isStateActive, state?, opened.states]

theorem Opened.untouched {regions : List RegionId} {region : RegionId} {before after : Machine}
    (opened : Opened regions before after)
    (apart : ∀ other ∈ regions, before.Apart other region) : Untouched region before after where
  states := fun state _ => by simp only [state?, opened.states]
  regions := fun nested within =>
    opened.others nested fun listed => (apart nested listed).2 within

theorem Opened.guarded {regions : List RegionId} {outer : RegionId} {before after : Machine}
    (opened : Opened regions before after) (guarded : before.Guarded outer) :
    after.Guarded outer := by
  obtain ⟨top, sibling, ownedOuter, ownedSibling, apart, isActive⟩ := guarded
  have same := opened.changes.sameChart
  exact ⟨top, sibling, by rw [same.ownerOf?]; exact ownedOuter,
    by rw [same.ownerOf?]; exact ownedSibling, same.apart.mpr apart,
    (opened.opened sibling).mpr (Or.inr isActive)⟩

theorem Emptied.idle {before after : Machine} {state : StateId} {region : RegionId}
    (emptied : Emptied (before.Below state) (before.Beneath state) before after)
    (wired : before.Wired) (coherent : before.Coherent)
    (contained : before.containerOf? state = some region)
    (active : before.isStateActive state = true) : after.Idle region :=
  emptied.idle_of_gone (Or.inl rfl) (wired.not_beneath_container contained) wired coherent contained
    active

theorem Emptied.reachedTerminal {before after : Machine} {gone : StateId → Prop}
    {shut : RegionId → Prop}
    {state : StateId} {region : RegionId} (emptied : Emptied gone shut before after)
    (retold : before.Retold) (wired : before.Wired)
    (contained : before.containerOf? state = some region) (isGone : gone state)
    (active : before.isStateActive state = true) (terminal : before.Terminal region state) :
    after.ReachedTerminal region after.journal.toList := by
  obtain ⟨events, told, ends, _⟩ := emptied.told
  have same := emptied.changes.sameChart
  refine ⟨state, before.journal.toList, events, ?_, same.terminal wired terminal,
    told, ?_, ?_, ends⟩
  · rw [same.containerOf?]
    exact contained
  · rw [retold.states]
    exact active
  · rw [(emptied.changes.retold retold).states]
    exact emptied.left state isGone

theorem Emptied.of_single {before after : Machine} {state : StateId}
    (emptied : Emptied (fun other => other = state) (fun _ => False) before after)
    (wired : before.Wired) (coherent : before.Coherent)
    (bare : ∀ region, before.ownerOf? region = some state →
      before.isRegionActive region = false) :
    Emptied (before.Below state) (before.Beneath state) before after := by
  refine emptied.widen (fun other here => Or.inl here) (fun other below different => ?_)
    (fun _ impossible => impossible.elim) fun region beneath _ => ?_
  · rcases below with here | ⟨region, owned, inside⟩
    · exact absurd here different
    · cases isActive : before.isStateActive other with
      | false => rfl
      | true =>
          have around := coherent.active_around wired inside isActive
          rw [bare region owned] at around
          cases around
  · obtain ⟨outer, owned, within⟩ := beneath_iff.mp beneath
    cases isActive : before.isRegionActive region with
    | false => rfl
    | true =>
        have around := coherent.active_outside wired within isActive
        rw [bare outer owned] at around
        cases around

end Machine

namespace Run

open Machine (Uneventful TouchesOnly Emptied Opened Moved Settled Orderly)

/-- A relation between machines that every single step of a calm machine respects. Leaving states
is asked for only where a cascade leaves them: pseudostates, automatic states, and composite ones
whose regions have just joined. A region is closed only when its child has been left, and the last
one of its owner together with the notice that all have joined. Resuming a history may be judged as
a whole. -/
structure Respects (mayFail : Prop) (related : Machine → Machine → Prop) : Prop where
  refl : ∀ machine, related machine machine
  trans : ∀ {before middle after}, related before middle → related middle after →
    related before after
  still : ∀ {before after}, Uneventful before after → related before after
  emptied : ∀ {before after : Machine} {state : StateId}, before.Orderly mayFail →
    before.Coherent → before.isStateActive state = true →
    (∀ region, before.ownerOf? region = some state → before.isRegionActive region = false) →
    (∀ node, before.state? state = some node → node.kind = .normal ∨ node.kind = .root →
      node.config.autoTransition = true ∨ before.JustJoined state) →
    Emptied (before.Below state) (before.Beneath state) before after → related before after
  opened : ∀ {machine after : Machine} {owner : StateId}, machine.Orderly mayFail →
    machine.Coherent → machine.isStateActive owner = true →
    (∀ region ∈ machine.regionsOf owner, machine.isRegionActive region = false) →
    machine.JustEntered owner → Opened (machine.regionsOf owner) machine after →
    related machine after
  closed : ∀ {machine : Machine} {region : RegionId} {members : Region},
    machine.Orderly mayFail → machine.Coherent → machine.region? region = some members →
    machine.Idle region → machine.ReachedTerminal region machine.journal.toList →
    (∃ sibling ∈ machine.regionsOf members.owner, sibling ≠ region ∧
      machine.isRegionActive sibling = true) →
    related machine (machine.closed region members.name)
  joined : ∀ {machine : Machine} {region : RegionId} {members : Region},
    machine.Orderly mayFail → machine.Coherent → machine.region? region = some members →
    machine.Idle region → machine.ReachedTerminal region machine.journal.toList →
    (∀ sibling ∈ machine.regionsOf members.owner, sibling ≠ region →
      machine.isRegionActive sibling = false) →
    related machine ((machine.closed region members.name).joined members.owner)
  entered : ∀ {machine : Machine} {state : StateId} {node : StateNode},
    machine.Orderly mayFail → machine.Coherent → machine.state? state = some node →
    machine.Ready state → (∀ depth, node.kind ≠ .history depth) →
    related machine (machine.entered state node.name)
  resumed : ∀ {machine after : Machine} {state : StateId} {node : StateNode}
    {history : HistoryDepth} {depth : Nat}, machine.Orderly mayFail → machine.Coherent →
    machine.state? state = some node → machine.Ready state → node.kind = .history history →
    activate (calls depth) state machine = .ok () after →
    related (machine.entered state node.name) after → related machine after

theorem respects_trivial (mayFail : Prop) : Respects mayFail fun _ _ => True where
  refl := fun _ => trivial
  trans := fun _ _ => trivial
  still := fun _ => trivial
  emptied := fun _ _ _ _ _ _ => trivial
  opened := fun _ _ _ _ _ _ => trivial
  closed := fun _ _ _ _ _ _ => trivial
  joined := fun _ _ _ _ _ _ => trivial
  entered := fun _ _ _ _ _ => trivial
  resumed := fun _ _ _ _ _ _ _ => trivial

/-- Leaving a state and going on in the region around it. -/
def Departed (related : Machine → Machine → Prop) (state : StateId) (before after : Machine) :
    Prop :=
  ∃ ready empty : Machine, TouchesOnly state before ready ∧
    Emptied (ready.Below state) (ready.Beneath state) ready empty ∧
    Settled related (before.containerOf? state) empty after

theorem Respects.settled_note {mayFail : Prop} {related : Machine → Machine → Prop}
    (respects : Respects mayFail related) {spot : Option RegionId} {before after : Machine}
    (settled : Settled related spot before after) {event : Event}
    (uneventful : event.isUneventful = true) :
    Settled related spot before (after.note event) := by
  have still := (TouchesOnly.note Machine.root after uneventful).toUneventful
  exact
    { changes := settled.changes.trans still.changes
      coherent := still.coherent settled.coherent
      spares := fun here region isSpot active apart =>
        let untouched := settled.spares here region isSpot active apart
        ⟨untouched.states, untouched.regions⟩
      confined := fun here outer isSpot within guarded =>
        (settled.confined here outer isSpot within guarded).trans
          { states := fun _ _ _ => rfl
            regions := fun _ _ => rfl
            told := ⟨[event], Machine.told_note after event, by
              simpa using fun region sets => absurd
                (Event.setsRegion_of_still
                  (Event.moves_of_isPlain (Event.isPlain_of_isUneventful uneventful)) region) sets⟩
                  }
          settled.changes.sameChart
      childless := fun region childless => settled.childless region (still.childless childless)
      fed := fun region isSpot childless => settled.fed region isSpot (still.childless childless)
      relates := respects.trans settled.relates (respects.still still) }

theorem Departed.after_touches {related : Machine → Machine → Prop} {before middle after : Machine}
    {state : StateId} (touches : TouchesOnly state before middle)
    (departed : Departed related state middle after) : Departed related state before after := by
  obtain ⟨ready, empty, touches', emptied, settled⟩ := departed
  rw [touches.sameChart.containerOf?] at settled
  exact ⟨ready, empty, touches.trans touches', emptied, settled⟩

section Composition

variable {mayFail : Prop} {related : Machine → Machine → Prop}
variable (respects : Respects mayFail related)
variable {spot : Option RegionId} {before middle after : Machine}

omit respects in
theorem settled_after_moved {related : Machine → Machine → Prop}
    (transitive : related before after) (first : Moved spot before middle)
    (second : Settled related spot middle after) : Settled related spot before after where
  toMoved := first.trans second.toMoved
  fed := second.fed
  relates := transitive

include respects

theorem Respects.after_touches {state : StateId} (wired : before.Wired) (coherent : before.Coherent)
    (touches : TouchesOnly state before middle) (contained : before.containerOf? state = spot)
    (settled : Settled related spot middle after) : Settled related spot before after :=
  settled_after_moved (respects.trans (respects.still touches.toUneventful) settled.relates)
    (Moved.of_touches touches wired coherent contained) settled

theorem Respects.settled_of_departed {state : StateId} (orderly : before.Orderly mayFail)
    (coherent : before.Coherent) (active : before.isStateActive state = true)
    (bare : ∀ region, before.ownerOf? region = some state →
      before.isRegionActive region = false)
    (passing : ∀ node, before.state? state = some node →
      node.kind = .normal ∨ node.kind = .root →
      node.config.autoTransition = true ∨ before.JustJoined state)
    (departed : Departed related state before after) :
    Settled related (before.containerOf? state) before after := by
  obtain ⟨ready, empty, touches, emptied, settled⟩ := departed
  have same := touches.sameChart
  have orderlyReady := orderly.of_changes touches.changes
  have coherentReady := touches.coherent coherent
  have relates : related ready empty := by
    refine respects.emptied orderlyReady coherentReady ?_ (fun region owned => ?_)
      (fun node found stays => ?_) emptied
    · rw [touches.toStill.states]
      exact active
    · rw [same.ownerOf?] at owned
      rw [touches.isRegionActive]
      exact bare region owned
    · obtain ⟨node', found', fixed⟩ := same.state?_backward found
      have kind : node'.kind = node.kind :=
        StateNode.read_eq fixed StateNode.kind fun _ => rfl
      have config : node'.config = node.config :=
        StateNode.read_eq fixed StateNode.config fun _ => rfl
      refine (passing node' found' (by rw [kind]; exact stays)).imp (fun automatic => ?_) ?_
      · rw [← config]
        exact automatic
      · rintro ⟨earlier, owns, joins⟩
        exact ⟨earlier, owns, joins.trans touches⟩
  refine respects.after_touches orderly.toWired coherent touches rfl
    (settled_after_moved (respects.trans relates settled.relates) ?_ settled)
  exact Moved.of_emptied emptied orderlyReady.toWired (same.containerOf? state)

end Composition

end Run
end Chart
