import Chart.Proofs.Run.Entering

set_option autoImplicit false

/-!
Completion. A state that completes either stays, having at most run callbacks, or departs: it is
left as a whole and its region is settled. A region that completes settles itself, and when it was
the last active one of its owner, the completion of the owner settles the region around that. All
this over calls that behave in the same way one level further down.
-/

namespace Chart.Run

open Machine (Orderly Settled Moved TouchesOnly Emptied)

/-- What comes of a trigger whose container is active: a transition that fires leaves its source
and settles the region, any other outcome at most runs callbacks. -/
def Answers (related : Machine → Machine → Prop) (found : Transition) (members : Region)
    (machine : Machine) (outcome : Outcome) (after : Machine) : Prop :=
  ∃ source, Machine.sourceOf members found = .ok source ∧
    (outcome = .fired → machine.isStateActive source = true ∧
      Departed related source machine after) ∧
    (outcome ≠ .fired → TouchesOnly source machine after) ∧
    (found.guard = none → found.internal = false → machine.isStateActive source = true →
      outcome = .fired)

/-- The calls do what operations of a calm machine do. -/
structure Steady (mayFail : Prop) (related : Machine → Machine → Prop) (calls : Calls) : Prop where
  trigger : ∀ (machine : Machine) (id : TransitionId) (memo : Value) (found : Transition)
    (region : RegionId) (members : Region), machine.Orderly mayFail → machine.Coherent →
    machine.transition? id = some found → found.container = some region →
    machine.region? region = some members → members.status.isActive = true →
    (¬mayFail → machine.Starts members found ∧ machine.LeadsOn region found) →
    Ends (calls.trigger id memo) machine (Answers related found members machine)
      (Aborted mayFail)
  enter : ∀ (machine : Machine) (state : StateId), machine.Orderly mayFail → machine.Coherent →
    machine.Ready state → (machine.state? state).isSome →
    Ends (calls.enter state) machine
      (fun _ after => Settled related (machine.containerOf? state) machine after)
      (Aborted mayFail)
  activate : ∀ (machine : Machine) (state : StateId), machine.Orderly mayFail →
    machine.Coherent → machine.Ready state → (machine.state? state).isSome →
    Ends (calls.activate state) machine
      (fun _ after => Settled related (machine.containerOf? state) machine after)
      (Aborted mayFail)
  completeRegion : ∀ (machine : Machine) (region : RegionId), machine.Orderly mayFail →
    machine.Coherent → machine.Idle region → machine.ReachedTerminal region machine.journal.toList →
    Ends (calls.completeRegion region) machine
      (fun _ after => Settled related (some region) machine after) (Aborted mayFail)

variable {mayFail : Prop} {related : Machine → Machine → Prop} {calls : Calls}
variable (respects : Respects mayFail related) (steady : Steady mayFail related calls)

theorem firstOutgoing?_spec {machine : Machine} (wired : machine.Wired) {region : RegionId}
    {name : String} {id : TransitionId} (first : firstOutgoing? machine region name = some id) :
    ∃ found, machine.transition? id = some found ∧ found.container = some region ∧
      found.source = some name ∧ id ∈ machine.transitionsOf region := by
  have listed := List.mem_of_find?_eq_some first
  obtain ⟨found, present, contained⟩ := wired.registered region id listed
  have isSource := List.find?_some first
  rw [present] at isSource
  exact ⟨found, present, contained, by simpa using isSource, listed⟩

private theorem terminal_of_firstOutgoing? {machine : Machine} {region : RegionId} {state : StateId}
    {node : StateNode} (present : machine.state? state = some node)
    (first : firstOutgoing? machine region node.name = none) : machine.Terminal region state := by
  refine Or.inr fun id listed found known isSource => ?_
  have none' := List.find?_eq_none.mp first id listed
  rw [known] at none'
  rw [Machine.stateName, present] at isSource
  exact none' (by simpa using isSource)

theorem sourceOf_child {machine : Machine} (wired : machine.Wired) {region : RegionId}
    {members : Region} {state : StateId} {node : StateNode} {found : Transition}
    (stored : machine.region? region = some members) (present : machine.state? state = some node)
    (contained : machine.containerOf? state = some region)
    (source : found.source = some node.name) :
    Machine.sourceOf members found = .ok state := by
  have listed : state ∈ members.states := by
    have member := (wired.listed state region).mp contained
    rw [Machine.statesOf, stored] at member
    exact member
  have named : machine.stateName state = node.name := by
    rw [Machine.stateName, present]
    rfl
  have indexed := (wired.indexed region members node.name state stored).mpr ⟨listed, named⟩
  unfold Machine.sourceOf
  rw [source]
  dsimp only
  rw [indexed]

theorem settled_none {mayFail : Prop} {related : Machine → Machine → Prop}
    (respects : Respects mayFail related) {machine : Machine} (coherent : machine.Coherent) :
    Settled related none machine machine where
  toMoved := Moved.refl none coherent
  fed := fun _ impossible => by cases impossible
  relates := respects.refl machine

include respects steady

theorem ends_completeState {machine : Machine} {state : StateId}
    (orderly : machine.Orderly mayFail) (coherent : machine.Coherent)
    (active : machine.isStateActive state = true) :
    Ends (completeState calls state) machine
      (fun _ after => TouchesOnly state machine after ∨ Departed related state machine after)
      (Aborted mayFail) := by
  obtain ⟨node, present, isActive⟩ := Machine.isStateActive_iff.mp active
  unfold completeState
  rw [ends_bind, ends_get, present]
  dsimp only
  cases container : node.container with
  | none =>
      dsimp only
      have free : machine.containerOf? state = none := by
        rw [Machine.containerOf?, present]
        exact container
      split
      · rw [ends_bind, ends_report]
        have told : TouchesOnly state machine (machine.note (.notice .machineCompleted)) :=
          TouchesOnly.note state machine rfl
        refine (ends_exit (orderly.of_changes told.changes).leavable (told.coherent coherent)
          (by rw [told.toStill.states]; exact active)).mono (fun _ after emptied => ?_)
          fun _ _ failure => failure
        refine Or.inr ⟨_, after, told, emptied, ?_⟩
        rw [free]
        exact settled_none respects emptied.coherent
      · exact Or.inl (TouchesOnly.refl state machine)
  | some region =>
      dsimp only
      have contained : machine.containerOf? state = some region :=
        Machine.containerOf?_eq_some.mpr ⟨node, present, container⟩
      have regionActive := coherent.container_active orderly.toWired active contained
      obtain ⟨members, stored, membersActive⟩ := Machine.isRegionActive_iff.mp regionActive
      cases first : firstOutgoing? machine region node.name with
      | some id =>
          dsimp only
          obtain ⟨found, known, inRegion, source, listed⟩ :=
            firstOutgoing?_spec orderly.toWired first
          rw [ends_discard]
          refine (steady.trigger machine id .null found region members orderly coherent known
            inRegion stored membersActive fun strict => ?_).mono (fun outcome after answers => ?_)
            fun _ _ failure => failure
          · refine (orderly.closed strict).registered region members id found
              (coherent.attached orderly.toWired regionActive) stored ?_ known
            rw [Machine.transitionsOf, stored] at listed
            exact listed
          · obtain ⟨found', resolved, whenFired, otherwise, _⟩ := answers
            rw [sourceOf_child orderly.toWired stored present contained source] at resolved
            obtain rfl := Except.ok.inj resolved
            by_cases fired : outcome = .fired
            · exact Or.inr (whenFired fired).2
            · exact Or.inl (otherwise fired)
      | none =>
          dsimp only
          rw [ends_bind]
          refine (ends_exit orderly.leavable coherent active).mono (fun _ empty emptied => ?_)
            fun _ _ failure => failure
          refine (steady.completeRegion empty region (orderly.of_changes emptied.changes)
            emptied.coherent (emptied.idle orderly.toWired coherent contained active)
            (emptied.reachedTerminal orderly.linked.retold orderly.toWired contained
              (Machine.Below.refl machine state) active
              (terminal_of_firstOutgoing? present first))).mono
            (fun _ after settled => ?_) fun _ _ failure => failure
          refine Or.inr ⟨machine, empty, TouchesOnly.refl state machine, emptied, ?_⟩
          rw [contained]
          exact settled

omit respects steady in
theorem apart_of_joined {machine : Machine} (wired : machine.Wired)
    (coherent : machine.Coherent) {region around other : RegionId} {owner : StateId}
    (owned : machine.ownerOf? region = some owner)
    (contained : machine.containerOf? owner = some around)
    (ownerActive : machine.isStateActive owner = true)
    (joined : ∀ nested, machine.ownerOf? nested = some owner →
      machine.isRegionActive nested = false)
    (active : machine.isRegionActive other = true) (apart : machine.Apart region other) :
    machine.Apart around other := by
  have nested := Machine.Within.of_member owned contained
  constructor
  · rintro (same | ⟨above, ownedOther, inside⟩)
    · rw [same] at apart
      exact apart.2 nested
    · have aboveActive := coherent.owner_active active ownedOther
      have here := coherent.eq_of_inside wired contained ownerActive joined inside
        aboveActive
      rw [here] at ownedOther
      rw [joined other ownedOther] at active
      cases active
  · intro outer
    exact apart.2 (outer.trans nested)

omit respects steady in
/-- While the regions of a state are inactive, nothing apart from one of them is active unless the
state lies in a region itself. -/
theorem exists_around_of_joined {machine : Machine} (wired : machine.Wired)
    (coherent : machine.Coherent) {owner : StateId} {other : RegionId}
    (ownerActive : machine.isStateActive owner = true)
    (joined : ∀ nested, machine.ownerOf? nested = some owner →
      machine.isRegionActive nested = false)
    (active : machine.isRegionActive other = true) :
    ∃ around, machine.containerOf? owner = some around := by
  cases contained : machine.containerOf? owner with
  | some around => exact ⟨around, rfl⟩
  | none =>
      obtain ⟨top, ownedTop, within⟩ := coherent.attached wired active
      have topActive := coherent.active_outside wired within active
      rw [← coherent.eq_root_of_detached ownerActive contained] at ownedTop
      rw [joined top ownedTop] at topActive
      cases topActive

/-- When the regions of an active state have joined, its completion settles each of them: it only
runs callbacks, or leaves the state and settles the region around it. -/
theorem ends_completeOwner {machine : Machine} {region : RegionId} {owner : StateId}
    (orderly : machine.Orderly mayFail) (coherent : machine.Coherent)
    (owned : machine.ownerOf? region = some owner)
    (ownerActive : machine.isStateActive owner = true)
    (bare : ∀ nested, machine.ownerOf? nested = some owner →
      machine.isRegionActive nested = false)
    (justJoined : machine.JustJoined owner) :
    Ends (completeState calls owner) machine
      (fun _ after => Settled related (some region) machine after) (Aborted mayFail) := by
  have notChildless : ¬machine.Childless region := by
    intro childless
    have isActive := childless.1
    rw [bare region owned] at isActive
    cases isActive
  -- A guarded region around this one is not this one, as none of the owner's is active any more.
  have around (outer : RegionId) (within : machine.Within outer region)
      (guarded : machine.Guarded outer) : machine.Inside outer owner := by
    rcases within.inside_owner owned with same | inside
    · obtain ⟨parent, sibling, ownedBy, ownedSibling, _, active⟩ := guarded
      rw [← same, owned] at ownedBy
      obtain rfl := Option.some.inj ownedBy
      rw [bare sibling ownedSibling] at active
      cases active
    · exact inside
  refine (ends_completeState respects steady orderly coherent ownerActive).mono
    (fun _ after ended => ?_) fun _ _ failure => failure
  rcases ended with touches | departed
  · refine { toMoved := Moved.of_touches_outside touches orderly.toWired coherent ?_ ?_, fed := ?_
             relates := respects.still touches.toUneventful }
    · intro here other isSpot apart inside
      obtain rfl := Option.some.inj isSpot
      exact apart.2 (Machine.Within.of_owner owned inside)
    · intro here outer isSpot within guarded
      obtain rfl := Option.some.inj isSpot
      exact around outer within guarded
    · intro here isSpot childless
      obtain rfl := Option.some.inj isSpot
      exact notChildless (touches.childless childless)
  · have settled := respects.settled_of_departed orderly coherent ownerActive bare
      (fun _ _ _ => Or.inr justJoined) departed
    refine { changes := settled.changes, coherent := settled.coherent, spares := ?_
             confined := ?_, childless := ?_, fed := ?_, relates := settled.relates }
    · intro here other isSpot isActive apart
      obtain rfl := Option.some.inj isSpot
      obtain ⟨around, contained⟩ :=
        exists_around_of_joined orderly.toWired coherent ownerActive bare isActive
      exact settled.spares around other contained isActive
        (apart_of_joined orderly.toWired coherent owned contained ownerActive bare isActive apart)
    · intro here outer isSpot within guarded
      obtain rfl := Option.some.inj isSpot
      obtain ⟨nested, contained, withinNested⟩ :=
        Machine.inside_iff.mp (around outer within guarded)
      exact settled.confined nested outer contained withinNested guarded
    · intro other childless
      rcases settled.childless other childless with before | isSpot
      · exact Or.inl before
      · exact absurd childless (settled.fed other isSpot)
    · intro here isSpot childless
      obtain rfl := Option.some.inj isSpot
      rcases settled.childless region childless with before | around
      · exact notChildless before
      · exact orderly.toWired.not_inside_own_region owned (Machine.Inside.member around)

section Closing

variable {machine : Machine} {region : RegionId} {members : Region}
  (orderly : machine.Orderly mayFail) (coherent : machine.Coherent)
  (found : machine.region? region = some members) (idle : machine.Idle region)
  (reachedTerminal : machine.ReachedTerminal region machine.journal.toList)
include orderly coherent found idle reachedTerminal

/-- The last active region of a state has been closed: the regions join, and the state completes. -/
theorem ends_completeState_joined
    (inactive : ∀ nested ∈ (machine.closed region members.name).regionsOf members.owner,
      (machine.closed region members.name).isRegionActive nested = false) :
    Ends (completeState calls members.owner)
      ((machine.closed region members.name).joined members.owner)
      (fun _ after => Settled related (some region) machine after) (Aborted mayFail) := by
  have moved : Moved (some region) machine (machine.closed region members.name) :=
    Moved.of_closed coherent found idle
  have same := moved.sameChart
  have orderlyClosed := orderly.of_changes moved.changes
  have relatesJoined :
      related machine ((machine.closed region members.name).joined members.owner) := by
    refine respects.joined orderly coherent found idle reachedTerminal
      fun sibling listed different => ?_
    rw [← Machine.isRegionActive_closed_of_ne members.name different]
    refine inactive sibling ?_
    rw [same.regionsOf]
    exact listed
  have owned : machine.ownerOf? region = some members.owner :=
    Machine.ownerOf?_eq_some.mpr ⟨members, found, rfl⟩
  set joined := (machine.closed region members.name).joined members.owner with joinedIs
  have toJoined : Moved (some region) machine joined :=
    moved.trans (Moved.of_joined _ moved.coherent inactive)
  have ownedJoined : joined.ownerOf? region = some members.owner := by
    rw [toJoined.sameChart.ownerOf?]
    exact owned
  have bare (nested : RegionId) (ownedNested : joined.ownerOf? nested = some members.owner) :
      joined.isRegionActive nested = false :=
    inactive nested ((orderlyClosed.owned nested members.owner).mp ownedNested)
  have justJoined : joined.JustJoined members.owner :=
    ⟨machine.closed region members.name,
      List.ne_nil_of_mem ((orderlyClosed.owned region members.owner).mp ownedJoined),
      TouchesOnly.refl _ _⟩
  refine (ends_completeOwner respects steady (orderly.of_changes toJoined.changes)
    toJoined.coherent ownedJoined (coherent.owner_active idle.1 owned) bare justJoined).mono
    (fun _ after settled => ?_) fun _ _ failure => failure
  exact settled_after_moved (respects.trans relatesJoined settled.relates) toJoined settled

omit steady in
private theorem settled_closed
    (sibling : ∃ sibling ∈ machine.regionsOf members.owner, sibling ≠ region ∧
      machine.isRegionActive sibling = true) :
    Settled related (some region) machine (machine.closed region members.name) where
  toMoved := Moved.of_closed coherent found idle
  fed := by
    intro here isSpot childless
    obtain rfl := Option.some.inj isSpot
    have isActive := childless.1
    rw [machine.isRegionActive_closed_self] at isActive
    cases isActive
  relates := respects.closed orderly coherent found idle reachedTerminal sibling

end Closing

/-- A region whose child has been left completes, and its owner with it if that was the last one. -/
theorem ends_completeRegion {machine : Machine} {region : RegionId}
    (orderly : machine.Orderly mayFail) (coherent : machine.Coherent)
    (idle : machine.Idle region)
    (reachedTerminal : machine.ReachedTerminal region machine.journal.toList) :
    Ends (completeRegion calls region) machine
      (fun _ after => Settled related (some region) machine after) (Aborted mayFail) := by
  unfold completeRegion
  rw [ends_bind]
  refine (ends_deactivateRegion_emptied coherent idle.1 idle.2).mono (fun answer after closes => ?_)
    fun _ _ failure => failure
  obtain ⟨isTrue, members, found, isClosed, _⟩ := closes
  subst isTrue
  subst isClosed
  have same := (Moved.of_closed coherent found idle).sameChart
  rw [if_pos rfl, ends_bind, ends_get]
  obtain ⟨members', foundNow, fixed⟩ := same.region?_forward found
  rw [foundNow]
  dsimp only
  rw [Region.read_eq fixed Region.owner fun _ => rfl]
  split
  · rename_i allInactive
    rw [ends_bind, ends_report]
    refine ends_completeState_joined respects steady orderly coherent found idle reachedTerminal
      fun nested listed => ?_
    simpa using List.all_eq_true.mp allInactive nested listed
  · rename_i someActive
    refine settled_closed respects orderly coherent found idle reachedTerminal ?_
    by_contra noSibling
    refine someActive (List.all_eq_true.mpr fun sibling listed => ?_)
    by_cases here : sibling = region
    · rw [here, machine.isRegionActive_closed_self]
      rfl
    · rw [Machine.isRegionActive_closed_of_ne members.name here]
      cases isActive : machine.isRegionActive sibling with
      | false => rfl
      | true =>
          rw [same.regionsOf] at listed
          exact absurd ⟨sibling, listed, here, isActive⟩ noSibling

end Chart.Run
