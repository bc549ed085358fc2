import Chart.Proofs.Run.AgreeingRuns
import Chart.Proofs.Session.FiredTargets

set_option autoImplicit false

/-!
Transitions in regions that are apart commute. In a mechanical machine a transition touches nothing
outside its region, so another one finds its own region the same before and after it, and does the
same there. Both orders end with the same statuses and the same memories, and each transition
records the same firings in both.
-/

namespace Chart.Machine

/-! ### Mechanical machines -/

private theorem Mechanical.calm {machine : Machine} (mechanical : machine.Mechanical) :
    machine.Calm True where
  behaviors := by
    intro state node behavior found runs
    have bare := mechanical.states state node found
    rcases runs with entry | exit | activity
    · rw [bare.entry] at entry
      cases entry
    · rw [bare.exit] at exit
      cases exit
    · rw [bare.activity] at activity
      cases activity
  effects := by
    intro id found effect memo known isEffect
    rw [(mechanical.transitions id found known).2] at isEffect
    cases isEffect
  leaves := by
    intro state node found automatic
    rw [(mechanical.states state node found).enduring] at automatic
    cases automatic

/-- The transition belongs to the region and leads, as names are resolved now, to a normal state
without regions. -/
def LeadsToLeaf (machine : Machine) (region : RegionId) (id : TransitionId) : Prop :=
  ∃ found ends, machine.transition? id = some found ∧ found.container = some region ∧
    machine.endpoints id = .ok ends ∧ machine.kindOf? ends.target = some .normal ∧
    machine.regionsOf ends.target = []

section Start

variable {base image : Machine} {region : RegionId} {id : TransitionId}

/-- The machines agree in the region and nothing has been done to them yet. -/
abbrev Alike (region : RegionId) (one other : Machine) : Prop := AgreeIn one other region one other

theorem Alike.symm (alike : Alike region base image) : Alike region image base where
  changes := Relation.ReflTransGen.refl
  chart :=
    { states := fun state => (alike.chart.states state).symm
      regions := fun region => (alike.chart.regions region).symm
      nesting := alike.chart.nesting.symm
      kept := fun id found present => by rw [transition?, ← alike.alike]; exact present
      chosen := fun id found present => Or.inl (by rw [transition?, alike.alike]; exact present) }
  transitions := rfl
  alike := alike.alike.symm
  states := by
    intro state near
    unfold Local at near
    rw [alike.chart.inside, alike.chart.ownerOf?] at near
    exact (alike.states state near).symm
  regions := fun inner within => (alike.regions inner (alike.chart.within.mp within)).symm
  owner := by
    intro owner owned
    rw [alike.chart.ownerOf?] at owned
    rw [alike.states owner (Or.inr owned)]
    exact alike.owner owner owned
  logged := ⟨[], by simp, by simp⟩

private theorem LeadsToLeaf.of_alike (leadsToLeaf : base.LeadsToLeaf region id)
    (alike : Alike region base image) :
    image.LeadsToLeaf region id := by
  obtain ⟨found, ends, known, contained, resolved, normal, bare⟩ := leadsToLeaf
  refine ⟨found, ends, alike.chart.kept id found known, contained, ?_, ?_, ?_⟩
  · rw [alike.endpoints known contained (Within.refl base region)]
    exact resolved
  · rw [alike.chart.kindOf?]
    exact normal
  · rw [alike.chart.regionsOf]
    exact bare

end Start

private theorem LeadsToLeaf.region_active {machine : Machine} {region : RegionId}
    {id : TransitionId}
    (leadsToLeaf : machine.LeadsToLeaf region id) (formed : machine.Formed) :
    machine.isRegionActive region = true := by
  obtain ⟨found, ends, known, contained, resolved, _⟩ := leadsToLeaf
  exact (endpoints_spec formed known contained resolved).1

/-! ### One transition -/

section Fired

variable {machine after image : Machine} {region other : RegionId}
  {id : TransitionId} {memo : Value}
variable {depth : Nat}
variable (reached : machine.Reached answeredRuns) (mechanical : machine.Mechanical)
variable (leadsToLeaf : machine.LeadsToLeaf region id)
variable (fires : Run.triggerHandle depth id memo machine = .ok .fired after)
include reached mechanical leadsToLeaf fires

private theorem Reached.attained_of_leadsToLeaf :
    ∃ target, machine.Inside region target ∧ Attained region target machine after := by
  obtain ⟨found, ends, known, contained, resolved, normal, bare⟩ := leadsToLeaf
  obtain ⟨node, stored, isNormal⟩ := kindOf?_eq_some.mp normal
  have calm := mechanical.calm
  exact ⟨ends.target, (endpoints_spec reached.formed known contained resolved).2.2,
    Run.attained_of_fired (reached.formed.orderly reached.linked calm) (reached.coherent calm) known
      contained resolved
      (Or.inr ⟨node, stored, isNormal, (mechanical.states _ node stored).enduring⟩)
      bare fires⟩

/-- What the transition does it does to every machine that agrees with this one in its region. -/
theorem Reached.fires_alike (alike : Alike region machine image) :
    ∃ after', Run.triggerHandle depth id memo image = .ok .fired after' ∧
      AgreeIn machine image region after after' := by
  obtain ⟨target, _, attained⟩ := reached.attained_of_leadsToLeaf mechanical leadsToLeaf fires
  obtain ⟨found, ends, known, contained, _⟩ := leadsToLeaf
  have agreeing := @Run.agreeing_calls machine image region reached.formed reached.linked mechanical
    (depth + 1)
  refine agreeing.trigger machine image id memo found region alike known contained
    (Within.refl machine region) .fired after fires fun early name closes => ?_
  -- The region was neither opened nor closed on the way.
  obtain ⟨events, told, silent⟩ := attained.silent
  by_contra later
  rw [told] at closes
  obtain ⟨first, last, split, _⟩ := exists_split_of_prefix closes (Nat.not_lt.mp later)
  have quiet := silent (.notice (.regionDeactivated region name))
    (by rw [split]; exact List.mem_append_right _ (List.mem_cons_self ..))
  simp [Event.setsRegion] at quiet

private theorem Reached.transitions_of_fired : after.transitions = machine.transitions := by
  have coherent := reached.coherent mechanical.calm
  obtain ⟨_, _, agree⟩ := reached.fires_alike mechanical leadsToLeaf fires
    { changes := Relation.ReflTransGen.refl
      chart := SameChart.refl machine
      transitions := rfl
      alike := rfl
      states := fun _ _ => rfl
      regions := fun _ _ => rfl
      owner := fun owner owned => coherent.owner_active
        (leadsToLeaf.region_active reached.formed) owned
      logged := ⟨[], by simp, by simp⟩ }
  exact agree.transitions

private theorem Reached.active_of_fired : after.isRegionActive region = true := by
  obtain ⟨target, inside, attained⟩ := reached.attained_of_leadsToLeaf mechanical leadsToLeaf fires
  have same := (returns_of_fired fires).changes rfl |>.sameChart
  have reachedAfter := reached.after_fired fires
  exact (reachedAfter.coherent (mechanical.calm.of_sameChart same)).active_around
    reachedAfter.formed.toWired (same.inside.mpr inside) attained.active

private theorem Reached.root_active_of_fired : after.isStateActive root = true := by
  have same := (returns_of_fired fires).changes rfl |>.sameChart
  have reachedAfter := reached.after_fired fires
  exact (reachedAfter.coherent (mechanical.calm.of_sameChart same)).root_active
    reachedAfter.formed.toWired (reached.active_of_fired mechanical leadsToLeaf fires)

/-- The transition does nothing to an active region apart from its own, nor to the owner of that. -/
theorem Reached.alike_of_fired (apart : machine.Apart region other)
    (active : machine.isRegionActive other = true) : Alike other machine after := by
  obtain ⟨_, _, attained⟩ := reached.attained_of_leadsToLeaf mechanical leadsToLeaf fires
  have wired := reached.formed.toWired
  have coherent := reached.coherent mechanical.calm
  have same := (returns_of_fired fires).changes rfl |>.sameChart
  refine
    { changes := Relation.ReflTransGen.refl
      chart := same
      transitions := rfl
      alike := reached.transitions_of_fired mechanical leadsToLeaf fires
      states := fun state near => ?_
      regions := fun inner within => attained.confined.regions inner fun around => ?_
      owner := fun owner owned => coherent.owner_active active owned
      logged := ⟨[], by simp, by simp⟩ }
  · by_cases isRoot : state = root
    · rw [isRoot, coherent.root_active wired active]
      exact reached.root_active_of_fired mechanical leadsToLeaf fires
    · unfold Machine.isStateActive
      rw [attained.confined.states state (fun inside => ?_) isRoot]
      rcases near with insideOther | owned
      · exact apart.not_inside inside insideOther
      · exact apart.1 (.of_owner owned inside)
  · exact (Apart.within ⟨apart.2, apart.1⟩ within).2 around

end Fired

/-! ### Two transitions -/

private theorem status_eq_of_active {one other : Machine} {state : StateId}
    (fixed : (other.state? state).map StateNode.fixed = (one.state? state).map StateNode.fixed)
    (active : other.isStateActive state = one.isStateActive state) :
    (other.state? state).map StateNode.status = (one.state? state).map StateNode.status := by
  unfold isStateActive at active
  cases found : one.state? state with
  | none =>
      rw [found] at fixed
      rw [Option.map_eq_none_iff.mp fixed]
  | some node =>
      rw [found] at fixed active
      obtain ⟨node', found', _⟩ := Option.map_eq_some_iff.mp fixed
      rw [found'] at active ⊢
      have same : node'.status.isActive = node.status.isActive := active
      cases isStatus : node.status <;> cases isStatus' : node'.status <;>
        simp_all [Status.isActive]

section Both

variable {machine middle middle' after after' : Machine} {one other : RegionId} {state : StateId}

/-- Where two pairs of runs, each pair confined to regions apart and alike in each of them, meet. -/
structure Crossing (one other : RegionId) (machine middle after middle' after' : Machine) :
    Prop where
  apart : machine.Apart one other
  same : SameChart machine middle
  same' : SameChart machine middle'
  first : Confined one machine middle
  second : Confined other middle after
  second' : Confined other machine middle'
  first' : Confined one middle' after'
  alikeOne : AgreeIn machine middle' one middle after'
  alikeOther : AgreeIn middle machine other after middle'

namespace Crossing

variable (crossing : Crossing one other machine middle after middle' after')
include crossing

private theorem isStateActive (notRoot : state ≠ root) :
    after'.isStateActive state = after.isStateActive state := by
  have same {before later : Machine} (kept : later.state? state = before.state? state) :
      later.isStateActive state = before.isStateActive state := by
    unfold Machine.isStateActive
    rw [kept]
  by_cases insideOne : machine.Inside one state
  · have outside : ¬middle.Inside other state := fun inside =>
      crossing.apart.not_inside insideOne (crossing.same.inside.mp inside)
    rw [crossing.alikeOne.isStateActive insideOne,
      same (crossing.second.states state outside notRoot)]
  · have outside : ¬middle'.Inside one state := fun inside =>
      insideOne (crossing.same'.inside.mp inside)
    rw [same (crossing.first'.states state outside notRoot)]
    by_cases insideOther : machine.Inside other state
    · exact crossing.alikeOther.isStateActive (crossing.same.inside.mpr insideOther)
    · have outside : ¬middle.Inside other state := fun inside =>
        insideOther (crossing.same.inside.mp inside)
      rw [same (crossing.second'.states state insideOther notRoot),
        same (crossing.second.states state outside notRoot),
        same (crossing.first.states state insideOne notRoot)]

private theorem region? (region : RegionId) : after'.region? region = after.region? region := by
  by_cases withinOne : machine.Within one region
  · have outside : ¬middle.Within other region := fun within =>
      (crossing.apart.within withinOne).2 (crossing.same.within.mp within)
    rw [crossing.alikeOne.regions region withinOne, crossing.second.regions region outside]
  · have outside : ¬middle'.Within one region := fun within =>
      withinOne (crossing.same'.within.mp within)
    rw [crossing.first'.regions region outside]
    by_cases withinOther : machine.Within other region
    · exact crossing.alikeOther.regions region (crossing.same.within.mpr withinOther)
    · have outside : ¬middle.Within other region := fun within =>
        withinOther (crossing.same.within.mp within)
      rw [crossing.second'.regions region withinOther, crossing.second.regions region outside,
        crossing.first.regions region withinOne]

end Crossing

/-- Two transitions fire one after the other, in regions of which neither lies below the other, and
each leads to a normal state without regions. Then they fire in the other order too, every state and
every region ends as before, and each transition records the same firings in both orders. (A
transition that fires is external and has an active source.) -/
theorem Reached.transitions_commute (reached : machine.Reached answeredRuns)
    (mechanical : machine.Mechanical) (apart : machine.Apart one other)
    {first second : TransitionId} {memo memo' : Value} {depth depth' : Nat}
    (landsFirst : machine.LeadsToLeaf one first) (landsSecond : machine.LeadsToLeaf other second)
    (firesFirst : Run.triggerHandle depth first memo machine = .ok .fired middle)
    (firesSecond : Run.triggerHandle depth' second memo' middle = .ok .fired after) :
    ∃ middle' after', Run.triggerHandle depth' second memo' machine = .ok .fired middle' ∧
      Run.triggerHandle depth first memo middle' = .ok .fired after' ∧
      (∀ state, (after'.state? state).map StateNode.status =
        (after.state? state).map StateNode.status) ∧
      (∀ region, after'.region? region = after.region? region) ∧
      ∃ firings firings', middle.log.toList = machine.log.toList ++ firings ∧
        after.log.toList = middle.log.toList ++ firings' ∧
        middle'.log.toList = machine.log.toList ++ firings' ∧
        after'.log.toList = middle'.log.toList ++ firings := by
  have formed := reached.formed
  have reachedMiddle := reached.after_fired firesFirst
  have same := (returns_of_fired firesFirst).changes rfl |>.sameChart
  have mechanicalMiddle := mechanical.of_sameChart same
  -- The second transition finds its region as it was before the first one.
  have alikeOther := reached.alike_of_fired mechanical landsFirst firesFirst apart
    (landsSecond.region_active formed)
  have landsSecondMiddle := landsSecond.of_alike alikeOther
  obtain ⟨middle', firesSecond', agreeOther⟩ := reachedMiddle.fires_alike mechanicalMiddle
    landsSecondMiddle firesSecond alikeOther.symm
  -- The first transition finds its region as it was before the second one.
  have reachedMiddle' := reached.after_fired firesSecond'
  have same' := (returns_of_fired firesSecond').changes rfl |>.sameChart
  have mechanicalMiddle' := mechanical.of_sameChart same'
  have alikeOne := reached.alike_of_fired mechanical landsSecond firesSecond' ⟨apart.2, apart.1⟩
    (landsFirst.region_active formed)
  have landsFirstMiddle' := landsFirst.of_alike alikeOne
  obtain ⟨after', firesFirst', agreeOne⟩ := reached.fires_alike mechanical landsFirst
    firesFirst alikeOne
  obtain ⟨_, _, attained⟩ := reached.attained_of_leadsToLeaf mechanical landsFirst firesFirst
  obtain ⟨_, _, attainedLast⟩ :=
    reachedMiddle.attained_of_leadsToLeaf mechanicalMiddle landsSecondMiddle firesSecond
  obtain ⟨_, _, attained'⟩ := reached.attained_of_leadsToLeaf mechanical landsSecond firesSecond'
  obtain ⟨_, _, attainedLast'⟩ :=
    reachedMiddle'.attained_of_leadsToLeaf mechanicalMiddle' landsFirstMiddle' firesFirst'
  have crossing : Crossing one other machine middle after middle' after' :=
    { apart, same, same'
      first := attained.confined
      second := attainedLast.confined
      second' := attained'.confined
      first' := attainedLast'.confined
      alikeOne := agreeOne
      alikeOther := agreeOther }
  refine ⟨middle', after', firesSecond', firesFirst', fun state => ?_, crossing.region?, ?_⟩
  · refine status_eq_of_active ?_ ?_
    · exact ((returns_of_fired firesFirst').changes rfl |>.sameChart).states state
        |>.trans (same'.states state) |>.trans (same.states state).symm
        |>.trans (((returns_of_fired firesSecond).changes rfl |>.sameChart).states state).symm
    · by_cases isRoot : state = root
      · rw [isRoot, reachedMiddle'.root_active_of_fired mechanicalMiddle'
          landsFirstMiddle' firesFirst',
          reachedMiddle.root_active_of_fired mechanicalMiddle landsSecondMiddle firesSecond]
      · exact crossing.isStateActive isRoot
  · obtain ⟨firings, isMiddle, isAfter'⟩ := agreeOne.logged
    obtain ⟨firings', isAfter, isMiddle'⟩ := agreeOther.logged
    exact ⟨firings, firings', isMiddle, isAfter, isMiddle', isAfter'⟩

end Both

def isMechanical (machine : Machine) : Bool :=
  machine.isPlain && machine.states.toList.all (fun node => node.kind != .choice) &&
    machine.transitions.toList.all fun transition => transition.guard.isNone

private theorem mechanical_of_isMechanical {machine : Machine}
    (checked : machine.isMechanical = true) :
    machine.Mechanical := by
  unfold isMechanical at checked
  rw [Bool.and_eq_true, Bool.and_eq_true] at checked
  obtain ⟨⟨plain, kinds⟩, guards⟩ := checked
  refine { states := fun state node found => ?_, transitions := fun id found known => ⟨?_, ?_⟩ }
  · obtain ⟨entry, exit, activity, enduring⟩ := node_of_isPlain plain found
    have kind := List.all_eq_true.mp kinds node
      (Array.mem_toList_iff.mpr (Array.mem_of_getElem? found))
    exact ⟨entry, exit, activity, enduring, bne_iff_ne.mp kind⟩
  · exact Option.isNone_iff_eq_none.mp (List.all_eq_true.mp guards found
      (Array.mem_toList_iff.mpr (Array.mem_of_getElem? known)))
  · exact Option.isNone_iff_eq_none.mp
      (List.all_eq_true.mp ((Bool.and_eq_true _ _).mp plain).2 found
      (Array.mem_toList_iff.mpr (Array.mem_of_getElem? known)))

def crossroadsRequests : List Request :=
  [.construct (.createState (.plain "waiting")), .construct (.addState ⟨3⟩),
    .construct (.createState (.plain "driving")), .construct (.addState ⟨4⟩),
    .construct (.appendRegion ⟨0⟩),
    .construct (.createState (.plain "standing")), .construct (.regionAddState ⟨1⟩ ⟨7⟩),
    .construct (.createState (.plain "walking")), .construct (.regionAddState ⟨1⟩ ⟨8⟩),
    .construct (.createTransition (.initial "waiting")), .construct (.addTransition ⟨0⟩),
    .construct (.createTransition (.initial "standing")),
    .construct (.regionAddTransition ⟨1⟩ ⟨1⟩),
    .construct (.createTransition (.simple "drive" "waiting" "driving")),
    .construct (.addTransition ⟨2⟩),
    .construct (.createTransition (.simple "walk" "standing" "walking")),
    .construct (.regionAddTransition ⟨1⟩ ⟨3⟩), .start]

def crossroads : Machine :=
  Request.outcome 8 crossroadsRequests (Machine.new "crossroads" (.ofStem "auto"))

def crossroadsDriving : Machine :=
  (Request.trigger ⟨2⟩ .null).aftermath 8 crossroads

def crossroadsBusy : Machine :=
  (Request.trigger ⟨3⟩ .null).aftermath 8 crossroadsDriving

/-- The walker may as well go first. -/
theorem crossroads_transitions_commute :
    crossroads.Reached answeredRuns ∧ crossroads.Mechanical ∧
      crossroads.Apart defaultRegion ⟨1⟩ ∧
      Run.triggerHandle 8 ⟨2⟩ .null crossroads = .ok .fired crossroadsDriving ∧
      Run.triggerHandle 8 ⟨3⟩ .null crossroadsDriving = .ok .fired crossroadsBusy ∧
      ∃ walking busy, Run.triggerHandle 8 ⟨3⟩ .null crossroads = .ok .fired walking ∧
        Run.triggerHandle 8 ⟨2⟩ .null walking = .ok .fired busy ∧
        (busy.state? ⟨4⟩).map StateNode.status = some .active ∧
        (busy.state? ⟨8⟩).map StateNode.status = some .active ∧
        busy.region? ⟨1⟩ = crossroadsBusy.region? ⟨1⟩ := by
  have reached : crossroads.Reached answeredRuns :=
    ⟨"crossroads", .ofStem "auto", (session_outcome (by decide +kernel)).weaken
      fun _ _ _ _ call _ => call.2⟩
  have mechanical : crossroads.Mechanical := mechanical_of_isMechanical (by decide +kernel)
  have firesFirst : Run.triggerHandle 8 ⟨2⟩ .null crossroads = .ok .fired crossroadsDriving :=
    fired_aftermath (by decide +kernel)
  have firesSecond : Run.triggerHandle 8 ⟨3⟩ .null crossroadsDriving = .ok .fired crossroadsBusy :=
    fired_aftermath (by decide +kernel)
  obtain ⟨owned, ownedOther, drive, walk, driveEnds, walkEnds, driving, walking⟩ :
      crossroads.ownerOf? defaultRegion = some root ∧ crossroads.ownerOf? ⟨1⟩ = some root ∧
      (crossroads.transition? ⟨2⟩).any (fun found => found.container == some defaultRegion) = true ∧
      (crossroads.transition? ⟨3⟩).any (fun found => found.container == some ⟨1⟩) = true ∧
      crossroads.endpoints ⟨2⟩ = .ok ⟨⟨3⟩, ⟨4⟩⟩ ∧ crossroads.endpoints ⟨3⟩ = .ok ⟨⟨7⟩, ⟨8⟩⟩ ∧
      (crossroads.kindOf? ⟨4⟩ = some .normal ∧ crossroads.regionsOf ⟨4⟩ = []) ∧
      crossroads.kindOf? ⟨8⟩ = some .normal ∧ crossroads.regionsOf ⟨8⟩ = [] := by
    decide +kernel
  have apart : crossroads.Apart defaultRegion ⟨1⟩ :=
    reached.formed.toWired.siblings_apart owned ownedOther (by decide)
  obtain ⟨found, known, contained⟩ := (Option.any_eq_true _ _).mp drive
  obtain ⟨found', known', contained'⟩ := (Option.any_eq_true _ _).mp walk
  obtain ⟨walking, busy, walks, drives, statuses, regions, _⟩ := Reached.transitions_commute reached
    mechanical apart ⟨found, _, known, beq_iff_eq.mp contained, driveEnds, driving⟩
    ⟨found', _, known', beq_iff_eq.mp contained', walkEnds, walking⟩ firesFirst firesSecond
  have active : (crossroadsBusy.state? ⟨4⟩).map StateNode.status = some .active ∧
      (crossroadsBusy.state? ⟨8⟩).map StateNode.status = some .active := by
    decide +kernel
  exact ⟨reached, mechanical, apart, firesFirst, firesSecond, walking, busy, walks, drives,
    (statuses ⟨4⟩).trans active.1, (statuses ⟨8⟩).trans active.2, regions ⟨1⟩⟩

end Chart.Machine
