import Chart.Proofs.Run.Settling

set_option autoImplicit false

/-!
Opening the regions of a state and entering them. A plan that enters a state names the state, then
its regions, then for each region a plan of its own. When every part settles its region, the whole
settles the region around the state. No region is completed while another one is still to be
entered: the others are idle and spared until it is their turn.
-/

namespace Chart

namespace Machine

private theorem region?_opened_of_ne {machine : Machine} {region other : RegionId} (name : String)
    (different : other ≠ region) :
    (machine.opened region name).region? other = machine.region? other := by
  rw [Machine.opened, region?_note, setRegionStatus, region?_modifyRegion, if_neg different.symm]

private theorem lastActive?_opened {machine : Machine} (region other : RegionId) (name : String) :
    (machine.opened region name).lastActive? other = machine.lastActive? other := by
  rw [lastActive?, lastActive?, Machine.opened, region?_note, setRegionStatus, region?_modifyRegion]
  split
  · cases machine.region? other <;> rfl
  · rfl

theorem Opened.nothing {machine : Machine} (coherent : machine.Coherent) :
    Opened [] machine machine where
  changes := Relation.ReflTransGen.refl
  coherent := coherent
  states := rfl
  opened := by simp
  others := fun _ _ => rfl
  remembered := fun _ => rfl
  told := Told.refl machine

private theorem Opened.cons {machine after : Machine} {first : RegionId} {rest : List RegionId}
    {members : Region} (found : machine.region? first = some members)
    (inactive : members.status.isActive = false)
    (opened : Opened rest (machine.opened first members.name) after) :
    Opened (first :: rest) machine after where
  changes := (Change.openRegion found inactive).one.trans opened.changes
  coherent := opened.coherent
  states := opened.states
  opened := by
    intro region
    rw [opened.opened, List.mem_cons, isRegionActive_opened found members.name region]
    constructor
    · rintro (later | here | before)
      · exact Or.inl (Or.inr later)
      · exact Or.inl (Or.inl here)
      · exact Or.inr before
    · rintro ((here | later) | before)
      · exact Or.inr (Or.inl here)
      · exact Or.inl later
      · exact Or.inr (Or.inr before)
  others := by
    intro region absent
    obtain ⟨different, notLater⟩ := not_or.mp fun either => absent (List.mem_cons.mpr either)
    rw [opened.others region notLater]
    exact region?_opened_of_ne members.name different
  remembered := fun region =>
    (opened.remembered region).trans (lastActive?_opened first region members.name)
  told := by
    have opens : Changes machine (machine.opened first members.name) :=
      (Change.openRegion found inactive).one
    have named : machine.regionName first = members.name := by
      rw [regionName, found]
      rfl
    have told := (told_opened machine first members.name).trans opened.told
    simp only [opens.sameChart.regionName] at told
    rw [← named] at told
    exact told

end Machine

namespace Run

open Machine (Orderly Opened Settled Changes)

variable {mayFail : Prop} {related : Machine → Machine → Prop} {calls : Calls}

private theorem ends_openRegions {owner : StateId} (regions : List RegionId) (nodup : regions.Nodup)
    {machine : Machine} (coherent : machine.Coherent)
    (owned : ∀ region ∈ regions, machine.ownerOf? region = some owner)
    (inactive : ∀ region ∈ regions, machine.isRegionActive region = false)
    (active : machine.isStateActive owner = true) {failed : Halt → Machine → Prop} :
    Ends (enterBy calls (regions.map Machine.Step.region)) machine
      (fun _ after => Opened regions machine after) failed := by
  induction regions generalizing machine with
  | nil => exact Opened.nothing coherent
  | cons first rest ih =>
      obtain ⟨notListed, nodupRest⟩ := List.nodup_cons.mp nodup
      obtain ⟨members, found, ownedBy⟩ :=
        Machine.ownerOf?_eq_some.mp (owned first (List.mem_cons_self ..))
      have firstInactive :=
        (Machine.isRegionActive_eq found).symm.trans (inactive first (List.mem_cons_self ..))
      have ownerActive : machine.isStateActive members.owner = true := by
        rw [ownedBy]
        exact active
      unfold enterBy
      rw [List.map_cons, ends_forM_cons]
      unfold entryStep
      rw [ends_bind, ends_get, found]
      dsimp only
      rw [if_pos ownerActive]
      unfold activateRegion
      rw [ends_bind, ends_get, found]
      simp only [firstInactive, Bool.false_eq_true, if_false, ends_bind, ends_modify, ends_report]
      have opens : Changes machine (machine.opened first members.name) :=
        (Machine.Change.openRegion found firstInactive).one
      have later := ih nodupRest (coherent.opened found ownerActive members.name)
        (fun region member => by
          rw [opens.sameChart.ownerOf?]
          exact owned region (List.mem_cons_of_mem _ member))
        (fun region member => by
          have different : region ≠ first := by
            rintro rfl
            exact notListed member
          unfold Machine.isRegionActive
          rw [Machine.region?_opened_of_ne members.name different]
          exact inactive region (List.mem_cons_of_mem _ member))
        active
      exact Ends.mono later (fun _ after opened => opened.cons found firstInactive)
        fun _ _ failure => failure

/-! ### One plan for each region -/

/-- The plan settles the region whenever that is idle, however the machine ran in the meantime. -/
def Settles (mayFail : Prop) (related : Machine → Machine → Prop) (calls : Calls)
    (chart : Machine) (region : RegionId) (plan : List Machine.Step) : Prop :=
  ∀ machine : Machine, Machine.SameChart chart machine → machine.Orderly mayFail →
    machine.Coherent → machine.Idle region →
    Ends (enterBy calls plan) machine
      (fun _ after => Settled related (some region) machine after) (Aborted mayFail)

/-- The regions have been settled one after the other. -/
structure Filled (regions : List RegionId) (before after : Machine) : Prop where
  changes : Changes before after
  coherent : after.Coherent
  spares : ∀ other, before.isRegionActive other = true →
    (∀ region ∈ regions, before.Apart region other) → Machine.Untouched other before after
  confined : ∀ outer, (∀ region ∈ regions, before.Within outer region) → before.Guarded outer →
    Machine.Confined outer before after
  childless : ∀ other, after.Childless other → before.Childless other ∧ other ∉ regions

private theorem Filled.nothing {machine : Machine} (coherent : machine.Coherent) :
    Filled [] machine machine where
  changes := Relation.ReflTransGen.refl
  coherent := coherent
  spares := fun other _ _ => Machine.Untouched.refl other machine
  confined := fun outer _ _ => Machine.Confined.refl outer machine
  childless := fun _ childless => ⟨childless, List.not_mem_nil⟩

private theorem Filled.cons {first : RegionId} {rest : List RegionId}
    {before middle after : Machine}
    (settled : Settled related (some first) before middle) (filled : Filled rest middle after) :
    Filled (first :: rest) before after where
  changes := settled.changes.trans filled.changes
  coherent := filled.coherent
  spares := by
    intro other active allApart
    have same := settled.toMoved.sameChart
    have untouched := settled.spares first other rfl active
      (allApart first (List.mem_cons_self ..))
    refine untouched.trans (filled.spares other ?_ fun region member => ?_) same
    · rw [untouched.isRegionActive (Machine.Within.refl before other)]
      exact active
    · exact same.apart.mpr (allApart region (List.mem_cons_of_mem _ member))
  confined := by
    intro outer within guarded
    have same := settled.toMoved.sameChart
    have here := within first (List.mem_cons_self ..)
    refine (settled.confined first outer rfl here guarded).trans
      (filled.confined outer (fun region member => ?_)
        (settled.toMoved.guarded rfl here guarded)) same
    exact same.within.mpr (within region (List.mem_cons_of_mem _ member))
  childless := by
    intro other childless
    obtain ⟨childlessMiddle, notLater⟩ := filled.childless other childless
    rcases settled.childless other childlessMiddle with before | isSpot
    · refine ⟨before, fun member => ?_⟩
      rcases List.mem_cons.mp member with here | later
      · rw [here] at childlessMiddle
        exact settled.fed first rfl childlessMiddle
      · exact notLater later
    · rw [← Option.some.inj isSpot] at childlessMiddle
      exact absurd childlessMiddle (settled.fed first rfl)

private theorem Filled.starved {regions : List RegionId} {before wide after : Machine}
    {other : RegionId}
    (filled : Filled regions wide after) (opened : Opened regions before wide)
    (childless : after.Childless other) : before.Childless other := by
  obtain ⟨childlessWide, notOpened⟩ := filled.childless other childless
  have same := opened.changes.sameChart
  refine ⟨((opened.opened other).mp childlessWide.1).resolve_left notOpened,
    fun child contained normal => ?_⟩
  rw [← opened.isStateActive]
  exact childlessWide.2 child (by rw [same.containerOf?]; exact contained)
    (by rw [same.kindOf?]; exact normal)

/-- A state has been settled, then its regions have been opened and settled; all of that lies in the
region around the state. -/
theorem Filled.settled {state : StateId} {regions : List RegionId}
    {before middle wide after : Machine} (respects : Respects mayFail related)
    (settled : Settled related (before.containerOf? state) before middle)
    (opened : Opened regions middle wide) (filled : Filled regions wide after)
    (owned : ∀ region ∈ regions, before.ownerOf? region = some state)
    (relatesOpen : related middle wide) (relatesFilled : related wide after) :
    Settled related (before.containerOf? state) before after where
  changes := (settled.changes.trans opened.changes).trans filled.changes
  coherent := filled.coherent
  spares := by
    intro here other isSpot isActive apart
    have same := settled.toMoved.sameChart
    have sameWide := same.trans opened.changes.sameChart
    have besides (region : RegionId) (member : region ∈ regions) : before.Apart region other :=
      apart.within (Machine.Within.of_member (owned region member) isSpot)
    have untouched := (settled.spares here other isSpot isActive apart).trans
      (opened.untouched fun region member => same.apart.mpr (besides region member)) same
    refine untouched.trans (filled.spares other ?_ fun region member => ?_) sameWide
    · rw [untouched.isRegionActive (Machine.Within.refl before other)]
      exact isActive
    · exact sameWide.apart.mpr (besides region member)
  confined := by
    intro here outer isSpot within guarded
    have same := settled.toMoved.sameChart
    have sameWide := same.trans opened.changes.sameChart
    have nested (region : RegionId) (member : region ∈ regions) : before.Within outer region :=
      within.trans (Machine.Within.of_member (owned region member) isSpot)
    have opens := opened.confined fun region member => same.within.mpr (nested region member)
    have fills := filled.confined outer
      (fun region member => sameWide.within.mpr (nested region member))
      (opened.guarded (settled.toMoved.guarded isSpot within guarded))
    exact ((settled.confined here outer isSpot within guarded).trans opens same).trans fills
      sameWide
  childless := fun other childless => settled.childless other (filled.starved opened childless)
  fed := fun here isSpot childless => settled.fed here isSpot (filled.starved opened childless)
  relates := respects.trans (respects.trans settled.relates relatesOpen) relatesFilled

theorem ends_fillRegions (respects : Respects mayFail related) {chart : Machine}
    {owner : StateId} {plan : RegionId → List Machine.Step} (regions : List RegionId)
    (nodup : regions.Nodup) (owned : ∀ region ∈ regions, chart.ownerOf? region = some owner)
    (settles : ∀ region ∈ regions, Settles mayFail related calls chart region (plan region))
    {machine : Machine} (same : Machine.SameChart chart machine)
    (orderly : machine.Orderly mayFail) (coherent : machine.Coherent)
    (idle : ∀ region ∈ regions, machine.Idle region) :
    Ends (enterBy calls (regions.flatMap plan)) machine
      (fun _ after => Filled regions machine after ∧ related machine after)
      (Aborted mayFail) := by
  induction regions generalizing machine with
  | nil => exact ⟨Filled.nothing coherent, respects.refl machine⟩
  | cons first rest ih =>
      obtain ⟨notListed, nodupRest⟩ := List.nodup_cons.mp nodup
      unfold enterBy
      rw [List.flatMap_cons, ends_forM_append]
      refine (settles first (List.mem_cons_self ..) machine same orderly coherent
        (idle first (List.mem_cons_self ..))).mono (fun _ middle settled => ?_)
        fun _ _ failure => failure
      have sameMiddle := settled.toMoved.sameChart
      have apart (region : RegionId) (member : region ∈ rest) : machine.Apart first region := by
        have ownedNow (other : RegionId) (listed : other ∈ first :: rest) :
            machine.ownerOf? other = some owner := by
          rw [same.ownerOf?]
          exact owned other listed
        refine orderly.toWired.siblings_apart (ownedNow first (List.mem_cons_self ..))
          (ownedNow region (List.mem_cons_of_mem _ member)) ?_
        rintro rfl
        exact notListed member
      have idleMiddle (region : RegionId) (member : region ∈ rest) : middle.Idle region := by
        have wasIdle := idle region (List.mem_cons_of_mem _ member)
        exact (settled.spares first region rfl wasIdle.1 (apart region member)).idle sameMiddle
          wasIdle
      refine (ih nodupRest (fun region member => owned region (List.mem_cons_of_mem _ member))
        (fun region member => settles region (List.mem_cons_of_mem _ member))
        (same.trans sameMiddle) (orderly.of_changes settled.changes) settled.coherent
        idleMiddle).mono (fun _ after results => ?_) fun _ _ failure => failure
      obtain ⟨filled, relates⟩ := results
      exact ⟨filled.cons settled, respects.trans settled.relates relates⟩

/-! ### A state with its regions -/

/-- States that stay when they are entered: those with regions, and normal ones that do not complete
by themselves. -/
def Stays (machine : Machine) (state : StateId) : Prop :=
  machine.regionsOf state ≠ [] ∨ ∃ node, machine.state? state = some node ∧ node.kind = .normal ∧
    node.config.autoTransition = false

/-- What entering a state by itself comes to: the region around it is settled, and a state that
stays has done nothing but run its callbacks. -/
def Activates (related : Machine → Machine → Prop) (state : StateId) (machine after : Machine) :
    Prop :=
  Settled related (machine.containerOf? state) machine after ∧
    (Stays machine state → ∃ node, machine.state? state = some node ∧
      Machine.TouchesOnly state (machine.entered state node.name) after)

theorem ends_entryStep_ready {machine : Machine} {state : StateId}
    (ready : machine.Ready state) (wired : machine.Wired) {ended : Unit → Machine → Prop}
    {failed : Halt → Machine → Prop}
    (activates : Ends (activate calls state) machine ended failed) :
    Ends (entryStep calls (.state state)) machine ended failed := by
  unfold entryStep
  rw [ends_bind, ends_get]
  rcases ready with ⟨isRoot, _⟩ | ⟨region, contained, idle⟩
  · rw [isRoot, wired.rootFree]
    rw [isRoot] at activates
    exact activates
  · rw [contained]
    dsimp only
    rw [if_pos idle.1]
    exact activates

/-- The regions of a state that has just been entered are opened and wait for their children. -/
theorem ends_openEntered {machine middle : Machine} {state : StateId} {node : StateNode}
    (wired : machine.Wired) (coherent : machine.Coherent)
    (found : machine.state? state = some node) (inactiveState : machine.isStateActive state = false)
    (touches : Machine.TouchesOnly state (machine.entered state node.name) middle)
    (coherentMiddle : middle.Coherent) {failed : Halt → Machine → Prop} :
    Ends (enterBy calls ((machine.regionsOf state).map Machine.Step.region)) middle
      (fun _ wide => Opened (machine.regionsOf state) middle wide ∧
        (∀ region ∈ machine.regionsOf state, middle.isRegionActive region = false ∧
          wide.Idle region))
      failed := by
  have same : Machine.SameChart machine middle :=
    (Machine.sameChart_entered machine state node.name).trans touches.sameChart
  have owned (region : RegionId) (member : region ∈ machine.regionsOf state) :
      machine.ownerOf? region = some state :=
    (wired.owned region state).mpr member
  have inactive (region : RegionId) (member : region ∈ machine.regionsOf state) :
      middle.isRegionActive region = false := by
    rw [touches.isRegionActive, Machine.isRegionActive_entered]
    exact coherent.region_inactive (owned region member) inactiveState
  have active : middle.isStateActive state = true := by
    rw [touches.toStill.states]
    exact (Machine.isStateActive_entered found node.name state).mpr (Or.inl rfl)
  refine (ends_openRegions _ (wired.ownedOnce state) coherentMiddle (fun region member => by
    rw [same.ownerOf?]
    exact owned region member) inactive active).mono (fun _ wide opened => ?_)
    fun _ _ failure => failure
  refine ⟨opened, fun region member => ⟨inactive region member,
    (opened.opened region).mpr (Or.inl member), fun child contained => ?_⟩⟩
  rw [opened.changes.sameChart.containerOf?, same.containerOf?] at contained
  rw [opened.isStateActive, touches.toStill.states]
  cases isActive : (machine.entered state node.name).isStateActive child with
  | false => rfl
  | true =>
      rcases (Machine.isStateActive_entered found node.name child).mp isActive with here | before
      · rw [here] at contained
        exact absurd (Machine.Inside.member contained)
          (wired.not_inside_own_region (owned region member))
      · have around := coherent.container_active wired before contained
        rw [coherent.region_inactive (owned region member) inactiveState] at around
        cases around

theorem ends_enterOpening (respects : Respects mayFail related) {chart machine : Machine}
    {state : StateId} {plan : RegionId → List Machine.Step}
    (same : Machine.SameChart chart machine) (orderly : machine.Orderly mayFail)
    (coherent : machine.Coherent) (ready : machine.Ready state)
    (activates : Ends (activate calls state) machine
      (fun _ after => Activates related state machine after) (Aborted mayFail))
    (settles : ∀ region ∈ chart.regionsOf state,
      Settles mayFail related calls chart region (plan region)) :
    Ends (enterBy calls (.state state :: (chart.regionsOf state).map Machine.Step.region ++
        (chart.regionsOf state).flatMap plan)) machine
      (fun _ after => Settled related (machine.containerOf? state) machine after)
      (Aborted mayFail) := by
  set regions := chart.regionsOf state with regionsIs
  have regionsNow : machine.regionsOf state = regions := same.regionsOf state
  unfold enterBy
  rw [List.cons_append, ends_forM_cons]
  refine ends_entryStep_ready ready orderly.toWired
    (activates.mono (fun _ middle activated => ?_) fun _ _ failure => failure)
  obtain ⟨settled, touchesEnd⟩ := activated
  by_cases noRegions : regions = []
  · rw [noRegions]
    exact settled
  · obtain ⟨node, found, touches⟩ := touchesEnd (Or.inl (by rw [regionsNow]; exact noRegions))
    have sameMiddle := settled.toMoved.sameChart
    have orderlyMiddle := orderly.of_changes settled.changes
    have owned (region : RegionId) (member : region ∈ regions) :
        machine.ownerOf? region = some state := by
      rw [orderly.toWired.owned, regionsNow]
      exact member
    have stateInactive : machine.isStateActive state = false := by
      rcases ready with ⟨isRoot, inactive⟩ | ⟨region, contained, idle⟩
      · rw [isRoot]
        exact inactive
      · exact idle.2 state contained
    have active : middle.isStateActive state = true := by
      rw [touches.toStill.states]
      exact (Machine.isStateActive_entered found node.name state).mpr (Or.inl rfl)
    have regionsMiddle : middle.regionsOf state = regions :=
      (sameMiddle.regionsOf state).trans regionsNow
    have opens := @ends_openEntered calls _ _ _ _ orderly.toWired coherent found
      stateInactive touches
      settled.coherent (Aborted mayFail)
    rw [regionsNow] at opens
    rw [ends_forM_append]
    refine opens.mono (fun _ wide results => ?_) fun _ _ failure => failure
    obtain ⟨opened, waiting⟩ := results
    have relatesOpen : related middle wide :=
      respects.opened orderlyMiddle settled.coherent active
        (by rw [regionsMiddle]; exact fun region member => (waiting region member).1)
        ⟨machine, node.name, touches⟩ (by rw [regionsMiddle]; exact opened)
    have sameWide := sameMiddle.trans opened.changes.sameChart
    refine (ends_fillRegions respects regions
      (by rw [regionsIs, ← same.regionsOf]; exact orderly.ownedOnce state)
      (fun region member => by
        rw [← same.ownerOf?]
        exact owned region member) settles (same.trans sameWide)
      (orderlyMiddle.of_changes opened.changes) opened.coherent
      fun region member => (waiting region member).2).mono
      (fun _ after results => ?_) fun _ _ failure => failure
    obtain ⟨filled, relatesFilled⟩ := results
    exact filled.settled respects settled opened owned relatesOpen relatesFilled

end Run
end Chart
