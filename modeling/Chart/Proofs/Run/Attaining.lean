import Chart.Proofs.Run.ClosingRegions
import Chart.Proofs.Run.Entering

set_option autoImplicit false

/-!
An entry attains its target. A target that stays when it is entered is active at the end, although
the regions beside the way to it may have been entered and completed meanwhile. Nothing leaves the
region in which the entry began, because each region beside the way has an active sibling, which
keeps its completion from going further.
-/

namespace Chart

namespace Machine

variable {start before middle after : Machine} {region nested : RegionId} {target : StateId}

/-- The region is active, or it has completed on the way. -/
def ActiveOrCompleted (start : Machine) (region : RegionId) (after : Machine) : Prop :=
  after.isRegionActive region = true ∨
    ∃ events, Told start after events ∧ start.Completes region events

theorem ActiveOrCompleted.later {events : List Event}
    (passed : start.ActiveOrCompleted region middle)
    (told : Told middle after events)
    (kept : middle.isRegionActive region = true → after.isRegionActive region = true) :
    start.ActiveOrCompleted region after := by
  rcases passed with active | ⟨earlier, toldEarlier, completes⟩
  · exact Or.inl (kept active)
  · exact Or.inr ⟨earlier ++ events, toldEarlier.trans told, completes.append events⟩

theorem ActiveOrCompleted.earlier {events : List Event}
    (passed : middle.ActiveOrCompleted region after)
    (same : SameChart start middle) (told : Told start middle events) :
    start.ActiveOrCompleted region after := by
  rcases passed with active | ⟨later, toldLater, completes⟩
  · exact Or.inl active
  · exact Or.inr ⟨events ++ later, told.trans toldLater, completes.prepend same events⟩

/-- A region that was active and has been opened since the origin is active or has completed after a
run that closes completed regions only. -/
theorem ActiveOrCompleted.of_concludes {begun : List Event} {event : Event}
    (concludes : Concludes before after) (retold : before.Retold) (retoldAfter : after.Retold)
    (active : before.isRegionActive region = true) (same : SameChart start before)
    (told : Told start before begun) (member : event ∈ begun) (begins : event.begins = true) :
    start.ActiveOrCompleted region after := by
  cases isActive : after.isRegionActive region with
  | true => exact Or.inl isActive
  | false =>
      obtain ⟨early, name, closes, since, reachedTerminal⟩ :=
        concludes.exists_reachedTerminal retold retoldAfter active isActive
      obtain ⟨events, toldEvents⟩ := concludes.journal
      have whole : Told start after (begun ++ events) := told.trans toldEvents.symm
      refine Or.inr
        ⟨_, whole, (reachedTerminal.before_sameChart same).completes whole closes ?_ member begins⟩
      rw [← told]
      exact List.prefix_of_prefix_length_le concludes.journal
        ((List.prefix_append _ _).trans closes) since

/-- A region on the way from another one to the target. -/
def OnWay (machine : Machine) (outer : RegionId) (target : StateId) (region : RegionId) : Prop :=
  ∃ owner, machine.ownerOf? region = some owner ∧ machine.Inside outer owner ∧
    machine.Below owner target

/-- What is on the way to a target inside a region of a child belongs to the child or is on the way
from that region. -/
theorem OnWay.split {machine : Machine} {state : StateId} (wired : machine.Wired)
    (onWay : machine.OnWay region target nested)
    {inner : RegionId} (contained : machine.containerOf? state = some region)
    (owned : machine.ownerOf? inner = some state) (inside : machine.Inside inner target) :
    machine.ownerOf? nested = some state ∨ machine.OnWay inner target nested := by
  obtain ⟨owner, ownedNested, insideOwner, below⟩ := onWay
  have known : owner = state ∨ machine.Inside inner owner := by
    rcases below with here | ⟨around, ownedAround, insideAround⟩
    · rw [← here]
      exact Or.inr inside
    · have isOwner (same : around = inner) : owner = state := by
        rw [same, owned] at ownedAround
        exact (Option.some.inj ownedAround).symm
      rcases inside.comparable insideAround with same | within
      · rcases same.inside_owner ownedAround with same | deeper
        · exact Or.inl (isOwner same)
        · exact Or.inr deeper
      · rcases within.inside_owner owned with same | deeper
        · exact Or.inl (isOwner same.symm)
        · exact absurd (insideOwner.of_within (deeper.within_container contained))
            (wired.not_inside_own_region ownedAround)
  rcases known with rfl | deeper
  · exact Or.inl ownedNested
  · exact Or.inr ⟨owner, ownedNested, deeper, below⟩

theorem SameChart.onWay (same : SameChart before after) :
    after.OnWay region target nested ↔ before.OnWay region target nested := by
  unfold OnWay
  simp only [same.ownerOf?, same.inside, same.below]

/-- The target has been entered in the region, and what is on the way was entered with it. -/
structure Attained (region : RegionId) (target : StateId) (before after : Machine) : Prop where
  active : after.isStateActive target = true
  confined : Confined region before after
  silent : Silent region before after
  passed : ∀ nested, before.OnWay region target nested → before.ActiveOrCompleted nested after

end Machine

namespace Run

open Machine (Orderly Settled Path Concludes Attained Told)

variable {mayFail : Prop} {calls : Calls}

/-- The plan attains the target whenever the region is idle. -/
def Attains (mayFail : Prop) (calls : Calls) (chart : Machine) (region : RegionId)
    (target : StateId) (plan : List Machine.Step) : Prop :=
  ∀ machine : Machine, Machine.SameChart chart machine → machine.Orderly mayFail →
    machine.Coherent → machine.Idle region →
    Ends (enterBy calls plan) machine (fun _ after => Attained region target machine after)
      (Aborted mayFail)

/-- What has been done once some regions of the owner of `nested` have been entered. -/
structure RegionsEntered (origin : Machine) (regions : List RegionId) (nested : RegionId)
    (target : StateId) (before after : Machine) : Prop where
  active : after.isStateActive target = true
  confined : ∀ outer, (∀ region ∈ regions, before.Within outer region) →
    Machine.Confined outer before after
  silent : ∀ around, (∀ region ∈ regions, ¬before.Within region around) →
    Machine.Silent around before after
  passed : ∀ region ∈ regions, origin.ActiveOrCompleted region after
  onWay : nested ∈ regions → ∀ region, before.OnWay nested target region →
    origin.ActiveOrCompleted region after

private theorem confined_settled {machine middle : Machine} {related : Machine → Machine → Prop}
    {owner : StateId} {region nested : RegionId} (wired : machine.Wired)
    (settled : Settled related (some region) machine middle)
    (owned : machine.ownerOf? region = some owner)
    (ownedNested : machine.ownerOf? nested = some owner)
    (different : region ≠ nested) (active : machine.isRegionActive nested = true) :
    Machine.Confined region machine middle :=
  settled.confined region region rfl (Machine.Within.refl machine region)
    ⟨owner, nested, owned, ownedNested, wired.siblings_apart owned ownedNested different, active⟩

/-- What has been done once one region of the owner has been entered, `nested` being the one on the
way to the target. -/
structure RegionEntered (first nested : RegionId) (target : StateId)
    (before after : Machine) : Prop where
  settled : Settled Concludes (some first) before after
  attained : first = nested → Attained nested target before after
  confined : Machine.Confined first before after
  active : after.isRegionActive nested = true
  there : (first ≠ nested → before.isStateActive target = true) → after.isStateActive target = true

private theorem RegionsEntered.nothing {origin machine : Machine} {nested : RegionId}
    {target : StateId}
    (active : machine.isStateActive target = true) :
    RegionsEntered origin [] nested target machine machine where
  active := active
  confined := fun outer _ => Machine.Confined.refl outer machine
  silent := fun around _ => Machine.Silent.of_touches (Machine.TouchesOnly.refl target machine)
  passed := by simp
  onWay := by simp

/-- One region has been entered, then the others; what was active in the first one after its turn
still is in the end. -/
theorem RegionsEntered.cons {origin before middle after : Machine} {first nested : RegionId}
    {rest : List RegionId} {target : StateId} {begun later : List Event}
    (regionEntered : RegionEntered first nested target before middle)
    (regionsEntered : RegionsEntered origin rest nested target middle after)
    (passed : origin.ActiveOrCompleted first middle)
    (persists : ∀ region, before.Within first region → middle.isRegionActive region = true →
      after.isRegionActive region = true)
    (sameOrigin : Machine.SameChart origin before) (told : Told origin before begun)
    (toldLater : Told middle after later) :
    RegionsEntered origin (first :: rest) nested target before after where
  active := regionsEntered.active
  confined := by
    intro outer within
    have same := regionEntered.settled.toMoved.sameChart
    exact (regionEntered.confined.widen (within first (List.mem_cons_self ..))).trans
      (regionsEntered.confined outer fun region isRest =>
        same.within.mpr (within region (List.mem_cons_of_mem _ isRest))) same
  silent := by
    intro around outside
    have same := regionEntered.settled.toMoved.sameChart
    exact (Machine.Silent.of_confined regionEntered.confined
      (outside first (List.mem_cons_self ..))).trans
      (regionsEntered.silent around fun region isRest within =>
        outside region (List.mem_cons_of_mem _ isRest) (same.within.mp within))
  passed := by
    intro region isListed
    rcases List.mem_cons.mp isListed with rfl | isRest
    · exact passed.later toldLater (persists region (Machine.Within.refl before region))
    · exact regionsEntered.passed region isRest
  onWay := by
    intro isListed region onWay
    rcases List.mem_cons.mp isListed with rfl | isRest
    · have within : before.Within nested region := by
        obtain ⟨_, ownedBy, insideBy, _⟩ := onWay
        exact Machine.Within.of_owner ownedBy insideBy
      exact (((regionEntered.attained rfl).passed region onWay).earlier sameOrigin told).later
        toldLater
        (persists region within)
    · exact regionsEntered.onWay isRest region
        (regionEntered.settled.toMoved.sameChart.onWay.mpr onWay)

/-- The region on the way is active before and after it is its turn, so it keeps the completion of
the others from going further. -/
theorem ends_fillOne {chart machine : Machine} {owner target : StateId} {first nested : RegionId}
    {plan : List Machine.Step} (settles : Settles mayFail Concludes calls chart first plan)
    (attains : first = nested → Attains mayFail calls chart nested target plan)
    (same : Machine.SameChart chart machine) (orderly : machine.Orderly mayFail)
    (coherent : machine.Coherent) (idle : machine.Idle first)
    (owned : machine.ownerOf? first = some owner)
    (ownedNested : machine.ownerOf? nested = some owner)
    (inside : machine.Inside nested target) (active : machine.isRegionActive nested = true) :
    Ends (enterBy calls plan) machine
    (fun _ after => RegionEntered first nested target machine after)
      (Aborted mayFail) := by
  have settled := settles machine same orderly coherent idle
  by_cases isNested : first = nested
  · subst isNested
    refine (settled.and (attains rfl machine same orderly coherent idle)).mono
      (fun _ middle both => ?_) fun _ _ failure => failure.1
    obtain ⟨settled, attained⟩ := both
    have sameMiddle := settled.toMoved.sameChart
    exact
      { settled
        attained := fun _ => attained
        confined := attained.confined
        active := settled.coherent.active_around (orderly.toWired.of_sameChart sameMiddle)
          (sameMiddle.inside.mpr inside) attained.active
        there := fun _ => attained.active }
  · refine settled.mono (fun _ middle settled => ?_) fun _ _ failure => failure
    have spared : Machine.Untouched nested machine middle :=
      settled.spares first nested rfl active
        (orderly.toWired.siblings_apart owned ownedNested isNested)
    exact
      { settled
        attained := fun here => absurd here isNested
        confined := confined_settled orderly.toWired settled owned ownedNested isNested active
        active := by
          rw [spared.isRegionActive (Machine.Within.refl machine nested)]
          exact active
        there := by
          intro was
          rw [spared.isStateActive inside]
          exact was isNested }

/-- The regions of the owner are entered one after the other, one of them on the way to the target;
by induction on the regions. -/
theorem ends_fillAround {chart origin : Machine} {owner target : StateId} {nested : RegionId}
    {plan : RegionId → List Machine.Step} (regions : List RegionId) (nodup : regions.Nodup)
    (owned : ∀ region ∈ regions, chart.ownerOf? region = some owner)
    (ownedNested : chart.ownerOf? nested = some owner) (inside : chart.Inside nested target)
    (settles : ∀ region ∈ regions, Settles mayFail Concludes calls chart region (plan region))
    (attains : nested ∈ regions → Attains mayFail calls chart nested target (plan nested))
    {machine : Machine} {begun : List Event} {event : Event}
    (sameOrigin : Machine.SameChart origin machine) (same : Machine.SameChart chart machine)
    (orderly : machine.Orderly mayFail) (coherent : machine.Coherent)
    (idle : ∀ region ∈ regions, machine.Idle region)
    (active : machine.isRegionActive nested = true)
    (there : nested ∉ regions → machine.isStateActive target = true)
    (told : Told origin machine begun) (member : event ∈ begun) (begins : event.begins = true) :
    Ends (enterBy calls (regions.flatMap plan)) machine
      (fun _ after => RegionsEntered origin regions nested target machine after)
      (Aborted mayFail) := by
  induction regions generalizing machine begun with
  | nil => exact RegionsEntered.nothing (there List.not_mem_nil)
  | cons first rest ih =>
      obtain ⟨notListed, nodupRest⟩ := List.nodup_cons.mp nodup
      have listed := @List.mem_cons_self _ first rest
      have ownedNow (region : RegionId) (isListed : region ∈ first :: rest) :
          machine.ownerOf? region = some owner :=
        (same.ownerOf? region).trans (owned region isListed)
      have listedRest (region : RegionId) (isRest : region ∈ rest) :=
        List.mem_cons_of_mem first isRest
      unfold enterBy
      rw [List.flatMap_cons, ends_forM_append]
      refine (ends_fillOne (settles first listed) (fun here => by
          subst here
          exact attains listed) same orderly coherent (idle first listed) (ownedNow first listed)
        ((same.ownerOf? nested).trans ownedNested) (same.inside.mpr inside) active).mono
        (fun _ middle regionEntered => ?_) fun _ _ failure => failure
      have settled := regionEntered.settled
      have sameMiddle := settled.toMoved.sameChart
      have orderlyMiddle := orderly.of_changes settled.changes
      have beside (region : RegionId) (isRest : region ∈ rest) : machine.Apart first region :=
        orderly.toWired.siblings_apart (ownedNow first listed)
          (ownedNow region (listedRest region isRest)) fun here => notListed (here ▸ isRest)
      have thereMiddle (notRest : nested ∉ rest) : middle.isStateActive target = true :=
        regionEntered.there fun isOther => there fun isListed =>
          (List.mem_cons.mp isListed).elim (fun here => isOther here.symm) notRest
      have idleMiddle (region : RegionId) (isRest : region ∈ rest) : middle.Idle region := by
        have wasIdle := idle region (listedRest region isRest)
        exact (settled.spares first region rfl wasIdle.1 (beside region isRest)).idle sameMiddle
          wasIdle
      obtain ⟨events, toldEvents⟩ := settled.relates.journal
      have sameNow := same.trans sameMiddle
      have ownedRest (region : RegionId) (isRest : region ∈ rest) :=
        owned region (listedRest region isRest)
      have settlesRest (region : RegionId) (isRest : region ∈ rest) :=
        settles region (listedRest region isRest)
      have filled := ends_fillRegions (respects_concludes mayFail) rest nodupRest
        ownedRest settlesRest
        sameNow orderlyMiddle settled.coherent idleMiddle
      have regionsEntered := ih nodupRest ownedRest settlesRest
        (fun isRest => attains (listedRest _ isRest))
        (sameOrigin.trans sameMiddle) sameNow orderlyMiddle settled.coherent idleMiddle
        regionEntered.active
        thereMiddle (told.trans toldEvents.symm) (List.mem_append_left _ member)
      refine (filled.and regionsEntered).mono
        (fun _ after results => ?_) fun _ _ failure => failure.1
      obtain ⟨⟨filled, relates⟩, regionsEntered⟩ := results
      obtain ⟨later, toldLater⟩ := relates.journal
      -- What is active in the first region now is not touched any more.
      have persists (region : RegionId) (within : machine.Within first region)
          (isActive : middle.isRegionActive region = true) :
          after.isRegionActive region = true := by
        have firstActive := settled.coherent.active_outside orderlyMiddle.toWired
          (sameMiddle.within.mpr within) isActive
        have untouched := filled.spares first firstActive fun other isRest =>
          sameMiddle.apart.mpr (beside other isRest).symm
        rw [untouched.isRegionActive (sameMiddle.within.mpr within)]
        exact isActive
      have firstPassed : origin.ActiveOrCompleted first middle :=
        .of_concludes settled.relates orderly.linked.retold orderlyMiddle.linked.retold
          (idle first listed).1 sameOrigin told member begins
      exact regionsEntered.cons regionEntered firstPassed persists sameOrigin told toldLater.symm

private theorem ends_activate_stays (activating : Activating mayFail Concludes calls)
    {machine : Machine}
    {state : StateId} {region : RegionId} (orderly : machine.Orderly mayFail)
    (coherent : machine.Coherent) (contained : machine.containerOf? state = some region)
    (idle : machine.Idle region) (stays : Stays machine state) :
    Ends (entryStep calls (.state state)) machine
      (fun _ middle => middle.Coherent ∧ ∃ node, machine.state? state = some node ∧
        Machine.TouchesOnly state (machine.entered state node.name) middle) (Aborted mayFail) := by
  have ready : machine.Ready state := Or.inr ⟨region, contained, idle⟩
  refine ends_entryStep_ready ready orderly.toWired ?_
  exact (activating machine state orderly coherent ready
    (Machine.isSome_of_contained contained)).mono
    (fun _ middle activated => ⟨activated.1.coherent, activated.2 stays⟩) fun _ _ failure => failure

theorem Stays.of_sameChart {before after : Machine} {state : StateId} (stays : Stays before state)
    (same : Machine.SameChart before after) : Stays after state := by
  refine stays.imp (fun owns => by rw [same.regionsOf]; exact owns) ?_
  rintro ⟨node, found, normal, enduring⟩
  obtain ⟨later, foundLater, fixed⟩ := same.state?_forward found
  have kind : later.kind = node.kind := StateNode.read_eq fixed StateNode.kind fun _ => rfl
  have config : later.config = node.config := StateNode.read_eq fixed StateNode.config fun _ => rfl
  exact ⟨later, foundLater, kind.trans normal, by rw [config]; exact enduring⟩

/-- A state of the region has been entered and some of its regions have been opened. -/
structure EnteredAndOpened (region : RegionId) (regions : List RegionId)
    (before after : Machine) : Prop where
  changes : Machine.Changes before after
  coherent : after.Coherent
  confined : Machine.Confined region before after
  silent : Machine.Silent region before after
  begun : ∃ events event, Told before after events ∧ event ∈ events ∧ event.begins = true
  waiting : ∀ nested ∈ regions, after.Idle nested

/-- Entering a state and running its callbacks is confined to its region, and tells nothing of
that. -/
theorem enteredAndOpened_of_entered {machine middle : Machine} {state : StateId} {region : RegionId}
    {node : StateNode} (found : machine.state? state = some node)
    (contained : machine.containerOf? state = some region)
    (inactive : machine.isStateActive state = false) (coherent : middle.Coherent)
    (touches : Machine.TouchesOnly state (machine.entered state node.name) middle) :
    EnteredAndOpened region [] machine middle := by
  have inside : machine.Inside region state := .member contained
  have enters := Machine.sameChart_entered machine state node.name
  have inactiveNode := (Machine.isStateActive_eq found).symm.trans inactive
  obtain ⟨touchesEnd, toldTouches, _⟩ := touches.told
  have change := (@Machine.Change.enter True _ _ _ found inactiveNode (Or.inr (Or.inr trivial))).one
  exact
    { changes := change.trans touches.changes
      coherent
      confined := (Machine.Confined.of_entered node.name inside).trans
        (Machine.Confined.of_touches touches (enters.inside.mpr inside)) enters
      silent := Machine.Silent.trans
        ⟨_, Machine.told_entered machine state node.name, by simp [Event.setsRegion]⟩
        (Machine.Silent.of_touches touches)
      begun := ⟨_, _, (Machine.told_entered machine state node.name).trans toldTouches,
        List.mem_append_left _ (List.mem_singleton_self _), rfl⟩
      waiting := by simp }

private theorem EnteredAndOpened.opened {machine middle wide : Machine} {state : StateId}
    {region : RegionId}
    {regions : List RegionId} (enteredAndOpened : EnteredAndOpened region [] machine middle)
    (opened : Machine.Opened regions middle wide) (wired : machine.Wired)
    (contained : machine.containerOf? state = some region)
    (owned : ∀ nested ∈ regions, machine.ownerOf? nested = some state)
    (waiting : ∀ nested ∈ regions, wide.Idle nested) :
    EnteredAndOpened region regions machine wide := by
  have same := enteredAndOpened.changes.sameChart
  have within (nested : RegionId) (listed : nested ∈ regions) : machine.Within region nested :=
    Machine.Within.of_member (owned nested listed) contained
  obtain ⟨events, event, told, member, begins⟩ := enteredAndOpened.begun
  refine
    { changes := enteredAndOpened.changes.trans opened.changes
      coherent := opened.coherent
      confined := enteredAndOpened.confined.trans
        (opened.confined fun nested listed => same.within.mpr (within nested listed)) same
      silent := enteredAndOpened.silent.trans ⟨_, opened.told, fun event opening => ?_⟩
      begun := ⟨_, event, told.trans opened.told, List.mem_append_left _ member, begins⟩
      waiting }
  obtain ⟨nested, listed, rfl⟩ := List.mem_map.mp opening
  rw [Event.setsRegion_activated, if_neg]
  rintro rfl
  exact wired.not_inside_own_region (owned nested listed) (.member contained)

private theorem ends_unfold (activating : Activating mayFail Concludes calls) {machine : Machine}
    {state : StateId} {region : RegionId} (orderly : machine.Orderly mayFail)
    (coherent : machine.Coherent) (contained : machine.containerOf? state = some region)
    (idle : machine.Idle region) (stays : Stays machine state) :
    Ends (enterBy calls (.state state :: (machine.regionsOf state).map Machine.Step.region)) machine
      (fun _ after => EnteredAndOpened region (machine.regionsOf state) machine after)
      (Aborted mayFail) := by
  unfold enterBy
  rw [ends_forM_cons]
  refine (ends_activate_stays activating orderly coherent contained idle stays).mono
    (fun _ middle entered => ?_) fun _ _ failure => failure
  obtain ⟨coherentMiddle, node, found, touches⟩ := entered
  have inactive := idle.2 state contained
  have enteredAndOpened :=
    enteredAndOpened_of_entered found contained inactive coherentMiddle touches
  refine (ends_openEntered orderly.toWired coherent found inactive touches coherentMiddle).mono
    (fun _ wide results => ?_) fun _ _ failure => failure
  obtain ⟨opened, waiting⟩ := results
  exact enteredAndOpened.opened opened orderly.toWired contained
    (fun nested listed => (orderly.toWired.owned nested state).mpr listed)
    fun nested listed => (waiting nested listed).2

private theorem attains_single (activating : Activating mayFail Concludes calls) {chart : Machine}
    {region : RegionId} {target : StateId} (contained : chart.containerOf? target = some region)
    (stays : Stays chart target) (bare : chart.regionsOf target = []) :
    Attains mayFail calls chart region target [.state target] := by
  intro machine same orderly coherent idle
  have containedNow := (same.containerOf? target).trans contained
  unfold enterBy
  rw [ends_forM_cons]
  simp only [ends_forM_nil]
  refine (ends_activate_stays activating orderly coherent containedNow idle
    (stays.of_sameChart same)).mono (fun _ after entered => ?_) fun _ _ failure => failure
  obtain ⟨coherentAfter, node, found, touches⟩ := entered
  have enteredAndOpened :=
    enteredAndOpened_of_entered found containedNow
    (idle.2 target containedNow) coherentAfter touches
  exact
    { active := by
        rw [touches.toStill.states]
        exact (Machine.isStateActive_entered found node.name target).mpr (Or.inl rfl)
      confined := enteredAndOpened.confined
      silent := enteredAndOpened.silent
      passed := by
        rintro nested ⟨owner, owned, insideOwner, here | ⟨around, ownedAround, insideAround⟩⟩
        · rw [← here, orderly.toWired.owned, same.regionsOf, bare] at owned
          cases owned
        · exact absurd (insideOwner.of_within (insideAround.within_container containedNow))
            (orderly.toWired.not_inside_own_region ownedAround) }

/-- Entering a chain of inactive states attains the last one, by induction on the chain. -/
theorem attains_chain (activating : Activating mayFail Concludes calls) {chart : Machine}
    (formed : chart.Formed) {region : RegionId} {chain : List StateId} {target : StateId}
    (path : Path chart region chain) (last : chain.getLast? = some target)
    (stays : Stays chart target) (bare : chart.regionsOf target = [])
    (inactive : ∀ state ∈ chain, ∀ nested ∈ chart.regionsOf state,
      chart.isRegionActive nested = false) :
    Attains mayFail calls chart region target (chart.chainEntryPlan chain) := by
  induction path with
  | @one region state contained =>
      obtain rfl : state = target := Option.some.inj last
      have plan : chart.chainEntryPlan [state] = [.state state] := by
        simp [Machine.chainEntryPlan, Machine.defaultEntryPlan, Machine.inactiveRegions, bare]
      rw [plan]
      exact attains_single activating contained stays bare
  | @more region nested state next rest contained owned inner ih =>
      intro machine same orderly coherent idle
      have lastInner : (next :: rest).getLast? = some target := by
        rw [List.getLast?_cons_cons] at last
        exact last
      have inactiveInner := fun other member => inactive other (List.mem_cons_of_mem state member)
      have attainsInner := ih lastInner inactiveInner
      have composes := settles_composes (respects_concludes mayFail) activating chart
      have settlesInner := composes.chain formed inner inactiveInner
      have inside : chart.Inside nested target :=
        inner.inside target (List.mem_of_getLast? lastInner)
      have nestedListed : nested ∈ chart.regionsOf state := (formed.owned nested state).mp owned
      have ownedBy (other : RegionId) (member : other ∈ chart.regionsOf state) :
          chart.ownerOf? other = some state := (formed.owned other state).mpr member
      have containedNow := (same.containerOf? state).trans contained
      have within (other : RegionId) (member : other ∈ chart.regionsOf state) :
          machine.Within region other :=
        Machine.Within.of_member ((same.ownerOf? other).trans (ownedBy other member)) containedNow
      have outside (other : RegionId) (member : other ∈ chart.regionsOf state) :
          ¬machine.Within other region := fun around =>
        orderly.toWired.not_inside_own_region ((same.ownerOf? other).trans (ownedBy other member))
          (Machine.Inside.of_within around (.member containedNow))
      have owns : Stays machine state :=
        Or.inl (by rw [same.regionsOf]; exact List.ne_nil_of_mem nestedListed)
      unfold Machine.chainEntryPlan enterBy
      rw [Machine.inactiveRegions_eq (inactive state (List.mem_cons_self ..)), ends_forM_append]
      have unfolds := ends_unfold activating orderly coherent containedNow idle owns
      rw [same.regionsOf] at unfolds
      refine unfolds.mono (fun _ wide enteredAndOpened => ?_) fun _ _ failure => failure
      obtain ⟨events, event, told, member, begins⟩ := enteredAndOpened.begun
      have sameWide := enteredAndOpened.changes.sameChart
      refine (ends_fillAround (chart.regionsOf state) (formed.ownedOnce state) ownedBy owned inside
        (fun other member => composes.branch formed inner settlesInner (ownedBy other member))
        (fun _ => by rw [if_pos inner.head_contained]; exact attainsInner) sameWide
        (same.trans sameWide) (orderly.of_changes enteredAndOpened.changes)
        enteredAndOpened.coherent
        enteredAndOpened.waiting (enteredAndOpened.waiting nested nestedListed).1
        (fun absent => absurd nestedListed absent) told member begins).mono
        (fun _ after regionsEntered => ?_) fun _ _ failure => failure
      exact
        { active := regionsEntered.active
          confined := enteredAndOpened.confined.trans
            (regionsEntered.confined region fun other member =>
            sameWide.within.mpr (within other member)) sameWide
          silent := enteredAndOpened.silent.trans
            (regionsEntered.silent region fun other member around =>
            outside other member (sameWide.within.mp around))
          passed := by
            intro other onWay
            rcases onWay.split orderly.toWired containedNow ((same.ownerOf? nested).trans owned)
              (same.inside.mpr inside) with ownedByState | deeper
            · refine regionsEntered.passed other ?_
              rw [orderly.toWired.owned, same.regionsOf] at ownedByState
              exact ownedByState
            · exact regionsEntered.onWay nestedListed other (sameWide.onWay.mpr deeper) }

end Run
end Chart
