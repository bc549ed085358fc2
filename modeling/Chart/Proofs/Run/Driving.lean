import Chart.Proofs.Run.DrivingEffects
import Chart.Proofs.Run.Triggering

set_option autoImplicit false

/-!
Running a machine whose effects drive siblings. Every operation, finished or failed, keeps the
machine coherent and leaves idle what waits beside the place where it works: the regions that are
still to be entered, and those in which a trigger is suspended. A trigger in an idle region is
ignored, so not even an effect that comes back to a suspended region disturbs it.
-/

namespace Chart.Run

open Machine (Driven Emptied Moved TouchesOnly NoMissedEntry KeepsWaiting Uneventful)

/-- However the run ends, the machine it leaves is related to the one it began with. -/
def Always {Answer : Type} (related : Machine → Machine → Prop) (run : Run Answer)
    (machine : Machine) : Prop :=
  Ends run machine (fun _ after => related machine after) fun _ after => related machine after

structure CallsKeepWaiting (base : StateId) (calls : Calls) : Prop where
  trigger : ∀ (machine : Machine) (id : TransitionId) (memo : Value) (found : Transition)
    (region : RegionId), machine.FitToDrive base → machine.Coherent →
    machine.transition? id = some found → found.container = some region →
    Always (Driven base region) (calls.trigger id memo) machine
  enter : ∀ (machine : Machine) (state : StateId), machine.FitToDrive base → machine.Coherent →
    machine.Ready state → (machine.state? state).isSome →
    Always (KeepsWaiting base (machine.containerOf? state)) (calls.enter state) machine
  activate : ∀ (machine : Machine) (state : StateId), machine.FitToDrive base → machine.Coherent →
    machine.Ready state → (machine.state? state).isSome →
    Always (KeepsWaiting base (machine.containerOf? state)) (calls.activate state) machine
  completeRegion : ∀ (machine : Machine) (region : RegionId), machine.FitToDrive base →
    machine.Coherent → machine.Idle region →
    Always (KeepsWaiting base (some region)) (calls.completeRegion region) machine

section Sequences

variable {base : StateId} {spot : Option RegionId} {region : RegionId} {Answer : Type}
variable {run : Run Answer} {before machine : Machine}

private theorem Always.after_keepsWaiting (always : Always (KeepsWaiting base spot) run machine)
    (keepsWaiting : KeepsWaiting base spot before machine) :
    Ends run machine (fun _ after => KeepsWaiting base spot before after)
      fun _ after => KeepsWaiting base spot before after :=
  always.mono (fun _ _ later => keepsWaiting.trans later) fun _ _ later => keepsWaiting.trans later

private theorem Always.after_driven (always : Always (Driven base region) run machine)
    (driven : Driven base region before machine) :
    Ends run machine (fun _ after => Driven base region before after)
      fun _ after => Driven base region before after :=
  always.mono (fun _ _ later => driven.trans later) fun _ _ later => driven.trans later

theorem Always.keepsWaiting (always : Always (Driven base region) run machine) :
    Always (KeepsWaiting base (some region)) run machine :=
  always.mono (fun _ _ driven => driven.toKeepsWaiting) fun _ _ driven => driven.toKeepsWaiting

private theorem keepsWaiting_fail (coherent : machine.Coherent) (error : ConfigurationError) :
    Always (KeepsWaiting base spot) (fail error : Run Answer) machine :=
  (ends_fail error).mpr
  (.of_uneventful (TouchesOnly.note Machine.root machine rfl).toUneventful coherent)

end Sequences

variable {base : StateId} {calls : Calls}

/-! ### Leaving -/

section Leaving

variable {machine : Machine} {state : StateId} (fitToDrive : machine.FitToDrive base)
include fitToDrive

theorem ends_exit_keepsWaiting (coherent : machine.Coherent)
    (active : machine.isStateActive state = true) :
    Ends (exit calls state) machine
      (fun _ after => Emptied (machine.Below state) (machine.Beneath state) machine after ∧
        KeepsWaiting base (machine.containerOf? state) machine after)
      (fun _ after => KeepsWaiting base (machine.containerOf? state) machine after) := by
  have lies : (∀ inner, .state inner ∈ machine.exitPlan state → machine.Below state inner) ∧
      ∀ region, .region region ∈ machine.exitPlan state → machine.Beneath state region := by
    unfold Machine.exitPlan
    simp only [List.mem_reverse]
    exact Machine.below_of_mem_activeSteps fitToDrive.toWired
  have leaves {after : Machine} (leavesOnly : LeavesOnly (machine.exitPlan state) machine after)
      (coherentAfter : after.Coherent) (noMissedEntry : NoMissedEntry machine after) :
      KeepsWaiting base (machine.containerOf? state) machine after :=
    .of_leavesOnly leavesOnly coherentAfter noMissedEntry
      (fun _ inner contained named => Machine.Inside.of_below contained (lies.1 inner named))
      fun _ region contained named => Machine.Within.of_beneath contained (lies.2 region named)
  exact ((ends_exit fitToDrive.leavable coherent active).and
    ((ends_exit_leavesOnly fitToDrive.drives.behaviors state).and
      (ends_exit_noMissedEntry fitToDrive.drives.behaviors state))).mono
    (fun _ _ all => ⟨all.1, leaves all.2.1.1 all.1.coherent all.2.2⟩)
    fun _ _ all => leaves all.2.1.1 all.1.1 all.2.2

private theorem ends_deactivate_keepsWaiting (alone : NoRegionActive state machine) :
    Ends (deactivate calls state) machine
      (fun _ after => Emptied (machine.Below state) (machine.Beneath state) machine after ∧
        KeepsWaiting base (machine.containerOf? state) machine after)
      (fun _ after => KeepsWaiting base (machine.containerOf? state) machine after) := by
  have leaves {after : Machine} (leavesOnly : LeavesOnly [.state state] machine after)
      (coherent : after.Coherent) (noMissedEntry : NoMissedEntry machine after) :
      KeepsWaiting base (machine.containerOf? state) machine after := by
    refine .of_leavesOnly leavesOnly coherent noMissedEntry
      (fun here inner contained named => ?_) fun _ _ _ named => ?_
    · obtain rfl := Machine.Step.state.inj (List.mem_singleton.mp named)
      exact .member contained
    · cases List.mem_singleton.mp named
  exact ((ends_deactivate_emptied fitToDrive.leavable alone.coherent alone.active alone.bare).and
    ((ends_deactivate_leavesOnly fitToDrive.drives.behaviors state).and
      (ends_deactivate_noMissedEntry fitToDrive.drives.behaviors state))).mono
    (fun _ _ all => ⟨all.1.of_single fitToDrive.toWired alone.coherent alone.bare,
      leaves all.2.1.1 all.1.coherent all.2.2⟩)
    fun _ _ all => leaves all.2.1.1 all.1.1 all.2.2

end Leaving

/-! ### Effects -/

section Effects

variable (callsKeepWaiting : CallsKeepWaiting base calls) {machine : Machine} {region : RegionId}
include callsKeepWaiting

private theorem driven_triggerReference {reference : TransitionReference} {memo : Value}
    (fitToDrive : machine.FitToDrive base) (coherent : machine.Coherent)
    (owned : machine.ownerOf? region = some base) (reaches : machine.Reaches base reference) :
    Always (Driven base region) (calls.triggerReference reference memo) machine := by
  have triggers {id : TransitionId} (registeredAt : machine.RegisteredAt base id) :
      Always (Driven base region) (calls.trigger id memo) machine := by
    obtain ⟨found, next, known, inRegion, ownedNext⟩ := registeredAt
    exact (callsKeepWaiting.trigger machine id memo found next fitToDrive coherent
      known inRegion).mono
      (fun _ _ driven => driven.seen_from fitToDrive.toWired owned ownedNext)
      fun _ _ driven => driven.seen_from fitToDrive.toWired owned ownedNext
  cases reference with
  | handle id => exact triggers reaches
  | name name =>
      unfold Always Calls.triggerReference Calls.triggerNamed
      dsimp only
      rw [ends_bind, ends_get]
      cases resolved : machine.findTransition? name with
      | none =>
          exact (ends_fail _).mpr
            (.of_uneventful (TouchesOnly.note Machine.root machine rfl).toUneventful coherent)
      | some id => exact triggers (reaches id resolved)

private theorem driven_behave {chart : Machine} {state : StateId} {behavior : Behavior}
    (fires : behavior.Fires fun reference =>
      chart.ownerOf? region = some base ∧ chart.Reaches base reference)
    (same : Machine.SameChart chart machine) (fitToDrive : machine.FitToDrive base)
    (coherent : machine.Coherent) :
    Always (Driven base region) (behave calls state behavior) machine := by
  -- By induction on the behaviour; what it may fire does not depend on how the machine ran.
  induction fires generalizing machine with
  | done => exact .of_uneventful (Uneventful.refl machine) coherent
  | fail error => exact .of_uneventful (Uneventful.refl machine) coherent
  | note text _ ih =>
      have noted : Uneventful machine (machine.note (.note text)) :=
        (TouchesOnly.note state machine rfl).toUneventful
      unfold Always behave
      rw [ends_bind, ends_note]
      exact (ih (same.trans noted.sameChart) (fitToDrive.of_changes noted.changes)
        (noted.coherent coherent)).after_driven (.of_uneventful noted coherent)
  | look _ ih =>
      unfold Always behave
      rw [ends_bind, ends_get]
      exact ih _ same fitToDrive coherent
  | write key value _ ih =>
      have written := (TouchesOnly.write state machine key value).toUneventful
      unfold Always behave
      rw [ends_bind, ends_modifyGet]
      exact (ih _ (same.trans written.sameChart) (fitToDrive.of_changes written.changes)
        (written.coherent coherent)).after_driven (.of_uneventful written coherent)
  | @fire reference allowed memo next _ ih =>
      have triggers : Always (Driven base region) (calls.triggerReference reference memo) machine :=
        driven_triggerReference callsKeepWaiting fitToDrive coherent
          (by rw [same.ownerOf?]; exact allowed.1) (same.reaches allowed.2)
      have goesOn (answer : Except MachineError Outcome) {middle : Machine}
          (driven : Driven base region machine middle) :
          Ends (behave calls state (next answer)) middle
            (fun _ after => Driven base region machine after)
            fun _ after => Driven base region machine after :=
        (ih answer (same.trans driven.changes.sameChart) (fitToDrive.of_changes driven.changes)
          driven.coherent).after_driven driven
      unfold Always behave
      rw [ends_bind, ends_attempt]
      refine triggers.mono (fun outcome _ driven => goesOn (.ok outcome) driven)
        fun halt _ driven => ?_
      cases halt with
      | error error => exact goesOn (.error error) driven
      | exhausted => exact driven

private theorem driven_runEffect {id : TransitionId} {found : Transition}
    {source : StateId} {memo : Value}
    (fitToDrive : machine.FitToDrive base) (coherent : machine.Coherent)
    (known : machine.transition? id = some found) (inRegion : found.container = some region) :
    Always (Driven base region) (runEffect calls found source memo) machine := by
  unfold runEffect
  cases isEffect : found.effect with
  | none => exact .of_uneventful (Uneventful.refl machine) coherent
  | some effect =>
      exact driven_behave callsKeepWaiting
        (fitToDrive.drives.effects id found region effect memo known inRegion isEffect)
        (Machine.SameChart.refl machine) fitToDrive coherent

end Effects

/-! ### Completion -/

section Completion

variable (callsKeepWaiting : CallsKeepWaiting base calls) {machine : Machine}
variable (fitToDrive : machine.FitToDrive base) (coherent : machine.Coherent)
include callsKeepWaiting fitToDrive coherent

theorem keepsWaiting_completeState {state : StateId} (active : machine.isStateActive state = true) :
    Always (KeepsWaiting base (machine.containerOf? state))
    (completeState calls state) machine := by
  obtain ⟨node, present, _⟩ := Machine.isStateActive_iff.mp active
  unfold Always completeState
  rw [ends_bind, ends_get, present]
  dsimp only
  cases container : node.container with
  | none =>
      dsimp only
      split
      · rw [ends_bind, ends_report]
        have told : Uneventful machine (machine.note (.notice .machineCompleted)) :=
          (TouchesOnly.note state machine rfl).toUneventful
        rw [← told.sameChart.containerOf?]
        refine (ends_exit_keepsWaiting (fitToDrive.of_changes told.changes) (told.coherent coherent)
          (by rw [told.states]; exact active)).mono (fun _ _ left => ?_) fun _ _ keepsWaiting => ?_
        · exact KeepsWaiting.trans (.of_uneventful told coherent) left.2
        · exact KeepsWaiting.trans (.of_uneventful told coherent) keepsWaiting
      · exact .of_uneventful (Uneventful.refl machine) coherent
  | some region =>
      dsimp only
      have contained : machine.containerOf? state = some region :=
        Machine.containerOf?_eq_some.mpr ⟨node, present, container⟩
      rw [contained]
      cases first : firstOutgoing? machine region node.name with
      | some id =>
          dsimp only
          obtain ⟨found, known, inRegion, _⟩ := firstOutgoing?_spec fitToDrive.toWired first
          rw [ends_discard]
          exact (callsKeepWaiting.trigger machine id .null found region fitToDrive coherent known
            inRegion).keepsWaiting
      | none =>
          dsimp only
          rw [ends_bind]
          rw [← contained]
          refine (ends_exit_keepsWaiting fitToDrive coherent active).mono (fun _ empty left => ?_)
            fun _ _ keepsWaiting => keepsWaiting
          obtain ⟨emptied, keepsWaiting⟩ := left
          rw [contained] at keepsWaiting ⊢
          exact (callsKeepWaiting.completeRegion empty region
            (fitToDrive.of_changes emptied.changes)
            emptied.coherent (emptied.idle fitToDrive.toWired coherent contained
              active)).after_keepsWaiting keepsWaiting

private theorem keepsWaiting_completeOwner {region : RegionId} {owner : StateId}
    (owned : machine.ownerOf? region = some owner)
    (ownerActive : machine.isStateActive owner = true)
    (bare : ∀ nested, machine.ownerOf? nested = some owner →
      machine.isRegionActive nested = false) :
    Always (KeepsWaiting base (some region)) (completeState calls owner) machine := by
  have climbs {after : Machine}
    (keepsWaiting : KeepsWaiting base (machine.containerOf? owner) machine after) :
      KeepsWaiting base (some region) machine after :=
    { changes := keepsWaiting.changes
      coherent := keepsWaiting.coherent
      noMissedEntry := keepsWaiting.noMissedEntry
      waits := by
        intro here other isSpot waitsBeside idle
        obtain rfl := Option.some.inj isSpot
        obtain ⟨around, contained⟩ :=
          exists_around_of_joined fitToDrive.toWired coherent ownerActive bare idle.1
        exact keepsWaiting.waits around other contained
          (waitsBeside.joined fitToDrive.toWired coherent owned contained ownerActive bare idle.1)
          idle }
  exact (keepsWaiting_completeState callsKeepWaiting fitToDrive coherent ownerActive).mono
    (fun _ _ keepsWaiting => climbs keepsWaiting) fun _ _ keepsWaiting => climbs keepsWaiting

private theorem keepsWaiting_completeRegion {region : RegionId} (idle : machine.Idle region) :
    Always (KeepsWaiting base (some region)) (completeRegion calls region) machine := by
  unfold Always completeRegion
  rw [ends_bind]
  refine (ends_deactivateRegion_emptied coherent idle.1 idle.2).mono
    (fun answer closed closes => ?_)
    fun _ _ failure => failure
  obtain ⟨isTrue, members, found, _, emptied⟩ := closes
  subst isTrue
  have keepsWaiting : KeepsWaiting base (some region) machine closed := by
    refine .of_outside emptied.changes emptied.coherent emptied.noMisstep.noMissedEntry
      (fun _ state _ _ => emptied.statuses state id) fun here other isSpot outside => ?_
    refine emptied.regionStatuses other fun isClosed => outside ?_
    obtain rfl := Option.some.inj isSpot
    exact Or.inl isClosed
  have same := emptied.changes.sameChart
  have fitClosed := fitToDrive.of_changes emptied.changes
  obtain ⟨members', foundNow, fixed⟩ := same.region?_forward found
  have sameOwner : members'.owner = members.owner := Region.read_eq fixed Region.owner fun _ => rfl
  rw [if_pos rfl, ends_bind, ends_get, foundNow]
  dsimp only
  rw [sameOwner]
  split
  · rename_i allInactive
    rw [ends_bind, ends_report]
    have bare (nested : RegionId) (owned : closed.ownerOf? nested = some members.owner) :
        closed.isRegionActive nested = false := by
      simpa using List.all_eq_true.mp allInactive nested
        ((fitClosed.owned nested members.owner).mp owned)
    have joined : Moved (some region) closed (closed.joined members.owner) :=
      Moved.of_joined _ emptied.coherent fun nested listed =>
        bare nested ((fitClosed.owned nested members.owner).mpr listed)
    have joinedSame := joined.sameChart
    have told : KeepsWaiting base (some region) closed (closed.joined members.owner) :=
      .of_outside joined.changes joined.coherent (Machine.noMissedEntry_note closed rfl)
        (fun _ _ _ _ => rfl) fun _ _ _ _ => rfl
    refine (keepsWaiting_completeOwner callsKeepWaiting
      (fitClosed.of_changes joined.changes) joined.coherent
      ?_ ?_ fun nested owned => ?_).after_keepsWaiting (keepsWaiting.trans told)
    · rw [joinedSame.ownerOf?]
      exact Machine.ownerOf?_eq_some.mpr ⟨members', foundNow, sameOwner⟩
    · change closed.isStateActive members.owner = true
      rw [emptied.statuses _ id]
      exact coherent.owner_active idle.1 (Machine.ownerOf?_eq_some.mpr ⟨members, found, rfl⟩)
    · rw [joinedSame.ownerOf?] at owned
      exact bare nested owned
  · exact keepsWaiting

end Completion

/-! ### Entering -/

section Entering

/-- Following the plan in the region keeps what waits beside it, whenever the region is idle and
however the machine ran in the meantime. -/
def PlanKeepsWaiting (base : StateId) (calls : Calls) (chart : Machine) (region : RegionId)
    (plan : List Machine.Step) : Prop :=
  ∀ machine : Machine, Machine.SameChart chart machine → machine.FitToDrive base →
    machine.Coherent → machine.Idle region →
    Always (KeepsWaiting base (some region)) (enterBy calls plan) machine

/-- Entering a state by itself; one with regions has done nothing but run its callbacks. -/
def Received (base : StateId) (state : StateId) (before after : Machine) : Prop :=
  KeepsWaiting base (before.containerOf? state) before after ∧
    (before.regionsOf state ≠ [] → ∃ node, before.state? state = some node ∧
      TouchesOnly state (before.entered state node.name) after)

def Receiving (base : StateId) (calls : Calls) : Prop :=
  ∀ (machine : Machine) (state : StateId), machine.FitToDrive base → machine.Coherent →
    machine.Ready state → (machine.state? state).isSome →
    Ends (activate calls state) machine (fun _ after => Received base state machine after)
      (fun _ after => KeepsWaiting base (machine.containerOf? state) machine after)

/-- While one region of a state is entered the others, still idle, wait beside it; by induction on
the regions. -/
theorem keepsWaiting_fillRegions {chart : Machine} {owner : StateId} {spot : Option RegionId}
    {plan : RegionId → List Machine.Step} (regions : List RegionId) (nodup : regions.Nodup)
    (owned : ∀ region ∈ regions, chart.ownerOf? region = some owner)
    (around : chart.containerOf? owner = spot)
    (planKeepsWaiting : ∀ region ∈ regions, PlanKeepsWaiting base calls chart region (plan region))
    {machine : Machine} (same : Machine.SameChart chart machine)
    (fitToDrive : machine.FitToDrive base) (coherent : machine.Coherent)
    (idle : ∀ region ∈ regions, machine.Idle region) :
    Always (KeepsWaiting base spot) (enterBy calls (regions.flatMap plan)) machine := by
  induction regions generalizing machine with
  | nil => exact .of_uneventful (Uneventful.refl machine) coherent
  | cons first rest ih =>
      obtain ⟨notListed, nodupRest⟩ := List.nodup_cons.mp nodup
      have ownedNow (region : RegionId) (member : region ∈ first :: rest) :
          machine.ownerOf? region = some owner := by
        rw [same.ownerOf?]
        exact owned region member
      have ownedFirst := ownedNow first (List.mem_cons_self ..)
      have wider {after : Machine} (keepsWaiting : KeepsWaiting base (some first) machine after) :
          KeepsWaiting base spot machine after := by
        refine keepsWaiting.widen fun here isSpot => Machine.Within.of_member ownedFirst ?_
        rw [same.containerOf?, around]
        exact isSpot
      unfold Always enterBy
      rw [List.flatMap_cons, ends_forM_append]
      refine (planKeepsWaiting first (List.mem_cons_self ..) machine same fitToDrive coherent
        (idle first (List.mem_cons_self ..))).mono (fun _ middle keepsWaiting => ?_)
        fun _ _ keepsWaiting => wider keepsWaiting
      have idleMiddle (region : RegionId) (member : region ∈ rest) : middle.Idle region := by
        refine keepsWaiting.waits first region rfl (.of_siblings fitToDrive.toWired ownedFirst
          (ownedNow region (List.mem_cons_of_mem _ member)) ?_)
          (idle region (List.mem_cons_of_mem _ member))
        rintro rfl
        exact notListed member
      exact (ih nodupRest (fun region member => owned region (List.mem_cons_of_mem _ member))
        (fun region member => planKeepsWaiting region (List.mem_cons_of_mem _ member))
        (same.trans keepsWaiting.changes.sameChart) (fitToDrive.of_changes keepsWaiting.changes)
        keepsWaiting.coherent idleMiddle).after_keepsWaiting (wider keepsWaiting)

/-- A state is entered, its regions are opened, and then they are entered one after the other. -/
theorem keepsWaiting_enterOpening (receiving : Receiving base calls) {chart machine : Machine}
    {state : StateId} {plan : RegionId → List Machine.Step}
    (same : Machine.SameChart chart machine) (fitToDrive : machine.FitToDrive base)
    (coherent : machine.Coherent) (ready : machine.Ready state)
    (present : (machine.state? state).isSome)
    (planKeepsWaiting : ∀ region ∈ chart.regionsOf state, PlanKeepsWaiting base calls chart region
      (plan region)) :
    Always (KeepsWaiting base (machine.containerOf? state))
      (enterBy calls (.state state :: (chart.regionsOf state).map Machine.Step.region ++
        (chart.regionsOf state).flatMap plan)) machine := by
  have regionsNow : machine.regionsOf state = chart.regionsOf state := same.regionsOf state
  unfold Always enterBy
  rw [List.cons_append, ends_forM_cons]
  refine ends_entryStep_ready ready fitToDrive.toWired
    ((receiving machine state fitToDrive coherent ready present).mono (fun _ middle received => ?_)
      fun _ _ keepsWaiting => keepsWaiting)
  obtain ⟨keepsWaiting, touchesEnd⟩ := received
  by_cases noRegions : chart.regionsOf state = []
  · rw [noRegions]
    exact keepsWaiting
  · obtain ⟨node, found, touches⟩ := touchesEnd (by rw [regionsNow]; exact noRegions)
    have fitMiddle := fitToDrive.of_changes keepsWaiting.changes
    have sameMiddle := keepsWaiting.changes.sameChart
    have opens := @ends_openEntered calls _ _ _ _ fitToDrive.toWired coherent found
      (ready_inactive ready) touches keepsWaiting.coherent fun _ _ => False
    rw [regionsNow] at opens
    rw [ends_forM_append]
    refine opens.mono (fun _ wide results => ?_) fun _ _ impossible => impossible.elim
    obtain ⟨opened, waiting⟩ := results
    have owned (region : RegionId) (member : region ∈ chart.regionsOf state) :
        chart.ownerOf? region = some state := by
      rw [← same.ownerOf?, fitToDrive.owned, regionsNow]
      exact member
    have opening : KeepsWaiting base (machine.containerOf? state) middle wide :=
      .of_opened opened (sameMiddle.containerOf? state) fun region member => by
        rw [sameMiddle.ownerOf?, same.ownerOf?]
        exact owned region member
    refine (keepsWaiting_fillRegions (chart.regionsOf state) ?_ owned (same.containerOf? state).symm
      planKeepsWaiting ((same.trans sameMiddle).trans opened.changes.sameChart)
      (fitMiddle.of_changes opened.changes) opened.coherent
      fun region member => (waiting region member).2).after_keepsWaiting
      (keepsWaiting.trans opening)
    rw [← regionsNow]
    exact fitToDrive.ownedOnce state

private theorem planKeepsWaiting_composes (receiving : Receiving base calls) (chart : Machine) :
    Composes chart (PlanKeepsWaiting base calls chart) := by
  intro state region plan contained planKeepsWaiting machine same fitToDrive coherent idle
  have containedNow := (same.containerOf? state).trans contained
  have result := keepsWaiting_enterOpening receiving same fitToDrive coherent
    (Or.inr ⟨region, containedNow, idle⟩) (Machine.isSome_of_contained containedNow)
    planKeepsWaiting
  rw [containedNow] at result
  exact result

variable (receiving : Receiving base calls) {machine : Machine}
variable (fitToDrive : machine.FitToDrive base) (coherent : machine.Coherent)
include receiving fitToDrive coherent

private theorem keepsWaiting_enterDefault {state : StateId} (ready : machine.Ready state)
    (present : (machine.state? state).isSome) :
    Always (KeepsWaiting base (machine.containerOf? state)) (enterDefault calls state) machine := by
  have inactive (region : RegionId) (member : region ∈ machine.regionsOf state) :
      machine.isRegionActive region = false :=
    coherent.region_inactive ((fitToDrive.owned region state).mpr member) (ready_inactive ready)
  unfold Always enterDefault
  rw [ends_bind, ends_get]
  unfold Machine.defaultEntryPlan
  rw [Machine.inactiveRegions_eq inactive]
  exact keepsWaiting_enterOpening receiving (Machine.SameChart.refl machine)
    fitToDrive coherent ready
    present fun region member => (planKeepsWaiting_composes receiving machine).enterMarker
      fitToDrive.toFormed ((fitToDrive.owned region state).mpr member)

private theorem keepsWaiting_enterExplicit {region : RegionId} {target : StateId}
    (idle : machine.Idle region)
    (inside : machine.Inside region target) :
    Always (KeepsWaiting base (some region)) (enterExplicit calls target) machine := by
  obtain ⟨chain, _, plan, path, inactive⟩ :=
    Machine.exists_path_of_inside fitToDrive.toWired coherent idle inside
  unfold Always enterExplicit
  rw [ends_bind, ends_get, plan]
  exact (planKeepsWaiting_composes receiving machine).chain fitToDrive.toFormed path
    inactive machine
    (Machine.SameChart.refl machine) fitToDrive coherent idle

end Entering

/-! ### Arriving -/

section Arriving

variable (callsKeepWaiting : CallsKeepWaiting base calls) {machine : Machine} {state : StateId}
  {region : RegionId}
variable (fitToDrive : machine.FitToDrive base)
include callsKeepWaiting fitToDrive

private theorem keepsWaiting_followInitial (coherent : machine.Coherent) :
    Always (KeepsWaiting base (some region)) (followInitial calls region) machine := by
  unfold Always followInitial
  rw [ends_bind, ends_get]
  cases first : firstSourceless? machine region with
  | none => exact keepsWaiting_fail coherent _
  | some id =>
      obtain ⟨found, known, inRegion, _⟩ := firstSourceless?_spec fitToDrive.toWired first
      dsimp only
      rw [ends_bind]
      refine (callsKeepWaiting.trigger machine id .null found region fitToDrive coherent
        known inRegion).mono
        (fun outcome after driven => ?_) fun _ _ driven => driven.toKeepsWaiting
      cases outcome with
      | fired => exact driven.toKeepsWaiting
      | _ => exact (keepsWaiting_fail driven.coherent _).after_keepsWaiting driven.toKeepsWaiting

variable (alone : NoRegionActive state machine)
  (contained : machine.containerOf? state = some region)
include alone contained

private theorem keepsWaiting_resumeHistory :
    Always (KeepsWaiting base (some region)) (resumeHistory calls state region) machine := by
  unfold Always resumeHistory
  rw [ends_bind, ← contained]
  refine (ends_deactivate_keepsWaiting fitToDrive alone).mono (fun _ empty left => ?_)
    fun _ _ keepsWaiting => keepsWaiting
  obtain ⟨emptied, keepsWaiting⟩ := left
  rw [contained] at keepsWaiting ⊢
  have fitEmpty := fitToDrive.of_changes emptied.changes
  have idle := emptied.idle fitToDrive.toWired alone.coherent contained alone.active
  obtain ⟨members, stored, _⟩ := Machine.isRegionActive_iff.mp idle.1
  rw [ends_bind, ends_get, stored]
  dsimp only
  cases remembered : members.lastActive with
  | some last =>
      dsimp only
      rw [ends_bind, ends_report]
      obtain ⟨containedLast, _⟩ :=
        fitEmpty.linked.lastActive region members last stored remembered
      have told : Uneventful empty
          (empty.note (.notice (.historyResumes last (empty.stateName last)))) :=
        (TouchesOnly.note last empty rfl).toUneventful
      have containedNow := (told.sameChart.containerOf? last).trans containedLast
      have enters := callsKeepWaiting.enter _ last (fitEmpty.of_changes told.changes)
        (told.coherent emptied.coherent) (Or.inr ⟨region, containedNow, told.idle idle⟩)
        (Machine.isSome_of_contained containedNow)
      rw [containedNow] at enters
      exact enters.after_keepsWaiting (keepsWaiting.trans (.of_uneventful told emptied.coherent))
  | none =>
      dsimp only
      have containedInitial :=
        ((fitEmpty.initial region members members.initial stored).mpr rfl).1
      have enters := callsKeepWaiting.activate empty members.initial fitEmpty emptied.coherent
        (Or.inr ⟨region, containedInitial, idle⟩) (Machine.isSome_of_contained containedInitial)
      rw [containedInitial] at enters
      exact enters.after_keepsWaiting keepsWaiting

private theorem keepsWaiting_reachFinal {node : StateNode}
    (inRegion : node.container = some region) :
    Always (KeepsWaiting base (some region)) (reachFinal calls state node) machine := by
  unfold Always reachFinal
  rw [ends_bind, ← contained]
  refine (ends_deactivate_keepsWaiting fitToDrive alone).mono (fun _ empty left => ?_)
    fun _ _ keepsWaiting => keepsWaiting
  obtain ⟨emptied, keepsWaiting⟩ := left
  rw [contained] at keepsWaiting ⊢
  rw [inRegion]
  exact (keepsWaiting_completeRegion callsKeepWaiting
    (fitToDrive.of_changes emptied.changes) emptied.coherent
    (emptied.idle fitToDrive.toWired alone.coherent contained alone.active)).after_keepsWaiting
    keepsWaiting

omit contained in
private theorem keepsWaiting_followChoice {node current : StateNode}
    (found : machine.state? state = some current) (same : current.fixed = node.fixed)
    (chosen : current.choices = node.choices) (inRegion : node.container = some region) :
    Always (KeepsWaiting base (some region)) (followChoice calls state node) machine := by
  refine ends_followChoice fitToDrive.linked found same chosen inRegion
    (fun _ _ touches _ => .of_uneventful touches.toUneventful alone.coherent)
    fun _ _ _ id ready _ _ touches present => ?_
  exact (callsKeepWaiting.trigger ready id .null _ region (fitToDrive.of_changes touches.changes)
    (touches.coherent alone.coherent) present rfl).keepsWaiting.after_keepsWaiting
      (.of_uneventful touches.toUneventful alone.coherent)

end Arriving

private theorem receiving (callsKeepWaiting : CallsKeepWaiting base calls) :
    Receiving base calls := by
  intro machine state fitToDrive coherent ready present
  obtain ⟨node, found⟩ := Option.isSome_iff_exists.mp present
  have inactive := ready_inactive ready
  have inactiveNode := (Machine.isStateActive_eq found).symm.trans inactive
  have alone := NoRegionActive.of_entered fitToDrive.toWired coherent found ready inactive
  have same := Machine.sameChart_entered machine state node.name
  have enters : KeepsWaiting base (machine.containerOf? state) machine
    (machine.entered state node.name) :=
    .of_entered fitToDrive.toWired coherent found ready inactiveNode rfl
  have fitNow := fitToDrive.of_changes enters.changes
  have foundNow := Machine.state?_entered found node.name
  have isKind : machine.kindOf? state = some node.kind :=
    Machine.kindOf?_eq_some.mpr ⟨node, found, rfl⟩
  have placed (notRoot : node.kind ≠ .root) :=
    container_of_ready fitToDrive.toWired found ready notRoot
  -- A state without regions may do anything at its place, others stay and only run callbacks.
  have passes {run : Run Unit} {current : Machine} (bare : machine.regionsOf state = [])
      (keepsWaiting : KeepsWaiting base (machine.containerOf? state) machine current)
      (always : Always (KeepsWaiting base (machine.containerOf? state)) run current) :
      Ends run current (fun _ after => Received base state machine after)
        (fun _ after => KeepsWaiting base (machine.containerOf? state) machine after) :=
    (always.after_keepsWaiting keepsWaiting).mono
    (fun _ _ later => ⟨later, fun owns => absurd bare owns⟩)
      fun _ _ later => later
  have pseudo (isPseudo : node.kind.mayOwnRegions = false) : machine.regionsOf state = [] :=
    fitToDrive.bare_of_kind isKind isPseudo
  rw [ends_activate found inactiveNode]
  cases kind : node.kind with
  | normal =>
      have stays {after : Machine}
        (touches : TouchesOnly state (machine.entered state node.name) after) :
          KeepsWaiting base (machine.containerOf? state) machine after :=
        enters.trans (.of_uneventful touches.toUneventful alone.coherent)
      refine ends_enterNormal foundNow rfl kind
        (fun present runs => fitToDrive.drives.behaviors state node present found runs)
        (fun _ touches => ⟨stays touches, fun _ => ⟨node, found, touches⟩⟩)
        (fun _ _ touches _ => stays touches) fun auto middle touches active => ?_
      have bare : machine.regionsOf state = [] := by
        rw [Machine.regionsOf, found]
        exact fitToDrive.drives.leaves state node found auto
      have completes := keepsWaiting_completeState callsKeepWaiting
        (fitNow.of_changes touches.changes)
        (touches.coherent alone.coherent) active
      rw [touches.sameChart.containerOf?, same.containerOf?] at completes
      exact passes bare (stays touches) completes
  | root => exact ⟨enters, fun _ => ⟨node, found, TouchesOnly.refl state _⟩⟩
  | initial =>
      obtain ⟨region, inRegion, contained⟩ := placed (by rw [kind]; simp)
      rw [inRegion]
      refine passes (pseudo (by rw [kind]; rfl)) enters ?_
      rw [contained]
      exact keepsWaiting_followInitial callsKeepWaiting fitNow alone.coherent
  | history depth =>
      obtain ⟨region, inRegion, contained⟩ := placed (by rw [kind]; simp)
      rw [inRegion]
      refine passes (pseudo (by rw [kind]; rfl)) enters ?_
      rw [contained]
      exact keepsWaiting_resumeHistory callsKeepWaiting fitNow alone
        ((same.containerOf? state).trans contained)
  | choice =>
      obtain ⟨region, inRegion, contained⟩ := placed (by rw [kind]; simp)
      refine passes (pseudo (by rw [kind]; rfl)) enters ?_
      rw [contained]
      exact keepsWaiting_followChoice callsKeepWaiting fitNow alone foundNow rfl rfl inRegion
  | final =>
      obtain ⟨region, inRegion, contained⟩ := placed (by rw [kind]; simp)
      refine passes (pseudo (by rw [kind]; rfl)) enters ?_
      rw [contained]
      exact keepsWaiting_reachFinal callsKeepWaiting fitNow alone
        ((same.containerOf? state).trans contained) inRegion

/-! ### Firing -/

section Firing

variable (callsKeepWaiting : CallsKeepWaiting base calls) {machine : Machine} {id : TransitionId}
  {found : Transition}
variable {region : RegionId} {memo : Value}
variable (fitToDrive : machine.FitToDrive base) (coherent : machine.Coherent)
variable (known : machine.transition? id = some found) (inRegion : found.container = some region)
include callsKeepWaiting fitToDrive coherent known inRegion

private theorem driven_fireInternal {source : StateId} {sourceName : String} :
    Always (Driven base region) (fireInternal calls id found source sourceName memo) machine := by
  unfold Always fireInternal
  have told : Uneventful machine (machine.note (.notice (.firingInternal id found.name))) :=
    (TouchesOnly.note source machine rfl).toUneventful
  rw [ends_bind, ends_report, ends_bind]
  refine Ends.mono ((driven_runEffect callsKeepWaiting (fitToDrive.of_changes told.changes)
    (told.coherent coherent) known inRegion).after_driven (.of_uneventful told coherent))
    (fun _ effected driven => ?_) fun _ _ driven => driven
  have recorded :=
    TouchesOnly.recorded source effected id ⟨found.name, sourceName, sourceName, true⟩
  exact driven.trans (.of_uneventful recorded.toUneventful driven.coherent)

variable {ends : Machine.Endpoints} (contained : machine.containerOf? ends.source = some region)
variable (inside : machine.Inside region ends.target)
include contained inside

private theorem keepsWaiting_fireExternal {sourceName targetName : String}
    (sourceActive : machine.isStateActive ends.source = true) :
    Always (KeepsWaiting base (some region))
      (fireExternal calls id found ends sourceName targetName memo) machine := by
  unfold Always fireExternal
  rw [ends_bind, ends_report, ends_bind]
  have told : Uneventful machine
    (machine.note (.notice (.firing id found.name sourceName targetName))) :=
    (TouchesOnly.note ends.source machine rfl).toUneventful
  have fitTold := fitToDrive.of_changes told.changes
  have activeTold := (told.states ends.source).trans sourceActive
  have containedTold := (told.sameChart.containerOf? ends.source).trans contained
  have toTold : KeepsWaiting base (some region) machine
      (machine.note (.notice (.firing id found.name sourceName targetName))) :=
    .of_uneventful told coherent
  refine (ends_exit_keepsWaiting fitTold toTold.coherent activeTold).mono (fun _ empty left => ?_)
    fun _ _ keepsWaiting => toTold.trans (containedTold ▸ keepsWaiting)
  obtain ⟨emptied, keepsWaiting⟩ := left
  have toEmpty : KeepsWaiting base (some region) machine empty :=
    toTold.trans (containedTold ▸ keepsWaiting)
  have idle := emptied.idle fitTold.toWired (told.coherent coherent) containedTold activeTold
  rw [ends_bind]
  refine (driven_runEffect callsKeepWaiting (fitToDrive.of_changes toEmpty.changes) emptied.coherent
    (toEmpty.changes.sameChart.kept id found known) inRegion).mono
    (fun _ effected driven => ?_) fun _ _ driven => toEmpty.trans driven.toKeepsWaiting
  rw [ends_bind]
  have recorded := (TouchesOnly.recorded ends.source effected id
    ⟨found.name, sourceName, targetName, false⟩).toUneventful
  change Ends _ (effected.recorded id ⟨found.name, sourceName, targetName, false⟩) _ _
  generalize effected.recorded id ⟨found.name, sourceName, targetName, false⟩ =
    readied at recorded ⊢
  have toReady : KeepsWaiting base (some region) machine readied :=
    (toEmpty.trans driven.toKeepsWaiting).trans (.of_uneventful recorded driven.coherent)
  have same := toReady.changes.sameChart
  have fitReady := fitToDrive.of_changes toReady.changes
  have idleReady := recorded.idle (driven.spares idle)
  have insideReady := same.inside.mpr inside
  rw [ends_bind, ends_get]
  split
  · rw [ends_bind]
    exact (keepsWaiting_enterExplicit (receiving callsKeepWaiting) fitReady
      toReady.coherent idleReady
      insideReady).after_keepsWaiting toReady
  · rename_i notDeeper
    have containedTarget := contained_of_not_deeper fitReady.toWired
      ((same.containerOf? _).trans contained) insideReady notDeeper
    have enters := keepsWaiting_enterDefault (receiving callsKeepWaiting) fitReady toReady.coherent
      (Or.inr ⟨region, containedTarget, idleReady⟩) (Machine.isSome_of_contained containedTarget)
    rw [containedTarget] at enters
    rw [ends_bind]
    exact enters.after_keepsWaiting toReady

private theorem driven_fireResolved :
    Always (Driven base region) (fireResolved calls id found ends memo) machine := by
  unfold Always fireResolved
  rw [ends_bind, ends_get]
  dsimp only
  cases sourceActive : machine.isStateActive ends.source with
  | false =>
      rw [if_pos Bool.not_false, ends_bind, ends_report]
      exact .of_uneventful (TouchesOnly.note ends.source machine rfl).toUneventful coherent
  | true =>
      rw [if_neg (by simp), ends_bind]
      refine Ends.mono ends_guardAccepts (fun accepted middle guarded => ?_)
        fun _ _ (impossible : False) => impossible.elim
      have still := guarded.1.toUneventful
      have toMiddle : Driven base region machine middle := .of_uneventful still coherent
      have fitMiddle := fitToDrive.of_changes still.changes
      have coherentMiddle := still.coherent coherent
      have knownMiddle := still.sameChart.kept id found known
      cases accepted with
      | false =>
          rw [if_pos Bool.not_false, ends_bind, ends_report]
          exact toMiddle.trans
            (.of_uneventful (TouchesOnly.note ends.source middle rfl).toUneventful coherentMiddle)
      | true =>
          rw [if_neg (by simp)]
          cases found.internal with
          | true =>
              rw [if_pos rfl]
              exact (driven_fireInternal callsKeepWaiting fitMiddle coherentMiddle knownMiddle
                inRegion).after_driven toMiddle
          | false =>
              rw [if_neg (by simp)]
              refine Ends.mono ((keepsWaiting_fireExternal callsKeepWaiting fitMiddle coherentMiddle
                knownMiddle inRegion ((still.sameChart.containerOf? _).trans contained)
                (still.sameChart.inside.mpr inside)
                ((still.states _).trans sourceActive)).after_keepsWaiting toMiddle.toKeepsWaiting)
                (fun _ _ keepsWaiting => ?_) fun _ _ keepsWaiting => ?_
              · exact .of_occupied keepsWaiting contained sourceActive
              · exact .of_occupied keepsWaiting contained sourceActive

end Firing

theorem driven_trigger (callsKeepWaiting : CallsKeepWaiting base calls) {machine : Machine}
    {id : TransitionId}
    {found : Transition} {region : RegionId} {memo : Value} (fitToDrive : machine.FitToDrive base)
    (coherent : machine.Coherent) (known : machine.transition? id = some found)
    (inRegion : found.container = some region) :
    Always (Driven base region) (trigger calls id memo) machine := by
  have asked : Uneventful machine (machine.note (.requested id)) :=
    (TouchesOnly.note Machine.root machine rfl).toUneventful
  have fitAsked := fitToDrive.of_changes asked.changes
  have coherentAsked := asked.coherent coherent
  have toAsked : Driven base region machine (machine.note (.requested id)) :=
    .of_uneventful asked coherent
  unfold Always trigger
  rw [ends_bind, ends_note, ends_bind, ends_get, Machine.transition?_note, known]
  cases resolved : (machine.note (.requested id)).endpoints id with
  | error error =>
      refine (ends_fail error).mpr (toAsked.trans (.of_uneventful ?_ coherentAsked))
      exact (TouchesOnly.note Machine.root _ rfl).toUneventful
  | ok ends =>
      dsimp only
      obtain ⟨_, contained, inside⟩ :=
        Machine.endpoints_spec fitAsked.toFormed known inRegion resolved
      rw [ends_bind]
      refine Ends.mono ((driven_fireResolved callsKeepWaiting fitAsked coherentAsked known inRegion
        contained inside).after_driven toAsked) (fun outcome after driven => ?_)
        fun _ _ driven => driven
      exact driven.trans
        (.of_uneventful (TouchesOnly.note ends.source after rfl).toUneventful driven.coherent)

theorem ends_trigger_rejected {machine : Machine} {id : TransitionId} {memo : Value}
    {cause : ConfigurationError} (unresolved : machine.endpoints id = .error cause)
    {finished : Outcome → Machine → Prop} :
    Ends (trigger calls id memo) machine finished fun _ after => Machine.Still machine after := by
  have asked : Machine.Still machine (machine.note (.requested id)) := .note machine rfl
  unfold trigger
  rw [ends_bind, ends_note, ends_bind, ends_get, Machine.endpoints_note, unresolved]
  split
  · rename_i wrong
    cases wrong
  · exact asked.trans (.note _ rfl)
  · rename_i wrong
    cases wrong

/-- The operations at every depth keep what waits, by induction on the depth. -/
theorem callsKeepWaiting_calls (base : StateId) (depth : Nat) :
    CallsKeepWaiting base (Run.calls depth) := by
  induction depth with
  | zero =>
      exact
        { trigger := fun machine _ _ _ _ _ coherent _ _ =>
          .of_uneventful (Uneventful.refl machine) coherent
          enter := fun machine _ _ coherent _ _ => .of_uneventful (Uneventful.refl machine) coherent
          activate := fun machine _ _ coherent _ _ =>
            .of_uneventful (Uneventful.refl machine) coherent
          completeRegion := fun machine _ _ coherent _ =>
            .of_uneventful (Uneventful.refl machine) coherent }
  | succ depth ih =>
      exact
        { trigger := fun _ _ _ _ _ fitToDrive coherent known inRegion =>
            driven_trigger ih fitToDrive coherent known inRegion
          enter := fun _ _ fitToDrive coherent ready present =>
            keepsWaiting_enterDefault (receiving ih) fitToDrive coherent ready present
          activate := fun machine state fitToDrive coherent ready present =>
            (receiving ih machine state fitToDrive coherent ready present).mono
              (fun _ _ received => received.1) fun _ _ keepsWaiting => keepsWaiting
          completeRegion := fun _ _ fitToDrive coherent idle =>
            keepsWaiting_completeRegion ih fitToDrive coherent idle }

end Chart.Run
