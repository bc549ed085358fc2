import Chart.Proofs.Run.Completing
import Chart.Proofs.Run.ExitScope

set_option autoImplicit false

/-!
Effects that drive siblings. When only effects of the transitions in the regions of one state, the
base, fire anything, and only such transitions, a trigger may be suspended in one of these regions
while its effect works on the others. What is suspended waits in an idle region beside the place
where the machine works, and no step taken there disturbs such a region.
-/

namespace Chart

/-- Fires only what is permitted, whatever it is answered. -/
inductive Behavior.Fires (permitted : TransitionReference → Prop) : Behavior → Prop
  | done : Fires permitted .done
  | fail (error : MachineError) : Fires permitted (.fail error)
  | note (text : String) {next : Behavior} (fires : Fires permitted next) :
      Fires permitted (.note text next)
  | look {next : View → Behavior} (fires : ∀ view, Fires permitted (next view)) :
      Fires permitted (.look next)
  | write (key : String) (value : Value) {next : Option Value → Behavior}
      (fires : ∀ old, Fires permitted (next old)) : Fires permitted (.write key value next)
  | fire {reference : TransitionReference} (allowed : permitted reference) (memo : Value)
      {next : Except MachineError Outcome → Behavior}
      (fires : ∀ answer, Fires permitted (next answer)) :
      Fires permitted (.fire reference memo next)

theorem Behavior.Fires.mono {permitted allowed : TransitionReference → Prop} {behavior : Behavior}
    (fires : behavior.Fires permitted)
    (more : ∀ reference, permitted reference → allowed reference) :
    behavior.Fires allowed := by
  induction fires with
  | done => exact .done
  | fail error => exact .fail error
  | note text _ ih => exact .note text ih
  | look _ ih => exact .look ih
  | write key value _ ih => exact .write key value ih
  | fire known memo _ ih => exact .fire (more _ known) memo ih

namespace Machine

/-- The transition is registered in a region of the state. -/
def RegisteredAt (machine : Machine) (base : StateId) (id : TransitionId) : Prop :=
  ∃ found region, machine.transition? id = some found ∧ found.container = some region ∧
    machine.ownerOf? region = some base

/-- Whatever transition the reference means is registered in a region of the state. -/
def Reaches (machine : Machine) (base : StateId) : TransitionReference → Prop
  | .handle id => machine.RegisteredAt base id
  | .name name => ∀ id, machine.findTransition? name = some id → machine.RegisteredAt base id

/-- What states run is quiet, effects fire only from regions of the base and only into them, and
automatic states own no regions. -/
structure Drives (base : StateId) (machine : Machine) : Prop where
  behaviors : machine.QuietStates True
  effects : ∀ id found region effect memo, machine.transition? id = some found →
    found.container = some region → found.effect = some effect →
    (effect memo).Fires fun reference =>
      machine.ownerOf? region = some base ∧ machine.Reaches base reference
  leaves : ∀ state node, machine.state? state = some node →
    node.config.autoTransition = true → node.regions = []

section SameChart

variable {base : StateId} {before after : Machine} (same : SameChart before after)
include same

private theorem SameChart.registeredAt {id : TransitionId}
    (registeredAt : before.RegisteredAt base id) :
    after.RegisteredAt base id := by
  obtain ⟨found, region, known, inRegion, owned⟩ := registeredAt
  exact ⟨found, region, same.kept id found known, inRegion, by rw [same.ownerOf?]; exact owned⟩

theorem SameChart.reaches {reference : TransitionReference}
    (reaches : before.Reaches base reference) : after.Reaches base reference := by
  cases reference with
  | handle id => exact same.registeredAt reaches
  | name name =>
      intro id found
      rw [same.findTransition?] at found
      exact same.registeredAt (reaches id found)

theorem Drives.of_sameChart (drives : before.Drives base) : after.Drives base where
  behaviors := QuietStates.of_sameChart drives.behaviors same
  effects := by
    intro id found region effect memo present inRegion isEffect
    rcases same.chosen id found present with earlier | ⟨name, choice, target, chosen, made⟩
    · refine (drives.effects id found region effect memo earlier inRegion isEffect).mono
        fun reference permitted => ⟨?_, same.reaches permitted.2⟩
      rw [same.ownerOf?]
      exact permitted.1
    · rw [made] at isEffect
      cases isEffect
  leaves := by
    intro state node found auto
    obtain ⟨node', found', fixed⟩ := same.state?_backward found
    have config : node'.config = node.config :=
      StateNode.read_eq fixed StateNode.config fun _ => rfl
    have regions : node'.regions = node.regions :=
      StateNode.read_eq fixed StateNode.regions fun _ => rfl
    rw [← regions]
    exact drives.leaves state node' found' (by rw [config]; exact auto)

end SameChart

/-- What holds of the chart, the links and the callbacks whenever the machine runs. -/
structure FitToDrive (base : StateId) (machine : Machine) : Prop extends Formed machine where
  linked : machine.Linked
  drives : machine.Drives base

namespace FitToDrive

variable {base : StateId} {before after : Machine} (fitToDrive : before.FitToDrive base)
include fitToDrive

theorem of_changes (changes : Changes before after) : after.FitToDrive base where
  toFormed := fitToDrive.toFormed.of_sameChart changes.sameChart
  linked := changes.linked fitToDrive.linked
  drives := fitToDrive.drives.of_sameChart changes.sameChart

theorem leavable : before.Leavable True where
  toWired := fitToDrive.toWired
  quietStates := fitToDrive.drives.behaviors

end FitToDrive

/-! ### Waiting beside the place of work -/

/-- Apart from the place, and if that lies in a region of the base, not below another one of them:
from there the work may spread to any region of the base, but no deeper region may be waiting. -/
structure WaitsBeside (machine : Machine) (base : StateId) (here other : RegionId) : Prop where
  apart : machine.Apart here other
  shallow : ∀ one two, machine.ownerOf? one = some base → machine.ownerOf? two = some base →
    one ≠ two → machine.Within one here → machine.Within two other → other = two

section Waiting

variable {machine : Machine} {base : StateId} {here inner around other : RegionId}

private theorem SameChart.waitsBeside {before after : Machine} (same : SameChart before after) :
    after.WaitsBeside base here other ↔ before.WaitsBeside base here other := by
  constructor
  · intro waitsBeside
    refine ⟨same.apart.mp waitsBeside.apart,
      fun one two ownedOne ownedTwo different around within => ?_⟩
    exact waitsBeside.shallow one two (by rw [same.ownerOf?]; exact ownedOne)
      (by rw [same.ownerOf?]; exact ownedTwo) different (same.within.mpr around)
      (same.within.mpr within)
  · intro waitsBeside
    refine ⟨same.apart.mpr waitsBeside.apart,
      fun one two ownedOne ownedTwo different around within => ?_⟩
    rw [same.ownerOf?] at ownedOne ownedTwo
    exact waitsBeside.shallow one two ownedOne ownedTwo different (same.within.mp around)
      (same.within.mp within)

theorem WaitsBeside.of_siblings (wired : machine.Wired) {owner : StateId}
    (owned : machine.ownerOf? here = some owner) (ownedOther : machine.ownerOf? other = some owner)
    (different : here ≠ other) : machine.WaitsBeside base here other where
  apart := wired.siblings_apart owned ownedOther different
  shallow := by
    intro one two ownedOne ownedTwo distinct aroundHere aroundOther
    rcases aroundOther.inside_owner ownedOther with same | insideTwo
    · exact same
    · exfalso
      rcases aroundHere.inside_owner owned with same | insideOne
      · rw [← same, owned] at ownedOne
        obtain rfl := Option.some.inj ownedOne
        exact wired.not_inside_own_region ownedTwo insideTwo
      · exact (wired.siblings_apart ownedOne ownedTwo distinct).not_inside insideOne insideTwo

private theorem WaitsBeside.within (waitsBeside : machine.WaitsBeside base here other)
    (nested : machine.Within here inner) : machine.WaitsBeside base inner other where
  apart := waitsBeside.apart.within nested
  shallow := by
    intro one two ownedOne ownedTwo distinct aroundInner aroundOther
    rcases aroundInner.comparable nested with aroundHere | below
    · exact waitsBeside.shallow one two ownedOne ownedTwo distinct aroundHere aroundOther
    · rcases below.inside_owner ownedOne with same | inside
      · exact waitsBeside.shallow one two ownedOne ownedTwo distinct
          (by rw [same]; exact Within.refl machine here) aroundOther
      · -- The base lies inside the place, so its other region and what is in it do as well.
        exact absurd ((Within.of_owner ownedTwo inside).trans aroundOther) waitsBeside.apart.1

/-- What is active and waits beside a region of a state whose regions have joined waits beside the
region around that state. -/
theorem WaitsBeside.joined (waitsBeside : machine.WaitsBeside base here other)
    (wired : machine.Wired)
    (coherent : machine.Coherent) {owner : StateId} (owned : machine.ownerOf? here = some owner)
    (contained : machine.containerOf? owner = some around)
    (ownerActive : machine.isStateActive owner = true)
    (joined : ∀ nested, machine.ownerOf? nested = some owner →
      machine.isRegionActive nested = false)
    (active : machine.isRegionActive other = true) : machine.WaitsBeside base around other where
  apart := Run.apart_of_joined wired coherent owned contained ownerActive joined active
    waitsBeside.apart
  shallow := fun one two ownedOne ownedTwo distinct outside =>
    waitsBeside.shallow one two ownedOne ownedTwo distinct
      (outside.trans (Within.of_member owned contained))

/-- What waits beside one region of the base waits beside each of them, unless it is that one. -/
theorem WaitsBeside.spread (waitsBeside : machine.WaitsBeside base here other)
    (owned : machine.ownerOf? here = some base) {next : RegionId}
    (ownedNext : machine.ownerOf? next = some base) (different : other ≠ next) :
    machine.WaitsBeside base next other := by
  have elsewhere (region : RegionId) (ownedRegion : machine.ownerOf? region = some base)
      (around : machine.Within region other) : other = region := by
    by_cases isHere : here = region
    · exact absurd (isHere ▸ around) waitsBeside.apart.1
    · exact waitsBeside.shallow here region owned ownedRegion isHere
        (Within.refl machine here) around
  refine ⟨⟨fun around => different (elsewhere next ownedNext around), fun around => ?_⟩,
    fun _ two _ ownedTwo _ _ around => elsewhere two ownedTwo around⟩
  rcases around.inside_owner ownedNext with same | inside
  · exact different same.symm
  · exact waitsBeside.apart.2 (Within.of_owner owned inside)

end Waiting

/-! ### What happens at a place -/

/-- The machine stays coherent, every state is entered that is to be, and what waits beside the spot
stays idle. -/
structure KeepsWaiting (base : StateId) (spot : Option RegionId)
    (before after : Machine) : Prop where
  changes : Changes before after
  coherent : after.Coherent
  noMissedEntry : NoMissedEntry before after
  waits : ∀ here other, spot = some here → before.WaitsBeside base here other → before.Idle other →
    after.Idle other

namespace KeepsWaiting

variable {base : StateId} {spot : Option RegionId} {before middle after : Machine}

theorem trans (first : KeepsWaiting base spot before middle)
    (second : KeepsWaiting base spot middle after) :
    KeepsWaiting base spot before after where
  changes := first.changes.trans second.changes
  coherent := second.coherent
  noMissedEntry := first.noMissedEntry.trans second.noMissedEntry
  waits := fun here other isSpot waitsBeside idle => second.waits here other isSpot
    (first.changes.sameChart.waitsBeside.mpr waitsBeside)
    (first.waits here other isSpot waitsBeside idle)

theorem widen {inner : RegionId} (keepsWaiting : KeepsWaiting base (some inner) before after)
    (within : ∀ here, spot = some here → before.Within here inner) :
    KeepsWaiting base spot before after where
  changes := keepsWaiting.changes
  coherent := keepsWaiting.coherent
  noMissedEntry := keepsWaiting.noMissedEntry
  waits := fun here other isSpot waitsBeside idle =>
    keepsWaiting.waits inner other rfl (waitsBeside.within (within here isSpot)) idle

theorem of_outside (changes : Changes before after) (coherent : after.Coherent)
    (noMissedEntry : NoMissedEntry before after)
    (states : ∀ here state, spot = some here → ¬before.Inside here state →
      after.isStateActive state = before.isStateActive state)
    (regions : ∀ here region, spot = some here → ¬before.Within here region →
      after.isRegionActive region = before.isRegionActive region) :
    KeepsWaiting base spot before after where
  changes := changes
  coherent := coherent
  noMissedEntry := noMissedEntry
  waits := by
    intro here other isSpot waitsBeside idle
    refine ⟨?_, fun state contained => ?_⟩
    · rw [regions here other isSpot waitsBeside.apart.1]
      exact idle.1
    · rw [changes.sameChart.containerOf?] at contained
      rw [states here state isSpot fun inside =>
        waitsBeside.apart.1 (inside.within_container contained)]
      exact idle.2 state contained

theorem of_uneventful (uneventful : Uneventful before after) (coherent : before.Coherent) :
    KeepsWaiting base spot before after :=
  of_outside uneventful.changes (uneventful.coherent coherent) uneventful.noMisstep.noMissedEntry
    (fun _ state _ _ => uneventful.states state) fun _ region _ _ =>
      uneventful.isRegionActive region

theorem of_leavesOnly {steps : List Step} (leavesOnly : Run.LeavesOnly steps before after)
    (coherent : after.Coherent) (noMissedEntry : NoMissedEntry before after)
    (inside : ∀ here state, spot = some here → .state state ∈ steps → before.Inside here state)
    (within : ∀ here region, spot = some here → .region region ∈ steps →
      before.Within here region) : KeepsWaiting base spot before after :=
  of_outside leavesOnly.changes coherent noMissedEntry
    (fun here state isSpot outside => leavesOnly.states state fun named =>
      outside (inside here state isSpot named))
    fun here region isSpot outside => leavesOnly.regions region fun named =>
      outside (within here region isSpot named)

theorem of_entered {state : StateId} {node : StateNode} (wired : before.Wired)
    (coherent : before.Coherent) (found : before.state? state = some node)
    (ready : before.Ready state) (inactive : node.status.isActive = false)
    (contained : before.containerOf? state = spot) :
    KeepsWaiting base spot before (before.entered state node.name) := by
  refine of_outside (Change.enter found inactive (Or.inr (Or.inr trivial))).one
    (coherent.entered wired found ready node.name)
    ⟨_, told_entered before state node.name, by simp [Event.isMissedEntry]⟩
    (fun here other isSpot outside => ?_) fun _ _ _ _ => rfl
  have different : other ≠ state := by
    rintro rfl
    exact outside (.member (contained.trans isSpot))
  rw [Bool.eq_iff_iff, isStateActive_entered found]
  exact ⟨fun active => active.resolve_left different, Or.inr⟩

theorem of_opened {regions : List RegionId} {state : StateId}
    (opened : Opened regions before after) (contained : before.containerOf? state = spot)
    (owned : ∀ region ∈ regions, before.ownerOf? region = some state) :
    KeepsWaiting base spot before after := by
  refine of_outside opened.changes opened.coherent
    ⟨_, opened.told, by simp [Event.isMissedEntry]⟩ (fun _ other _ _ => opened.isStateActive other)
    fun here region isSpot outside => ?_
  have unlisted : region ∉ regions := fun listed =>
    outside (Within.of_member (owned region listed) (contained.trans isSpot))
  rw [isRegionActive, opened.others region unlisted, isRegionActive]

end KeepsWaiting

/-- What happens when a transition of the region is triggered: beside the region nothing is
disturbed, and the region itself, when it is idle, is left alone as well. -/
structure Driven (base : StateId) (region : RegionId) (before after : Machine) : Prop
    extends KeepsWaiting base (some region) before after where
  spares : before.Idle region → after.Idle region

namespace Driven

variable {base : StateId} {region next : RegionId} {before middle after : Machine}

theorem trans (first : Driven base region before middle)
    (second : Driven base region middle after) :
    Driven base region before after where
  toKeepsWaiting := first.toKeepsWaiting.trans second.toKeepsWaiting
  spares := fun idle => second.spares (first.spares idle)

theorem of_uneventful (uneventful : Uneventful before after) (coherent : before.Coherent) :
    Driven base region before after where
  toKeepsWaiting := .of_uneventful uneventful coherent
  spares := uneventful.idle

theorem of_occupied {state : StateId} (keepsWaiting : KeepsWaiting base (some region) before after)
    (contained : before.containerOf? state = some region)
    (active : before.isStateActive state = true) : Driven base region before after where
  toKeepsWaiting := keepsWaiting
  spares := by
    intro idle
    rw [idle.2 state contained] at active
    cases active

/-- What a trigger in one region of the base does, seen from another one: a trigger suspended there
finds its region as idle as before. -/
theorem seen_from (driven : Driven base next before after) (wired : before.Wired)
    (owned : before.ownerOf? region = some base) (ownedNext : before.ownerOf? next = some base) :
    Driven base region before after where
  changes := driven.changes
  coherent := driven.coherent
  noMissedEntry := driven.noMissedEntry
  waits := by
    intro here other isHere waitsBeside idle
    obtain rfl := Option.some.inj isHere
    by_cases isNext : other = next
    · rw [isNext] at idle ⊢
      exact driven.spares idle
    · exact driven.waits next other rfl (waitsBeside.spread owned ownedNext isNext) idle
  spares := by
    intro idle
    by_cases isNext : region = next
    · rw [isNext] at idle ⊢
      exact driven.spares idle
    · exact driven.waits next region rfl
        (.of_siblings wired ownedNext owned fun same => isNext same.symm) idle

end Driven

end Machine
end Chart
