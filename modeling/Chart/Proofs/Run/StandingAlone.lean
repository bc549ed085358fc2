import Chart.Proofs.Run.Termination
import Chart.Proofs.Run.Siblings

set_option autoImplicit false

/-!
States that keep standing alone. A state that stands alone when an operation begins stands alone
when it ends, or has been left, and nothing is entered beside it before that, whatever the callbacks
do. A trigger keeps this because it leaves its source first: either the state is left with the
source, or nothing that the trigger enters, and nothing that is completed on the way, lies beside
it. The triggers of the callbacks keep it for the same reason, by induction on the depth.
-/

namespace Chart

/-- The event was told next that the state was entered. -/
def EnteredAfter (events early : List Event) (state : StateId) : Prop :=
  ∃ name, early ++ [.notice (.entered state name)] <+: events

def Leaves (state : StateId) (events : List Event) : Prop :=
  ∃ event ∈ events, event.sets state = some false

private theorem Leaves.append_right {state : StateId} {early : List Event}
    (leaves : Leaves state early)
    (late : List Event) : Leaves state (early ++ late) := by
  obtain ⟨event, member, left⟩ := leaves
  exact ⟨event, List.mem_append_left _ member, left⟩

private theorem Leaves.append_left {state : StateId} {late : List Event}
    (leaves : Leaves state late)
    (early : List Event) : Leaves state (early ++ late) := by
  obtain ⟨event, member, left⟩ := leaves
  exact ⟨event, List.mem_append_right _ member, left⟩

theorem EnteredAfter.cases {first second early : List Event} {state : StateId}
    (entered : EnteredAfter (first ++ second) early state) :
    EnteredAfter first early state ∨
      ∃ since, early = first ++ since ∧ EnteredAfter second since state := by
  obtain ⟨name, rest, split⟩ := entered
  rw [List.append_assoc] at split
  rcases List.append_eq_append_iff.mp split with ⟨since, rfl, tail⟩ | ⟨between, rfl, tail⟩
  · cases since with
    | nil => exact Or.inr ⟨[], by simp, name, rest, by simpa using tail⟩
    | cons event since =>
        obtain ⟨rfl, _⟩ := List.cons.inj tail
        exact Or.inl ⟨name, since, by simp⟩
  · exact Or.inr ⟨between, rfl, name, rest, by rw [List.append_assoc]; exact tail.symm⟩

theorem EnteredAfter.mem {events early : List Event} {state : StateId}
    (entered : EnteredAfter events early state) :
    ∃ event ∈ events, event.sets state = some true := by
  obtain ⟨name, rest, rfl⟩ := entered
  exact ⟨.notice (.entered state name), by simp, by simp [Event.sets]⟩

namespace Machine

/-- Nothing was entered beside the state before it was left. -/
def NothingBeside (machine : Machine) (state : StateId) (events : List Event) : Prop :=
  ∀ early other, EnteredAfter events early other → machine.Beside other state →
    Leaves state early

/-- If the state stands alone, it is left, and nothing is entered beside it before that. -/
structure Vacates (state : StateId) (before after : Machine) : Prop where
  changes : Changes before after
  vacated : before.StandsAlone state → ∃ events, Told before after events ∧
    Leaves state events ∧ before.NothingBeside state events

/-- If the state stands alone, it goes on doing so or is left, and nothing is entered beside it
before that. -/
structure KeepsAlone (state : StateId) (before after : Machine) : Prop where
  changes : Changes before after
  alone : before.StandsAlone state → ∃ events, Told before after events ∧
    (after.StandsAlone state ∨ Leaves state events) ∧ before.NothingBeside state events

section KeepsAlone

variable {before middle after machine : Machine} {state other : StateId} {events : List Event}

private theorem NothingBeside.append {late : List Event}
    (early : machine.NothingBeside state events)
    (since : Leaves state events ∨ machine.NothingBeside state late) :
    machine.NothingBeside state (events ++ late) := by
  intro first other entered beside
  rcases entered.cases with within | ⟨rest, rfl, within⟩
  · exact early first other within beside
  · rcases since with leaves | unjoined
    · exact leaves.append_right rest
    · exact (unjoined rest other within beside).append_left events

private theorem SameChart.nothingBeside (same : SameChart before after)
    (unjoined : after.NothingBeside state events) : before.NothingBeside state events :=
  fun early other entered beside => unjoined early other entered (same.beside.mpr beside)

theorem KeepsAlone.trans (first : KeepsAlone state before middle)
    (second : KeepsAlone state middle after) : KeepsAlone state before after where
  changes := first.changes.trans second.changes
  alone := by
    intro stands
    obtain ⟨early, toldEarly, keeps, unjoined⟩ := first.alone stands
    rcases keeps with standing | leaves
    · obtain ⟨late, toldLate, keepsLate, unjoinedLate⟩ := second.alone standing
      exact ⟨early ++ late, toldEarly.trans toldLate,
        keepsLate.imp_right fun leaves => leaves.append_left early,
        unjoined.append (Or.inr (first.changes.sameChart.nothingBeside unjoinedLate))⟩
    · obtain ⟨late, toldLate⟩ := second.changes.told
      exact ⟨early ++ late, toldEarly.trans toldLate, Or.inr (leaves.append_right late),
        unjoined.append (Or.inl leaves)⟩

theorem Vacates.trans_changes (first : Vacates state before middle)
    (second : Changes middle after) :
    Vacates state before after where
  changes := first.changes.trans second
  vacated := by
    intro stands
    obtain ⟨early, toldEarly, leaves, unjoined⟩ := first.vacated stands
    obtain ⟨late, toldLate⟩ := second.told
    exact ⟨early ++ late, toldEarly.trans toldLate, leaves.append_right late,
      unjoined.append (Or.inl leaves)⟩

theorem KeepsAlone.trans_vacates (first : KeepsAlone state before middle)
    (second : Vacates state middle after) : Vacates state before after where
  changes := first.changes.trans second.changes
  vacated := by
    intro stands
    obtain ⟨early, toldEarly, keeps, unjoined⟩ := first.alone stands
    rcases keeps with standing | leaves
    · obtain ⟨late, toldLate, leaves, unjoinedLate⟩ := second.vacated standing
      exact ⟨early ++ late, toldEarly.trans toldLate, leaves.append_left early,
        unjoined.append (Or.inr (first.changes.sameChart.nothingBeside unjoinedLate))⟩
    · obtain ⟨late, toldLate⟩ := second.changes.told
      exact ⟨early ++ late, toldEarly.trans toldLate, leaves.append_right late,
        unjoined.append (Or.inl leaves)⟩

theorem Vacates.keepsAlone (vacates : Vacates state before after) :
    KeepsAlone state before after where
  changes := vacates.changes
  alone := fun stands => by
    obtain ⟨events, told, leaves, unjoined⟩ := vacates.vacated stands
    exact ⟨events, told, Or.inr leaves, unjoined⟩

theorem KeepsAlone.of_changes (stands : ¬before.StandsAlone state)
    (changes : Changes before after) :
    KeepsAlone state before after :=
  ⟨changes, fun standing => absurd standing stands⟩

private theorem KeepsAlone.of_told (changes : Changes before after)
    (told : Told before after events)
    (stays : before.StandsAlone state → after.StandsAlone state)
    (apart : ∀ event ∈ events, ∀ other, event.sets other = some true →
      ¬before.Beside other state) : KeepsAlone state before after where
  changes := changes
  alone := fun stands => by
    refine ⟨events, told, Or.inl (stays stands), fun early other entered beside => ?_⟩
    obtain ⟨event, member, enters⟩ := entered.mem
    exact absurd beside (apart event member other enters)

theorem KeepsAlone.of_still (linked : before.Linked) (changes : Changes before after)
    (told : Told before after events) (still : ∀ event ∈ events, event.moves = false) :
    KeepsAlone state before after := by
  have retold := changes.retold linked.retold
  refine .of_told changes told (fun stands => stands.of_statuses changes.sameChart
    (fun other => ?_) fun region => ?_) fun event member other enters => ?_
  · rw [← retold.states, told, replay_append_silent fun event member =>
      Event.sets_of_still (still event member) other, linked.retold.states]
  · rw [← retold.regions, told, replay_append_silent fun event member =>
      Event.setsRegion_of_still (still event member) region, linked.retold.regions]
  · rw [Event.sets_of_still (still event member) other] at enters
    cases enters

theorem KeepsAlone.refl (machine : Machine) : KeepsAlone state machine machine :=
  .of_told Relation.ReflTransGen.refl (Told.refl machine) id (by simp)

theorem KeepsAlone.note (linked : machine.Linked) {event : Event} (plain : event.isPlain = true) :
    KeepsAlone state machine (machine.note event) :=
  .of_still linked (Change.note event plain).one (told_note machine event)
    (by simpa using Event.moves_of_isPlain plain)

theorem KeepsAlone.entered {node : StateNode} (found : machine.state? other = some node)
    (inactive : node.status.isActive = false) (apart : ¬machine.Beside other state) :
    KeepsAlone state machine (machine.entered other node.name) := by
  refine .of_told (Change.enter found inactive (Or.inr (Or.inr trivial))).one
    (told_entered machine other node.name) (fun stands => stands.entered found apart node.name) ?_
  intro event member another enters
  rw [List.mem_singleton.mp member, Event.sets_entered] at enters
  split at enters
  · rename_i same
    rw [← same]
    exact apart
  · cases enters

private theorem unentered_left (node : StateNode) :
    ∀ event ∈ [Event.notice (.left other node.name)], ∀ another,
      event.sets another = some true → ¬machine.Beside another state := by
  intro event member another enters
  rw [List.mem_singleton.mp member, Event.sets_left] at enters
  split at enters <;> cases enters

theorem KeepsAlone.left {node : StateNode} (found : machine.state? other = some node)
    (active : node.status.isActive = true) (notBelow : ¬machine.Below other state) :
    KeepsAlone state machine (machine.left other node) :=
  .of_told (Change.leave found active).one (told_left other node)
    (fun stands => stands.left notBelow) (unentered_left node)

theorem Vacates.left {node : StateNode} (found : machine.state? state = some node)
    (active : node.status.isActive = true) : Vacates state machine (machine.left state node) where
  changes := (Change.leave found active).one
  vacated := fun _ => by
    refine ⟨_, told_left state node, ⟨_, List.mem_singleton_self _, by simp [Event.sets]⟩, ?_⟩
    intro early other entered beside
    obtain ⟨event, member, enters⟩ := entered.mem
    exact absurd beside (unentered_left node event member other enters)

theorem KeepsAlone.opened {region : RegionId} {members : Region}
    (found : machine.region? region = some members) (inactive : members.status.isActive = false) :
    KeepsAlone state machine (machine.opened region members.name) :=
  .of_told (Change.openRegion found inactive).one (told_opened machine region members.name)
    (fun stands => stands.opened found members.name) (by simp [Event.sets])

theorem KeepsAlone.closed {region : RegionId} {members : Region}
    (found : machine.region? region = some members) (active : members.status.isActive = true)
    (outside : ¬machine.Inside region state) :
    KeepsAlone state machine (machine.closed region members.name) :=
  .of_told (Change.closeRegion found active).one (told_closed machine region members.name)
    (fun stands => stands.closed outside members.name) (by simp [Event.sets])

theorem KeepsAlone.joined {owner : StateId}
    (inactive : ∀ region ∈ machine.regionsOf owner, machine.isRegionActive region = false) :
    KeepsAlone state machine (machine.joined owner) :=
  .of_told (Change.join inactive).one (told_note machine _)
    (fun stands => stands.of_statuses (sameChart_note machine _) (fun _ => rfl) fun _ => rfl)
    (by simp [Event.sets])

end KeepsAlone

/-! ### What is planned lies beside nothing that stands alone -/

section Plans

variable {machine : Machine} {state : StateId}

variable (formed : machine.Formed)
include formed

/-- The markers of a chain stand in inactive regions, and those lie around nothing that stands
alone. -/
theorem StandsAlone.apart_chainEntryPlan (stands : machine.StandsAlone state) {chain : List StateId}
    (apart : ∀ one ∈ chain, ¬machine.Beside one state) {other : StateId}
    (named : .state other ∈ machine.chainEntryPlan chain) : ¬machine.Beside other state := by
  rcases mem_chainEntryPlan named with
    inChain | ⟨owner, member, region, members, pending, found, rfl⟩
  · exact apart other inChain
  · obtain ⟨owns, inactive⟩ := List.mem_filter.mp pending
    have clear : machine.Clear region state :=
      { outside := fun inside => by simp [stands.around region inside] at inactive
        owner := fun owner' owned => by
          rw [(formed.owned region owner).mpr owns] at owned
          obtain rfl := Option.some.inj owned
          exact apart owner member }
    exact clear.child formed.toWired (containerOf?_entryMarker found formed)

theorem StandsAlone.apart_defaultEntryPlan (stands : machine.StandsAlone state) {top : StateId}
    (apart : ¬machine.Beside top state) {other : StateId}
    (named : .state other ∈ machine.defaultEntryPlan top) : ¬machine.Beside other state :=
  @StandsAlone.apart_chainEntryPlan machine state formed stands [top]
  (by simpa using apart) other named

theorem StandsAlone.apart_explicitEntryPlan (stands : machine.StandsAlone state) {target : StateId}
    (apart : ¬machine.Beside target state) {other : StateId}
    (named : .state other ∈ machine.explicitEntryPlan target) : ¬machine.Beside other state := by
  refine stands.apart_chainEntryPlan formed (fun one member => ?_) (mem_explicitEntryPlan named)
  have climbs (one parent : StateId) (isParent : machine.parentOf? one = some parent)
      (apart : ¬machine.Beside one state) : ¬machine.Beside parent state := fun beside =>
    apart (beside.lower
      (below_iff_parent.mpr (Or.inr ⟨parent, isParent, Below.refl machine parent⟩)))
  exact forall_mem_inactiveChain climbs apart (by simpa using apart) one member

end Plans

end Machine

end Chart
