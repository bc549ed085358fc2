import Chart.Proofs.Run.Disciplined
import Chart.Proofs.Run.Links
import Chart.Proofs.Run.PlanPlaces

set_option autoImplicit false

/-!
Running a machine is a sequence of elementary changes, whether the operation finishes or not. This
is a discipline that allows every change; the operations at all depths follow by induction on the
depth. In a machine whose chart and links are right the operations make none of the changes that
only a call from outside makes: every state they enter by default lies in a region.
-/

namespace Chart.Run

open Discipline hiding Sound
open Machine (Change SameChart)

/-- Changes of the given sort lead from the machine to what a run leaves. -/
abbrev Steps (outer : Prop) : Machine → Machine → Prop := Relation.ReflTransGen (Change outer)

/-- Where only inner changes are expected, the chart and the links are right. -/
def Sound (outer : Prop) (machine : Machine) : Prop :=
  outer ∨ machine.Formed ∧ machine.Linked

private theorem Sound.of_steps {outer : Prop} {before after : Machine} (sound : Sound outer before)
    (steps : Steps outer before after) : Sound outer after := by
  have changes := Machine.changes_of_steps steps
  exact sound.imp_right fun right =>
    ⟨right.1.of_sameChart changes.sameChart, changes.linked right.2⟩

/-- Whatever the end of the run, changes of the given sort lead to the machine it leaves. -/
def changing (outer : Prop) : Discipline where
  permits := fun _ => True
  fit := Sound outer
  finished := Steps outer
  halted := fun _ => Steps outer

/-- A state that may be entered by default, or from outside. -/
def Placed (outer : Prop) (machine : Machine) (state : StateId) : Prop :=
  (machine.containerOf? state).isSome ∨ outer

structure Calls.Changing (outer : Prop) (calls : Calls) : Prop
    extends (changing outer).KeptBy calls where
  enter : ∀ machine state, Sound outer machine → Placed outer machine state →
    (changing outer).KeptFrom (calls.enter state) machine
  activate : ∀ machine state, Sound outer machine → Placed outer machine state →
    (changing outer).KeptFrom (calls.activate state) machine

/-! ### What is allowed -/

section Allowed

variable (outer : Prop)

theorem lawful_changing : (changing outer).Lawful where
  same := fun steps => (Machine.changes_of_steps steps).sameChart
  fit := Sound.of_steps
  refl := fun _ => Relation.ReflTransGen.refl
  trans := Relation.ReflTransGen.trans
  halts := Relation.ReflTransGen.trans
  note := fun _ routine => (Change.note _ (Event.isPlain_of_isRoutine routine)).one
  exhausted := fun _ => Relation.ReflTransGen.refl
  misconfigured := fun _ _ => (Change.note _ rfl).one

theorem refuses_changing : (changing outer).Refuses where
  misused := fun _ _ => Relation.ReflTransGen.refl

private theorem lenient_changing : (changing outer).Lenient where
  failed := fun _ _ => Relation.ReflTransGen.refl
  caught := id
  written := fun key value _ => (Change.write key value).one

theorem sound_changing : (changing outer).Sound where
  toLawful := lawful_changing outer
  behaviors := fun _ _ _ => trivial
  behave := fun kept state behavior _ =>
    kept_behave (lawful_changing outer) (lenient_changing outer) kept.trigger state behavior
  left := by
    intro machine state node sound found active
    have leaves : Steps outer machine (machine.left state node) := (Change.leave found active).one
    exact leaves.trans (finished_starting (lawful_changing outer) (sound.of_steps leaves)
      (Change.note _ rfl).one node.closing)
  closed := fun _ found active => (Change.closeRegion found active).one
  joined := fun _ inactive => (Change.join inactive).one
  opened := fun _ found inactive _ => (Change.openRegion found inactive).one
  started := fun _ _ => (Change.note _ rfl).one
  timed := by
    intro machine state node _ found active normal timed
    have armed : Steps outer machine (machine.timerArmed state) :=
      (Change.armTimer found active normal timed).one
    exact armed.tail (Change.note _ rfl)

private theorem chooses_changing : (changing outer).Chooses where
  decided := fun _ _ _ => (Change.note _ rfl).one
  chosen := fun _ found contained fresh _ => (Change.choose found contained fresh).one

theorem fires_changing : (changing outer).Fires where
  effects := fun _ _ _ _ => trivial
  requested := fun _ _ => (Change.note _ rfl).one
  recorded := fun id firing _ => (Change.record id firing).one
  settled := fun _ _ _ => (Change.note _ rfl).one

theorem ticks_changing : (changing outer).Ticks where
  started := fun _ _ => (Change.note _ rfl).one
  folded := fun now _ found awaited running => (Change.foldFrame found awaited running now).one
  requested := fun _ found running => (Change.requestFrame found running).one
  reset := by
    intro machine state node name _ found stopped
    have reset : Steps outer machine (machine.timerReset state) :=
      (Change.resetTimer found stopped).one
    exact reset.tail (Change.note _ rfl)
  cancelled := fun _ stale => (Change.cancelFrame _ stale).one

end Allowed

private theorem calls_exhausted_changing (outer : Prop) : Calls.exhausted.Changing outer where
  trigger := fun _ _ _ _ => Relation.ReflTransGen.refl
  completeRegion := fun _ _ _ => Relation.ReflTransGen.refl
  enter := fun _ _ _ _ => Relation.ReflTransGen.refl
  activate := fun _ _ _ _ => Relation.ReflTransGen.refl

section Operations

variable {outer : Prop} {calls : Calls} (changes : calls.Changing outer)
include changes

theorem changing_startBehavior (state : StateId) (phase : Phase) (behavior : Option Behavior) :
    (changing outer).Kept (startBehavior calls state phase behavior) :=
  kept_startBehavior (sound_changing outer) changes.toKeptBy state
    (fun _ => (Change.note _ rfl).one) fun _ _ => trivial

theorem acts_changing : (changing outer).Acts calls :=
  (sound_changing outer).acts changes.toKeptBy (ticks_changing outer)

/-! ### Entering -/

private theorem changing_resumeHistory (state : StateId) (region : RegionId) :
    (changing outer).Kept (resumeHistory calls state region) := by
  apply kept_resumeHistory (sound_changing outer) changes.toKeptBy
  · intro machine region members last name sound stored remembered
    have noted : Steps outer machine (machine.note (.notice (.historyResumes last name))) :=
      (Change.note _ rfl).one
    refine changes.enter _ last (sound.of_steps noted) (sound.symm.imp_left fun right => ?_)
    rw [((lawful_changing outer).same noted).containerOf?,
      (right.2.lastActive region members last stored remembered).1]
    rfl
  · intro machine region members sound stored
    refine changes.activate machine members.initial sound (sound.symm.imp_left fun right => ?_)
    rw [((right.1.initial region members members.initial stored).mpr rfl).1]
    rfl

theorem ends_activate_changing {state : StateId} {machine : Machine} {node : StateNode}
    (sound : Sound outer machine) (found : machine.state? state = some node)
    (inactive : node.status.isActive = false) :
    Ends (activate calls state) machine
      (fun _ after => Steps outer (machine.entered state node.name) after)
      (fun _ after => Steps outer (machine.entered state node.name) after) := by
  have entered : Sound outer (machine.entered state node.name) := by
    have same := Machine.sameChart_entered machine state node.name
    refine sound.imp_right fun right => ⟨right.1.of_sameChart same, ?_⟩
    exact (@Change.enter True _ _ _ found inactive (Or.inr (Or.inr trivial))).linked right.2
  have present := Machine.state?_entered found node.name
  apply ends_activate_kept (sound_changing outer) changes.toKeptBy found inactive entered
  · exact fun _ _ _ kept => kept
  · intro normal
    apply keptFrom_enterNormal (sound_changing outer) changes.toKeptBy entered found
      (Machine.sameChart_entered machine state node.name) normal fun _ _ => trivial
    exact finished_starting (lawful_changing outer) entered (Change.note _ rfl).one node.entry
  · exact fun _ region _ _ => changing_resumeHistory changes state region _ entered
  · exact fun _ => keptFrom_followChoice (lawful_changing outer) (chooses_changing outer)
      changes.trigger entered present rfl rfl rfl

theorem changing_activate {state : StateId} {machine : Machine} (sound : Sound outer machine)
    (placed : (machine.containerOf? state).isSome ∨ machine.LeadsDeeper ∨ outer) :
    (changing outer).KeptFrom (activate calls state) machine := by
  apply keptFrom_activate (sound_changing outer).toLawful sound
  intro node found inactive
  have enters : Steps outer machine (machine.entered state node.name) :=
    (Change.enter found inactive placed).one
  exact (ends_activate_changing changes sound found inactive).mono
    (fun _ _ steps => enters.trans steps) fun _ _ steps => enters.trans steps

theorem changing_enterBy {plan : List Machine.Step} {machine : Machine}
    (sound : Sound outer machine) (placing : machine.Placing plan ∨ outer) :
    (changing outer).KeptFrom (enterBy calls plan) machine := by
  apply keptFrom_enterBy (sound_changing outer).toLawful (sound_changing outer).toOpens
    (Placed outer) _ _ sound
  · exact fun state named => placing.imp_left fun inside => inside state named
  · intro before after state steps placed
    unfold Placed
    rw [((lawful_changing outer).same steps).containerOf?]
    exact placed
  · exact fun sound placed => changing_activate changes sound (placed.imp_right Or.inr)

theorem changing_enterDefault {state : StateId} {machine : Machine} (sound : Sound outer machine)
    (placed : Placed outer machine state) :
    (changing outer).KeptFrom (enterDefault calls state) machine := by
  refine KeptFrom.get (changing_enterBy changes sound ?_)
  rcases sound with any | ⟨formed, _⟩
  · exact Or.inr any
  · refine placed.imp_left fun contained other member => ?_
    obtain ⟨steps, plan, placing⟩ := Machine.defaultEntryPlan_eq formed state
    rw [plan] at member
    rcases List.mem_cons.mp member with first | later
    · obtain rfl := Machine.Step.state.inj first
      exact contained
    · exact placing other later

/-- The first state of the plan may stand outside all regions, when the firing has just been
recorded. -/
theorem changing_enterExplicit {state : StateId} {machine : Machine} (sound : Sound outer machine)
    (deeper : machine.LeadsDeeper) :
    (changing outer).KeptFrom (enterExplicit calls state) machine := by
  refine KeptFrom.get ?_
  rcases sound with any | right
  · exact changing_enterBy changes (Or.inl any) (Or.inr any)
  · rcases Machine.explicitEntryPlan_cases right.1 state with placing | ⟨top, steps, plan, placing⟩
    · exact changing_enterBy changes (Or.inr right) (Or.inl placing)
    · rw [plan]
      have first : (changing outer).KeptFrom (entryStep calls (.state top)) machine := by
        apply keptFrom_entryStep (sound_changing outer).toLawful
          (sound_changing outer).toOpens (Or.inr right)
        exact fun _ _ => changing_activate changes (Or.inr right) (Or.inr (Or.inl deeper))
      refine KeptFrom.bind (lawful_changing outer) first fun _ after entered => ?_
      refine changing_enterBy changes (Sound.of_steps (Or.inr right) entered)
        (Or.inl fun other member => ?_)
      rw [((lawful_changing outer).same entered).containerOf?]
      exact placing other member

/-- The target lies in a region, and an explicit entry follows directly on the record of the
firing. -/
theorem changing_enterTarget {id : TransitionId} {ends : Machine.Endpoints} {machine : Machine}
    (sound : Sound outer machine) (connects : machine.Connects id ends)
    (just : machine.JustFired id) : (changing outer).KeptFrom (enterTarget calls ends) machine := by
  apply KeptFrom.get
  split
  · rename_i deeper
    obtain ⟨firing, last, external⟩ := just
    exact changing_enterExplicit changes sound ⟨id, firing, last, external, ends, connects, deeper⟩
  · exact changing_enterDefault changes sound
      (sound.symm.imp_left fun right => connects.target_contained right.1)

theorem changing_trigger (id : TransitionId) (memo : Value) :
    (changing outer).Kept (trigger calls id memo) := by
  intro machine sound
  apply keptFrom_trigger (sound_changing outer) changes.toKeptBy (fires_changing outer) sound
  intro asked ends recorded _ resolved soundNow same just
  exact changing_enterTarget changes soundNow
    ((Machine.connects_of_endpoints resolved).of_sameChart same) just

end Operations

theorem calls_changing (outer : Prop) (depth : Nat) : (calls depth).Changing outer := by
  induction depth with
  | zero => exact calls_exhausted_changing outer
  | succ depth ih =>
      exact {
        trigger := fun transition memo => changing_trigger ih transition memo
        enter := fun _ _ sound placed => changing_enterDefault ih sound placed
        activate := fun _ _ sound placed =>
          changing_activate ih sound (placed.imp_right Or.inr)
        completeRegion := fun region =>
          kept_completeRegion (sound_changing outer) ih.toKeptBy region }

end Chart.Run
