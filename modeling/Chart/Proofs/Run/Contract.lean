import Chart.Proofs.Run.Consulting
import Chart.Proofs.Run.FailingTriggers

set_option autoImplicit false

/-!
Contracts between the callbacks of a machine and its operations. A contract says which behaviours it
permits and how an operation may leave the machine, when it finishes and when it halts. Most of what
an operation does passes without a milestone: no transition is asked for, recorded or settled, and
no mistake in the chart is reported. A lawful contract allows that, and is kept by each operation in
turn whose calls keep it; what is left to show of a contract is what it says of behaviours and of
triggers.
-/

namespace Chart

/-- Tells that a transition was asked for, recorded or settled, or that the chart is mistaken. -/
def Event.isMilestone : Event → Bool
  | .notice (.misconfiguration _) => true
  | .requested _ | .recorded _ _ | .settled _ _ => true
  | _ => false

private theorem Event.isMilestone_of_isRoutine {event : Event} (routine : event.isRoutine = true) :
    event.isMilestone = false := by
  cases event with
  | notice notice => cases notice <;> first | rfl | cases routine
  | _ => first | rfl | cases routine

namespace Machine

/-- No marked event is told, and neither the chart nor the log is touched. -/
structure Passes (marks : Event → Bool) (before after : Machine) : Prop where
  same : SameChart before after
  log : after.log = before.log
  told : ∃ events, Told before after events ∧ ∀ event ∈ events, marks event = false

namespace Passes

variable {marks : Event → Bool} (machine : Machine)

theorem refl : Passes marks machine machine :=
  ⟨SameChart.refl machine, rfl, [], Told.refl machine, by simp⟩

theorem note {event : Event} (unmarked : marks event = false) :
    Passes marks machine (machine.note event) :=
  ⟨sameChart_note machine event, rfl, _, told_note machine event, by simpa using unmarked⟩

theorem modifyState (frames : FrameQueue) (state : StateId) (change : StateNode → StateNode)
    (fixed : ∀ node, (change node).fixed = node.fixed) :
    Passes marks machine ({ machine with frames }.modifyState state change) where
  same := by
    have queued : SameChart machine { machine with frames } := SameChart.of_stores rfl rfl rfl
    exact queued.trans (SameChart.modifyState _ state change fixed)
  log := rfl
  told := ⟨[], Told.refl machine, by simp⟩

theorem queued (frames : FrameQueue) : Passes marks machine { machine with frames } :=
  ⟨SameChart.of_stores rfl rfl rfl, rfl, [], Told.refl machine, by simp⟩

theorem transitionChosen (choice : StateId) (name target : String) (region : RegionId) :
    Passes marks machine (machine.transitionChosen choice name target region).2 :=
  ⟨sameChart_transitionChosen machine choice name target region, rfl, [], Told.refl machine,
    by simp⟩

theorem notedAll (texts : List String) :
    Passes Event.isMilestone machine (machine.notedAll texts) where
  same := Changes.sameChart (changes_notedAll machine texts)
  log := log_notedAll machine texts
  told := ⟨_, told_notedAll machine texts, by simp [Event.isMilestone]⟩

theorem entered (state : StateId) (name : String) :
    Passes Event.isMilestone machine (machine.entered state name) :=
  ⟨sameChart_entered machine state name, rfl, _, told_entered machine state name,
    by simp [Event.isMilestone]⟩

theorem left (state : StateId) (node : StateNode) :
    Passes Event.isMilestone machine (machine.left state node) :=
  ⟨sameChart_left machine state node, log_left machine state node, _, told_left state node,
    by simp [Event.isMilestone]⟩

theorem opened (region : RegionId) (name : String) :
    Passes Event.isMilestone machine (machine.opened region name) :=
  ⟨(sameChart_setRegionStatus machine region .active).trans (sameChart_note _ _), rfl, _,
    told_opened machine region name, by simp [Event.isMilestone]⟩

theorem closed (region : RegionId) (name : String) :
    Passes Event.isMilestone machine (machine.closed region name) :=
  ⟨(sameChart_setRegionStatus machine region .inactive).trans (sameChart_note _ _), rfl, _,
    told_closed machine region name, by simp [Event.isMilestone]⟩

theorem starting (phase : Phase) (state : StateId) (behavior : Option Behavior) :
    Passes Event.isMilestone machine (machine.starting phase state behavior) := by
  cases behavior with
  | none => exact refl machine
  | some present => exact note machine rfl

variable {machine} {before after : Machine}

theorem trans (first : Passes marks before machine) (second : Passes marks machine after) :
    Passes marks before after where
  same := first.same.trans second.same
  log := second.log.trans first.log
  told := by
    obtain ⟨early, toldEarly, unmarkedEarly⟩ := first.told
    obtain ⟨late, toldLate, unmarkedLate⟩ := second.told
    refine ⟨early ++ late, toldEarly.trans toldLate, fun event member => ?_⟩
    rcases List.mem_append.mp member with isEarly | isLate
    · exact unmarkedEarly event isEarly
    · exact unmarkedLate event isLate

theorem mono {fewer : Event → Bool} (passes : Passes marks before after)
    (less : ∀ event, marks event = false → fewer event = false) : Passes fewer before after where
  same := passes.same
  log := passes.log
  told := by
    obtain ⟨events, told, unmarked⟩ := passes.told
    exact ⟨events, told, fun event member => less event (unmarked event member)⟩

end Passes

/-- All callbacks that the machine runs are permitted. -/
structure Abides (permits : Behavior → Prop) (machine : Machine) : Prop where
  behaviors : ∀ state node behavior, machine.state? state = some node → node.Runs behavior →
    permits behavior
  effects : ∀ transition found effect memo, machine.transition? transition = some found →
    found.effect = some effect → permits (effect memo)

private theorem Abides.of_sameChart {permits : Behavior → Prop} {before after : Machine}
    (abides : before.Abides permits) (same : SameChart before after) : after.Abides permits where
  behaviors := by
    intro state node behavior found runs
    obtain ⟨node', found', fixed⟩ := same.state?_backward found
    have equal := StateNode.read_eq fixed (fun node => node.Runs behavior) fun _ => rfl
    exact abides.behaviors state node' behavior found' (by rw [equal]; exact runs)
  effects := by
    intro transition found effect memo present isEffect
    rcases same.chosen transition found present with earlier | ⟨name, choice, target, region, made⟩
    · exact abides.effects transition found effect memo earlier isEffect
    · rw [made] at isEffect
      cases isEffect

end Machine

namespace Run

open Discipline hiding Lawful Sound KeptBy
open Machine (Passes)

/-- What is permitted to callbacks, and how the machine may be left by an operation that finishes
and by one that halts. -/
structure Contract where
  permits : Behavior → Prop
  finished : Machine → Machine → Prop
  halted : Halt → Machine → Machine → Prop

namespace Contract

def discipline (contract : Contract) : Discipline where
  permits := contract.permits
  fit := Machine.Abides contract.permits
  finished := contract.finished
  halted := contract.halted

abbrev Kept {Answer : Type} (contract : Contract) (run : Run Answer) : Prop :=
  contract.discipline.Kept run

abbrev KeptBy (contract : Contract) (calls : Calls) : Prop :=
  contract.discipline.KeptAnywhere calls

/-- What passes unmarked is allowed, and what follows a finished part counts for the whole. -/
structure Lawful (contract : Contract) : Prop where
  same : ∀ {before after}, contract.finished before after → Machine.SameChart before after
  passes : ∀ {before after}, Passes Event.isMilestone before after →
    contract.finished before after
  trans : ∀ {before middle after}, contract.finished before middle →
    contract.finished middle after → contract.finished before after
  halts : ∀ {before middle after halt}, contract.finished before middle →
    contract.halted halt middle after → contract.halted halt before after
  exhausted : ∀ machine, contract.halted .exhausted machine machine
  misused : ∀ machine error, contract.halted (.error (.usage error)) machine machine
  misconfigured : ∀ machine error, contract.halted (.error (.configuration error)) machine
    (machine.note (.notice (.misconfiguration error)))

/-- Permitted behaviours keep a lawful contract when their requests are answered so. -/
structure Sound (contract : Contract) : Prop extends Lawful contract where
  behave : ∀ {calls}, contract.discipline.KeptBy calls → ∀ state {behavior},
    contract.permits behavior → contract.Kept (behave calls state behavior)

variable {contract : Contract}

namespace Lawful

variable (lawful : contract.Lawful)
include lawful

theorem discipline : contract.discipline.Lawful where
  same := lawful.same
  fit := fun abides finished => abides.of_sameChart (lawful.same finished)
  refl := fun _ => lawful.passes (Passes.refl _)
  trans := lawful.trans
  halts := lawful.halts
  note := fun _ routine =>
    lawful.passes (Passes.note _ (Event.isMilestone_of_isRoutine routine))
  exhausted := fun _ => lawful.exhausted _
  misconfigured := fun error _ => lawful.misconfigured _ error

theorem refuses : contract.discipline.Refuses where
  misused := fun error _ => lawful.misused _ error

theorem written {machine : Machine} (key : String) (value : Value) :
    contract.finished machine (machine.set key value).2 :=
  lawful.passes (Passes.modifyState machine machine.frames Machine.root _ fun _ => rfl)

private theorem chooses : contract.discipline.Chooses where
  decided := fun _ _ _ => lawful.passes (Passes.note _ rfl)
  chosen := fun _ _ _ _ _ => lawful.passes (Passes.transitionChosen _ _ _ _ _)

private theorem enters : contract.discipline.Enters where
  entered := fun _ _ _ => lawful.passes (Passes.entered _ _ _)
  began := fun _ _ => lawful.passes (Passes.note _ rfl)

theorem ticks : contract.discipline.Ticks where
  started := fun _ _ => lawful.passes (Passes.note _ rfl)
  folded := by
    intro machine handle node now _ _ _ _
    have noted : Passes Event.isMilestone machine (machine.note (.delivered handle)) :=
      Passes.note machine rfl
    exact lawful.passes
      (noted.trans (Passes.modifyState _ machine.frames handle.state _ fun _ => rfl))
  requested := fun _ _ _ => lawful.passes (Passes.modifyState _ _ _ _ fun _ => rfl)
  reset := by
    intro machine state node name _ _ _
    have reset : Passes Event.isMilestone machine (machine.timerReset state) :=
      Passes.modifyState machine machine.frames state _ fun _ => rfl
    exact lawful.passes (reset.trans (Passes.note _ rfl))
  cancelled := fun _ _ => lawful.passes (Passes.queued _ _)

end Lawful

namespace Sound

variable (sound : contract.Sound)
include sound

theorem discipline : contract.discipline.Sound where
  toLawful := sound.toLawful.discipline
  behaviors := fun abides => abides.behaviors _ _ _
  behave := sound.behave
  left := fun _ _ _ =>
    sound.passes ((Passes.left _ _ _).trans (Passes.starting _ _ _ _))
  closed := fun _ _ _ => sound.passes (Passes.closed _ _ _)
  joined := fun _ _ => sound.passes (Passes.note _ rfl)
  opened := fun _ _ _ _ => sound.passes (Passes.opened _ _ _)
  started := fun _ _ => sound.passes (Passes.note _ rfl)
  timed := by
    intro machine state node _ _ _ _ _
    have armed : Passes Event.isMilestone machine (machine.timerArmed state) :=
      Passes.modifyState machine _ state _ fun _ => rfl
    exact sound.passes (armed.trans (Passes.note _ rfl))

variable {calls : Calls} (kept : contract.KeptBy calls)
include kept

theorem kept_activate (state : StateId) : contract.Kept (activate calls state) :=
  Discipline.kept_activate sound.discipline kept sound.toLawful.enters sound.toLawful.chooses state

theorem kept_enterTarget (ends : Machine.Endpoints) : contract.Kept (enterTarget calls ends) :=
  Discipline.kept_enterTarget sound.discipline (kept_activate sound kept) ends

end Sound

/-! ### What surrounds a firing -/

theorem ends_guardAccepts_passes {transition : Transition} {source : StateId} {memo : Value}
    {machine : Machine} {failed : Halt → Machine → Prop} :
    Ends (guardAccepts transition source memo) machine
      (fun _ after => Passes Event.isMilestone machine after) failed := by
  unfold guardAccepts
  cases transition.guard with
  | none => exact Passes.refl machine
  | some guard =>
      dsimp only
      rw [ends_bind, ends_get, ends_bind, ends_noteAll, ends_pure]
      exact Passes.notedAll machine _

theorem keptBy_calls (sound : contract.Sound)
    (triggers : ∀ depth, contract.KeptBy (calls depth) → ∀ id memo,
      contract.Kept (trigger (calls depth) id memo)) (depth : Nat) :
    contract.KeptBy (calls depth) :=
  keptAnywhere_calls sound.discipline (fun _ kept => sound.kept_activate kept) triggers depth

end Contract
end Run
end Chart
