import Chart.Proofs.Run.Triggering

set_option autoImplicit false

/-!
The operations a machine offers. Whatever the callbacks do, they are elementary changes. In a
coherent machine with quiet callbacks a finished operation was still, settled the root, or departed
from an active state; one that is refused leaves nothing but notices behind.
-/

namespace Chart.Run

open Discipline hiding Sound
open Machine (Change Changes Orderly Settled Moved TouchesOnly Still Uneventful Emptied)

/-! ### With any callbacks -/

section AnyOperations

variable {outer : Prop} {machine : Machine}

/-- The root has been entered, and inner changes followed. -/
def Started (machine after : Machine) : Prop :=
  ∃ node, machine.state? Machine.root = some node ∧ node.status.isActive = false ∧
    Machine.Cascade (machine.entered Machine.root node.name) after

theorem cascading_start (formed : machine.Formed) (linked : machine.Linked) (depth : Nat) :
    Ends (start depth) machine (fun _ after => Started machine after)
      (fun _ after => Machine.Cascade machine after ∨ Started machine after) := by
  unfold start
  rw [ends_bind, ends_get]
  split
  · rw [ends_bind, ends_warn, ends_raise]
    exact Or.inl (Change.note _ rfl).one
  · rename_i notActive
    have inactive : machine.isStateActive Machine.root = false := Bool.eq_false_iff.mpr notActive
    obtain ⟨node, found, _⟩ := Machine.kindOf?_eq_some.mp formed.rootKind
    have isInactive := (Machine.isStateActive_eq found).symm.trans inactive
    have changes := calls_changing False depth
    have enters : Machine.Changes machine (machine.entered Machine.root node.name) :=
      (Change.enter found isInactive (Or.inr (Or.inr trivial))).one
    have right : Sound False machine := Or.inr ⟨formed, linked⟩
    change Ends (enterDefault (calls depth) Machine.root) machine _ _
    obtain ⟨steps, plan, placing⟩ := Machine.defaultEntryPlan_eq formed Machine.root
    unfold enterDefault
    rw [ends_bind, ends_get, plan]
    unfold enterBy
    rw [ends_forM_cons]
    refine ends_entryStep_ready (Or.inl ⟨rfl, inactive⟩) formed.toWired ?_
    refine (ends_activate_changing changes right found isInactive).mono
      (fun _ entered cascade => ?_) fun _ after cascade => Or.inr ⟨node, found, isInactive, cascade⟩
    have all : Machine.Changes machine entered :=
      enters.trans (Machine.changes_of_steps cascade)
    have sound : Sound False entered :=
      Or.inr ⟨formed.of_sameChart all.sameChart, all.linked linked⟩
    have rest : Ends (enterBy (calls depth) steps) entered
        (fun _ after => Machine.Cascade entered after) fun _ after =>
          Machine.Cascade entered after :=
      changing_enterBy changes sound (Or.inl fun state member => by
        rw [all.sameChart.containerOf?]
        exact placing state member)
    exact rest.mono
      (fun _ _ later => ⟨node, found, isInactive, cascade.trans later⟩)
      fun _ _ later => Or.inr ⟨node, found, isInactive, cascade.trans later⟩

theorem changing_finish (depth : Nat) : (changing outer).Kept (finish depth) :=
  kept_finish (sound_changing outer).toLawful (refuses_changing outer)
    (kept_exit (sound_changing outer) (calls_changing outer depth).toKeptBy _)

theorem changing_completion (depth : Nat) (state : StateId) :
    (changing outer).Kept (completion depth state) :=
  kept_completion (sound_changing outer).toLawful (refuses_changing outer)
    (kept_completeState (sound_changing outer) (calls_changing outer depth).toKeptBy state)

theorem changing_frame (depth : Nat) (handle : FrameHandle) (now : Duration) :
    (changing outer).Kept (frame depth handle now) :=
  kept_frame (ticks_changing outer) (lawful_changing outer)
    (acts_changing (calls_changing outer depth)) handle now

theorem ends_advance_taken (sound : Sound outer machine) (depth : Nat) (now : Duration) :
    Ends (advance depth now) machine (fun _ after => Steps outer machine.framesTaken after)
      (fun _ after => Steps outer machine.framesTaken after) := by
  have taken : Sound outer machine.framesTaken := by
    have takes : Machine.Changes machine machine.framesTaken := (Change.takeFrames trivial).one
    exact sound.imp_right fun right =>
      ⟨right.1.of_sameChart takes.sameChart, takes.linked right.2⟩
  exact ends_advance_kept (ticks_changing outer) (lawful_changing outer)
    (acts_changing (calls_changing outer depth)) taken now

end AnyOperations

/-! ### With quiet callbacks -/

def Reported (before after : Machine) : Prop :=
  ∃ journal, after = { before with journal }

/-- A refused operation ends with an expected error and at most reports it. -/
def Refused (expected : MachineError → Prop) (machine : Machine) (halt : Halt) (after : Machine) :
    Prop :=
  Reported machine after ∧ ∃ error, halt = .error error ∧ expected error

theorem reported_note (machine : Machine) (event : Event) : Reported machine (machine.note event) :=
  ⟨machine.journal.push event, rfl⟩

theorem Reported.trans {before middle after : Machine} (first : Reported before middle)
    (second : Reported middle after) : Reported before after := by
  obtain ⟨_, rfl⟩ := first
  obtain ⟨journal, rfl⟩ := second
  exact ⟨journal, rfl⟩

theorem Reported.coherent {before after : Machine} (reported : Reported before after)
    (coherent : before.Coherent) : after.Coherent := by
  obtain ⟨_, rfl⟩ := reported
  exact coherent.of_statuses (Machine.SameChart.of_stores rfl rfl rfl) (fun _ => rfl) fun _ => rfl

section QuietCallbacks

variable {mayFail : Prop} {related : Machine → Machine → Prop}

private theorem ends_resetTimer {state : StateId} {machine : Machine} {node : StateNode}
    (found : machine.state? state = some node) (stopped : node.timer.running = false)
    {failed : Halt → Machine → Prop} :
    Ends (resetTimer state) machine (fun _ after => TouchesOnly state machine after) failed := by
  have reset : TouchesOnly state machine (machine.timerReset state) :=
    TouchesOnly.timerReset found stopped
  exact reset.trans (TouchesOnly.note state (machine.timerReset state) rfl)

private theorem ends_renewFrame {machine : Machine} {handle : FrameHandle}
    {failed : Halt → Machine → Prop} :
    Ends (renewFrame handle) machine
    (fun _ after => TouchesOnly handle.state machine after) failed := by
  unfold renewFrame
  rw [ends_bind, ends_get]
  split
  · exact TouchesOnly.refl handle.state machine
  · rename_i node found
    split
    · split
      · rename_i running
        exact TouchesOnly.frameRequested found running
      · rename_i notRunning
        exact ends_resetTimer found (by simpa using notRunning)
    · exact TouchesOnly.refl handle.state machine

private theorem ends_foldFrame {calls : Calls} {machine : Machine} {handle : FrameHandle}
    {now : Duration}
    {node : StateNode} (found : machine.state? handle.state = some node)
    (awaited : node.frame = some handle) (running : node.timer.running = true)
    (quiet : ∀ present, node.activity = some present → present.Quiet mayFail) :
    Ends (foldFrame calls handle now node) machine
    (fun _ after => TouchesOnly handle.state machine after)
      (fun halt after => TouchesOnly handle.state machine after ∧ halt ≠ .exhausted ∧ mayFail) := by
  unfold foldFrame
  dsimp only
  rw [ends_bind, ends_note, ends_bind, ends_modify]
  have folded : TouchesOnly handle.state machine (machine.frameFolded handle node now) :=
    TouchesOnly.frameFolded found awaited running now
  change Ends _ (machine.frameFolded handle node now) _ _
  have renews {current : Machine} (touches : TouchesOnly handle.state machine current)
      {failed : Halt → Machine → Prop} :
      Ends (renewFrame handle) current
      (fun _ after => TouchesOnly handle.state machine after) failed :=
    ends_renewFrame.mono (fun _ _ renewed => touches.trans renewed) fun _ _ failure => failure
  split
  · rw [ends_bind]
    exact (ends_startBehavior_quiet quiet .activity _).mono
      (fun _ _ touches => renews (folded.trans touches))
      fun _ _ failure => ⟨folded.trans failure.1, failure.2⟩
  · exact renews folded

theorem ends_deliverFrame {calls : Calls} {machine : Machine} {handle : FrameHandle}
    {now : Duration} (quietStates : machine.QuietStates mayFail) :
    Ends (deliverFrame calls handle now) machine (fun _ after => Uneventful machine after)
      (fun halt after => (Still machine after ∧ halt ≠ .exhausted ∧ mayFail) ∨
        Refused (fun error => machine.state? handle.state = none ∧
          error = .configuration (.unknownState handle.state)) machine halt after) := by
  unfold deliverFrame
  rw [ends_bind, ends_get]
  cases found : machine.state? handle.state with
  | none =>
      rw [ends_fail]
      exact Or.inr ⟨reported_note machine _, _, rfl, rfl, rfl⟩
  | some node =>
      dsimp only
      split
      · rename_i other
        exact (TouchesOnly.frameCancelled handle.state (by simpa [found] using other)).toUneventful
      · rename_i awaited
        split
        · rename_i running
          refine (ends_foldFrame found (not_not.mp awaited) running fun present isActivity =>
            quietStates handle.state node present found (Or.inr (Or.inr isActivity))).mono
            (fun _ _ touches => touches.toUneventful) fun _ _ failure => ?_
          exact Or.inl ⟨failure.1.toStill, failure.2⟩
        · rename_i notRunning
          exact (ends_resetTimer found (by simpa using notRunning)).mono
            (fun _ _ touches => touches.toUneventful) fun _ _ (impossible : False) =>
              impossible.elim

/-- Frames whose states exist are delivered unless a callback fails; by induction on the frames. -/
theorem ends_deliverAll {calls : Calls} {due : List FrameHandle} {machine : Machine}
    {now : Duration} (quietStates : machine.QuietStates mayFail)
    (stored : ∀ handle ∈ due, machine.state? handle.state ≠ none) :
    Ends (due.forM fun handle => deliverFrame calls handle now) machine
      (fun _ after => Uneventful machine after)
      (fun halt after => Still machine after ∧ halt ≠ .exhausted ∧ mayFail) := by
  induction due generalizing machine with
  | nil => exact Uneventful.refl machine
  | cons first rest ih =>
      rw [ends_forM_cons]
      refine (ends_deliverFrame quietStates).mono (fun _ middle uneventful => ?_)
        fun _ _ failure => failure.resolve_right fun refused => ?_
      · refine (ih (quietStates.of_sameChart uneventful.sameChart)
          fun handle member absent => ?_).mono
          (fun _ _ later => uneventful.trans later) fun _ _ failure =>
            ⟨uneventful.toStill.trans failure.1, failure.2⟩
        have equal := uneventful.sameChart.states handle.state
        rw [absent] at equal
        exact stored handle (List.mem_cons_of_mem _ member) (Option.map_eq_none_iff.mp equal.symm)
      · obtain ⟨_, _, _, absent, _⟩ := refused
        exact stored first (List.mem_cons_self ..) absent

theorem ends_advance {depth : Nat} {now : Duration} {machine : Machine}
    (quietStates : machine.QuietStates mayFail) (linked : machine.Linked) :
    Ends (advance depth now) machine (fun _ after => Uneventful machine after)
      (fun halt after => Still machine after ∧ halt ≠ .exhausted ∧ mayFail) := by
  unfold advance
  rw [ends_bind, ends_modifyGet, ends_bind]
  have taken := (TouchesOnly.framesTaken Machine.root machine).toUneventful
  refine (ends_deliverAll (quietStates.of_sameChart taken.sameChart)
    fun handle member absent => ?_).mono (fun _ _ later => taken.trans later)
    fun _ _ failure => ⟨taken.toStill.trans failure.1, failure.2⟩
  have present := linked.frames handle member
  rw [show machine.state? handle.state = none from absent] at present
  cases present

variable (respects : Respects mayFail related)
include respects

theorem ends_start {depth : Nat} {machine : Machine} (orderly : machine.Orderly mayFail)
    (coherent : machine.Coherent) :
    Ends (start depth) machine (fun _ after => Settled related none machine after)
      (fun halt after => Aborted mayFail halt after ∨
        Refused (fun error => machine.isActive = true ∧
          error = .usage (.stateAlreadyActive machine.name)) machine halt after) := by
  unfold start
  rw [ends_bind, ends_get]
  split
  · rename_i isActive
    rw [ends_bind, ends_warn, ends_raise]
    exact Or.inr ⟨reported_note machine _, _, rfl, isActive, rfl⟩
  · rename_i notActive
    have inactive : machine.isStateActive Machine.root = false := Bool.eq_false_iff.mpr notActive
    obtain ⟨node, found, _⟩ := Machine.kindOf?_eq_some.mp orderly.rootKind
    refine ((steady_calls respects (depth + 1)).enter machine Machine.root orderly coherent
      (Or.inl ⟨rfl, inactive⟩) (by rw [found]; rfl)).mono (fun _ after settled => ?_)
      fun _ _ failure => Or.inl failure
    rw [orderly.rootFree] at settled
    exact settled

theorem ends_finish {depth : Nat} {machine : Machine} (orderly : machine.Orderly mayFail)
    (coherent : machine.Coherent) :
    Ends (finish depth) machine
      (fun _ after => machine.isStateActive Machine.root = true ∧
        Departed related Machine.root machine after)
      (fun halt after => Aborted mayFail halt after ∨
        Refused (fun error => machine.isActive = false ∧
          error = .usage (.stateAlreadyInactive machine.name)) machine halt after) := by
  unfold finish
  rw [ends_bind, ends_get]
  split
  · rename_i isActive
    refine (ends_exit orderly.leavable coherent isActive).mono (fun _ after emptied => ?_)
      fun _ _ failure => Or.inl failure
    refine ⟨isActive, machine, after, TouchesOnly.refl Machine.root machine, emptied, ?_⟩
    rw [orderly.rootFree]
    exact settled_none respects emptied.coherent
  · rename_i notActive
    rw [ends_bind, ends_warn, ends_raise]
    exact Or.inr ⟨reported_note machine _, _, rfl, Bool.eq_false_iff.mpr notActive, rfl⟩

theorem ends_completion {depth : Nat} {machine : Machine} {state : StateId}
    (orderly : machine.Orderly mayFail) (coherent : machine.Coherent) :
    Ends (completion depth state) machine
      (fun _ after => machine.isStateActive state = true ∧
        (TouchesOnly state machine after ∨ Departed related state machine after))
      (fun halt after => Aborted mayFail halt after ∨
        Refused (fun error =>
          (machine.state? state = none ∧ error = .configuration (.unknownState state)) ∨
            ∃ node, machine.state? state = some node ∧ node.status.isActive = false ∧
              error = .usage (.stateAlreadyInactive node.name)) machine halt after) := by
  unfold completion
  rw [ends_bind, ends_get]
  cases found : machine.state? state with
  | none =>
      rw [ends_fail]
      exact Or.inr ⟨reported_note machine _, _, rfl, Or.inl ⟨rfl, rfl⟩⟩
  | some node =>
      dsimp only
      split
      · rename_i isActive
        have active := Machine.isStateActive_iff.mpr ⟨node, found, isActive⟩
        exact (ends_completeState respects (steady_calls respects depth) orderly coherent
          active).mono (fun _ _ completed => ⟨active, completed⟩) fun _ _ failure => Or.inl failure
      · rename_i notActive
        rw [ends_bind, ends_warn, ends_raise]
        exact Or.inr ⟨reported_note machine _, _, rfl,
          Or.inr ⟨node, rfl, by simpa using notActive, rfl⟩⟩

omit respects in
theorem ends_trigger_unresolved {calls : Calls} {machine : Machine} {id : TransitionId}
    {memo : Value} {cause : ConfigurationError} (unresolved : machine.endpoints id = .error cause)
    {finished : Outcome → Machine → Prop} :
    Ends (trigger calls id memo) machine finished
      (Refused (fun error => error = .configuration cause) machine) := by
  unfold trigger
  rw [ends_bind, ends_note, ends_bind, ends_get, Machine.endpoints_note, unresolved]
  have refused : Refused (fun error => error = .configuration cause) machine
      (.error (.configuration cause))
      ((machine.note (.requested id)).note (.notice (.misconfiguration cause))) :=
    ⟨(reported_note machine _).trans (reported_note _ _), _, rfl, rfl⟩
  split
  · rename_i wrong
    cases wrong
  · rename_i wrong
    obtain rfl := Except.error.inj wrong
    exact refused
  · rename_i wrong
    cases wrong

theorem ends_triggerHandle {depth : Nat} {machine : Machine} {id : TransitionId} {memo : Value}
    (orderly : machine.Orderly mayFail) (coherent : machine.Coherent) :
    Ends (triggerHandle depth id memo) machine
      (fun outcome after => ∃ ends, machine.endpoints id = .ok ends ∧
        (outcome = .fired → machine.isStateActive ends.source = true ∧
          Departed related ends.source machine after) ∧
        (outcome ≠ .fired → TouchesOnly ends.source machine after))
      (fun halt after => Aborted mayFail halt after ∨
        Refused (fun error => ∃ cause, machine.endpoints id = .error cause ∧
          error = .configuration cause) machine halt after) := by
  have same := Machine.endpoints_note machine (.requested id) id
  cases resolved : machine.endpoints id with
  | error cause =>
      refine (ends_trigger_unresolved resolved).mono
        (fun _ _ (impossible : False) => impossible.elim) fun _ _ refused => ?_
      obtain ⟨reported, error, isError, same⟩ := refused
      exact Or.inr ⟨reported, error, isError, cause, rfl, same⟩
  | ok ends =>
      obtain ⟨source, target⟩ := ends
      obtain ⟨found, region, members, known, inRegion, stored, isActive, isSource, isTarget⟩ :=
        Machine.endpoints_eq_ok (same.trans resolved)
      refine (ends_trigger_resolved respects
        (activating respects (steady_calls respects depth) ⟨depth, rfl⟩) orderly coherent known
        stored (same.trans resolved) isSource isTarget).mono (fun outcome after answers => ?_)
        fun _ _ failure => Or.inl failure
      obtain ⟨source', isSource', whenFired, otherwise, _⟩ := answers
      obtain rfl := Except.ok.inj (isSource.symm.trans isSource')
      exact ⟨_, rfl, whenFired, otherwise⟩

end QuietCallbacks

end Chart.Run
