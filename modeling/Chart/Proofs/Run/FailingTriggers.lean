import Chart.Proofs.Run.OfferedOperations
import Chart.Proofs.Run.ExitOrder

set_option autoImplicit false

/-!
What a failing trigger leaves when callbacks are quiet. A transition whose endpoints are not
resolved changes nothing, and a failing internal transition no status. A failing external transition
has already left a state or has been recorded, whatever it fails with.
-/

namespace Chart

namespace Machine

/-- No state and no region has another status, no region remembers another child, and nothing has
been recorded. -/
structure Intact (before after : Machine) : Prop where
  states : ∀ state, after.isStateActive state = before.isStateActive state
  regions : ∀ region, after.isRegionActive region = before.isRegionActive region
  lastActive : ∀ region, after.lastActive? region = before.lastActive? region
  log : after.log = before.log

theorem Intact.of_still {before after : Machine} (still : Still before after)
    (log : after.log = before.log) : Intact before after where
  states := still.states
  regions := still.isRegionActive
  lastActive := fun region => by rw [lastActive?, lastActive?, still.region?]
  log := log

theorem Intact.iff {first before after : Machine} (intact : Intact first before) :
    Intact before after ↔ Intact first after := by
  constructor
  · exact fun later =>
      { states := fun state => (later.states state).trans (intact.states state)
        regions := fun region => (later.regions region).trans (intact.regions region)
        lastActive := fun region => (later.lastActive region).trans (intact.lastActive region)
        log := later.log.trans intact.log }
  · exact fun whole =>
      { states := fun state => (whole.states state).trans (intact.states state).symm
        regions := fun region => (whole.regions region).trans (intact.regions region).symm
        lastActive := fun region =>
          (whole.lastActive region).trans (intact.lastActive region).symm
        log := whole.log.trans intact.log.symm }

@[simp] theorem log_notedAll (machine : Machine) (texts : List String) :
    (machine.notedAll texts).log = machine.log := by
  induction texts generalizing machine with
  | nil => rfl
  | cons text rest ih => exact ih (machine.note (.note text))

private theorem Change.log_prefix {outer : Prop} {before after : Machine}
    (change : Change outer before after) : before.log.toList <+: after.log.toList := by
  cases change with
  | record id firing => exact ⟨[firing], by rw [recorded, Machine.note, Array.toList_push]⟩
  | leave _ _ =>
      rw [log_left]
  | _ => exact List.prefix_rfl

private theorem Changes.log_prefix {before after : Machine} (changes : Changes before after) :
    before.log.toList <+: after.log.toList := by
  induction changes with
  | refl => exact List.prefix_rfl
  | tail _ change ih => exact ih.trans change.log_prefix

private theorem not_intact_of_recorded {before middle after : Machine} {id : TransitionId}
    {firing : Firing} (earlier : Changes before middle)
    (later : Changes (middle.recorded id firing) after) : ¬Intact before after := by
  intro intact
  have grown := earlier.log_prefix.length_le
  have kept := later.log_prefix.length_le
  rw [recorded, Machine.note, Array.toList_push, List.length_append, List.length_singleton,
    intact.log] at kept
  omega

end Machine

namespace Run

open Machine (Changes TouchesOnly Still Intact)

variable {mayFail : Prop} {calls : Calls} {machine : Machine}

private theorem ends_behave_log {state : StateId} {behavior : Behavior}
    (quiet : behavior.Quiet mayFail)
    (machine : Machine) :
    Ends (behave calls state behavior) machine (fun _ after => after.log = machine.log)
      (fun _ after => after.log = machine.log) := by
  -- By induction on the behaviour: quiet behaviours record nothing.
  induction quiet generalizing machine with
  | done => rfl
  | fail error permitted => rfl
  | note text _ ih => exact ih (machine.note (.note text))
  | look _ ih => exact ih _ machine
  | write key value _ ih => exact ih _ (machine.set key value).2

private theorem ends_runEffect_log {found : Transition} {source : StateId} {memo : Value}
    (quiet : ∀ effect, found.effect = some effect → (effect memo).Quiet mayFail) :
    Ends (runEffect calls found source memo) machine (fun _ after => after.log = machine.log)
      (fun _ after => after.log = machine.log) := by
  unfold runEffect
  cases isEffect : found.effect with
  | none => rfl
  | some effect => exact ends_behave_log (quiet effect isEffect) machine

private theorem ends_guardAccepts_log {found : Transition} {source : StateId} {memo : Value}
    {failed : Halt → Machine → Prop} :
    Ends (guardAccepts found source memo) machine (fun _ after => after.log = machine.log)
      failed := by
  unfold guardAccepts
  cases found.guard with
  | none => rfl
  | some guard =>
      dsimp only
      rw [ends_bind, ends_get, ends_bind, ends_noteAll, ends_pure, Machine.log_notedAll]

private theorem ends_fireInternal_intact {id : TransitionId} {found : Transition} {source : StateId}
    {sourceName : String} {memo : Value} {finished : Outcome → Machine → Prop}
    (quiet : ∀ effect, found.effect = some effect → (effect memo).Quiet mayFail)
    (any : ∀ outcome after, finished outcome after) :
    Ends (fireInternal calls id found source sourceName memo) machine finished
      (fun _ after => Intact machine after) := by
  unfold fireInternal
  rw [ends_bind, ends_report, ends_bind]
  have told : TouchesOnly source machine (machine.note (.notice (.firingInternal id found.name))) :=
    TouchesOnly.note source machine rfl
  refine ((ends_runEffect quiet).and (ends_runEffect_log quiet)).mono
    (fun _ middle _ => any _ _) fun _ after failed => ?_
  exact .of_still (told.trans failed.1.1).toStill failed.2

/-- A state that was active is off, or the firing is recorded, wherever an external transition
fails. -/
theorem ends_fireExternal_touched {id : TransitionId} {found : Transition}
    {ends : Machine.Endpoints} {sourceName targetName : String} {memo : Value}
    (changes : calls.Changing True) (wired : machine.Wired)
    (quietStates : machine.QuietStates mayFail)
    (active : machine.isStateActive ends.source = true)
    (quiet : ∀ effect, found.effect = some effect → (effect memo).Quiet mayFail) :
    Ends (fireExternal calls id found ends sourceName targetName memo) machine
      (fun _ _ => True) (fun _ after => ¬Intact machine after) := by
  unfold fireExternal
  rw [ends_bind, ends_report, ends_bind]
  set told := machine.note (.notice (.firing id found.name sourceName targetName))
  have touches : TouchesOnly ends.source machine told := TouchesOnly.note ends.source machine rfl
  have activeTold : told.isStateActive ends.source = true := active
  have sourceNamed : .state ends.source ∈ told.exitPlan ends.source :=
    List.mem_reverse.mpr (List.mem_cons_self ..)
  refine (ends_exit_followed (wired.of_sameChart touches.sameChart)
    (quietStates.of_sameChart touches.sameChart) activeTold).mono (fun _ left followed => ?_)
    fun _ after failed intact => ?_
  · have sourceOff := followed.1.off.states ends.source sourceNamed
    rw [ends_bind]
    refine (ends_runEffect quiet).mono (fun _ acted acts => ?_) fun _ after failed intact => ?_
    · rw [ends_bind]
      have earlier := (touches.changes.trans followed.1.changes).trans acts.changes
      change Ends _ (acted.recorded id ⟨found.name, sourceName, targetName, false⟩) _ _
      have enters {run : Run Unit} (changingRun : (changing True).KeptFrom run
          (acted.recorded id ⟨found.name, sourceName, targetName, false⟩)) :
          Ends (run >>= fun _ => pure Outcome.fired)
            (acted.recorded id ⟨found.name, sourceName, targetName, false⟩)
            (fun _ _ => True) (fun _ after => ¬Intact machine after) := by
        rw [ends_bind]
        exact changingRun.mono (fun _ _ _ => trivial) fun _ after later =>
          Machine.not_intact_of_recorded earlier later
      rw [ends_bind, ends_get]
      split
      · exact enters (Discipline.KeptFrom.get (changing_enterBy changes (Or.inl trivial)
          (Or.inr trivial)))
      · exact enters (changing_enterDefault changes (Or.inl trivial) (Or.inr trivial))
    · have stays := intact.states ends.source
      rw [failed.1.toStill.states, sourceOff, active] at stays
      cases stays
  · obtain ⟨early, state, late, _, plan, _, followed, _⟩ := failed
    have named : .state state ∈ told.exitPlan ends.source := by
      rw [plan]
      exact List.mem_append_right _ (List.mem_cons_self ..)
    have wasActive : machine.isStateActive state = true :=
      Machine.active_of_mem_activeSteps activeTold (List.mem_reverse.mp named)
    have stays := intact.states state
    rw [followed.off.states state (by simp), wasActive] at stays
    cases stays

/-- If it fails, a trigger whose endpoints are resolved leaves the machine intact if and only if the
transition is internal. -/
theorem ends_fireResolved_intact {id : TransitionId} {found : Transition}
    {ends : Machine.Endpoints} {memo : Value} (changes : calls.Changing True)
    (wired : machine.Wired) (quietStates : machine.QuietStates mayFail)
    (quiet : ∀ effect, found.effect = some effect → (effect memo).Quiet mayFail) :
    Ends (fireResolved calls id found ends memo) machine (fun _ _ => True)
      (fun _ after => Intact machine after ↔ found.internal = true) := by
  unfold fireResolved
  rw [ends_bind, ends_get]
  dsimp only
  cases active : machine.isStateActive ends.source with
  | false =>
      rw [if_pos Bool.not_false, ends_bind, ends_report]
      trivial
  | true =>
      rw [if_neg (by simp), ends_bind]
      refine (Ends.and ends_guardAccepts ends_guardAccepts_log).mono
        (fun accepted guarded known => ?_) fun _ _ (impossible : False ∧ False) =>
          impossible.1.elim
      obtain ⟨⟨touches, _⟩, log⟩ := known
      cases accepted with
      | false =>
          rw [if_pos Bool.not_false, ends_bind, ends_report]
          trivial
      | true =>
          rw [if_neg (by simp)]
          have since {after : Machine} : Intact guarded after ↔ Intact machine after :=
            (Intact.of_still touches.toStill log).iff
          cases internal : found.internal with
          | true =>
              rw [if_pos rfl]
              refine (ends_fireInternal_intact quiet fun _ _ => trivial).mono
                (fun _ _ _ => trivial) fun _ after intact => ?_
              exact iff_of_true (since.mp intact) rfl
          | false =>
              rw [if_neg (by simp)]
              refine (ends_fireExternal_touched changes (wired.of_sameChart touches.sameChart)
                (quietStates.of_sameChart touches.sameChart)
                (by rw [touches.toStill.states]; exact active) quiet).mono
                (fun _ _ _ => trivial) fun _ after touched => ?_
              exact iff_of_false (fun intact => touched (since.mpr intact)) (by simp)

theorem ends_trigger_intact {id : TransitionId} {found : Transition} {ends : Machine.Endpoints}
    {memo : Value} (changes : calls.Changing True) (wired : machine.Wired)
    (quietStates : machine.QuietStates mayFail) (known : machine.transition? id = some found)
    (resolved : machine.endpoints id = .ok ends)
    (quiet : ∀ effect, found.effect = some effect → (effect memo).Quiet mayFail) :
    Ends (trigger calls id memo) machine (fun _ _ => True)
      (fun _ after => Intact machine after ↔ found.internal = true) := by
  unfold trigger
  rw [ends_bind, ends_note, ends_bind, ends_get, Machine.transition?_note, Machine.endpoints_note,
    known, resolved]
  dsimp only
  rw [ends_bind]
  have asked : TouchesOnly Machine.root machine (machine.note (.requested id)) :=
    TouchesOnly.note Machine.root machine rfl
  refine (ends_fireResolved_intact changes (wired.of_sameChart asked.sameChart)
    (quietStates.of_sameChart asked.sameChart) quiet).mono (fun _ _ _ => trivial)
    fun _ after intact => ?_
  rw [← intact]
  exact (Intact.of_still asked.toStill rfl).iff.symm

end Run
end Chart
