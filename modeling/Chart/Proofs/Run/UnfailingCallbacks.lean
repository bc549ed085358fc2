import Chart.Proofs.Run.OfferedOperations
import Chart.Proofs.Run.RunningTimers

set_option autoImplicit false

/-!
Callbacks that do not fail by themselves. They may fire transitions, and go on whatever the answer
is, or, in charts where errors are passed on, do anything when a request of theirs failed. With such
callbacks every operation keeps the timers, also one that ends with an error: an error comes from
the chart, never from between the entry of a timed state and the start of its timer.
-/

namespace Chart

/-- Does not fail by itself, whatever its requests are answered. Where errors may be passed on, it
does what it likes once a request of its own failed. -/
inductive Behavior.Unfailing (passes : Prop) : Behavior → Prop
  | done : Unfailing passes .done
  | note (text : String) {next : Behavior} (rest : Unfailing passes next) :
      Unfailing passes (.note text next)
  | look {next : View → Behavior} (rest : ∀ view, Unfailing passes (next view)) :
      Unfailing passes (.look next)
  | write (key : String) (value : Value) {next : Option Value → Behavior}
      (rest : ∀ old, Unfailing passes (next old)) : Unfailing passes (.write key value next)
  | fire (reference : TransitionReference) (memo : Value)
      {next : Except MachineError Outcome → Behavior}
      (rest : ∀ answer, (passes → answer.isOk = true) → Unfailing passes (next answer)) :
      Unfailing passes (.fire reference memo next)

namespace Machine

structure Unfailing (passes : Prop) (machine : Machine) : Prop where
  behaviors : ∀ state node behavior, machine.state? state = some node → node.Runs behavior →
    behavior.Unfailing passes
  effects : ∀ transition found effect memo, machine.transition? transition = some found →
    found.effect = some effect → (effect memo).Unfailing passes

namespace Unfailing

variable {passes : Prop} {before after : Machine}

theorem of_sameChart (unfailing : before.Unfailing passes) (same : SameChart before after) :
    after.Unfailing passes where
  behaviors := by
    intro state node behavior found runs
    obtain ⟨node', found', fixed⟩ := same.state?_backward found
    have equal := StateNode.read_eq fixed (fun node => node.Runs behavior) fun _ => rfl
    exact unfailing.behaviors state node' behavior found' (by rw [equal]; exact runs)
  effects := by
    intro transition found effect memo present isEffect
    rcases same.chosen transition found present with earlier | ⟨name, choice, target, region, made⟩
    · exact unfailing.effects transition found effect memo earlier isEffect
    · rw [made] at isEffect
      cases isEffect

theorem before_sameChart (unfailing : after.Unfailing passes) (same : SameChart before after) :
    before.Unfailing passes where
  behaviors := by
    intro state node behavior found runs
    obtain ⟨node', found', fixed⟩ := same.state?_forward found
    have equal := StateNode.read_eq fixed (fun node => node.Runs behavior) fun _ => rfl
    exact unfailing.behaviors state node' behavior found' (by rw [equal]; exact runs)
  effects := fun transition found effect memo present isEffect =>
    unfailing.effects transition found effect memo (same.kept transition found present) isEffect

theorem before_grown (unfailing : after.Unfailing passes) (grown : Grown before after) :
    before.Unfailing passes where
  behaviors := by
    intro state node behavior found runs
    obtain ⟨node', found', grownNode⟩ := grown.states state node found
    have equal := StateNode.read_lasting grownNode.lasting (fun node => node.Runs behavior)
      fun _ => rfl
    exact unfailing.behaviors state node' behavior found' (by rw [equal]; exact runs)
  effects := by
    intro transition found effect memo present isEffect
    obtain ⟨found', present', grownTransition⟩ := grown.transitions transition found present
    have same := congrArg Transition.effect grownTransition.lasting
    exact unfailing.effects transition found' effect memo present' (same.trans isEffect)

end Unfailing

end Machine

namespace Run

open Discipline hiding Sound
open Machine (BetweenFrames KeepsTimers Changes TimerRuns)

private theorem isUntimed_of_isRoutine {event : Event} (routine : event.isRoutine = true) :
    event.isUntimed = true := by
  cases event with
  | notice notice => cases notice <;> first | rfl | cases routine
  | _ => first | rfl | cases routine

variable {passes : Prop} {machine : Machine}

/-- The timers are kept, when a run finishes and when it ends with an error; where errors are passed
on, one that ends so has come upon a mistake. -/
def keepingTimers (passes : Prop) : Discipline where
  permits := Behavior.Unfailing passes
  fit := Machine.Unfailing passes
  finished := BetweenFrames passes
  halted halt before after :=
    halt = .exhausted ∨ BetweenFrames passes before after ∧ (passes → after.Mistaken)

private theorem unfailing_of_betweenFrames {before machine : Machine}
    (unfailing : before.Unfailing passes)
    (betweenFrames : BetweenFrames passes before machine) : machine.Unfailing passes :=
  unfailing.of_sameChart betweenFrames.changes.sameChart

theorem lawful_keepingTimers : (keepingTimers passes).Lawful where
  same := fun betweenFrames => betweenFrames.changes.sameChart
  fit := unfailing_of_betweenFrames
  refl := fun _ => BetweenFrames.refl _
  trans := fun first second => first.trans second
  halts := fun first second => second.imp_right fun ⟨betweenFrames, mistaken⟩ =>
    ⟨first.trans betweenFrames, mistaken⟩
  note := fun _ routine => BetweenFrames.note _ (Event.isPlain_of_isRoutine routine)
    (isUntimed_of_isRoutine routine)
  exhausted := fun _ => Or.inl rfl
  misconfigured := fun {machine} error _ =>
    Or.inr ⟨BetweenFrames.note machine rfl rfl, fun _ => machine.mistaken_note error⟩

/-! ### What the callbacks do -/

/-- What an attempt is answered has failed only if a mistake was found, where errors are passed on.
-/
theorem ends_attempt_betweenFrames {Answer : Type} {run : Run Answer}
    (kept : (keepingTimers passes).Kept run) (unfailing : machine.Unfailing passes) :
    Ends (attempt run) machine
      (fun answer after => BetweenFrames passes machine after ∧
        (passes → answer.isOk = true ∨ after.Mistaken))
      fun halt _ => halt = .exhausted := by
  rw [ends_attempt]
  refine (kept machine unfailing).mono
    (fun _ _ betweenFrames => ⟨betweenFrames, fun _ => Or.inl rfl⟩)
    fun halt after ended => ?_
  cases halt with
  | error error =>
      obtain ⟨betweenFrames, mistaken⟩ := ended.resolve_left (by simp)
      exact ⟨betweenFrames, fun passed => Or.inr (mistaken passed)⟩
  | exhausted => rfl

/-- How a callback fails: with an error that was passed on to it. -/
def PassedOn (passes : Prop) (before : Machine) (halt : Halt) (after : Machine) : Prop :=
  halt = .exhausted ∨ BetweenFrames passes before after ∧ passes ∧ after.Mistaken

private theorem PassedOn.halted {halt : Halt} {before after : Machine}
    (passed : PassedOn passes before halt after) :
    (keepingTimers passes).halted halt before after :=
  passed.imp_right (And.imp_right fun both _ => both.2)

private theorem ends_after_betweenFrames {run : Run Unit} {before middle : Machine}
    (earlier : BetweenFrames passes before middle)
    (ends : Ends run middle (fun _ after => BetweenFrames passes middle after)
      (PassedOn passes middle)) :
    Ends run middle (fun _ after => BetweenFrames passes before after) (PassedOn passes before) :=
  ends.mono (fun _ _ later => earlier.trans later)
    fun _ _ passed => passed.imp_right (And.imp_left earlier.trans)

section Callbacks

variable {calls : Calls} (kept : (keepingTimers passes).KeptBy calls)
include kept

private theorem ends_behave_betweenFrames {state : StateId} {behavior : Behavior}
    (unfailing : machine.Unfailing passes)
    (permitted : behavior.Unfailing passes ∨ passes ∧ machine.Mistaken) :
    Ends (behave calls state behavior) machine (fun _ after => BetweenFrames passes machine after)
      (PassedOn passes machine) := by
  -- By induction on the behaviour. Once a request of it failed where errors are passed on, it
  -- may do anything, but then a mistake was found.
  induction behavior generalizing machine with
  | done => exact BetweenFrames.refl machine
  | fail error =>
      rcases permitted with impossible | ⟨passed, mistaken⟩
      · cases impossible
      · exact Or.inr ⟨BetweenFrames.refl machine, passed, mistaken⟩
  | note text next ih =>
      unfold behave
      rw [ends_bind, ends_note]
      have noted : BetweenFrames passes machine (machine.note (.note text)) :=
        BetweenFrames.note machine rfl rfl
      refine ends_after_betweenFrames noted (ih (unfailing_of_betweenFrames unfailing noted) ?_)
      refine permitted.imp (fun never => ?_) (And.imp_right fun mistaken =>
        mistaken.of_changes noted.changes)
      cases never with
      | note _ rest => exact rest
  | look next ih =>
      unfold behave
      rw [ends_bind, ends_get]
      refine ih _ unfailing (permitted.imp_left fun never => ?_)
      cases never with
      | look rest => exact rest _
  | write key value next ih =>
      unfold behave
      rw [ends_bind, ends_modifyGet]
      have written : BetweenFrames passes machine (machine.set key value).2 :=
        BetweenFrames.write machine key value
      refine ends_after_betweenFrames written
        (ih _ (unfailing_of_betweenFrames unfailing written) ?_)
      refine permitted.imp (fun never => ?_) (And.imp_right fun mistaken =>
        mistaken.of_changes written.changes)
      cases never with
      | write _ _ rest => exact rest _
  | fire reference memo next ih =>
      unfold behave
      rw [ends_bind]
      have fires := kept_triggerReference lawful_keepingTimers kept.trigger reference memo
      refine (ends_attempt_betweenFrames fires unfailing).mono (fun answer middle answered => ?_)
        fun _ _ exhausted => Or.inl exhausted
      refine ends_after_betweenFrames answered.1
        (ih answer (unfailing_of_betweenFrames unfailing answered.1) ?_)
      by_cases failed : passes ∧ middle.Mistaken
      · exact Or.inr failed
      · have never := permitted.resolve_right fun earlier =>
          failed ⟨earlier.1, earlier.2.of_changes answered.1.changes⟩
        cases never with
        | fire _ _ rest =>
            exact Or.inl (rest answer fun passed =>
              (answered.2 passed).resolve_right fun mistaken => failed ⟨passed, mistaken⟩)

theorem ends_startBehavior_betweenFrames {state : StateId} {node : StateNode} {phase : Phase}
    {behavior : Option Behavior} (unfailing : machine.Unfailing passes)
    (found : machine.state? state = some node)
    (runs : ∀ present, behavior = some present → node.Runs present)
    (active : phase = .activity → machine.isStateActive state = true) :
    Ends (startBehavior calls state phase behavior) machine
      (fun _ after => BetweenFrames passes machine after) (PassedOn passes machine) := by
  unfold startBehavior
  cases behavior with
  | none => exact BetweenFrames.refl machine
  | some present =>
      dsimp only
      rw [ends_bind, ends_note]
      have started : BetweenFrames passes machine (machine.note (.started phase state)) :=
        BetweenFrames.started machine active
      exact ends_after_betweenFrames started (ends_behave_betweenFrames kept
        (unfailing_of_betweenFrames unfailing started)
        (Or.inl (unfailing.behaviors state node present found (runs present rfl))))

end Callbacks

/-! ### What is allowed -/

theorem sound_keepingTimers : (keepingTimers passes).Sound where
  toLawful := lawful_keepingTimers
  behaviors := fun unfailing => unfailing.behaviors _ _ _
  behave := fun kept _ _ never _ unfailing =>
    (ends_behave_betweenFrames kept unfailing (Or.inl never)).mono
    (fun _ _ betweenFrames => betweenFrames)
      fun _ _ passed => passed.halted
  left := by
    intro machine state node unfailing found active
    have leaves : BetweenFrames passes machine (machine.left state node) :=
      BetweenFrames.left found active
    have starts : BetweenFrames passes (machine.left state node)
        ((machine.left state node).note (.started .exit state)) :=
      BetweenFrames.started _ fun impossible => by cases impossible
    exact leaves.trans
      (finished_starting lawful_keepingTimers (unfailing_of_betweenFrames unfailing leaves)
      starts node.closing)
  closed := fun _ found active => BetweenFrames.closed found active
  joined := fun _ inactive => BetweenFrames.joined inactive
  opened := fun _ found inactive _ => BetweenFrames.opened found inactive
  started := fun _ active => BetweenFrames.started _ fun _ => active
  timed := fun _ found active normal timed =>
    (Machine.betweenFrames_timerStarted found active normal timed _).1

private theorem chooses_keepingTimers : (keepingTimers passes).Chooses where
  decided := fun _ _ _ => BetweenFrames.note _ rfl rfl
  chosen := fun _ found contained fresh _ => BetweenFrames.transitionChosen found contained fresh

private theorem fires_keepingTimers : (keepingTimers passes).Fires where
  effects := fun memo unfailing present isEffect =>
    unfailing.effects _ _ _ memo present isEffect
  requested := fun _ _ => BetweenFrames.note _ rfl rfl
  recorded := fun id firing _ => BetweenFrames.recorded _ id firing
  settled := fun _ _ _ => BetweenFrames.note _ rfl rfl

/-! ### Entering -/

section Operations

variable {calls : Calls} (keeps : (keepingTimers passes).KeptAnywhere calls)
include keeps

/-- Whatever its entry behaviour does, the timer of a normal state runs when the entry has ended,
unless with an error that was passed on. -/
theorem ends_enterNormal_betweenFrames {state : StateId} {node current : StateNode}
    {machine : Machine}
    (unfailing : machine.Unfailing passes) (found : machine.state? state = some current)
    (same : current.fixed = node.fixed) (normal : node.kind = .normal) :
    Ends (enterNormal calls state node) machine
      (fun _ after => BetweenFrames passes machine after ∧ after.TimerRuns state)
      fun halt after => (keepingTimers passes).halted halt machine after ∧
        (halt = .exhausted ∨ passes ∧ after.Mistaken ∨ after.TimerRuns state) := by
  have entry : current.entry = node.entry := StateNode.read_eq same StateNode.entry fun _ => rfl
  unfold enterNormal
  rw [ends_bind]
  refine (ends_startBehavior_betweenFrames keeps.toKeptBy unfailing found
    (fun present isEntry => Or.inl (entry.trans isEntry))
    fun impossible => by cases impossible).mono
    (fun _ middle begun => ?_)
    fun _ _ passed => ⟨passed.halted, passed.imp_right fun both => Or.inl both.2⟩
  have still (after : Machine) (changes : Changes machine after) {now : StateNode}
      (foundNow : after.state? state = some now) : now.fixed = node.fixed :=
    (changes.sameChart.fixed_eq found foundNow).trans same
  rw [ends_bind, ends_get]
  split
  · rename_i active
    obtain ⟨now, foundNow, activeNow⟩ := Machine.isStateActive_iff.mp active
    have fixed := still middle begun.changes foundNow
    have config : now.config = node.config := StateNode.read_eq fixed StateNode.config fun _ => rfl
    have kind : now.kind = node.kind := StateNode.read_eq fixed StateNode.kind fun _ => rfl
    split
    · rename_i timed
      obtain ⟨starts, timerRuns⟩ := Machine.betweenFrames_timerStarted foundNow activeNow
        (kind.trans normal) (by rw [config]; exact timed) (middle.stateName state)
      exact ⟨begun.trans starts, timerRuns⟩
    · rename_i untimed
      have timerRuns {after : Machine} (betweenFrames : BetweenFrames passes machine after) :
          after.TimerRuns state := by
        intro last foundLast _ _ timed
        have fixedLast := still after betweenFrames.changes foundLast
        rw [StateNode.read_eq fixedLast (fun node => node.config.timer) fun _ => rfl] at timed
        exact absurd timed untimed
      have permitted (behavior : Behavior) (runs : node.Runs behavior) :
          behavior.Unfailing passes := by
        have equal := StateNode.read_eq same (fun node => node.Runs behavior) fun _ => rfl
        exact unfailing.behaviors state current behavior found (by rw [equal]; exact runs)
      have finishes : (keepingTimers passes).KeptFrom (finishEntry calls state node) middle :=
        keptFrom_finishEntry sound_keepingTimers keeps.toKeptBy
        (unfailing_of_betweenFrames unfailing begun)
          active permitted
      exact (finishes.after lawful_keepingTimers begun).mono
        (fun _ _ betweenFrames => ⟨betweenFrames, timerRuns betweenFrames⟩)
        fun _ _ ended => ⟨ended, ended.imp_right fun both => Or.inr (timerRuns both.1)⟩
  · rename_i inactive
    refine ⟨begun, fun now foundNow active _ _ => absurd ?_ inactive⟩
    exact Machine.isStateActive_iff.mpr ⟨now, foundNow, active⟩

/-- The entry of a normal state and what follows on it keep the timers together, every other kind of
state is entered first. -/
theorem keepingTimers_activate (state : StateId) :
    (keepingTimers passes).Kept (activate calls state) := by
  intro machine unfailing
  apply keptFrom_activate sound_keepingTimers.toLawful unfailing
  intro node found inactive
  have enters : Changes machine (machine.entered state node.name) :=
    (Machine.Change.enter found inactive (Or.inr (Or.inr trivial))).one
  have present := Machine.state?_entered found node.name
  have unfailingNow := unfailing.of_sameChart enters.sameChart
  have after (notNormal : node.kind ≠ .normal) {run : Run Unit}
      (keptRun : (keepingTimers passes).KeptFrom run (machine.entered state node.name)) :
      Ends run (machine.entered state node.name)
        (fun _ after => (keepingTimers passes).finished machine after)
        fun halt after => (keepingTimers passes).halted halt machine after :=
    keptRun.after lawful_keepingTimers (BetweenFrames.entered found inactive notNormal)
  apply ends_activate_kept sound_keepingTimers keeps.toKeptBy found inactive unfailingNow
  · exact fun notNormal _ _ keptRun => after notNormal keptRun
  · intro normal
    obtain ⟨timersCounted, timerRuns⟩ := Machine.keepsTimers_entered found inactive
    have whole {after : Machine}
      (betweenFrames : BetweenFrames passes (machine.entered state node.name) after)
        (here : ¬ (passes ∧ after.Mistaken) → after.TimerRuns state) :
        BetweenFrames passes machine after :=
      { changes := enters.trans betweenFrames.changes
        timersCounted := fun clocked linked known =>
          betweenFrames.timersCounted (enters.clocked clocked)
          (enters.linked linked) (timersCounted clocked known)
        timerRuns := fun unmistaken current known => by
          by_cases same : current = state
          · rw [same]
            exact here unmistaken
          · exact betweenFrames.timerRuns unmistaken current (timerRuns current (Or.inl same) known)
        undelivered := by
          obtain ⟨events, told, none'⟩ := betweenFrames.undelivered
          refine ⟨_, (Machine.told_entered machine state node.name).trans told, ?_⟩
          simpa using none' }
    refine (ends_enterNormal_betweenFrames keeps unfailingNow present rfl normal).mono
      (fun _ _ both => whole both.1 fun _ => both.2) fun _ after ended => ?_
    rcases ended with ⟨exhausted | ⟨betweenFrames, mistaken⟩, reason⟩
    · exact Or.inl exhausted
    · refine reason.imp_right fun timerRuns => ⟨whole betweenFrames fun unmistaken => ?_, mistaken⟩
      exact timerRuns.resolve_left unmistaken
  · intro depth region history _
    exact after (by rw [history]; simp) (kept_resumeHistory_anywhere sound_keepingTimers keeps state
      region _ unfailingNow)
  · intro choice
    exact after (by rw [choice]; simp) (keptFrom_followChoice lawful_keepingTimers
      chooses_keepingTimers keeps.trigger unfailingNow present rfl rfl rfl)

end Operations

theorem calls_keepingTimers (depth : Nat) : (keepingTimers passes).KeptAnywhere (calls depth) := by
  apply keptAnywhere_calls sound_keepingTimers
  · exact fun _ keeps => keepingTimers_activate keeps
  · exact fun _ keeps _ _ =>
      kept_trigger sound_keepingTimers keeps.toKeptBy fires_keepingTimers
      (keepingTimers_activate keeps)

end Chart.Run
