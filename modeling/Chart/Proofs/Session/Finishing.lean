import Chart.Proofs.Run.ExitOrder
import Chart.Proofs.Session.Configuration

set_option autoImplicit false

/-!
Finishing. The exit plan of the root names every active state and region of a coherent machine, and
an answered finish executes all of it. So whatever is active afterwards was entered by an exit
behaviour during the finish, and what was active before does not matter.
-/

namespace Chart

namespace Machine

/-- The step has been carried out at some moment in between. -/
def Passed (before after : Machine) : Step → Prop
  | .state state => ∃ middle, Changes before middle ∧ Changes middle after ∧
      middle.isStateActive state = false
  | .region region => ∃ middle, Changes before middle ∧ Changes middle after ∧
      middle.isRegionActive region = false

theorem Passed.mono {first before after last : Machine} {step : Step}
    (passed : Passed before after step) (earlier : Changes first before)
    (later : Changes after last) : Passed first last step := by
  cases step with
  | state state =>
      obtain ⟨middle, begun, ended, inactive⟩ := passed
      exact ⟨middle, earlier.trans begun, Relation.ReflTransGen.trans ended later, inactive⟩
  | region region =>
      obtain ⟨middle, begun, ended, inactive⟩ := passed
      exact ⟨middle, earlier.trans begun, Relation.ReflTransGen.trans ended later, inactive⟩

end Machine

/-! ### Carrying out a plan with any callbacks -/

namespace Run

open Discipline (kept_deactivate kept_deactivateRegion)
open Machine (Passed Changes)

variable {calls : Calls} (changing : calls.Changing True)
include changing

private theorem ends_exitStep_passed (step : Machine.Step) (machine : Machine) :
    Ends (exitStep calls step) machine
      (fun _ after => Changes machine after ∧ Passed machine after step)
      (fun _ _ => True) := by
  have any : Sound True machine := Or.inl trivial
  cases step with
  | state state =>
      change Ends (deactivate calls state) machine _ _
      cases active : machine.isStateActive state with
      | true =>
          obtain ⟨node, found, isActive⟩ := Machine.isStateActive_iff.mp active
          have leaves : Changes machine (machine.left state node) :=
            (Machine.Change.leave found isActive).one
          have inactive : (machine.left state node).isStateActive state = false :=
            Bool.eq_false_iff.mpr fun stays => (Machine.isStateActive_left state |>.mp stays).1 rfl
          rw [ends_deactivate found isActive]
          split
          · exact (changing_startBehavior changing state .exit node.exit _ (Or.inl trivial)).mono
              (fun _ _ later => ⟨leaves.trans later, _, leaves, later, inactive⟩)
              fun _ _ _ => trivial
          · exact ⟨leaves, _, leaves, Relation.ReflTransGen.refl, inactive⟩
      | false =>
          exact (kept_deactivate (sound_changing True) changing.toKeptBy state machine any).mono
            (fun _ _ changes => ⟨changes, machine, Relation.ReflTransGen.refl, changes, active⟩)
            fun _ _ _ => trivial
  | region region =>
      change Ends (discard (deactivateRegion region)) machine _ _
      rw [ends_discard]
      cases active : machine.isRegionActive region with
      | true =>
          obtain ⟨members, found, isActive⟩ := Machine.isRegionActive_iff.mp active
          have closes : Changes machine (machine.closed region members.name) :=
            (Machine.Change.closeRegion found isActive).one
          have inactive := machine.isRegionActive_closed_self region members.name
          unfold deactivateRegion
          rw [ends_bind, ends_get, found]
          dsimp only
          rw [if_pos isActive]
          exact ⟨closes, _, closes, Relation.ReflTransGen.refl, inactive⟩
      | false =>
          exact (kept_deactivateRegion (sound_changing True) region machine any).mono
            (fun _ _ changes => ⟨changes, machine, Relation.ReflTransGen.refl, changes, active⟩)
            fun _ _ _ => trivial

private theorem ends_exitSteps_passed (plan : List Machine.Step) (machine : Machine) :
    Ends (plan.forM (exitStep calls)) machine
      (fun _ after => Changes machine after ∧ ∀ step ∈ plan, Passed machine after step)
      (fun _ _ => True) := by
  -- By induction on the plan.
  induction plan generalizing machine with
  | nil => exact ⟨Relation.ReflTransGen.refl, List.forall_mem_nil _⟩
  | cons step rest ih =>
      rw [ends_forM_cons]
      refine (ends_exitStep_passed changing step machine).mono (fun _ middle passed => ?_)
        fun _ _ _ => trivial
      refine (ih middle).mono (fun _ after passedRest => ?_) fun _ _ _ => trivial
      refine ⟨passed.1.trans passedRest.1, List.forall_mem_cons.mpr ⟨?_, fun other member => ?_⟩⟩
      · exact passed.2.mono Relation.ReflTransGen.refl passedRest.1
      · exact (passedRest.2 other member).mono passed.1 Relation.ReflTransGen.refl

end Run

namespace Machine

private theorem replay_of_off {tells : Event → Option Bool} {before middle after : Machine}
    {events : List Event} (told : Told before after events) (earlier : Changes before middle)
    (later : Changes middle after) (off : replay tells middle.journal.toList = false) :
    replay tells after.journal.toList = replay tells events := by
  obtain ⟨early, toldEarly⟩ := earlier.told
  obtain ⟨late, toldLate⟩ := later.told
  obtain rfl := told.unique (toldEarly.trans toldLate)
  rw [toldEarly] at off
  rw [told, ← List.append_assoc]
  exact replay_append_of_off off

/-- Whatever its exit behaviours do, an answered finish leaves the statuses that the events since
its beginning make of a machine in which nothing is active, and timers run in active states only. -/
theorem Reached.finished_statuses {terms : Terms} {machine after : Machine}
    (reached : machine.Reached terms) (coherent : machine.Coherent)
    (returns : Request.finish.Returns machine (.ok ()) after) :
    ∃ events, Told machine after events ∧
      (∀ state, after.isStateActive state = replay (Event.sets state) events) ∧
      (∀ region, after.isRegionActive region = replay (Event.setsRegion region) events) ∧
      ∀ state node, after.state? state = some node → node.timer.running = true →
        replay (Event.sets state) events = true := by
  have formed := reached.formed
  have linked := reached.linked
  have ends (depth : Nat) : Ends (Run.finish depth) machine
      (fun _ after => Changes machine after ∧
        ∀ step ∈ machine.exitPlan root, Passed machine after step) (fun _ _ => True) := by
    unfold Run.finish
    rw [ends_bind, ends_get]
    split
    · exact Run.ends_exitSteps_passed (Run.calls_changing True depth) _ machine
    · rw [ends_bind, Run.ends_warn, Run.ends_raise]
      trivial
  rcases returns.ends ends with ⟨_, changes, passed⟩ | ⟨_, impossible, _⟩
  · obtain ⟨events, told⟩ := changes.told
    have retold := (changes.linked linked).retold
    have states (state : StateId) :
        after.isStateActive state = replay (Event.sets state) events := by
      obtain ⟨middle, earlier, later, inactive⟩ : Passed machine after (.state state) := by
        cases active : machine.isStateActive state with
        | true => exact passed _ (state_mem_rootPlan formed.toWired coherent active)
        | false => exact ⟨machine, Relation.ReflTransGen.refl, changes, active⟩
      rw [← retold.states]
      refine replay_of_off told earlier later ?_
      rw [(earlier.linked linked).retold.states, inactive]
    have regions (region : RegionId) :
        after.isRegionActive region = replay (Event.setsRegion region) events := by
      obtain ⟨middle, earlier, later, inactive⟩ : Passed machine after (.region region) := by
        cases active : machine.isRegionActive region with
        | true => exact passed _ (region_mem_rootPlan formed.toWired coherent active)
        | false => exact ⟨machine, Relation.ReflTransGen.refl, changes, active⟩
      rw [← retold.regions]
      refine replay_of_off told earlier later ?_
      rw [(earlier.linked linked).retold.regions, inactive]
    refine ⟨events, told, states, regions, fun state node found running => ?_⟩
    rw [← states]
    exact isStateActive_iff.mpr
      ⟨node, found, (changes.clocked reached.clocked state node found).active running⟩
  · cases impossible

/-- The lamp is switched off. -/
theorem lamp_finished :
    lamp.Reached anyTerms ∧ lamp.Coherent ∧ ∃ after,
      Request.finish.Returns lamp (.ok ()) after ∧ ∃ events, Told lamp after events ∧
        (∀ state, after.isStateActive state = replay (Event.sets state) events) ∧
        (∀ region, after.isRegionActive region = replay (Event.setsRegion region) events) ∧
        ∀ state node, after.state? state = some node → node.timer.running = true →
          replay (Event.sets state) events = true := by
  have reached : lamp.Reached anyTerms :=
    ⟨"lamp", .ofStem "auto", session_lamp.weaken fun _ _ _ _ _ => trivial⟩
  obtain ⟨_, finishes, plain, _⟩ := lamp_plays
  have coherent := reached.coherent (calm_of_isPlain plain)
  have returns : Request.finish.Returns lamp (.ok ()) (Request.outcome 4 [.finish] lamp) :=
    returns_outcome finishes
  exact ⟨reached, coherent, _, returns, Reached.finished_statuses reached coherent returns⟩

theorem Reached.finish_stops {terms : Terms} {machine after : Machine}
    (reached : machine.Reached terms) (calm : machine.Calm True)
    (returns : Request.finish.Returns machine (.ok ()) after) :
    (∀ state, after.isStateActive state = false) ∧
      (∀ region, after.isRegionActive region = false) ∧
      ∀ state node, after.state? state = some node → node.timer.running = false := by
  have formed := reached.formed
  have coherent := reached.coherent calm
  have orderly := formed.orderly reached.linked calm
  have ends (depth : Nat) : Ends (Run.finish depth) machine
      (fun _ after => Emptied (machine.Below root) (machine.Beneath root) machine after)
      (fun _ _ => True) := by
    unfold Run.finish
    rw [ends_bind, ends_get]
    split
    · rename_i isActive
      exact (Run.ends_exit orderly.leavable coherent isActive).mono (fun _ _ emptied => emptied)
        fun _ _ _ => trivial
    · rw [ends_bind, Run.ends_warn, Run.ends_raise]
      trivial
  rcases returns.ends ends with ⟨_, emptied⟩ | ⟨_, impossible, _⟩
  · have states (state : StateId) : after.isStateActive state = false := by
      by_cases below : machine.Below root state
      · exact emptied.left state below
      · rw [emptied.statuses state below]
        exact Bool.eq_false_iff.mpr fun active =>
          below (below_root formed.toWired coherent active)
    refine ⟨states, fun region => ?_, fun state node found => ?_⟩
    · refine Bool.eq_false_iff.mpr fun active => ?_
      obtain ⟨owner, _, activeOwner⟩ := emptied.coherent.owned region active
      rw [states] at activeOwner
      cases activeOwner
    · refine Bool.eq_false_iff.mpr fun running => ?_
      have active := isStateActive_iff.mpr
        ⟨node, found, (emptied.changes.clocked reached.clocked state node found).active running⟩
      rw [states] at active
      cases active
  · cases impossible

/-- The exit behaviour in one region fires a transition in the other one, which still has to be
left. -/
def switchRequests : List Request :=
  [.construct (.createState (.plain "first")), .construct (.addState ⟨3⟩),
    .construct (.createState ((StateDefinition.plain "second").withTimer oneSecond)),
    .construct (.addState ⟨4⟩), .construct (.appendRegion ⟨0⟩),
    .construct (.createState
      { StateDefinition.plain "other" with exit := some (firing "switch" .null) }),
    .construct (.regionAddState ⟨1⟩ ⟨7⟩),
    .construct (.createTransition (.initial "first")), .construct (.addTransition ⟨0⟩),
    .construct (.createTransition (.initial "other")),
    .construct (.regionAddTransition ⟨1⟩ ⟨1⟩),
    .construct (.createTransition (.simple "switch" "first" "second")),
    .construct (.addTransition ⟨2⟩), .start]

def switch : Machine :=
  Request.outcome 12 switchRequests (Machine.new "switch" (.ofStem "auto"))

def switchFinished : Machine :=
  Request.outcome 12 [.finish] switch

private theorem switch_plays :
    (Request.play 12 switchRequests (Machine.new "switch" (.ofStem "auto"))).isSome = true ∧
      (Request.play 12 [.finish] switch).isSome = true ∧ switch.isActive = true ∧
      (switchFinished.state? ⟨4⟩).any
        (fun node => node.status.isActive && node.timer.running) = true := by
  decide +kernel

private theorem reached_switch : switch.Reached answered :=
  ⟨"switch", .ofStem "auto",
    (session_outcome switch_plays.1).weaken fun _ _ _ _ call => call.2⟩

private theorem returns_switchFinished : Request.finish.Returns switch (.ok ()) switchFinished :=
  returns_outcome switch_plays.2.1

/-- The finish is answered, and a state is active afterwards with its timer running. -/
theorem switch_stays_active : switch.Reached answered ∧ switch.isActive = true ∧
    Request.finish.Returns switch (.ok ()) switchFinished ∧
      ∃ state node, switchFinished.state? state = some node ∧ node.status.isActive = true ∧
        node.timer.running = true := by
  obtain ⟨_, _, active, finished⟩ := switch_plays
  refine ⟨reached_switch, active, returns_switchFinished, ⟨4⟩, ?_⟩
  obtain ⟨node, found, holds⟩ := (Option.any_eq_true _ _).mp finished
  obtain ⟨active, running⟩ := (Bool.and_eq_true _ _).mp holds
  exact ⟨node, found, active, running⟩

end Machine

end Chart
