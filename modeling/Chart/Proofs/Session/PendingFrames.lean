import Chart.Proofs.Run.Delivering
import Chart.Proofs.Session.Configuration

set_option autoImplicit false

/-!
Frames of running timers. As long as every advance is answered, each running timer has its frame
among the pending ones, whatever else fails. An advance takes all pending frames before it delivers
the first, so a failing one loses the frames behind the failure: these and no others.
-/

namespace Chart

def delivering : Terms := fun _ request answer _ =>
  ∀ now, request = .advance now → answer = .ok ()

namespace Machine

private theorem Awaited.of_returns {machine after : Machine} {request : Request}
    {answer : Except MachineError Unit} (awaited : machine.Awaited []) (formed : machine.Formed)
    (linked : machine.Linked) (clocked : machine.Clocked)
    (returns : request.Returns machine answer after)
    (delivers : ∀ now, request = .advance now → answer = .ok ()) : after.Awaited [] := by
  rcases returns.develops formed linked with grown | ⟨opened, opens, cascade⟩
  · exact grown.awaited awaited
  · cases opens with
    | nothing => exact cascade.awaited clocked awaited
    | root found inactive =>
        have enters : Changes machine _ :=
          (Change.enter found inactive (Or.inr (Or.inr trivial))).one
        refine cascade.awaited (enters.clocked clocked) ?_
        exact awaited.of_quieter clocked (altered_modifyState machine root _) rfl
          fun _ _ running => ⟨running, rfl⟩
    | @frames _ now =>
        have ends (depth : Nat) : Ends ((Request.advance now).run depth) machine
            (fun _ after => after.Awaited []) (fun _ _ => True) := by
          unfold Request.run
          rw [ends_discard]
          exact Run.ends_advance_awaited formed linked clocked awaited
        rcases returns.ends ends with ⟨_, known⟩ | ⟨error, refused, _⟩
        · exact known
        · rw [delivers now rfl] at refused
          cases refused

theorem Reached.awaited {machine : Machine} (reached : machine.Reached delivering) :
    machine.Awaited [] := by
  -- By induction on the session.
  obtain ⟨name, names, session⟩ := reached
  induction session with
  | refl => exact awaited_new name names
  | tail earlier call ih =>
      obtain ⟨request, answer, returns, delivers⟩ := call
      have reachedFirst : Reached delivering _ := ⟨name, names, earlier⟩
      exact ih.of_returns reachedFirst.formed reachedFirst.linked reachedFirst.clocked returns
        delivers

/-- After any call a running timer has its frame among the pending ones, or the call was an advance
that failed, and the frame was pending before it. -/
theorem Reached.frame_pending {machine after : Machine} {request : Request}
    {answer : Except MachineError Unit} (reached : machine.Reached delivering)
    (returns : request.Returns machine answer after) {state : StateId} {node : StateNode}
    (found : after.state? state = some node) (running : node.timer.running = true) :
    ∃ handle, node.frame = some handle ∧ (handle ∈ after.frames.pending ∨
      handle ∈ machine.frames.pending ∧ ∃ now error,
        request = .advance now ∧ answer = .error error) := by
  have formed := reached.formed
  have linked := reached.linked
  have clocked := reached.clocked
  have awaited := reached.awaited
  by_cases delivers : ∀ now, request = .advance now → answer = .ok ()
  · obtain ⟨handle, waits, pending | impossible⟩ :=
      awaited.of_returns formed linked clocked returns delivers state node found running
    · exact ⟨handle, waits, Or.inl pending⟩
    · cases impossible
  · obtain ⟨now, failing⟩ := not_forall.mp delivers
    obtain ⟨rfl, fails⟩ := Classical.not_imp.mp failing
    obtain ⟨error, rfl⟩ : ∃ error, answer = .error error := by
      cases answer with
      | ok value => exact absurd rfl fails
      | error error => exact ⟨error, rfl⟩
    rcases returns.develops formed linked with grown | ⟨opened, opens, cascade⟩
    · obtain ⟨handle, waits, pending | impossible⟩ :=
        grown.awaited awaited state node found running
      · exact ⟨handle, waits, Or.inl pending⟩
      · cases impossible
    · have owed : opened.Awaited machine.frames.pending ∧ opened.Clocked := by
        cases opens with
        | nothing =>
            refine ⟨fun other current foundNow runs => ?_, clocked⟩
            obtain ⟨handle, waits, known⟩ := awaited other current foundNow runs
            exact ⟨handle, waits, known.imp_right fun impossible => by cases impossible⟩
        | frames =>
            have takes : Changes machine machine.framesTaken := (Change.takeFrames trivial).one
            exact ⟨awaited.framesTaken, takes.clocked clocked⟩
      obtain ⟨handle, waits, pending | taken⟩ :=
        cascade.awaited owed.2 owed.1 state node found running
      · exact ⟨handle, waits, Or.inl pending⟩
      · exact ⟨handle, waits, Or.inr ⟨taken, now, error, rfl, rfl⟩⟩

/-- Two timed states in regions of their own; the activity of the first one fails. -/
def watchRequests : List Request :=
  [.construct (.createState
      { (StateDefinition.plain "failing").withTimer oneSecond with
        activity := some (.fail (.action "broken")) }),
    .construct (.addState ⟨3⟩), .construct (.appendRegion ⟨0⟩),
    .construct (.createState ((StateDefinition.plain "waiting").withTimer oneSecond)),
    .construct (.regionAddState ⟨1⟩ ⟨6⟩),
    .construct (.createTransition (.initial "failing")), .construct (.addTransition ⟨0⟩),
    .construct (.createTransition (.initial "waiting")),
    .construct (.regionAddTransition ⟨1⟩ ⟨1⟩), .start, .advance .zero]

def watch : Machine :=
  Request.outcome 8 watchRequests (Machine.new "watch" (.ofStem "auto"))

def watchFailed : Machine :=
  (Request.advance oneSecond).aftermath 8 watch

private theorem watch_plays :
    (Request.play 8 watchRequests (Machine.new "watch" (.ofStem "auto"))).isSome = true ∧
      (Request.advance oneSecond).refusal 8 watch = some (.action "broken") ∧
      (watchFailed.state? ⟨6⟩).any (fun node => node.timer.running) = true ∧
      watchFailed.frames.pending = [] := by
  decide +kernel

private theorem reached_watch : watch.Reached delivering :=
  ⟨"watch", .ofStem "auto", (session_outcome watch_plays.1).weaken
    fun _ _ _ _ call _ _ => call.2⟩

private theorem returns_watchFailed :
    (Request.advance oneSecond).Returns watch (.error (.action "broken")) watchFailed :=
  returns_aftermath watch_plays.2.1

private theorem watchFailed_running :
    ∃ node, watchFailed.state? ⟨6⟩ = some node ∧ node.timer.running = true :=
  (Option.any_eq_true _ _).mp watch_plays.2.2.1

/-- The activity of one state fails, and the other one, whose timer runs, is left without a
frame. -/
theorem watch_loses_frame : watch.Reached delivering ∧
    (Request.advance oneSecond).Returns watch (.error (.action "broken")) watchFailed ∧
      ¬watchFailed.Awaited [] := by
  refine ⟨reached_watch, returns_watchFailed, fun awaited => ?_⟩
  obtain ⟨node, found, running⟩ := watchFailed_running
  obtain ⟨_, _, _, empty⟩ := watch_plays
  obtain ⟨handle, _, pending | impossible⟩ := awaited ⟨6⟩ node found running
  · rw [empty] at pending
    cases pending
  · cases impossible

/-- The frame that is lost was pending before. -/
theorem watchFailed_frame : watch.Reached delivering ∧
    (Request.advance oneSecond).Returns watch (.error (.action "broken")) watchFailed ∧
      ∃ node handle, watchFailed.state? ⟨6⟩ = some node ∧ node.timer.running = true ∧
        node.frame = some handle ∧ (handle ∈ watchFailed.frames.pending ∨
          handle ∈ watch.frames.pending ∧ ∃ now error,
            Request.advance oneSecond = .advance now ∧
              (.error (.action "broken") : Except MachineError Unit) = .error error) := by
  obtain ⟨node, found, running⟩ := watchFailed_running
  obtain ⟨handle, waits, known⟩ :=
    Reached.frame_pending reached_watch returns_watchFailed found running
  exact ⟨reached_watch, returns_watchFailed, node, handle, found, running, waits, known⟩

end Machine

end Chart
