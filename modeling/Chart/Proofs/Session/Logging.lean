import Chart.Proofs.Run.Invocations
import Chart.Proofs.Session.Request

set_option autoImplicit false

/-!
The log of the firings. A call only appends to it, whatever the callbacks do and however the call
ends. When no trigger fails meanwhile, what it appends are the firings of the triggers that returned
that the transition fired, each at the moment its effect had finished.
-/

namespace Chart

namespace Run

/-- Whoever asks these calls for a trigger, what it returns is the reply of one invocation, and a
callback is told the replies to the triggers that it requests. -/
structure Accountable (calls : Calls) : Prop where
  trigger : Answering calls
  behave : ∀ state behavior machine answer after,
    attempt (behave calls state behavior) machine = .ok answer after →
    RecountedBy behavior machine after

private theorem accountable_calls (depth : Nat) : Accountable (calls depth) where
  trigger := (answering_calls depth).1
  behave := by
    intro state behavior machine answer after returns
    have recountedBy := ends_behave_recountedBy (answering_calls depth).1 state behavior machine
    rcases ends_of_attempt recountedBy returns with ⟨_, _, receives⟩ | ⟨_, _, exhausted | receives⟩
    · exact receives
    · cases exhausted
    · exact receives

end Run

namespace Request

/-- A request to trigger a transition is the one outermost trigger of its call, with the answer that
the call gives. -/
def Replies (request : Request) (before : Machine) (replies : List Reply)
    (after : Machine) : Prop :=
  match request with
  | .trigger id memo => ∃ depth answer,
      Run.attempt (Run.triggerHandle depth id memo) before = .ok answer after ∧
        replies = [⟨id, answer⟩]
  | .triggerNamed name memo => ∃ depth answer,
      Run.attempt (Run.triggerNamed depth name memo) before = .ok answer after ∧
        replies = (before.findTransition? name).toList.map fun id => ⟨id, answer⟩
  | _ => True

variable {request : Request} {before after : Machine} {answer : Except MachineError Unit}

private theorem Returns.recounted (returns : request.Returns before answer after)
    (runs : request.runs = true) :
    ∃ replies, Machine.Recounted before replies after ∧ request.Replies before replies after := by
  have ran : ∃ invocations, Machine.Course before invocations after := by
    rcases returns.keeps Run.sound_recounting (fun depth => (Run.answering_calls depth).2) runs
      (Run.abides_recounting before) with ⟨_, course⟩ | ⟨_, _, exhausted | course⟩
    · exact course
    · cases exhausted
    · exact course
  obtain ⟨depth, result⟩ := returns
  cases request with
  | construct _ | setData _ _ => cases runs
  | trigger id memo =>
      obtain ⟨answered, returned⟩ := Run.attempt_of_discard result
      exact ⟨_, (Run.answering_calls (depth + 1)).1 id memo before answered after returned, depth,
        answered, returned, rfl⟩
  | triggerNamed name memo =>
      obtain ⟨answered, returned⟩ := Run.attempt_of_discard result
      rcases (Run.answering_calls (depth + 1)).1.named returned with
        ⟨id, known, recounted⟩ | ⟨unknown, recounted, -⟩
      · exact ⟨_, recounted, depth, answered, returned, by rw [known]; rfl⟩
      · exact ⟨_, recounted, depth, answered, returned, by rw [unknown]; rfl⟩
  | _ =>
      obtain ⟨invocations, course⟩ := ran
      exact ⟨_, ⟨invocations, course, rfl⟩, trivial⟩

end Request

namespace Machine

/-- A call only appends to the log. What it did was a course of triggers, whose events and whose
records are told and appended in this order, with the answer of the call as the outermost reply
where the call is a trigger itself. If no trigger fails, there is a record for each one that
returned that its transition fired; the names in it are those of the resolved endpoints. -/
theorem firings_logged {machine after : Machine} {request : Request}
    {answer : Except MachineError Unit} (runs : request.runs = true)
    (returns : request.Returns machine answer after) :
    machine.log.toList <+: after.log.toList ∧ (∀ depth, Run.Accountable (Run.calls depth)) ∧
      ∃ invocations events, Course machine invocations after ∧
        request.Replies machine invocations.replies after ∧
        Told machine after events ∧ events.filter Event.isTriggering = invocations.trace ∧
        after.log.toList = machine.log.toList ++ invocations.records ∧
        (invocations.Unfailing →
          List.Forall₂ after.Records invocations.firedReplies invocations.records) := by
  obtain ⟨_, ⟨invocations, course, rfl⟩, replies⟩ := returns.recounted runs
  obtain ⟨events, told, traced⟩ := course.recounts.told
  have logged := course.recounts.log
  exact ⟨⟨_, logged.symm⟩, Run.accountable_calls, invocations, events, course,
    replies, told, traced,
    logged, course.records⟩

/-- A station with a platform and a signal; whoever boards the train clears the signal first, and
gets a seat in the train. -/
def stationRequests : List Request :=
  [.construct (.createState (.plain "station")), .construct (.addState ⟨3⟩),
    .construct (.appendRegion ⟨3⟩), .construct (.appendRegion ⟨3⟩),
    .construct (.createState (.plain "platform")), .construct (.regionAddState ⟨1⟩ ⟨8⟩),
    .construct (.createState (.plain "train")), .construct (.regionAddState ⟨1⟩ ⟨9⟩),
    .construct (.appendRegion ⟨9⟩),
    .construct (.createState (.plain "seat")), .construct (.regionAddState ⟨3⟩ ⟨12⟩),
    .construct (.createState (.plain "red")), .construct (.regionAddState ⟨2⟩ ⟨13⟩),
    .construct (.createState (.plain "green")), .construct (.regionAddState ⟨2⟩ ⟨14⟩),
    .construct (.createTransition (.initial "station")), .construct (.addTransition ⟨0⟩),
    .construct (.createTransition (.initial "platform")),
    .construct (.regionAddTransition ⟨1⟩ ⟨1⟩),
    .construct (.createTransition (.initial "red")),
    .construct (.regionAddTransition ⟨2⟩ ⟨2⟩),
    .construct (.createTransition (.initial "seat")),
    .construct (.regionAddTransition ⟨3⟩ ⟨3⟩),
    .construct (.createTransition
      { TransitionDefinition.simple "board" "platform" "train" with
          effect := some (firing "clear") }),
    .construct (.regionAddTransition ⟨1⟩ ⟨4⟩),
    .construct (.createTransition (.simple "clear" "red" "green")),
    .construct (.regionAddTransition ⟨2⟩ ⟨5⟩), .start]

def station : Machine :=
  Request.outcome 8 stationRequests (Machine.new "station" (.ofStem "auto"))

def stationBoarded : Machine :=
  Request.outcome 8 [.triggerNamed "board" .null] station

def stationEvents : List Event :=
  stationBoarded.journal.toList.drop station.journal.size

private theorem station_plays :
    (Request.play 8 stationRequests (Machine.new "station" (.ofStem "auto"))).isSome = true ∧
      (Request.play 8 [.triggerNamed "board" .null] station).isSome = true ∧
      stationBoarded.journal.toList = station.journal.toList ++ stationEvents ∧
      stationEvents.countP Event.isSettlement = stationEvents.countP Event.isRequest ∧
      stationBoarded.log.toList = station.log.toList ++
        [⟨"clear", "red", "green", false⟩, ⟨"board", "platform", "train", false⟩,
          ⟨"auto-3", "train-region-0-initial-pseudo", "seat", false⟩] := by
  decide +kernel

/-- The signal is cleared by the effect, the seat is taken when the train is entered. -/
theorem station_firings_logged :
    station.Reached anyTerms ∧
      (Request.triggerNamed "board" .null).Returns station (.ok ()) stationBoarded ∧
      ∃ invocations, Course station invocations stationBoarded ∧ invocations.Unfailing ∧
        (Request.triggerNamed "board" .null).Replies station invocations.replies stationBoarded ∧
        List.Forall₂ stationBoarded.Records invocations.firedReplies
          [⟨"clear", "red", "green", false⟩, ⟨"board", "platform", "train", false⟩,
            ⟨"auto-3", "train-region-0-initial-pseudo", "seat", false⟩] := by
  obtain ⟨builds, plays, told, settled, appended⟩ := station_plays
  have returns : (Request.triggerNamed "board" .null).Returns station (.ok ()) stationBoarded :=
    returns_outcome plays
  obtain ⟨-, -, invocations, events, course, replies, alsoTold, traced, logged, recorded⟩ :=
    firings_logged rfl returns
  have same : events = stationEvents := Told.unique alsoTold told
  rw [same] at traced
  have unfailing := (invocations.unfailing_iff_settled traced).mpr settled
  have records := List.append_cancel_left (logged.symm.trans appended)
  refine ⟨⟨"station", .ofStem "auto", (session_outcome builds).weaken fun _ _ _ _ _ => trivial⟩,
    returns, invocations, course, unfailing, replies, ?_⟩
  rw [← records]
  exact recorded unfailing

end Machine

end Chart
