import Chart.Proofs.Run.Contract
import Chart.Proofs.Run.PlanPlaces

set_option autoImplicit false

/-!
The triggers of a run and what they answer. Triggers nest: each is asked for, makes triggers of its
own while states are left, while its effect runs and while states are entered, and replies with an
outcome or an error. The firing of a transition is recorded between its effect and the entry of its
target, so it comes after the firings of the former and before those of the latter.
-/

namespace Chart

namespace Event

/-- Tells that a transition was asked for, recorded or settled. -/
def isTriggering : Event → Bool
  | .requested _ | .recorded _ _ | .settled _ _ => true
  | _ => false

def isRequest : Event → Bool
  | .requested _ => true
  | _ => false

def isSettlement : Event → Bool
  | .settled _ _ => true
  | _ => false

private theorem isTriggering_of_isRequest {event : Event} (asks : event.isRequest = true) :
    event.isTriggering = true := by
  cases event with
  | requested _ => rfl
  | _ => cases asks

private theorem isTriggering_of_isSettlement {event : Event} (settles : event.isSettlement = true) :
    event.isTriggering = true := by
  cases event with
  | settled _ _ => rfl
  | _ => cases settles

private theorem countP_isTriggering {tells : Event → Bool}
    (triggering : ∀ {event}, tells event = true → event.isTriggering = true) (events : List Event) :
    (events.filter isTriggering).countP tells = events.countP tells := by
  rw [List.countP_filter]
  refine List.countP_congr fun event _ => ?_
  rw [Bool.and_eq_true]
  exact ⟨And.left, fun isTold => ⟨isTold, triggering isTold⟩⟩

private theorem isTriggering_of_unmarked {event : Event} (unmarked : event.isMilestone = false) :
    event.isTriggering = false := by
  cases event with
  | requested _ | recorded _ _ | settled _ _ => cases unmarked
  | _ => rfl

end Event

structure Reply where
  transition : TransitionId
  answer : Except MachineError Outcome

namespace Reply

def isOk (reply : Reply) : Bool :=
  reply.answer.isOk

/-- The trigger returned that the transition fired or that it ran its effect only. -/
def hasFired (reply : Reply) : Bool :=
  match reply.answer with
  | .ok outcome => outcome.hasFired
  | .error _ => false

def settlement (reply : Reply) : List Event :=
  match reply.answer with
  | .ok outcome => [.settled reply.transition outcome]
  | .error _ => []

end Reply

/-- Triggers one after the other, each with those made inside it, up to the moment its firing is
recorded and from then on. -/
inductive Invocations
  | none
  | invoked (reply : Reply) (firing : Option Firing) (early late later : Invocations)

namespace Invocations

def append : Invocations → Invocations → Invocations
  | .none, others => others
  | .invoked reply firing early late later, others =>
      .invoked reply firing early late (later.append others)

/-- What the outermost triggers returned, one after the other. -/
def replies : Invocations → List Reply
  | .none => []
  | .invoked reply _ _ _ later => reply :: later.replies

/-- What all triggers returned, each in the place of its firing. -/
def allReplies : Invocations → List Reply
  | .none => []
  | .invoked reply _ early late later =>
      early.allReplies ++ reply :: late.allReplies ++ later.allReplies

/-- The firings in the order in which the effects finished. -/
def records : Invocations → List Firing
  | .none => []
  | .invoked _ firing early late later =>
      early.records ++ firing.toList ++ late.records ++ later.records

def trace : Invocations → List Event
  | .none => []
  | .invoked reply firing early late later =>
      .requested reply.transition :: early.trace ++
        firing.toList.map (.recorded reply.transition) ++ late.trace ++
        reply.settlement ++ later.trace

def Unfailing (invocations : Invocations) : Prop :=
  ∀ reply ∈ invocations.allReplies, reply.isOk = true

private theorem countP_isRequest_trace (invocations : Invocations) :
    invocations.trace.countP Event.isRequest = invocations.allReplies.length := by
  induction invocations with
  | none => rfl
  | invoked reply firing early late later ihEarly ihLate ihLater =>
      cases firing <;> cases answered : reply.answer <;>
        simp [trace, allReplies, Reply.settlement, answered, List.countP_cons,
          Event.isRequest, ihEarly,
          ihLate, ihLater] <;> omega

private theorem countP_isSettlement_trace (invocations : Invocations) :
    invocations.trace.countP Event.isSettlement = invocations.allReplies.countP Reply.isOk := by
  induction invocations with
  | none => rfl
  | invoked reply firing early late later ihEarly ihLate ihLater =>
      cases firing <;> cases answered : reply.answer <;>
        simp [trace, allReplies, Reply.settlement, Reply.isOk, Except.isOk, Except.toBool, answered,
          List.countP_cons, Event.isSettlement, ihEarly, ihLate, ihLater] <;> omega

theorem unfailing_iff_settled (invocations : Invocations) {events : List Event}
    (told : events.filter Event.isTriggering = invocations.trace) :
    invocations.Unfailing ↔ events.countP Event.isSettlement = events.countP Event.isRequest := by
  rw [← Event.countP_isTriggering Event.isTriggering_of_isSettlement,
    ← Event.countP_isTriggering Event.isTriggering_of_isRequest, told, countP_isRequest_trace,
    countP_isSettlement_trace]
  exact List.countP_eq_length.symm

/-- What the triggers returned that had their effect run. -/
def firedReplies (invocations : Invocations) : List Reply :=
  invocations.allReplies.filter Reply.hasFired

@[simp] theorem firedReplies_none : none.firedReplies = [] := rfl

section Append

variable (early late : Invocations)

private theorem replies_append : (early.append late).replies = early.replies ++ late.replies := by
  induction early with
  | none => rfl
  | invoked reply firing _ _ later _ _ ih => simp [append, replies, ih]

private theorem allReplies_append :
    (early.append late).allReplies = early.allReplies ++ late.allReplies := by
  induction early with
  | none => rfl
  | invoked reply firing _ _ later _ _ ih => simp [append, allReplies, ih]

private theorem records_append : (early.append late).records = early.records ++ late.records := by
  induction early with
  | none => rfl
  | invoked reply firing _ _ later _ _ ih => simp [append, records, ih]

private theorem trace_append : (early.append late).trace = early.trace ++ late.trace := by
  induction early with
  | none => rfl
  | invoked reply firing _ _ later _ _ ih => simp [append, trace, ih]

private theorem firedReplies_append :
    (early.append late).firedReplies = early.firedReplies ++ late.firedReplies := by
  unfold firedReplies
  rw [allReplies_append, List.filter_append]

private theorem firedReplies_invoked (reply : Reply) (firing : Option Firing)
    (later : Invocations) :
    (invoked reply firing early late later).firedReplies = early.firedReplies ++
      [reply].filter Reply.hasFired ++ late.firedReplies ++ later.firedReplies := by
  have split : (invoked reply firing early late later).allReplies =
      early.allReplies ++ [reply] ++ late.allReplies ++ later.allReplies := by
    simp [allReplies]
  unfold firedReplies
  rw [split, List.filter_append, List.filter_append, List.filter_append]

private theorem unfailing_append : (early.append late).Unfailing ↔ early.Unfailing ∧
    late.Unfailing := by
  unfold Unfailing
  rw [allReplies_append]
  exact List.forall_mem_append

private theorem unfailing_invoked (reply : Reply) (firing : Option Firing) (later : Invocations) :
    (invoked reply firing early late later).Unfailing ↔
      early.Unfailing ∧ reply.isOk = true ∧ late.Unfailing ∧ later.Unfailing := by
  simp only [Unfailing, allReplies, List.forall_mem_append, List.forall_mem_cons, and_assoc]

end Append

end Invocations

/-- The transition that is meant, if names stand for these transitions. -/
def TransitionReference.resolve? (find : String → Option TransitionId) :
    TransitionReference → Option TransitionId
  | .handle id => some id
  | .name text => find text

/-- A behaviour that ends has requested these triggers and was told what they returned. A name that
stands for no transition is refused, and nothing is triggered. -/
inductive Behavior.Receives (find : String → Option TransitionId) : Behavior → List Reply → Prop
  | done : Receives find .done []
  | fail (error : MachineError) : Receives find (.fail error) []
  | note {text : String} {next : Behavior} {replies : List Reply}
    (rest : Receives find next replies) :
      Receives find (.note text next) replies
  | look {next : View → Behavior} {replies : List Reply} (view : View)
      (rest : Receives find (next view) replies) : Receives find (.look next) replies
  | write {key : String} {value : Value} {next : Option Value → Behavior} {replies : List Reply}
      (old : Option Value) (rest : Receives find (next old) replies) :
      Receives find (.write key value next) replies
  | fire {reference : TransitionReference} {memo : Value}
      {next : Except MachineError Outcome → Behavior} {replies : List Reply} {reply : Reply}
      (meant : reference.resolve? find = some reply.transition)
      (rest : Receives find (next reply.answer) replies) :
      Receives find (.fire reference memo next) (reply :: replies)
  | unknown {name : String} {memo : Value} {next : Except MachineError Outcome → Behavior}
      {replies : List Reply} (unknown : find name = none)
      (rest : Receives find
        (next (.error (.configuration (.unknownTransitionName name)))) replies) :
      Receives find (.fire (.name name) memo next) replies

/-- The effect of the transition, if it has one, requests these triggers. -/
def Transition.Receives (transition : Transition)
    (find : String → Option TransitionId) (memo : Value)
    (replies : List Reply) : Prop :=
  match transition.effect with
  | none => replies = []
  | some effect => (effect memo).Receives find replies

namespace Machine

/-- What is recorded of a transition that fires between these endpoints. -/
def firingOf (machine : Machine) (transition : Transition) (ends : Endpoints) : Firing :=
  { transition := transition.name
    source := machine.stateName ends.source
    target := machine.stateName (if transition.internal then ends.source else ends.target)
    internal := transition.internal }

/-- The triggers are what leads from the one machine to the other. Between them nothing is asked
for, recorded or settled. Each was run as it says, and what it returned is what running it returns;
inside it are the exit of the source, the effect and the entry of the target as they were run, up to
where it failed if it did. -/
inductive Course : Machine → Invocations → Machine → Prop
  | nothing {before after : Machine} (passes : Passes Event.isTriggering before after) :
      Course before .none after
  | declined {before asked declined after : Machine} {id : TransitionId} {outcome : Outcome}
      {memo : Value} {depth : Nat} {later : Invocations}
      (still : Passes Event.isTriggering before asked)
      (passes : Passes Event.isTriggering (asked.note (.requested id)) declined)
      (unfired : outcome.hasFired = false)
      (returns : Run.trigger (Run.calls depth) id memo asked =
        .ok outcome (declined.note (.settled id outcome)))
      (rest : Course (declined.note (.settled id outcome)) later after) :
      Course before (.invoked ⟨id, .ok outcome⟩ none .none .none later) after
  | internal {before asked ready acted after : Machine} {id : TransitionId}
      {transition : Transition} {ends : Endpoints} {memo : Value} {depth : Nat}
      {acting later : Invocations} (still : Passes Event.isTriggering before asked)
      (found : asked.transition? id = some transition) (resolved : asked.endpoints id = .ok ends)
      (isInternal : transition.internal = true)
      (passes : Passes Event.isTriggering (asked.note (.requested id)) ready)
      (acts : Run.runEffect (Run.calls depth) transition ends.source memo ready = .ok () acted)
      (within : Course ready acting acted)
      (receives : transition.Receives asked.findTransition? memo acting.replies)
      (returns : Run.trigger (Run.calls depth) id memo asked = .ok .internal
        ((acted.recorded id (asked.firingOf transition ends)).note (.settled id .internal)))
      (rest : Course ((acted.recorded id (asked.firingOf transition ends)).note
        (.settled id .internal)) later after) :
      Course before (.invoked ⟨id, .ok .internal⟩ (some (asked.firingOf transition ends)) acting
        .none later) after
  | external {before asked ready gone acted entered after : Machine} {id : TransitionId}
      {transition : Transition} {ends : Endpoints} {memo : Value} {depth : Nat}
      {leaving acting entering later : Invocations}
      (still : Passes Event.isTriggering before asked)
      (found : asked.transition? id = some transition) (resolved : asked.endpoints id = .ok ends)
      (isExternal : transition.internal = false)
      (passes : Passes Event.isTriggering (asked.note (.requested id)) ready)
      (leaves : Run.exit (Run.calls depth) ends.source ready = .ok () gone)
      (exits : Course ready leaving gone)
      (acts : Run.runEffect (Run.calls depth) transition ends.source memo gone = .ok () acted)
      (within : Course gone acting acted)
      (receives : transition.Receives asked.findTransition? memo acting.replies)
      (enters : Run.enterTarget (Run.calls depth) ends
        (acted.recorded id (asked.firingOf transition ends)) = .ok () entered)
      (cascades : Course (acted.recorded id (asked.firingOf transition ends)) entering entered)
      (returns : Run.trigger (Run.calls depth) id memo asked =
        .ok .fired (entered.note (.settled id .fired)))
      (rest : Course (entered.note (.settled id .fired)) later after) :
      Course before (.invoked ⟨id, .ok .fired⟩ (some (asked.firingOf transition ends))
        (leaving.append acting) entering later) after
  | failed {before asked gone after : Machine} {id : TransitionId} {error : MachineError}
      {memo : Value} {depth : Nat} {early later : Invocations}
      (still : Passes Event.isTriggering before asked)
      (inside : Course (asked.note (.requested id)) early gone)
      (fails : Run.trigger (Run.calls depth) id memo asked = .error (.error error) gone)
      (rest : Course gone later after) :
      Course before (.invoked ⟨id, .error error⟩ none early .none later) after
  | failedEntering {before asked acted gone after : Machine} {id : TransitionId}
      {transition : Transition} {ends : Endpoints} {error : MachineError} {memo : Value}
      {depth : Nat} {early entering later : Invocations}
      (still : Passes Event.isTriggering before asked)
      (found : asked.transition? id = some transition) (resolved : asked.endpoints id = .ok ends)
      (isExternal : transition.internal = false)
      (inside : Course (asked.note (.requested id)) early acted)
      (enters : Run.enterTarget (Run.calls depth) ends
        (acted.recorded id (asked.firingOf transition ends)) = .error (.error error) gone)
      (cascades : Course (acted.recorded id (asked.firingOf transition ends)) entering gone)
      (fails : Run.trigger (Run.calls depth) id memo asked = .error (.error error) gone)
      (rest : Course gone later after) :
      Course before (.invoked ⟨id, .error error⟩ (some (asked.firingOf transition ends)) early
        entering later) after

section Course

variable {before middle after : Machine} {early late invocations : Invocations}

theorem Course.refl (machine : Machine) : Course machine .none machine :=
  .nothing (Passes.refl machine)

theorem Course.preceded (passes : Passes Event.isTriggering before middle)
    (course : Course middle late after) : Course before late after := by
  cases course with
  | nothing later => exact .nothing (passes.trans later)
  | declined still declines unfired returns rest =>
      exact .declined (passes.trans still) declines unfired returns rest
  | internal still found resolved isInternal readies acts within receives returns rest =>
      exact .internal (passes.trans still) found resolved isInternal readies acts within
        receives returns
        rest
  | external still found resolved isExternal readies leaves exits acts within receives
    enters cascades
      returns rest =>
      exact .external (passes.trans still) found resolved isExternal readies leaves
        exits acts within
        receives enters cascades returns rest
  | failed still inside fails rest => exact .failed (passes.trans still) inside fails rest
  | failedEntering still found resolved isExternal inside enters cascades fails rest =>
      exact .failedEntering (passes.trans still) found resolved isExternal inside
        enters cascades fails
        rest

private theorem Course.append (first : Course before early middle)
    (second : Course middle late after) :
    Course before (early.append late) after := by
  induction first with
  | nothing passes => exact second.preceded passes
  | declined still declines unfired returns _ ih =>
      exact .declined still declines unfired returns (ih second)
  | internal still found resolved isInternal readies acts within receives returns _ _ ih =>
      exact .internal still found resolved isInternal readies acts within receives
        returns (ih second)
  | external still found resolved isExternal readies leaves exits acts within receives
    enters cascades
      returns _ _ _ _ ih =>
      exact .external still found resolved isExternal readies leaves exits acts within
        receives enters
        cascades returns (ih second)
  | failed still inside fails _ _ ih => exact .failed still inside fails (ih second)
  | failedEntering still found resolved isExternal inside enters cascades fails _ _ _ ih =>
      exact .failedEntering still found resolved isExternal inside enters cascades fails (ih second)

/-! ### What a course tells and records -/

/-- The chart stays, the log grows by the records, and of the triggers this is told. -/
structure Recounts (before after : Machine) (trace : List Event)
    (records : List Firing) : Prop where
  same : SameChart before after
  log : after.log.toList = before.log.toList ++ records
  told : ∃ events, Told before after events ∧ events.filter Event.isTriggering = trace

theorem Recounts.trans {earlier later : List Event} {first second : List Firing}
    (one : Recounts before middle earlier first) (other : Recounts middle after later second) :
    Recounts before after (earlier ++ later) (first ++ second) where
  same := one.same.trans other.same
  log := by rw [other.log, one.log, List.append_assoc]
  told := by
    obtain ⟨early, toldEarly, rfl⟩ := one.told
    obtain ⟨late, toldLate, rfl⟩ := other.told
    exact ⟨early ++ late, toldEarly.trans toldLate, List.filter_append ..⟩

private theorem Passes.recounts (passes : Passes Event.isTriggering before after) :
    Recounts before after [] [] where
  same := passes.same
  log := by rw [passes.log, List.append_nil]
  told := by
    obtain ⟨events, told, unmarked⟩ := passes.told
    refine ⟨events, told, List.filter_eq_nil_iff.mpr fun event member => ?_⟩
    simp [unmarked event member]

private theorem recounts_note (machine : Machine) (event : Event)
    (triggering : event.isTriggering = true) :
    Recounts machine (machine.note event) [event] [] where
  same := sameChart_note machine event
  log := (List.append_nil _).symm
  told := ⟨[event], told_note machine event, by simp [triggering]⟩

private theorem recounts_recorded (machine : Machine) (id : TransitionId) (firing : Firing) :
    Recounts machine (machine.recorded id firing) [.recorded id firing] [firing] where
  same := SameChart.of_stores rfl rfl rfl
  log := Array.toList_push
  told := ⟨[.recorded id firing], told_note _ (.recorded id firing), rfl⟩

private theorem recounts_asked {asked ready : Machine} {id : TransitionId}
    (still : Passes Event.isTriggering before asked)
    (passes : Passes Event.isTriggering (asked.note (.requested id)) ready) :
    Recounts before ready [.requested id] [] :=
  (still.recounts.trans (recounts_note asked _ rfl)).trans passes.recounts

theorem Course.recounts (course : Course before invocations after) :
    Recounts before after invocations.trace invocations.records := by
  induction course with
  | nothing passes => exact passes.recounts
  | declined still declines _ _ _ ih =>
      exact ((recounts_asked still declines).trans (recounts_note _ _ rfl)).trans ih
  | @internal _ asked _ acted _ id transition ends _ _ acting later still _ _ _ passes _ _ _ _ _
      ihActing ih =>
      have recorded := recounts_recorded acted id (asked.firingOf transition ends)
      have settled := recounts_note (acted.recorded id (asked.firingOf transition ends))
        (.settled id .internal) rfl
      simpa [Invocations.trace, Invocations.records, Reply.settlement] using
        (recounts_asked still passes).trans (ihActing.trans ((recorded.trans settled).trans ih))
  | @external _ asked _ _ acted entered _ id transition ends _ _ leaving acting entering later still
      _ _ _ passes _ _ _ _ _ _ _ _ _ ihLeaving ihActing ihEntering ih =>
      have recorded := recounts_recorded acted id (asked.firingOf transition ends)
      have settled := recounts_note entered (.settled id .fired) rfl
      simpa [Invocations.trace, Invocations.records, Invocations.trace_append,
        Invocations.records_append, Reply.settlement] using
        (recounts_asked still passes).trans (ihLeaving.trans
          (ihActing.trans (recorded.trans (ihEntering.trans (settled.trans ih)))))
  | @failed _ asked _ _ id _ _ _ early later still _ _ _ ihInside ih =>
      simpa [Invocations.trace, Invocations.records, Reply.settlement] using
        (still.recounts.trans (recounts_note asked (.requested id) rfl)).trans
          (ihInside.trans ih)
  | @failedEntering _ asked acted _ _ id transition ends _ _ _ early entering later
    still _ _ _ _ _ _
      _ _ ihInside ihEntering ih =>
      have recorded := recounts_recorded acted id (asked.firingOf transition ends)
      simpa [Invocations.trace, Invocations.records, Reply.settlement] using
        (still.recounts.trans (recounts_note asked (.requested id) rfl)).trans
          (ihInside.trans (recorded.trans (ihEntering.trans ih)))

/-- The record is that of the transition, with the names of what its source and its target resolve
to, and with the answer that the trigger gave. -/
def Records (machine : Machine) (reply : Reply) (firing : Firing) : Prop :=
  ∃ transition ends, machine.transition? reply.transition = some transition ∧
    machine.Connects reply.transition ends ∧ firing = machine.firingOf transition ends ∧
    reply.answer = .ok (if transition.internal then .internal else .fired)

private theorem Records.of_sameChart {reply : Reply} {firing : Firing}
    (records : before.Records reply firing)
    (same : SameChart before after) : after.Records reply firing := by
  obtain ⟨transition, ends, found, connects, recorded, answered⟩ := records
  refine ⟨transition, ends, same.kept _ transition found, connects.of_sameChart same, ?_, answered⟩
  rw [recorded]
  unfold firingOf
  rw [same.stateName, same.stateName]

/-- If no trigger fails, the records are those of the triggers that returned that their transition
fired, one for each and in the order in which the effects finished. By induction on the course: what
was recorded earlier is recorded of the same chart. -/
theorem Course.records (course : Course before invocations after)
    (unfailing : invocations.Unfailing) :
    List.Forall₂ after.Records invocations.firedReplies invocations.records := by
  have later {machine machine' : Machine} {replies : List Reply} {firings : List Firing}
      (same : SameChart machine machine')
      (recorded : List.Forall₂ machine.Records replies firings) :
      List.Forall₂ machine'.Records replies firings :=
    recorded.imp fun _ _ records => records.of_sameChart same
  induction course with
  | nothing passes => exact .nil
  | declined _ _ unfired _ _ ih =>
      obtain ⟨-, -, -, rest⟩ := (Invocations.unfailing_invoked ..).mp unfailing
      rw [Invocations.firedReplies_invoked]
      simpa [Reply.hasFired, unfired, Invocations.records] using ih rest
  | @internal _ asked _ acted after id transition ends _ _ acting _ _ found resolved isInternal
      passes _ within _ _ rest ihActing ih =>
      obtain ⟨unfailingActing, -, -, unfailingRest⟩ :=
        (Invocations.unfailing_invoked ..).mp unfailing
      have own : asked.Records ⟨id, .ok .internal⟩ (asked.firingOf transition ends) :=
        ⟨transition, ends, found, connects_of_endpoints resolved, rfl, by simp [isInternal]⟩
      have acts : SameChart asked acted :=
        ((sameChart_note asked _).trans passes.same).trans within.recounts.same
      have rests : SameChart acted after :=
        ((recounts_recorded acted id _).same.trans (sameChart_note _ _)).trans rest.recounts.same
      rw [Invocations.firedReplies_invoked]
      exact List.rel_append
        (List.rel_append (List.rel_append (later rests (ihActing unfailingActing))
        (.cons (own.of_sameChart (acts.trans rests)) .nil)) .nil) (ih unfailingRest)
  | @external _ asked _ gone acted entered after id transition ends _ _ leaving acting _ _ _ found
      resolved isExternal passes _ exits _ within _ _ cascades _ rest ihLeaving ihActing ihEntering
      ih =>
      obtain ⟨early, -, unfailingEntering, unfailingRest⟩ :=
        (Invocations.unfailing_invoked ..).mp unfailing
      obtain ⟨unfailingLeaving, unfailingActing⟩ := (Invocations.unfailing_append ..).mp early
      have own : asked.Records ⟨id, .ok .fired⟩ (asked.firingOf transition ends) :=
        ⟨transition, ends, found, connects_of_endpoints resolved, rfl, by simp [isExternal]⟩
      have leaves : SameChart asked gone :=
        ((sameChart_note asked _).trans passes.same).trans exits.recounts.same
      have rests : SameChart entered after := (sameChart_note _ _).trans rest.recounts.same
      have enters : SameChart acted after :=
        ((recounts_recorded acted id _).same.trans cascades.recounts.same).trans rests
      have acts : SameChart gone after := within.recounts.same.trans enters
      rw [Invocations.firedReplies_invoked, Invocations.firedReplies_append]
      refine List.rel_append (List.rel_append (List.rel_append ?_ ?_) ?_) (ih unfailingRest)
      · rw [Invocations.records_append]
        exact List.rel_append (later acts (ihLeaving unfailingLeaving))
          (later enters (ihActing unfailingActing))
      · exact .cons (own.of_sameChart (leaves.trans acts)) .nil
      · exact later rests (ihEntering unfailingEntering)
  | failed _ _ _ _ _ _ => cases ((Invocations.unfailing_invoked ..).mp unfailing).2.1
  | failedEntering _ _ _ _ _ _ _ _ _ _ _ _ =>
      cases ((Invocations.unfailing_invoked ..).mp unfailing).2.1

end Course

/-- There is a course whose outermost triggers returned this. -/
def Recounted (before : Machine) (replies : List Reply) (after : Machine) : Prop :=
  ∃ invocations, Course before invocations after ∧ invocations.replies = replies

section Recounted

variable {before middle after : Machine} {early late : List Reply}

private theorem Passes.recounted (passes : Passes Event.isTriggering before after) :
    Recounted before [] after :=
  ⟨.none, .nothing passes, rfl⟩

theorem Recounted.trans (first : Recounted before early middle)
    (second : Recounted middle late after) : Recounted before (early ++ late) after := by
  obtain ⟨_, one, rfl⟩ := first
  obtain ⟨_, other, rfl⟩ := second
  exact ⟨_, one.append other, Invocations.replies_append _ _⟩

end Recounted

end Machine

namespace Run

open Machine (Passes Course Recounted)

/-! ### Callbacks that do anything -/

/-- Callbacks may do anything; however an operation ends, what it did was a course. -/
def recounting : Contract where
  permits := fun _ => True
  finished := fun before after => ∃ invocations, Course before invocations after
  halted := fun halt before after =>
    halt = .exhausted ∨ ∃ invocations, Course before invocations after

private theorem lawful_recounting : recounting.Lawful where
  same := fun ⟨_, course⟩ => course.recounts.same
  passes := fun passes => ⟨.none, .nothing (passes.mono fun _ => Event.isTriggering_of_unmarked)⟩
  trans := fun ⟨_, early⟩ ⟨_, late⟩ => ⟨_, early.append late⟩
  halts := fun ⟨_, early⟩ halted => halted.imp_right fun ⟨_, late⟩ => ⟨_, early.append late⟩
  exhausted := fun _ => Or.inl rfl
  misused := fun machine _ => Or.inr ⟨.none, Course.refl machine⟩
  misconfigured := fun machine error => Or.inr ⟨.none, .nothing
    (@Passes.note Event.isTriggering machine (.notice (.misconfiguration error)) rfl)⟩

private theorem lenient_recounting : recounting.discipline.Lenient where
  failed := fun _ _ => Or.inr ⟨.none, Course.refl _⟩
  caught := fun halted => halted.resolve_left (by simp)
  written := fun key value _ => lawful_recounting.written key value

theorem sound_recounting : recounting.Sound :=
  { lawful_recounting with
    behave := fun kept state behavior _ =>
      Discipline.kept_behave lawful_recounting.discipline lenient_recounting kept.trigger
      state behavior }

theorem abides_recounting (machine : Machine) : machine.Abides recounting.permits :=
  ⟨fun _ _ _ _ _ => trivial, fun _ _ _ _ _ _ => trivial⟩

private theorem ends_recounted {Answer : Type} {run : Run Answer} (kept : recounting.Kept run)
    (machine : Machine) :
    Ends run machine
      (fun answer after => (∃ invocations, Course machine invocations after) ∧
        run machine = .ok answer after)
      fun halt after => (halt = .exhausted ∨ ∃ invocations, Course machine invocations after) ∧
        run machine = .error halt after :=
  Ends.and (kept machine (abides_recounting machine)) (ends_self _ machine)

/-! ### What triggers return -/

/-- A trigger is the one outermost trigger of what it does, with the answer that it gives. -/
def Answering (calls : Calls) : Prop :=
  ∀ id memo machine answer after, attempt (calls.trigger id memo) machine = .ok answer after →
    Recounted machine [⟨id, answer⟩] after

/-- What was done and what the triggers returned to the behaviour. -/
def RecountedBy (behavior : Behavior) (before after : Machine) : Prop :=
  ∃ replies, Recounted before replies after ∧ behavior.Receives before.findTransition? replies

private theorem RecountedBy.after {behavior next : Behavior} {before middle after : Machine}
    {replies : List Reply} (recountedBy : RecountedBy next middle after)
    (earlier : Recounted before replies middle)
    (receives : ∀ rest, next.Receives before.findTransition? rest →
      behavior.Receives before.findTransition? (replies ++ rest)) : RecountedBy behavior
      before after := by
  obtain ⟨rest, recounted, receivesRest⟩ := recountedBy
  have same : middle.findTransition? = before.findTransition? := by
    obtain ⟨_, course, -⟩ := earlier
    exact funext course.recounts.same.findTransition?
  rw [same] at receivesRest
  exact ⟨_, earlier.trans recounted, receives rest receivesRest⟩

theorem Answering.named {calls : Calls} (answering : Answering calls) {name : String} {memo : Value}
    {machine after : Machine} {answer : Except MachineError Outcome}
    (returns : attempt (calls.triggerNamed name memo) machine = .ok answer after) :
    (∃ id, machine.findTransition? name = some id ∧ Recounted machine [⟨id, answer⟩] after) ∨
      machine.findTransition? name = none ∧ Recounted machine [] after ∧
        answer = .error (.configuration (.unknownTransitionName name)) := by
  cases known : machine.findTransition? name with
  | some id =>
      have triggers : calls.triggerNamed name memo machine = calls.trigger id memo machine := by
        refine eq_of_ends fun finished failed => ?_
        unfold Calls.triggerNamed
        rw [ends_bind, ends_get, known]
      unfold attempt at returns
      rw [triggers] at returns
      exact Or.inl ⟨id, rfl, answering id memo machine answer after returns⟩
  | none =>
      have refuses : calls.triggerNamed name memo machine =
          Run.fail (.unknownTransitionName name) machine := by
        refine eq_of_ends fun finished failed => ?_
        unfold Calls.triggerNamed
        rw [ends_bind, ends_get, known]
      unfold attempt at returns
      rw [refuses] at returns
      cases returns
      exact Or.inr ⟨rfl, (Passes.note machine rfl).recounted, rfl⟩

private theorem Answering.reference {calls : Calls} (answering : Answering calls)
    {reference : TransitionReference} {memo : Value} {machine after : Machine}
    {answer : Except MachineError Outcome} (next : Except MachineError Outcome → Behavior)
    (returns : attempt (calls.triggerReference reference memo) machine = .ok answer after) :
    ∃ replies, Recounted machine replies after ∧ ∀ rest,
      (next answer).Receives machine.findTransition? rest →
        (Behavior.fire reference memo next).Receives machine.findTransition? (replies ++ rest) := by
  cases reference with
  | handle id =>
      exact ⟨_, answering id memo machine answer after returns, fun _ receives =>
        .fire rfl receives⟩
  | name name =>
      rcases answering.named returns with ⟨id, known, recounted⟩ | ⟨unknown, recounted, rfl⟩
      · exact ⟨_, recounted, fun _ receives => .fire known receives⟩
      · exact ⟨_, recounted, fun _ receives => .unknown unknown receives⟩

/-- A behaviour is told what the triggers returned that it requests; by induction on the behaviour.
-/
theorem ends_behave_recountedBy {calls : Calls} (answering : Answering calls) (state : StateId)
    (behavior : Behavior) (machine : Machine) :
    Ends (behave calls state behavior) machine (fun _ after => RecountedBy behavior machine after)
      fun halt after => halt = .exhausted ∨ RecountedBy behavior machine after := by
  induction behavior generalizing machine with
  | done => exact ⟨[], (Passes.refl machine).recounted, .done⟩
  | fail error => exact Or.inr ⟨[], (Passes.refl machine).recounted, .fail error⟩
  | note text next ih =>
      have later {after : Machine}
        (recountedBy : RecountedBy next (machine.note (.note text)) after) :
          RecountedBy (.note text next) machine after :=
        recountedBy.after (Passes.note machine rfl).recounted fun _ receives => .note receives
      exact (ih (machine.note (.note text))).mono (fun _ _ recountedBy => later recountedBy)
        fun _ _ halted => halted.imp_right later
  | look next ih =>
      have later {after : Machine}
        (recountedBy : RecountedBy (next (machine.view state)) machine after) :
          RecountedBy (.look next) machine after :=
        recountedBy.after (Passes.refl machine).recounted fun _ receives => .look _ receives
      exact (ih (machine.view state) machine).mono (fun _ _ recountedBy => later recountedBy)
        fun _ _ halted => halted.imp_right later
  | write key value next ih =>
      have wrote : Passes Event.isTriggering machine (machine.set key value).2 :=
        Passes.modifyState machine machine.frames Machine.root _ fun _ => rfl
      have later {old : Option Value} {after : Machine}
          (recountedBy : RecountedBy (next old) (machine.set key value).2 after) :
          RecountedBy (.write key value next) machine after :=
        recountedBy.after wrote.recounted fun _ receives => .write old receives
      exact (ih (machine.set key value).1 (machine.set key value).2).mono
        (fun _ _ recountedBy => later recountedBy) fun _ _ halted => halted.imp_right later
  | fire reference memo next ih =>
      unfold behave
      rw [ends_bind]
      refine (ends_attempt_of fun _ _ => answering.reference next).mono ?_ fun _ _ => Or.inl
      rintro answer middle ⟨replies, earlier, receives⟩
      exact (ih answer middle).mono (fun _ _ recountedBy => recountedBy.after earlier receives)
        fun _ _ halted => halted.imp_right fun recountedBy => recountedBy.after earlier receives

/-! ### A trigger -/

section Trigger

variable {depth : Nat} {id : TransitionId} {memo : Value} {asked machine : Machine}
  {transition : Transition} {ends : Machine.Endpoints}

/-- If this is how the trigger returns, it is the one outermost trigger of what it did. -/
def TriggerReturns (depth : Nat) (id : TransitionId) (memo : Value) (asked : Machine)
    (outcome : Outcome) (after : Machine) : Prop :=
  trigger (calls depth) id memo asked = .ok outcome after →
    Recounted asked [⟨id, .ok outcome⟩] after

def TriggerSettles (depth : Nat) (id : TransitionId) (memo : Value) (asked : Machine)
    (outcome : Outcome) (after : Machine) : Prop :=
  TriggerReturns depth id memo asked outcome (after.note (.settled id outcome))

/-- If this is how the trigger fails, it is the one outermost trigger of what it did. -/
def TriggerFails (depth : Nat) (id : TransitionId) (memo : Value) (asked : Machine) (halt : Halt)
    (after : Machine) : Prop :=
  ∀ error, halt = .error error → trigger (calls depth) id memo asked = .error halt after →
    Recounted asked [⟨id, .error error⟩] after

private theorem triggerSettles_declined {outcome : Outcome}
    (passes : Passes Event.isTriggering (asked.note (.requested id)) machine)
    (unfired : outcome.hasFired = false) : TriggerSettles depth id memo asked outcome machine :=
  fun returns =>
    ⟨_, .declined (Passes.refl asked) passes unfired returns (Course.refl _), rfl⟩

private theorem triggerFails_inside {early : Invocations} {halt : Halt} {after : Machine}
    (inside : Course (asked.note (.requested id)) early after) :
    TriggerFails depth id memo asked halt after := by
  rintro error rfl fails
  exact ⟨_, .failed (Passes.refl asked) inside fails (Course.refl after), rfl⟩

private theorem triggerFails_after {early : Invocations} {halt : Halt} {after : Machine}
    (inside : Course (asked.note (.requested id)) early machine)
    (halted : halt = .exhausted ∨ ∃ invocations, Course machine invocations after) :
    TriggerFails depth id memo asked halt after := by
  rcases halted with rfl | ⟨invocations, course⟩
  · rintro error ⟨⟩
  · exact triggerFails_inside (inside.append course)

variable (answering : Answering (calls depth))
include answering

private theorem ends_runEffect_recountedBy (transition : Transition)
    (source : StateId) (memo : Value)
    (same : Machine.SameChart asked machine) :
    Ends (runEffect (calls depth) transition source memo) machine
      (fun _ after => ∃ acting, Course machine acting after ∧
        transition.Receives asked.findTransition? memo acting.replies ∧
        runEffect (calls depth) transition source memo machine = .ok () after)
      fun halt after => halt = .exhausted ∨ ∃ invocations, Course machine invocations after := by
  have recountedBy : Ends (runEffect (calls depth) transition source memo) machine
      (fun _ after => ∃ acting, Course machine acting after ∧
        transition.Receives asked.findTransition? memo acting.replies)
      fun halt after => halt = .exhausted ∨ ∃ invocations, Course machine invocations after := by
    unfold runEffect Transition.Receives
    cases transition.effect with
    | none => exact ⟨.none, Course.refl machine, rfl⟩
    | some effect =>
        rw [← funext same.findTransition?]
        refine (ends_behave_recountedBy answering source (effect memo) machine).mono ?_ ?_
        · rintro _ after ⟨_, ⟨acting, course, rfl⟩, receives⟩
          exact ⟨acting, course, receives⟩
        · exact fun _ _ halted => halted.imp_right fun ⟨_, ⟨acting, course, _⟩, _⟩ =>
            ⟨acting, course⟩
  refine (recountedBy.and (ends_self _ machine)).mono ?_ fun _ _ halted => halted.1
  rintro ⟨⟩ after ⟨⟨acting, course, receives⟩, acts⟩
  exact ⟨acting, course, receives, acts⟩

variable (kept : recounting.KeptBy (calls depth)) (found : asked.transition? id = some transition)
  (resolved : asked.endpoints id = .ok ends)
  (passes : Passes Event.isTriggering (asked.note (.requested id)) machine)
include found resolved passes

private theorem ends_fireInternal_recounted (isInternal : transition.internal = true) :
    Ends (fireInternal (calls depth) id transition ends.source (asked.stateName ends.source) memo)
      machine (TriggerSettles depth id memo asked) (TriggerFails depth id memo asked) := by
  have ready : Passes Event.isTriggering (asked.note (.requested id))
      (machine.note (.notice (.firingInternal id transition.name))) :=
    passes.trans (Passes.note machine rfl)
  have firing : asked.firingOf transition ends =
      ⟨transition.name, asked.stateName ends.source, asked.stateName ends.source, true⟩ := by
    simp [Machine.firingOf, isInternal]
  have same := (Machine.sameChart_note asked (.requested id)).trans ready.same
  unfold fireInternal
  rw [ends_bind, ends_report, ends_bind]
  refine (ends_runEffect_recountedBy answering transition ends.source memo same).mono ?_
    fun _ _ => triggerFails_after (.nothing ready)
  rintro ⟨⟩ acted ⟨acting, within, receives, acts⟩
  change TriggerSettles depth id memo asked .internal (acted.recorded id _)
  rw [← firing]
  exact fun returns => ⟨_, .internal (Passes.refl asked) found resolved isInternal ready acts within
    receives returns (Course.refl _), rfl⟩

include kept in
private theorem ends_fireExternal_recounted (isExternal : transition.internal = false) :
    Ends (fireExternal (calls depth) id transition ends (asked.stateName ends.source)
        (asked.stateName ends.target) memo) machine
      (TriggerSettles depth id memo asked) (TriggerFails depth id memo asked) := by
  have ready : Passes Event.isTriggering (asked.note (.requested id)) (machine.note
      (.notice (.firing id transition.name (asked.stateName ends.source)
        (asked.stateName ends.target)))) :=
    passes.trans (Passes.note machine rfl)
  have firing : asked.firingOf transition ends =
      ⟨transition.name, asked.stateName ends.source, asked.stateName ends.target, false⟩ := by
    simp [Machine.firingOf, isExternal]
  have same := (Machine.sameChart_note asked (.requested id)).trans ready.same
  apply ends_fireExternal_of
  rw [← firing]
  refine (ends_recounted (Discipline.kept_exit sound_recounting.discipline kept.toKeptBy
    ends.source) _).mono ?_ fun _ _ halted => triggerFails_after (.nothing ready) halted.1
  rintro ⟨⟩ gone ⟨⟨leaving, exits⟩, leaves⟩
  have left := Course.preceded ready exits
  refine (ends_runEffect_recountedBy answering transition ends.source memo
    (same.trans exits.recounts.same)).mono ?_ fun _ _ => triggerFails_after left
  rintro ⟨⟩ acted ⟨acting, within, receives, acts⟩
  have inside := left.append within
  refine (ends_recounted (sound_recounting.kept_enterTarget kept ends) _).mono ?_ ?_
  · rintro ⟨⟩ entered ⟨⟨entering, cascades⟩, enters⟩ returns
    exact ⟨_, .external (Passes.refl asked) found resolved isExternal ready leaves exits acts within
      receives enters cascades returns (Course.refl _), rfl⟩
  · rintro _ gone ⟨exhausted | ⟨entering, cascades⟩, enters⟩ error rfl fails
    · cases exhausted
    · exact ⟨_, .failedEntering (Passes.refl asked) found resolved isExternal inside enters cascades
        fails (Course.refl _), rfl⟩

omit passes in
include kept in
private theorem ends_fireResolved_recounted :
    Ends (fireResolved (calls depth) id transition ends memo) (asked.note (.requested id))
      (TriggerSettles depth id memo asked) (TriggerFails depth id memo asked) := by
  unfold fireResolved
  rw [ends_bind, ends_get]
  dsimp only
  split
  · rw [ends_bind, ends_report]
    exact triggerSettles_declined (Passes.note _ rfl) rfl
  · rw [ends_bind]
    refine Contract.ends_guardAccepts_passes.mono (fun accepted ready unmarked => ?_)
      fun _ _ failure => failure
    have passes := unmarked.mono fun _ => Event.isTriggering_of_unmarked
    split
    · rw [ends_bind, ends_report]
      exact triggerSettles_declined (passes.trans (Passes.note ready rfl)) rfl
    · split
      · rename_i isInternal
        exact ends_fireInternal_recounted answering found resolved passes isInternal
      · rename_i notInternal
        exact ends_fireExternal_recounted answering kept found resolved passes
          (by simpa using notInternal)

omit found resolved passes in
include kept in
private theorem ends_trigger_recounted (id : TransitionId) (memo : Value) (asked : Machine) :
    Ends (trigger (calls depth) id memo) asked
      (fun outcome after => Recounted asked [⟨id, .ok outcome⟩] after)
      fun halt after => ∀ error, halt = .error error →
      Recounted asked [⟨id, .error error⟩] after := by
  have tells : Ends (trigger (calls depth) id memo) asked (TriggerReturns depth id memo asked)
      (TriggerFails depth id memo asked) := by
    have refused (error : ConfigurationError) : TriggerFails depth id memo asked
        (.error (.configuration error))
        ((asked.note (.requested id)).note (.notice (.misconfiguration error))) :=
      triggerFails_inside (.nothing (Passes.note _ rfl))
    unfold trigger
    rw [ends_bind, ends_note, ends_bind, ends_get, Machine.transition?_note, Machine.endpoints_note]
    split
    · rename_i transition ends found resolved
      rw [ends_bind]
      exact (ends_fireResolved_recounted answering kept found resolved).mono
        (fun _ _ settles => settles) fun _ _ fails => fails
    · exact refused _
    · exact refused _
  refine (tells.and (ends_self _ asked)).mono (fun _ _ ⟨recounts, returns⟩ => recounts returns) ?_
  rintro halt after ⟨recounts, fails⟩ error rfl
  exact recounts error rfl fails

end Trigger

private theorem recounting_trigger {depth : Nat} (answering : Answering (calls depth))
    (kept : recounting.KeptBy (calls depth)) (id : TransitionId) (memo : Value) :
    recounting.Kept (trigger (calls depth) id memo) := by
  refine fun asked _ => (ends_trigger_recounted answering kept id memo asked).mono
    (fun _ _ ⟨_, course, _⟩ => ⟨_, course⟩) fun halt _ recounts => ?_
  cases halt with
  | exhausted => exact Or.inl rfl
  | error error =>
      obtain ⟨_, course, -⟩ := recounts error rfl
      exact Or.inr ⟨_, course⟩

/-- What triggers answer is recounted at every depth; by induction on it. -/
theorem answering_calls (depth : Nat) :
    Answering (calls depth) ∧ recounting.KeptBy (calls depth) := by
  induction depth with
  | zero =>
      refine ⟨?_, Discipline.keptAnywhere_exhausted sound_recounting.discipline⟩
      rintro id memo machine answer after ⟨⟩
  | succ depth ih =>
      obtain ⟨answering, kept⟩ := ih
      refine ⟨fun id memo machine answer after returns => ?_,
        Discipline.keptAnywhere_succ sound_recounting.discipline kept
          (sound_recounting.kept_activate kept) (recounting_trigger answering kept)⟩
      have known := ends_trigger_recounted answering kept id memo machine
      rcases ends_of_attempt known returns with ⟨_, rfl, recounts⟩ | ⟨_, rfl, recounts⟩
      · exact recounts
      · exact recounts _ rfl

end Run
end Chart
