import Chart.Proofs.Run.EnteringWithin
import Chart.Proofs.Run.KeepingAlone
import Chart.Proofs.Session.Configuration

set_option autoImplicit false

/-!
Active siblings. With callbacks that fire transitions a state may be entered beside an active
sibling: a step of an entry plan asks whether the region around its state is active, not whether it
is idle. This happens only to a sibling that has itself been entered since the unfinished trigger
was asked for, and after two firings: that of the trigger, and that of another one, which its
callbacks fired meanwhile.
-/

namespace Chart

open Machine (Changes EntersWithin FiresFirst KeepsAlone StandsAlone Told)
open Run Run.Discipline

namespace Request

variable {request : Request} {before after : Machine} {answer : Except MachineError Unit}

private theorem kept_run_alone (runs : request.runs = true) (state : StateId) (depth : Nat) :
    (keepingAlone state).Kept (request.run depth) := by
  have keeps := calls_keepAlone state depth
  cases request with
  | construct _ | setData _ _ => cases runs
  | start =>
      refine kept_start lawful_keepingAlone refuses_keepingAlone fun machine fit => ?_
      exact (calls_keepAlone state (depth + 1)).enter machine Machine.root fit
        (Machine.not_beside_root fit.1.toWired)
  | finish =>
      exact kept_finish lawful_keepingAlone refuses_keepingAlone
        (kept_exit_alone keeps Machine.root)
  | trigger id memo => exact ((calls_keepAlone state (depth + 1)).trigger id memo).discard
  | triggerNamed name memo =>
      exact (kept_triggerNamed lawful_keepingAlone (calls_keepAlone state (depth + 1)).trigger name
        memo).discard
  | completion other =>
      intro machine fit
      refine keptFrom_of_standsAlone (changing_completion depth other) fun stands => ?_
      apply KeptFrom.get
      split
      · exact kept_fail lawful_keepingAlone _ machine fit
      · rename_i node found
        split
        · rename_i active
          exact keptFrom_completeState_alone keeps fit
            (stands.alone other (Machine.isStateActive_iff.mpr ⟨node, found, active⟩))
        · exact kept_misuse lawful_keepingAlone refuses_keepingAlone _ machine fit
  | frame handle now =>
      exact kept_frame ticks_keepingAlone lawful_keepingAlone (acts_alone keeps) handle now
  | advance now =>
      refine (kept_advance ticks_keepingAlone lawful_keepingAlone (acts_alone keeps)
        (fun {machine} fit => ?_) now).discard
      exact .of_still fit.2 (Machine.Change.takeFrames trivial).one (Told.refl machine) (by simp)

private theorem Returns.keepsAlone (returns : request.Returns before answer after)
    (runs : request.runs = true) (formed : before.Formed) (linked : before.Linked)
    (state : StateId) : KeepsAlone state before after := by
  obtain ⟨depth, result⟩ := returns
  exact kept_of_attempt (kept_run_alone runs state depth) ⟨formed, linked⟩ result

/-- How many firings a call records before it enters a state beside one that it has entered before:
a start is no firing itself. -/
def firingsBeside : Request → Nat
  | .start => 1
  | _ => 2

private theorem Returns.spaced (returns : request.Returns before answer after)
    (runs : request.runs = true) (formed : before.Formed) (linked : before.Linked) :
    ∃ events, Told before after events ∧ ∀ early first second,
      EnteredAfter events early second → before.Beside first second →
      replay (Event.sets first) early = true → request.firingsBeside ≤ firings early := by
  by_cases isStart : request = .start
  · subst isStart
    have ends (depth : Nat) : WithinFrom (fun _ => True) (Request.start.run depth) before := by
      change Ends (Run.start depth) before _ _
      unfold Run.start
      rw [ends_bind, ends_get]
      split
      · exact withinFrom_of_kept (kept_misuse lawful_firingFirst refuses_firingFirst _ before
          ⟨formed, linked⟩)
      · exact ((calls_enterWithin (depth + 1)).enter before Machine.root
          ⟨formed, linked⟩).mono fun _ _ => trivial
    have enters : EntersWithin (fun _ => True) before after := by
      rcases returns.ends ends with ⟨_, enters⟩ | ⟨_, _, impossible | enters⟩
      · exact enters
      · cases impossible
      · exact enters
    obtain ⟨events, told, spaced, _⟩ := enters.within
    exact ⟨events, told, fun early first second entered beside stays =>
      (spaced early second entered).2 first beside stays⟩
  · have kept (depth : Nat) := kept_run sound_firingFirst refuses_firingFirst ticks_firingFirst
      (fun depth => (calls_enterWithin depth).toKeptBy)
      (fun {machine} _ => .of_told (Machine.Change.takeFrames trivial).one (Told.refl machine)
        (by simp)) runs (fun starts => absurd starts isStart) depth before ⟨formed, linked⟩
    have fires : FiresFirst before after := by
      rcases returns.ends kept with ⟨_, fires⟩ | ⟨_, _, impossible | fires⟩
      · exact fires
      · cases impossible
      · exact fires
    have two : request.firingsBeside = 2 := by
      cases request <;> first | rfl | exact absurd rfl isStart
    obtain ⟨events, told, spaced⟩ := fires.spaced
    rw [two]
    exact ⟨events, told, fun early first second entered beside stays =>
      (spaced early second entered).2 first beside stays⟩

end Request

namespace Machine

def Crowded (machine : Machine) (region : RegionId) : Prop :=
  1 < ((machine.statesOf region).filter machine.isStateActive).length

private theorem crowded_iff {machine : Machine} (wired : machine.Wired) {region : RegionId} :
    machine.Crowded region ↔ ∃ one other, one ≠ other ∧
      machine.containerOf? one = some region ∧ machine.containerOf? other = some region ∧
      machine.isStateActive one = true ∧ machine.isStateActive other = true := by
  have nodup := (wired.listedOnce region).filter machine.isStateActive
  have listed (state : StateId) :
      state ∈ (machine.statesOf region).filter machine.isStateActive ↔
        machine.containerOf? state = some region ∧ machine.isStateActive state = true := by
    rw [List.mem_filter, wired.listed]
  unfold Crowded
  generalize (machine.statesOf region).filter machine.isStateActive = children at nodup listed ⊢
  constructor
  · intro long
    cases children with
    | nil => simp at long
    | cons one rest =>
        cases rest with
        | nil => simp at long
        | cons other rest =>
            have first := (listed one).mp (List.mem_cons_self ..)
            have second := (listed other).mp (List.mem_cons_of_mem _ (List.mem_cons_self ..))
            refine ⟨one, other, ?_, first.1, second.1, first.2, second.2⟩
            rintro rfl
            exact (List.nodup_cons.mp nodup).1 (List.mem_cons_self ..)
  · rintro ⟨one, other, different, containedOne, containedOther, activeOne, activeOther⟩
    have memberOne := (listed one).mpr ⟨containedOne, activeOne⟩
    have memberOther := (listed other).mpr ⟨containedOther, activeOther⟩
    cases children with
    | nil => cases memberOne
    | cons first rest =>
        cases rest with
        | nil =>
            rw [List.mem_singleton] at memberOne memberOther
            exact absurd (memberOne.trans memberOther.symm) different
        | cons second rest => simp

/-- One state was entered while the other was active, and neither has been left since. -/
def EnteredBeside (machine : Machine) (one other : StateId) : Prop :=
  ∃ early late name, machine.journal.toList = early ++ .notice (.entered other name) :: late ∧
    replay (Event.sets one) early = true ∧
    ∀ event ∈ late, event.sets one ≠ some false ∧ event.sets other ≠ some false

private theorem Retold.enteredBeside {machine : Machine} (retold : machine.Retold)
    {one other : StateId}
    (different : one ≠ other) (activeOne : machine.isStateActive one = true)
    (activeOther : machine.isStateActive other = true) :
    machine.EnteredBeside one other ∨ machine.EnteredBeside other one := by
  rw [← retold.states one] at activeOne
  rw [← retold.states other] at activeOther
  obtain ⟨earlyOne, lateOne, nameOne, splitOne, silentOne⟩ := exists_entry_of_replay activeOne
  obtain ⟨earlyOther, lateOther, nameOther, splitOther, silentOther⟩ :=
    exists_entry_of_replay activeOther
  -- The state that was entered last found the other one active.
  have later {first second : StateId} {between early late rest : List Event} {name name' : String}
      (split : machine.journal.toList = early ++ .notice (.entered second name) :: late)
      (earlier : early = between ++ .notice (.entered first name') :: rest)
      (silent : ∀ event ∈ rest ++ .notice (.entered second name) :: late,
        event.sets first = none)
      (silentSecond : ∀ event ∈ late, event.sets second = none) :
      machine.EnteredBeside first second := by
    refine ⟨early, late, name, split, ?_, fun event member => ⟨?_, ?_⟩⟩
    · rw [earlier, ← List.singleton_append, ← List.append_assoc,
        replay_append_silent fun event member => silent event (List.mem_append_left _ member),
        replay_append_singleton, Event.sets_entered, if_pos rfl]
      rfl
    · rw [silent event (List.mem_append_right _ (List.mem_cons_of_mem _ member))]
      simp
    · rw [silentSecond event member]
      simp
  rcases List.append_eq_append_iff.mp (splitOne.symm.trans splitOther) with
    ⟨between, earlier, rest⟩ | ⟨between, earlier, rest⟩
  · cases between with
    | nil =>
        obtain ⟨same, _⟩ := List.cons.inj rest
        exact absurd (by cases same; rfl) different
    | cons event between =>
        obtain ⟨rfl, tail⟩ := List.cons.inj rest
        exact Or.inl (later splitOther earlier
          (fun event member => silentOne event (by rw [tail]; exact member)) silentOther)
  · cases between with
    | nil =>
        obtain ⟨same, _⟩ := List.cons.inj rest
        exact absurd (by cases same; rfl) different
    | cons event between =>
        obtain ⟨rfl, tail⟩ := List.cons.inj rest
        exact Or.inr (later splitOne earlier
          (fun event member => silentOther event (by rw [tail]; exact member)) silentOne)

private theorem EnteredBeside.of_told {before after : Machine} {events : List Event}
    {one other : StateId} (entry : after.EnteredBeside one other) (different : one ≠ other)
    (told : Told before after events) :
    (∃ early, EnteredAfter events early other ∧
      replay (Event.sets one) (before.journal.toList ++ early) = true) ∨
    replay (Event.sets one) before.journal.toList = true ∧
      replay (Event.sets other) before.journal.toList = true := by
  obtain ⟨early, late, name, split, active, unleft⟩ := entry
  have entered : EnteredAfter (before.journal.toList ++ events) early other :=
    ⟨name, late, by rw [← told, split]; simp⟩
  rcases entered.cases with ⟨name', rest, earlier⟩ | ⟨since, rfl, within⟩
  · have whole : early ++ [.notice (.entered other name')] ++ (rest ++ events) =
        early ++ .notice (.entered other name) :: late := by
      rw [← List.append_assoc, earlier, ← told, split]
    have tail : .notice (.entered other name') :: (rest ++ events) =
        .notice (.entered other name) :: late := by
      rw [List.append_assoc] at whole
      exact List.append_cancel_left whole
    obtain ⟨_, rfl⟩ := List.cons.inj tail
    refine Or.inr ⟨?_, ?_⟩
    · rw [← earlier]
      refine replay_append_of_true ?_ fun event member =>
        (unleft event (List.mem_append_left _ member)).1
      rw [replay_append_singleton, Event.sets_entered, if_neg different.symm]
      exact active
    · rw [← earlier]
      refine replay_append_of_true ?_ fun event member =>
        (unleft event (List.mem_append_left _ member)).2
      rw [replay_append_singleton, Event.sets_entered, if_pos rfl]
      rfl
  · exact Or.inl ⟨since, within, active⟩

/-- Where a state is entered beside an active one that stood alone or was inactive before, the
active one has been entered since. -/
private theorem KeepsAlone.replay_early {before after : Machine} {events early : List Event}
    {first second : StateId} (keeps : KeepsAlone first before after) (linked : before.Linked)
    (told : Told before after events)
    (alone : before.StandsAlone first ∨ before.isStateActive first = false)
    (entered : EnteredAfter events early second) (beside : before.Beside first second)
    (active : replay (Event.sets first) (before.journal.toList ++ early) = true) :
    replay (Event.sets first) early = true := by
  rcases alone with stands | inactive
  · obtain ⟨events', told', _, unjoined⟩ := keeps.alone stands
    obtain rfl := told'.unique told
    obtain ⟨event, member, left⟩ := unjoined early second entered beside.symm
    rw [replay_append_of_told ⟨event, member, by rw [left]; simp⟩] at active
    exact active
  · rcases stays_cases active with stays | before'
    · exact stays
    · rw [linked.retold.states, inactive] at before'
      cases before'

private theorem trigger_entries {machine last : Machine} {depth : Nat} {id : TransitionId}
    {memo : Value} {outcome : Except MachineError Outcome} (formed : machine.Formed)
    (linked : machine.Linked)
    (result : Run.attempt ((Run.calls depth).trigger id memo) machine = .ok outcome last) :
    ∃ events, Told machine last events ∧ ∀ early first second,
      EnteredAfter events early second → machine.Beside first second →
      (machine.StandsAlone first ∨ machine.isStateActive first = false) →
      replay (Event.sets first) (machine.journal.toList ++ early) = true →
      replay (Event.sets first) early = true ∧ 2 ≤ firings early := by
  have fires : FiresFirst machine last :=
    kept_of_attempt ((calls_enterWithin depth).trigger id memo) ⟨formed, linked⟩ result
  obtain ⟨events, told, spaced⟩ := fires.spaced
  refine ⟨events, told, fun early first second entered beside alone active => ?_⟩
  have keeps : KeepsAlone first machine last :=
    kept_of_attempt ((calls_keepAlone first depth).trigger id memo) ⟨formed, linked⟩ result
  have stays := keeps.replay_early linked told alone entered beside active
  exact ⟨stays, (spaced early second entered).2 first beside stays⟩

section Calls

variable {machine after : Machine} {request : Request} {answer : Except MachineError Unit}
  {events : List Event} (formed : machine.Formed) (linked : machine.Linked)
  (coherent : machine.Coherent)
include formed linked coherent

private theorem returns_entries (runs : request.runs = true)
    (returns : request.Returns machine answer after) :
    ∃ events, Told machine after events ∧ ∀ early first second,
      EnteredAfter events early second → machine.Beside first second →
      replay (Event.sets first) (machine.journal.toList ++ early) = true →
      replay (Event.sets first) early = true ∧ request.firingsBeside ≤ firings early := by
  obtain ⟨events, told, spaced⟩ := returns.spaced runs formed linked
  refine ⟨events, told, fun early first second entered beside active => ?_⟩
  have alone : machine.StandsAlone first ∨ machine.isStateActive first = false := by
    cases isActive : machine.isStateActive first with
    | true => exact Or.inl (coherent.standsAlone formed.toWired isActive)
    | false => exact Or.inr rfl
  have stays := (returns.keepsAlone runs formed linked first).replay_early linked told alone
    entered beside active
  exact ⟨stays, spaced early first second entered beside stays⟩

/-- Of two active children of one region, the one that was entered last was entered since the
machine was coherent. -/
private theorem entered_of_crowded (changes : Changes machine after)
    (told : Told machine after events) {region : RegionId} (crowded : after.Crowded region) :
    ∃ early first second, first ≠ second ∧ machine.containerOf? first = some region ∧
      machine.containerOf? second = some region ∧ after.isStateActive first = true ∧
      after.isStateActive second = true ∧ EnteredAfter events early second ∧
      replay (Event.sets first) (machine.journal.toList ++ early) = true := by
  have same := changes.sameChart
  obtain ⟨one, other, different, containedOne, containedOther, activeOne, activeOther⟩ :=
    (crowded_iff (formed.of_sameChart same).toWired).mp crowded
  rw [same.containerOf?] at containedOne containedOther
  have during {first second : StateId} (distinct : first ≠ second)
      (containedFirst : machine.containerOf? first = some region)
      (containedSecond : machine.containerOf? second = some region)
      (entry : after.EnteredBeside first second) :
      ∃ early, EnteredAfter events early second ∧
        replay (Event.sets first) (machine.journal.toList ++ early) = true := by
    rcases entry.of_told distinct told with entered | ⟨activeFirst, activeSecond⟩
    · exact entered
    · rw [linked.retold.states] at activeFirst activeSecond
      exact absurd (coherent.single region first second containedFirst containedSecond
        activeFirst activeSecond) distinct
  rcases (changes.linked linked).retold.enteredBeside different activeOne activeOther with
    entry | entry
  · obtain ⟨early, entered, active⟩ := during different containedOne containedOther entry
    exact ⟨early, one, other, different, containedOne, containedOther, activeOne, activeOther,
      entered, active⟩
  · obtain ⟨early, entered, active⟩ := during different.symm containedOther containedOne entry
    exact ⟨early, other, one, different.symm, containedOther, containedOne, activeOther, activeOne,
      entered, active⟩

end Calls

/-- Whatever the callbacks do, a trigger at any depth enters a state beside an active one that stood
alone, or was inactive, when it was asked for, only if the active one has been entered since, and
two firings have been recorded. So does a call to a coherent machine; and if it leaves two children
of one region active, one of them was entered in this way. -/
theorem Reached.entered_beside {terms : Terms} {machine : Machine}
    (reached : machine.Reached terms) :
    (∀ (moment last : Machine) depth id memo outcome, Changes machine moment →
      Run.attempt ((Run.calls depth).trigger id memo) moment = .ok outcome last →
      ∃ events, Told moment last events ∧ ∀ early first second,
        EnteredAfter events early second → machine.Beside first second →
        (moment.StandsAlone first ∨ moment.isStateActive first = false) →
        replay (Event.sets first) (moment.journal.toList ++ early) = true →
        replay (Event.sets first) early = true ∧ 2 ≤ firings early) ∧
    ∀ (request : Request) answer after, machine.Coherent → request.runs = true →
      request.Returns machine answer after →
      ∃ events, Told machine after events ∧
        (∀ early first second, EnteredAfter events early second → machine.Beside first second →
          replay (Event.sets first) (machine.journal.toList ++ early) = true →
          replay (Event.sets first) early = true ∧ request.firingsBeside ≤ firings early) ∧
        ∀ region, after.Crowded region → ∃ early first second, first ≠ second ∧
          machine.containerOf? first = some region ∧ machine.containerOf? second = some region ∧
          after.isStateActive first = true ∧ after.isStateActive second = true ∧
          EnteredAfter events early second ∧ replay (Event.sets first) early = true ∧
          request.firingsBeside ≤ firings early := by
  have formed := reached.formed
  have linked := reached.linked
  constructor
  · intro moment last depth id memo outcome changes result
    have same := changes.sameChart
    obtain ⟨events, told, entries⟩ :=
      trigger_entries (formed.of_sameChart same) (changes.linked linked) result
    exact ⟨events, told, fun early first second entered beside =>
      entries early first second entered (same.beside.mpr beside)⟩
  · intro request answer after coherent runs returns
    obtain ⟨events, told, entries⟩ := returns_entries formed linked coherent runs returns
    refine ⟨events, told, entries, fun region crowded => ?_⟩
    obtain ⟨early, first, second, different, containedFirst, containedSecond, activeFirst,
      activeSecond, entered, active⟩ :=
      entered_of_crowded formed linked coherent (returns.changes runs) told crowded
    have beside : machine.Beside first second :=
      ⟨region, first, second, containedFirst, containedSecond, different,
        Below.refl machine first, Below.refl machine second⟩
    exact ⟨early, first, second, different, containedFirst, containedSecond, activeFirst,
      activeSecond, entered, entries early first second entered beside active⟩

/-- The effect of a transition within a composite state leaves that state and enters it again, and
only then the target of the transition is entered. -/
def relayRequests : List Request :=
  [.construct (.createState (.plain "composite")), .construct (.addState ⟨3⟩),
    .construct (.appendRegion ⟨3⟩),
    .construct (.createState (.plain "first")), .construct (.regionAddState ⟨1⟩ ⟨6⟩),
    .construct (.createState (.plain "second")), .construct (.regionAddState ⟨1⟩ ⟨7⟩),
    .construct (.createTransition (.initial "composite")), .construct (.addTransition ⟨0⟩),
    .construct (.createTransition (.initial "first")),
    .construct (.regionAddTransition ⟨1⟩ ⟨1⟩),
    .construct (.createTransition (.simple "again" "composite" "composite")),
    .construct (.addTransition ⟨2⟩),
    .construct (.createTransition
      { TransitionDefinition.simple "go" "first" "second" with effect := some (firing "again") }),
    .construct (.regionAddTransition ⟨1⟩ ⟨3⟩), .start, .trigger ⟨3⟩ .null]

def relay : Machine :=
  Request.outcome 8 relayRequests (Machine.new "relay" (.ofStem "auto"))

private theorem relay_plays :
    (Request.play 8 relayRequests (Machine.new "relay" (.ofStem "auto"))).isSome = true ∧
      relay.Crowded ⟨1⟩ := by
  unfold Crowded
  decide +kernel

private theorem reached_relay : relay.Reached answered :=
  ⟨"relay", .ofStem "auto",
    (session_outcome relay_plays.1).weaken fun _ _ _ _ call => call.2⟩

/-- All calls are answered, and yet two children of one region are active. -/
theorem relay_crowded : relay.Reached answered ∧ relay.Crowded ⟨1⟩ :=
  ⟨reached_relay, relay_plays.2⟩

def relayStarted : Machine :=
  Request.outcome 8 relayRequests.dropLast (Machine.new "relay" (.ofStem "auto"))

def relayTriggered : Machine :=
  Request.outcome 8 [.trigger ⟨3⟩ .null] relayStarted

private theorem relayStarted_plays :
    (Request.play 8 relayRequests.dropLast (Machine.new "relay" (.ofStem "auto"))).isSome = true ∧
      (Request.play 8 [.trigger ⟨3⟩ .null] relayStarted).isSome = true ∧ relayStarted.Coherent ∧
      relayTriggered.Crowded ⟨1⟩ := by
  unfold Crowded
  decide +kernel

theorem relay_entered_beside :
    relayStarted.Reached answered ∧ relayStarted.Coherent ∧
      (Request.trigger ⟨3⟩ .null).Returns relayStarted (.ok ()) relayTriggered ∧
      relayTriggered.Crowded ⟨1⟩ ∧ ∃ events early first second,
        Told relayStarted relayTriggered events ∧ first ≠ second ∧
        relayStarted.containerOf? first = some ⟨1⟩ ∧ relayStarted.containerOf? second = some ⟨1⟩ ∧
        EnteredAfter events early second ∧ replay (Event.sets first) early = true ∧
        2 ≤ firings early := by
  obtain ⟨starts, triggers, coherent, crowded⟩ := relayStarted_plays
  have reached : relayStarted.Reached answered :=
    ⟨"relay", .ofStem "auto", (session_outcome starts).weaken fun _ _ _ _ call => call.2⟩
  have returns := returns_outcome triggers
  obtain ⟨events, told, _, crowds⟩ :=
    (Reached.entered_beside reached).2 _ _ _ coherent rfl returns
  obtain ⟨early, first, second, different, inFirst, inSecond, _, _, entered, stays, two⟩ :=
    crowds ⟨1⟩ crowded
  exact ⟨reached, coherent, returns, crowded, events, early, first, second, told,
    different, inFirst,
    inSecond, entered, stays, two⟩

end Machine

end Chart
