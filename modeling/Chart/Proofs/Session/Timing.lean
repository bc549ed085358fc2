import Chart.Proofs.Session.PendingFrames

set_option autoImplicit false

/-!
Timers between calls. When no callback fails by itself, and none passes on an error, a timer runs
exactly while its state is active, whatever calls were made, refused ones included, and whatever
transitions the callbacks fired. Its frame is pending once; a frame that nobody waits for has no
effect; and the timer has counted the frames that were delivered to it since it was started last.
-/

namespace Chart

open Machine (Told KeepsTimers BetweenFrames)
open Run (calls_keepingTimers lawful_keepingTimers keepingTimers sound_keepingTimers)
open Run.Discipline hiding Sound

namespace Request

variable {passes : Prop} {request : Request} {before after : Machine}
  {answer : Except MachineError Unit}

def delivers : Request → Bool
  | .frame _ _ | .advance _ => true
  | _ => false

private theorem Returns.betweenFrames (returns : request.Returns before answer after)
    (unfailing : before.Unfailing passes)
    (built : ∀ construction, request ≠ .construct construction)
    (other : request.delivers = false) : BetweenFrames passes before after := by
  -- a call may also be refused, which nothing that a callback asks for is
  let outside :=
    throughout (Behavior.Unfailing passes) (Machine.Unfailing passes) (BetweenFrames passes)
  have lawful : outside.Lawful :=
    lawful_throughout lawful_keepingTimers.same lawful_keepingTimers.fit lawful_keepingTimers.refl
      lawful_keepingTimers.trans lawful_keepingTimers.note fun _ _ => BetweenFrames.note _ rfl rfl
  have refuses : outside.Refuses := refuses_throughout lawful_keepingTimers.refl
  have weaken {run : Run Unit} (kept : (keepingTimers passes).Kept run) : outside.Kept run :=
    fun machine unfailing => (kept machine unfailing).mono (fun _ _ betweenFrames => betweenFrames)
      fun _ _ halted => halted.imp_right And.left
  have ends (depth : Nat) : outside.KeptFrom (request.run depth) before := by
    have kept : (keepingTimers passes).KeptBy (Run.calls depth) :=
      (calls_keepingTimers depth).toKeptBy
    cases request with
    | construct construction => exact absurd rfl (built construction)
    | setData key value =>
        unfold run
        change Ends _ _ _ _
        rw [ends_discard, ends_modifyGet]
        exact BetweenFrames.write before key value
    | start =>
        exact kept_start lawful refuses (weaken ((calls_keepingTimers _).enter _)) before unfailing
    | finish =>
        exact kept_finish lawful refuses (weaken (kept_exit sound_keepingTimers kept _))
          before unfailing
    | trigger transition memo =>
        exact weaken ((calls_keepingTimers _).trigger transition memo).discard before unfailing
    | triggerNamed name memo =>
        exact weaken
          (kept_triggerNamed lawful_keepingTimers (calls_keepingTimers (depth + 1)).trigger name
          memo).discard before unfailing
    | completion state =>
        exact kept_completion lawful refuses
          (weaken (kept_completeState sound_keepingTimers kept state))
          before unfailing
    | frame _ _ | advance _ => cases other
  rcases returns.ends ends with ⟨_, betweenFrames⟩ | ⟨error, _, impossible | betweenFrames⟩
  · exact betweenFrames
  · cases impossible
  · exact betweenFrames

/-- Also when frames are delivered; and an advance is answered, unless an error is passed on. -/
theorem Returns.keepsTimers (returns : request.Returns before answer after) (linked : before.Linked)
    (clocked : before.Clocked) (unfailing : before.Unfailing passes)
    (built : ∀ construction, request ≠ .construct construction) :
    KeepsTimers passes before after ∧
      ∀ now, request = .advance now → answer = .ok () ∨ passes ∧ after.Mistaken := by
  cases delivers : request.delivers with
  | false =>
      refine ⟨(returns.betweenFrames unfailing built delivers).toKeepsTimers, ?_⟩
      rintro now rfl
      cases delivers
  | true =>
      cases request with
      | frame handle now =>
          refine ⟨?_, fun _ impossible => by cases impossible⟩
          rcases returns.ends fun depth => Run.ends_deliverFrame_keepsTimers
            (calls_keepingTimers depth)
            unfailing clocked with ⟨_, keepsTimers⟩ | ⟨error, _, impossible | failed⟩
          · exact keepsTimers
          · cases impossible
          · exact failed.1
      | advance now =>
          have ends (depth : Nat) : Ends ((Request.advance now).run depth) before
              (fun _ after => KeepsTimers passes before after)
              (fun halt after => halt = .exhausted ∨
                KeepsTimers passes before after ∧ passes ∧ after.Mistaken) := by
            unfold run
            rw [ends_discard]
            exact Run.ends_advance_keepsTimers unfailing clocked linked depth
          rcases returns.ends ends with ⟨answered, keepsTimers⟩ | ⟨error, _, impossible | failed⟩
          · exact ⟨keepsTimers, fun _ _ => Or.inl answered⟩
          · cases impossible
          · exact ⟨failed.1, fun _ _ => Or.inr failed.2⟩
      | _ => cases delivers

end Request

namespace Machine

private theorem Unfailing.before_evolves {passes : Prop} {request : Request}
    {before after : Machine}
    (evolves : request.Evolves before after) (unfailing : after.Unfailing passes) :
    before.Unfailing passes := by
  rcases evolves with becomes | changes
  · exact unfailing.before_grown becomes.grown
  · exact unfailing.before_sameChart changes.sameChart

private theorem Mistaken.of_evolves {request : Request} {before after : Machine}
    (mistaken : before.Mistaken) (evolves : request.Evolves before after) : after.Mistaken := by
  rcases evolves with becomes | changes
  · exact mistaken.of_told
      (show Told before after [] by rw [Told, becomes.grown.journal, List.append_nil])
  · exact mistaken.of_changes changes

/-- What holds of the timers of a machine between calls. -/
structure Regular (machine : Machine) : Prop where
  reached : machine.Reached delivering
  timersCounted : machine.TimersCounted
  timerRuns : ∀ state, machine.TimerRuns state
  framesNumbered : machine.FramesNumbered

private theorem regular_new (name : String) (names : NameSource) :
    (Machine.new name names).Regular := by
  obtain ⟨bare, grown, _, _, noFrames, noJournal, onlyRoot⟩ := grown_new name names
  refine
    { reached := ⟨name, names, Relation.ReflTransGen.refl⟩
      timersCounted := grown.timersCounted ⟨fun state node found running => ?_, ?_⟩
      timerRuns := grown.timerRuns fun state node found active => ?_
      framesNumbered := grown.framesNumbered ⟨?_, fun state node found running => ?_⟩ }
  · rw [onlyRoot state node found] at running
    cases running
  · rw [noJournal]
    intro early state isPrefix
    exact absurd (List.prefix_nil.mp isPrefix) (by simp)
  · rw [onlyRoot state node found] at active
    cases active
  · rw [noFrames]
    exact ⟨List.nodup_nil, fun _ impossible => absurd impossible List.not_mem_nil⟩
  · rw [onlyRoot state node found] at running
    cases running

private theorem Reached.regular {passes : Prop} {machine : Machine}
    (reached : machine.Reached anyTerms)
    (unfailing : machine.Unfailing passes) (unmistaken : passes → ¬ machine.Mistaken) :
    machine.Regular := by
  -- By induction on the session; callbacks that do not fail at its end have not failed before,
  -- and what was no mistake in the end was none before.
  obtain ⟨name, names, session⟩ := reached
  refine session.keeps_under (formed_new name names) (linked_new name names)
    (fun _ _ _ evolves => Unfailing.before_evolves evolves) unfailing
    (fun machine => (passes → ¬ machine.Mistaken) → machine.Regular)
    (fun _ => regular_new name names) (fun first request answer last formed linked unfailingFirst
      returns _ earlier unmistakenLast => ?_) unmistaken
  have regular := earlier fun passed mistaken =>
    unmistakenLast passed (mistaken.of_evolves (returns.evolves formed))
  obtain ⟨firstName, firstNames, earlier⟩ := regular.reached
  have clocked := regular.reached.clocked
  by_cases built : ∃ construction, request = .construct construction
  · obtain ⟨construction, rfl⟩ := built
    have grown := (returns.becomes formed).grown
    exact
      { reached := ⟨firstName, firstNames, earlier.tail
          ⟨_, answer, returns, fun _ impossible => by cases impossible⟩⟩
        timersCounted := grown.timersCounted regular.timersCounted
        timerRuns := grown.timerRuns regular.timerRuns
        framesNumbered := grown.framesNumbered regular.framesNumbered }
  · obtain ⟨keepsTimers, delivers⟩ := returns.keepsTimers linked clocked unfailingFirst
      fun construction same => built ⟨construction, same⟩
    have cleanNow : ¬ (passes ∧ last.Mistaken) := fun both => unmistakenLast both.1 both.2
    exact
      { reached := ⟨firstName, firstNames, earlier.tail ⟨_, answer, returns, fun now advances =>
          (delivers now advances).resolve_right cleanNow⟩⟩
        timersCounted := keepsTimers.timersCounted clocked linked regular.timersCounted
        timerRuns := fun state => keepsTimers.timerRuns cleanNow state (regular.timerRuns state)
        framesNumbered := keepsTimers.changes.framesNumbered regular.framesNumbered }

private theorem stale_frame (moment : Machine) {handle : FrameHandle}
    (stale : ∀ node, moment.state? handle.state = some node → node.frame ≠ some handle)
    (depth : Nat) (now : Duration) :
    ∃ answer after, Run.attempt (Run.frame depth handle now) moment = .ok answer after ∧
      after.states = moment.states ∧
      after.frames.nextSequence = moment.frames.nextSequence ∧
      (∀ other, other ≠ handle →
        (other ∈ after.frames.pending ↔ other ∈ moment.frames.pending)) ∧
      after.frames.pending.Sublist moment.frames.pending ∧
      ∃ events, Told moment after events ∧
        (∀ phase state, .started phase state ∉ events) ∧ ∀ other, .delivered other ∉ events := by
  obtain ⟨answer, after, result, cancelled | ⟨noted, _⟩⟩ :=
    Run.attempt_frame_stale depth now stale
  · refine ⟨answer, after, result, ?_⟩
    subst cancelled
    refine ⟨rfl, rfl, fun other different => ?_, List.filter_sublist, [], Told.refl moment, ?_, ?_⟩
    · exact (FrameQueue.mem_pending_cancel _ _ _).trans (and_iff_left different)
    · simp
    · simp
  · refine ⟨answer, after, result, ?_⟩
    subst noted
    exact ⟨rfl, rfl, fun _ _ => Iff.rfl, List.Sublist.refl _, _,
      told_note moment _, by simp, by simp⟩

/-- In a machine whose callbacks never fail by themselves, and pass on no error either, however it
is put together and run, timers run exactly in active timed states, each with one frame pending; a
frame that its state does not wait for changes no timer, runs nothing and requests nothing, at any
moment; activities are started in active states only; and a running timer has counted the frames
that were delivered to it since it was started for the present activation of its state, where only a
frame that a running timer waits for is told as delivered. -/
theorem Reached.timers_regular {passes : Prop} {machine : Machine}
    (reached : machine.Reached anyTerms) (unfailing : machine.Unfailing passes)
    (unmistaken : passes → ¬ machine.Mistaken) :
    (∀ state node, machine.state? state = some node →
      (node.timer.running = true ↔
        node.status.isActive = true ∧ node.kind = .normal ∧ node.config.timer = true)) ∧
    (∀ state node, machine.state? state = some node → node.timer.running = true →
      ∃ handle, node.frame = some handle ∧ handle.state = state ∧
        machine.frames.pending.count handle = 1) ∧
    (∀ (moment : Machine) (handle : FrameHandle),
      (∀ node, moment.state? handle.state = some node → node.frame ≠ some handle) →
      ∀ depth now, ∃ answer after,
        Run.attempt (Run.frame depth handle now) moment = .ok answer after ∧
        after.states = moment.states ∧
        after.frames.nextSequence = moment.frames.nextSequence ∧
        (∀ other, other ≠ handle →
          (other ∈ after.frames.pending ↔ other ∈ moment.frames.pending)) ∧
        after.frames.pending.Sublist moment.frames.pending ∧
        ∃ events, Told moment after events ∧
          (∀ phase state, .started phase state ∉ events) ∧ ∀ other, .delivered other ∉ events) ∧
    (∀ early state, early ++ [.started .activity state] <+: machine.journal.toList →
      replay (Event.sets state) early = true) ∧
    (∀ state node count after, machine.state? state = some node → node.timer.running = true →
      Run.reading state Timer.frames? machine = .ok (some count) after →
      count = (machine.sinceTimer state).countP (Event.folds state) ∧
        ∀ event ∈ machine.sinceTimer state, event.sets state = none) ∧
    (∀ moment handle node depth now answer after, Changes machine moment →
      moment.state? handle.state = some node → node.frame = some handle →
      node.timer.running = true →
      Run.attempt (Run.frame depth handle now) moment = .ok answer after →
      ∃ events, Told moment after (.delivered handle :: events) ∧
        ∀ other, .delivered other ∉ events) ∧
    (∀ (request : Request) answer after, request.Returns machine answer after →
      request.delivers = false →
      ∃ events, Told machine after events ∧ ∀ other, .delivered other ∉ events) := by
  have regular := reached.regular unfailing unmistaken
  have clocked := reached.clocked
  have awaited := regular.reached.awaited
  refine ⟨fun state node found => ⟨fun running => ?_, fun ⟨active, normal, timed⟩ => ?_⟩,
    fun state node found running => ?_, fun moment handle stale => stale_frame moment stale,
    regular.timersCounted.startedWhileActive,
    fun state node count after found running reading => ?_,
    fun moment handle node depth now answer after changes found waits running result => ?_,
    fun request answer after returns other => ?_⟩
  · have right := clocked state node found
    exact ⟨right.active running, right.normal running,
      regular.framesNumbered.timed state node found running⟩
  · exact regular.timerRuns state node found active normal timed
  · obtain ⟨handle, waits, pending | impossible⟩ := awaited state node found running
    · exact ⟨handle, waits, ((clocked state node found).issued handle waits).1,
        List.count_eq_one_of_mem regular.framesNumbered.numbered.once pending⟩
    · cases impossible
  · have countsFrames := regular.timersCounted.countsFrames state node found running
    obtain ⟨_, _, same⟩ := Option.map_eq_some_iff.mp (Run.reading_eq_some found reading)
    exact ⟨same.symm.trans countsFrames.counted, countsFrames.present⟩
  · have folds : Ends (Run.frame depth handle now) moment
        (fun _ after => BetweenFrames passes (moment.frameFolded handle node now) after)
        (Run.PassedOn passes (moment.frameFolded handle node now)) :=
      Run.ends_deliverFrame_folded (calls_keepingTimers depth)
        (unfailing.of_sameChart changes.sameChart) (changes.clocked clocked) found waits running
    have ends : Ends (Run.attempt (Run.frame depth handle now)) moment
        (fun _ after => BetweenFrames passes (moment.frameFolded handle node now) after)
        (fun _ _ => True) := by
      rw [Run.ends_attempt]
      refine folds.mono (fun _ _ betweenFrames => betweenFrames) fun halt after passed => ?_
      cases halt with
      | error error => exact (passed.resolve_left (by simp)).1
      | exhausted => trivial
    obtain ⟨events, told, none'⟩ := (ends_of_finished ends result).undelivered
    exact ⟨events, (told_note moment (.delivered handle)).trans told, none'⟩
  · by_cases built : ∃ construction, request = .construct construction
    · obtain ⟨construction, rfl⟩ := built
      have grown := (returns.becomes reached.formed).grown
      exact ⟨[], by rw [Told, grown.journal, List.append_nil], by simp⟩
    · exact (returns.betweenFrames unfailing (fun construction same => built ⟨construction, same⟩)
        other).undelivered

/-- Leaves and reenters the state it runs in, and passes on an error. -/
def restart : Behavior :=
  .fire (.name "again") .null fun
    | .ok _ => .done
    | .error error => .fail error

def pulseStored : Machine :=
  ((Machine.new "pulse" (.ofStem "auto")).pushState (.ofDefinition "pulse"
    { (StateDefinition.plain "pulse").withTimer oneSecond with activity := some restart })).2

/-- A timed state, whose frames have it left and entered again. -/
def pulseRequests : List Request :=
  [.construct (.addState ⟨3⟩), .construct (.createTransition (.initial "pulse")),
    .construct (.addTransition ⟨0⟩),
    .construct (.createTransition (.simple "again" "pulse" "pulse")),
    .construct (.addTransition ⟨1⟩), .start, .advance .zero, .advance oneSecond,
    .advance oneSecond]

def pulse : Machine :=
  Request.outcome 12 pulseRequests pulseStored

private theorem pulse_plays :
    (Request.play 12 pulseRequests pulseStored).isSome = true ∧
      pulse.states.size = pulseStored.states.size ∧
      (Machine.new "pulse" (.ofStem "auto")).isPlain = true ∧
      pulse.transitions.toList.all (fun found => found.effect.isNone) = true ∧
      (pulse.state? ⟨3⟩).any (fun node =>
        node.timer.running && node.timer.frames? == some 1) = true ∧
      pulse.journal.toList.countP (Event.folds ⟨3⟩) = 3 ∧ ¬ pulse.Mistaken := by
  decide +kernel

private theorem session_pulse : Session (played pulseRequests) pulseStored pulse :=
  session_outcome pulse_plays.1

private theorem returns_pulseStored :
    (Request.construct (.createState
      { (StateDefinition.plain "pulse").withTimer oneSecond with
        activity := some restart })).Returns
      (Machine.new "pulse" (.ofStem "auto")) (.ok ()) pulseStored :=
  ⟨0, rfl⟩

private theorem reached_pulse : pulse.Reached anyTerms :=
  ⟨"pulse", .ofStem "auto", Relation.ReflTransGen.trans
    (.single ⟨_, _, returns_pulseStored, trivial⟩) (session_pulse.weaken fun _ _ _ _ _ => trivial)⟩

private theorem unfailing_pulse : pulse.Unfailing True where
  behaviors := by
    intro state node behavior found runs
    obtain ⟨_, sizes, plain, _⟩ := pulse_plays
    obtain ⟨early, foundEarly⟩ : ∃ early, pulseStored.state? state = some early := by
      obtain ⟨inside, _⟩ := Array.getElem?_eq_some_iff.mp found
      rw [sizes] at inside
      exact ⟨_, Array.getElem?_eq_getElem inside⟩
    obtain ⟨late, foundLate, same⟩ :=
      session_pulse.runs (returns_pulseStored.becomes (formed_new _ _)).formed foundEarly
    rw [found] at foundLate
    obtain rfl := Option.some.inj foundLate
    have runsEarly := (same behavior).mp runs
    unfold state? pulseStored pushState at foundEarly
    rw [Array.getElem?_push] at foundEarly
    split at foundEarly
    · obtain rfl := Option.some.inj foundEarly
      rcases runsEarly with impossible | impossible | activity
      · cases impossible
      · cases impossible
      · obtain rfl := Option.some.inj activity
        refine .fire _ _ fun answer fired => ?_
        cases answer with
        | ok outcome => exact .done
        | error error => cases fired trivial
    · obtain ⟨noEntry, noExit, noActivity, _⟩ := node_of_isPlain plain foundEarly
      simp [StateNode.Runs, noEntry, noExit, noActivity] at runsEarly
  effects := by
    intro transition found effect memo present isEffect
    obtain ⟨_, _, _, none', _⟩ := pulse_plays
    have known := List.all_eq_true.mp none' found
      (Array.mem_toList_iff.mpr (Array.mem_of_getElem? present))
    rw [isEffect] at known
    cases known

/-- The frames of the first activation are not counted. -/
theorem pulse_timers_regular :
    pulse.Reached anyTerms ∧ pulse.Unfailing True ∧ ¬ pulse.Mistaken ∧
      ∃ node, pulse.state? ⟨3⟩ = some node ∧
        (∃ handle, node.frame = some handle ∧ pulse.frames.pending.count handle = 1) ∧
        1 = (pulse.sinceTimer ⟨3⟩).countP (Event.folds ⟨3⟩) ∧
        pulse.journal.toList.countP (Event.folds ⟨3⟩) = 3 := by
  obtain ⟨_, _, _, _, timed, folds, unmistaken⟩ := pulse_plays
  obtain ⟨node, found, known⟩ := (Option.any_eq_true _ _).mp timed
  obtain ⟨running, one⟩ := (Bool.and_eq_true _ _).mp known
  have reading := Run.reading_of_available found (beq_iff_eq.mp one)
  obtain ⟨_, pending, _, _, counts, _⟩ :=
    Reached.timers_regular reached_pulse unfailing_pulse fun _ => unmistaken
  obtain ⟨handle, waits, _, once⟩ := pending ⟨3⟩ node found running
  exact ⟨reached_pulse, unfailing_pulse, unmistaken, node, found, ⟨handle, waits, once⟩,
    (counts ⟨3⟩ node 1 pulse found running reading).1, folds⟩

end Machine

end Chart
