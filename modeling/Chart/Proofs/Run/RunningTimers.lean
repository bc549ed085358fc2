import Chart.Proofs.Run.TimerFrames

set_option autoImplicit false

/-!
Timers between their starts and stops. A timer counts the frames that were delivered to it since it
was last started, and an activity is started only in an active state. The timer of an active,
normal, timed state runs, except between the entry of the state and the start of the timer: that is
when the entry behaviour runs.
-/

namespace Chart

namespace Event

def startsTimer (state : StateId) : Event → Bool
  | .notice (.timerStarted other _) => other == state
  | _ => false

/-- Tells that a frame was delivered to the timer of the state. -/
def folds (state : StateId) : Event → Bool
  | .delivered handle => handle.state == state
  | _ => false

/-- Tells neither that a timer or an activity was started nor that a frame was delivered. -/
def isUntimed : Event → Bool
  | .notice (.timerStarted _ _) | .started .activity _ | .delivered _ => false
  | _ => true

private theorem startsTimer_of_isUntimed {event : Event} (untimed : event.isUntimed = true)
    (state : StateId) : event.startsTimer state = false := by
  cases event with
  | notice notice => cases notice <;> first | rfl | cases untimed
  | _ => rfl

private theorem folds_of_isUntimed {event : Event} (untimed : event.isUntimed = true)
    (state : StateId) : event.folds state = false := by
  cases event with
  | delivered handle => cases untimed
  | _ => rfl

end Event

/-- Every activity that was started was started in a state that was active at that time. -/
def StartedWhileActive (events : List Event) : Prop :=
  ∀ early state, early ++ [.started .activity state] <+: events →
    replay (Event.sets state) early = true

private theorem StartedWhileActive.concat {events : List Event}
    (startedWhileActive : StartedWhileActive events) {event : Event}
    (active : ∀ state, event = .started .activity state →
      replay (Event.sets state) events = true) : StartedWhileActive (events ++ [event]) := by
  intro early state isPrefix
  rcases List.prefix_concat_iff.mp isPrefix with whole | within
  · obtain ⟨rfl, same⟩ := List.append_inj' whole rfl
    exact active state (List.singleton_inj.mp same).symm
  · exact startedWhileActive early state within

private theorem StartedWhileActive.append_untimed {events late : List Event}
    (startedWhileActive : StartedWhileActive events)
    (untimed : ∀ event ∈ late, event.isUntimed = true) : StartedWhileActive (events ++ late) := by
  induction late using List.reverseRecOn with
  | nil =>
      rw [List.append_nil]
      exact startedWhileActive
  | append_singleton late event ih =>
      rw [← List.append_assoc]
      refine (ih fun other member => untimed other (List.mem_append_left _ member)).concat ?_
      rintro state rfl
      have impossible := untimed _ (List.mem_append_right _ (List.mem_singleton_self _))
      cases impossible

/-- An active, normal, timed state has its timer running. -/
def StateNode.TimerRuns (node : StateNode) : Prop :=
  node.status.isActive = true → node.kind = .normal → node.config.timer = true →
    node.timer.running = true

namespace Machine

def TimerRuns (machine : Machine) (state : StateId) : Prop :=
  ∀ node, machine.state? state = some node → node.TimerRuns

/-- What was told since the timer of the state was started last. -/
def sinceTimer (machine : Machine) (state : StateId) : List Event :=
  since (Event.startsTimer state) machine.journal.toList

/-- The timer was started during the present activation of its state and has counted the frames
that were delivered to it since. -/
structure CountsFrames (machine : Machine) (state : StateId) (timer : Timer) : Prop where
  started : ∃ event ∈ machine.journal.toList, event.startsTimer state = true
  present : ∀ event ∈ machine.sinceTimer state, event.sets state = none
  counted : timer.frameCount = (machine.sinceTimer state).countP (Event.folds state)

structure TimersCounted (machine : Machine) : Prop where
  countsFrames : ∀ state node, machine.state? state = some node → node.timer.running = true →
    machine.CountsFrames state node.timer
  startedWhileActive : StartedWhileActive machine.journal.toList

section TimersCounted

variable {before after machine : Machine} {state : StateId}

private theorem countP_untimed {events : List Event}
    (untimed : ∀ event ∈ events, event.isUntimed = true) (state : StateId) :
    events.countP (Event.folds state) = 0 := by
  rw [List.countP_eq_zero]
  intro event member
  rw [Event.folds_of_isUntimed (untimed event member)]
  simp

private theorem CountsFrames.of_told {events : List Event} {timer timer' : Timer}
    (countsFrames : before.CountsFrames state timer) (told : Told before after events)
    (untimed : ∀ event ∈ events, event.isUntimed = true)
    (unset : ∀ event ∈ events, event.sets state = none)
    (count : timer'.frameCount = timer.frameCount) : after.CountsFrames state timer' := by
  have late : after.sinceTimer state = before.sinceTimer state ++ events := by
    rw [sinceTimer, told, since_append_unmarked fun event member =>
      Event.startsTimer_of_isUntimed (untimed event member) state]
    rfl
  refine ⟨?_, ?_, ?_⟩
  · obtain ⟨event, member, starts⟩ := countsFrames.started
    exact ⟨event, by rw [told]; exact List.mem_append_left _ member, starts⟩
  · intro event member
    rw [late] at member
    rcases List.mem_append.mp member with earlier | last
    · exact countsFrames.present event earlier
    · exact unset event last
  · rw [late, List.countP_append, countP_untimed untimed, count]
    exact countsFrames.counted

private theorem TimersCounted.of_told {events : List Event} (timersCounted : before.TimersCounted)
    (told : Told before after events) (untimed : ∀ event ∈ events, event.isUntimed = true)
    (timers : ∀ state node', after.state? state = some node' → node'.timer.running = true →
      ∃ node, before.state? state = some node ∧ node.timer.running = true ∧
        node'.timer.frameCount = node.timer.frameCount ∧
        ∀ event ∈ events, event.sets state = none) : after.TimersCounted where
  countsFrames := by
    intro state node' found' running'
    obtain ⟨node, found, running, count, unset⟩ := timers state node' found' running'
    exact (timersCounted.countsFrames state node found running).of_told told untimed unset count
  startedWhileActive := by
    rw [told]
    exact timersCounted.startedWhileActive.append_untimed untimed

private theorem TimersCounted.started (timersCounted : machine.TimersCounted)
    (retold : machine.Retold) {phase : Phase}
    (active : phase = .activity → machine.isStateActive state = true) :
    (machine.note (.started phase state)).TimersCounted := by
  have told := told_note machine (.started phase state)
  refine ⟨fun other node found running => ?_, ?_⟩
  · have countsFrames := timersCounted.countsFrames other node found running
    have late : (machine.note (.started phase state)).sinceTimer other =
        machine.sinceTimer other ++ [.started phase state] := by
      rw [sinceTimer, told, since_append_singleton]
      rfl
    refine ⟨?_, ?_, ?_⟩
    · obtain ⟨event, member, starts⟩ := countsFrames.started
      exact ⟨event, by rw [told]; exact List.mem_append_left _ member, starts⟩
    · intro event member
      rw [late] at member
      rcases List.mem_append.mp member with earlier | last
      · exact countsFrames.present event earlier
      · rw [List.mem_singleton.mp last]
        rfl
    · rw [late, List.countP_append, countsFrames.counted]
      rfl
  · rw [told]
    refine timersCounted.startedWhileActive.concat fun other same => ?_
    obtain ⟨isActivity, rfl⟩ := Event.started.inj same
    rw [retold.states]
    exact active isActivity

private theorem TimersCounted.timerStarted (timersCounted : machine.TimersCounted) (name : String) :
    ((machine.timerArmed state).note (.notice (.timerStarted state name))).TimersCounted := by
  set event : Event := .notice (.timerStarted state name) with eventIs
  have told : Told machine ((machine.timerArmed state).note event) [event] :=
    told_note (machine.timerArmed state) event
  have starts (other : StateId) : event.startsTimer other = (state == other) := rfl
  have late (other : StateId) : ((machine.timerArmed state).note event).sinceTimer other =
      if state = other then [] else machine.sinceTimer other ++ [event] := by
    rw [sinceTimer, told, since_append_singleton, starts]
    by_cases here : state = other
    · rw [if_pos (by simpa using here), if_pos here]
    · rw [if_neg (by simpa using here), if_neg here]
      rfl
  refine ⟨fun other node found running => ?_, ?_⟩
  · have found' : (machine.timerArmed state).state? other = some node := found
    rw [altered_timerArmed machine state] at found'
    by_cases here : state = other
    · subst here
      rw [if_pos rfl] at found'
      obtain ⟨_, _, rfl⟩ := Option.map_eq_some_iff.mp found'
      refine ⟨⟨event, ?_, ?_⟩, ?_, ?_⟩
      · rw [told]
        exact List.mem_append_right _ (List.mem_singleton_self _)
      · rw [starts]
        simp
      · rw [late, if_pos rfl]
        simp
      · rw [late, if_pos rfl]
        rfl
    · rw [if_neg here] at found'
      have countsFrames := timersCounted.countsFrames other node found' running
      refine ⟨?_, ?_, ?_⟩
      · obtain ⟨first, member, starts⟩ := countsFrames.started
        exact ⟨first, by rw [told]; exact List.mem_append_left _ member, starts⟩
      · intro current member
        rw [late, if_neg here] at member
        rcases List.mem_append.mp member with earlier | last
        · exact countsFrames.present current earlier
        · rw [List.mem_singleton.mp last]
          rfl
      · rw [late, if_neg here, List.countP_append, countsFrames.counted]
        rfl
  · rw [told]
    refine timersCounted.startedWhileActive.concat fun other same => ?_
    rw [eventIs] at same
    cases same

theorem altered_frameFolded (machine : Machine) (handle : FrameHandle) (node : StateNode)
    (now : Duration) :
    Altered handle.state
      (fun current => { current with timer := (node.timer.step now node.config.interval).1 })
      machine (machine.frameFolded handle node now) :=
  altered_modifyState (machine.note (.delivered handle)) handle.state _

private theorem TimersCounted.frameFolded (timersCounted : machine.TimersCounted)
    {handle : FrameHandle} {node : StateNode}
    (found : machine.state? handle.state = some node) (running : node.timer.running = true)
    (now : Duration) : (machine.frameFolded handle node now).TimersCounted := by
  have told : Told machine (machine.frameFolded handle node now) [.delivered handle] :=
    told_note machine (.delivered handle)
  have late (other : StateId) : (machine.frameFolded handle node now).sinceTimer other =
      machine.sinceTimer other ++ [.delivered handle] := by
    rw [sinceTimer, told, since_append_singleton]
    rfl
  have countsFrames {other : StateId} {timer timer' : Timer}
    (countsFrames : machine.CountsFrames other timer)
      (count : timer'.frameCount =
        timer.frameCount + if handle.state = other then 1 else 0) :
      (machine.frameFolded handle node now).CountsFrames other timer' := by
    refine ⟨?_, ?_, ?_⟩
    · obtain ⟨first, member, starts⟩ := countsFrames.started
      exact ⟨first, by rw [told]; exact List.mem_append_left _ member, starts⟩
    · intro current member
      rw [late] at member
      rcases List.mem_append.mp member with earlier | last
      · exact countsFrames.present current earlier
      · rw [List.mem_singleton.mp last]
        rfl
    · rw [late, List.countP_append, count, countsFrames.counted]
      simp [Event.folds]
  refine ⟨fun other current foundNow runs => ?_, ?_⟩
  · rw [altered_frameFolded] at foundNow
    by_cases here : handle.state = other
    · subst here
      rw [if_pos rfl, found] at foundNow
      obtain rfl := Option.some.inj foundNow
      refine countsFrames (timersCounted.countsFrames handle.state node found running) ?_
      rw [if_pos rfl]
      rfl
    · rw [if_neg here] at foundNow
      refine countsFrames (timersCounted.countsFrames other current foundNow runs) ?_
      rw [if_neg here]
      rfl
  · rw [told]
    exact timersCounted.startedWhileActive.concat fun other same => by cases same

theorem Grown.timersCounted (grown : Grown before after) (timersCounted : before.TimersCounted) :
    after.TimersCounted := by
  have told : Told before after [] := by
    rw [Told, grown.journal, List.append_nil]
  refine timersCounted.of_told told (by simp) fun state node' found' running => ?_
  cases found : before.state? state with
  | none =>
      rw [(grown.newStates state node' found found').2.2.2] at running
      cases running
  | some node =>
      have grownNode := grown.grownNode found found'
      have timer : node'.timer = node.timer :=
        StateNode.read_lasting grownNode.lasting StateNode.timer fun _ => rfl
      exact ⟨node, rfl, by rw [← timer]; exact running, by rw [timer], by simp⟩

theorem Grown.timerRuns (grown : Grown before after) (timerRuns : ∀ state, before.TimerRuns state)
    (state : StateId) : after.TimerRuns state := by
  intro node' found' active normal timed
  cases found : before.state? state with
  | none =>
      rw [(grown.newStates state node' found found').1] at active
      cases active
  | some node =>
      have grownNode := grown.grownNode found found'
      have timer : node'.timer = node.timer :=
        StateNode.read_lasting grownNode.lasting StateNode.timer fun _ => rfl
      have status : node'.status = node.status :=
        StateNode.read_lasting grownNode.lasting StateNode.status fun _ => rfl
      have config : node'.config = node.config :=
        StateNode.read_lasting grownNode.lasting StateNode.config fun _ => rfl
      rw [timer]
      exact timerRuns state node found (by rw [← status]; exact active)
        (grownNode.kind.normal_iff.mp normal) (by rw [← config]; exact timed)

end TimersCounted

/-! ### What running does for the timers -/

def Mistaken (machine : Machine) : Prop :=
  ∃ event ∈ machine.journal.toList, event.mistake?.isSome = true

instance (machine : Machine) : Decidable machine.Mistaken :=
  inferInstanceAs (Decidable (∃ event ∈ machine.journal.toList, event.mistake?.isSome = true))

theorem Mistaken.of_told {before after : Machine} {events : List Event} (mistaken : before.Mistaken)
    (told : Told before after events) : after.Mistaken := by
  obtain ⟨event, member, known⟩ := mistaken
  exact ⟨event, by rw [told]; exact List.mem_append_left _ member, known⟩

theorem Mistaken.of_changes {before after : Machine} (mistaken : before.Mistaken)
    (changes : Changes before after) : after.Mistaken := by
  obtain ⟨events, told⟩ := changes.told
  exact mistaken.of_told told

theorem mistaken_note (machine : Machine) (error : ConfigurationError) :
    (machine.note (.notice (.misconfiguration error))).Mistaken :=
  ⟨_, by rw [told_note]; exact List.mem_append_right _ (List.mem_singleton_self _), rfl⟩

/-- Timers that counted their frames still do. A timer that ran for its state still does, unless
callbacks pass errors on and there was one to pass on. -/
structure KeepsTimers (passes : Prop) (before after : Machine) : Prop where
  changes : Changes before after
  timersCounted : before.Clocked → before.Linked → before.TimersCounted → after.TimersCounted
  timerRuns : ¬ (passes ∧ after.Mistaken) → ∀ state, before.TimerRuns state → after.TimerRuns state

structure BetweenFrames (passes : Prop) (before after : Machine) : Prop
    extends KeepsTimers passes before after where
  undelivered : ∃ events, Told before after events ∧ ∀ handle, .delivered handle ∉ events

section BetweenFrames

variable {passes : Prop} {before middle after machine : Machine} {state : StateId}

theorem KeepsTimers.refl (machine : Machine) : KeepsTimers passes machine machine :=
  ⟨Relation.ReflTransGen.refl, fun _ _ timersCounted => timersCounted,
    fun _ _ timerRuns => timerRuns⟩

theorem KeepsTimers.trans (first : KeepsTimers passes before middle)
    (second : KeepsTimers passes middle after) :
    KeepsTimers passes before after where
  changes := first.changes.trans second.changes
  timersCounted := fun clocked linked timersCounted =>
    second.timersCounted (first.changes.clocked clocked)
    (first.changes.linked linked) (first.timersCounted clocked linked timersCounted)
  timerRuns := fun unmistaken state timerRuns => second.timerRuns unmistaken state
    (first.timerRuns (fun soon => unmistaken ⟨soon.1, soon.2.of_changes second.changes⟩)
      state timerRuns)

theorem BetweenFrames.refl (machine : Machine) : BetweenFrames passes machine machine :=
  { toKeepsTimers := KeepsTimers.refl machine, undelivered := ⟨[], Told.refl machine, by simp⟩ }

theorem BetweenFrames.trans (first : BetweenFrames passes before middle)
    (second : BetweenFrames passes middle after) :
    BetweenFrames passes before after where
  toKeepsTimers := first.toKeepsTimers.trans second.toKeepsTimers
  undelivered := by
    obtain ⟨early, toldEarly, noneEarly⟩ := first.undelivered
    obtain ⟨late, toldLate, noneLate⟩ := second.undelivered
    refine ⟨early ++ late, toldEarly.trans toldLate, fun handle member => ?_⟩
    rcases List.mem_append.mp member with inEarly | inLate
    · exact noneEarly handle inEarly
    · exact noneLate handle inLate

private theorem timersCounted_of_altered {change : StateNode → StateNode} {events : List Event}
    (altered : Altered state change before after) (told : Told before after events)
    (untimed : ∀ event ∈ events, event.isUntimed = true)
    (elsewhere : ∀ event ∈ events, ∀ other, other ≠ state → event.sets other = none)
    (timer : ∀ node, before.state? state = some node →
      node.Clocked state before.frames.nextSequence → (change node).timer.running = true →
        node.timer.running = true ∧ (change node).timer.frameCount = node.timer.frameCount ∧
        ∀ event ∈ events, event.sets state = none) (clocked : before.Clocked)
    (timersCounted : before.TimersCounted) : after.TimersCounted := by
  refine timersCounted.of_told told untimed fun other node' found' running => ?_
  rw [altered] at found'
  by_cases here : state = other
  · subst here
    rw [if_pos rfl] at found'
    obtain ⟨node, found, rfl⟩ := Option.map_eq_some_iff.mp found'
    exact ⟨node, found, timer node found (clocked state node found) running⟩
  · rw [if_neg here] at found'
    exact ⟨node', found', running, rfl, fun event member =>
      elsewhere event member other (Ne.symm here)⟩

private theorem timerRuns_of_altered {change : StateNode → StateNode}
    (altered : Altered state change before after)
    (keeps : ∀ node, before.state? state = some node → node.TimerRuns → (change node).TimerRuns)
    (other : StateId) (timerRuns : before.TimerRuns other) : after.TimerRuns other := by
  intro node' found'
  rw [altered] at found'
  by_cases here : state = other
  · subst here
    rw [if_pos rfl] at found'
    obtain ⟨node, found, rfl⟩ := Option.map_eq_some_iff.mp found'
    exact keeps node found (timerRuns node found)
  · rw [if_neg here] at found'
    exact timerRuns node' found'

private theorem BetweenFrames.of_altered {change : StateNode → StateNode} {events : List Event}
    (step : Change True before after) (altered : Altered state change before after)
    (told : Told before after events) (untimed : ∀ event ∈ events, event.isUntimed = true)
    (unset : ∀ event ∈ events, ∀ other, event.sets other = none)
    (timer : ∀ node, (change node).timer = node.timer)
    (status : ∀ node, (change node).status = node.status)
    (kind : ∀ node, (change node).kind = node.kind)
    (config : ∀ node, (change node).config = node.config) : BetweenFrames passes before after where
  changes := step.one
  timersCounted := fun clocked _ timersCounted => timersCounted_of_altered altered told untimed
    (fun event member other _ => unset event member other)
    (fun node _ _ running => by
      rw [timer] at running ⊢
      exact ⟨running, rfl, fun event member => unset event member state⟩) clocked timersCounted
  timerRuns := fun _ => timerRuns_of_altered altered fun node _ timerRuns => by
    unfold StateNode.TimerRuns
    rw [timer, status, kind, config]
    exact timerRuns
  undelivered := ⟨events, told, fun handle member => by cases untimed _ member⟩

private theorem altered_of_states (same : after.states = before.states) :
    Altered root id before after := by
  intro other
  simp only [state?, same, Option.map_id_fun, id_eq, ite_self]

private theorem BetweenFrames.of_states {events : List Event} (step : Change True before after)
    (same : after.states = before.states) (told : Told before after events)
    (untimed : ∀ event ∈ events, event.isUntimed = true)
    (unset : ∀ event ∈ events, ∀ other, event.sets other = none) :
    BetweenFrames passes before after :=
  BetweenFrames.of_altered step (altered_of_states same) told untimed unset
  (fun _ => rfl) (fun _ => rfl)
    (fun _ => rfl) fun _ => rfl

theorem BetweenFrames.note (machine : Machine) {event : Event} (plain : event.isPlain = true)
    (untimed : event.isUntimed = true) : BetweenFrames passes machine (machine.note event) :=
  BetweenFrames.of_states (Change.note event plain) rfl (told_note machine event)
  (by simpa using untimed)
    (by simpa using Event.sets_of_still (Event.moves_of_isPlain plain))

theorem BetweenFrames.write (machine : Machine) (key : String) (value : Value) :
    BetweenFrames passes machine (machine.set key value).2 :=
  BetweenFrames.of_altered (Change.write key value) (altered_modifyState machine root _)
    (Told.refl machine) (by simp) (by simp) (fun _ => rfl) (fun _ => rfl) (fun _ => rfl)
    fun _ => rfl

theorem BetweenFrames.opened {region : RegionId} {members : Region}
    (found : machine.region? region = some members) (inactive : members.status.isActive = false) :
    BetweenFrames passes machine (machine.opened region members.name) :=
  BetweenFrames.of_states (Change.openRegion found inactive) rfl
  (told_opened machine region members.name)
    (by simp [Event.isUntimed]) (by simp [Event.sets])

theorem BetweenFrames.closed {region : RegionId} {members : Region}
    (found : machine.region? region = some members) (active : members.status.isActive = true) :
    BetweenFrames passes machine (machine.closed region members.name) :=
  BetweenFrames.of_states (Change.closeRegion found active) rfl
  (told_closed machine region members.name)
    (by simp [Event.isUntimed]) (by simp [Event.sets])

theorem BetweenFrames.joined {owner : StateId}
    (inactive : ∀ region ∈ machine.regionsOf owner, machine.isRegionActive region = false) :
    BetweenFrames passes machine (machine.joined owner) :=
  BetweenFrames.of_states (Change.join inactive) rfl (told_note machine _)
  (by simp [Event.isUntimed])
    (by simp [Event.sets])

theorem BetweenFrames.recorded (machine : Machine) (id : TransitionId) (firing : Firing) :
    BetweenFrames passes machine (machine.recorded id firing) :=
  BetweenFrames.of_states (Change.record id firing) rfl (told_note _ (.recorded id firing))
    (by simp [Event.isUntimed]) (by simp [Event.sets])

theorem BetweenFrames.transitionChosen {choice : StateId} {node : StateNode} {region : RegionId}
    {target : String} (found : machine.state? choice = some node)
    (contained : node.container = some region)
    (fresh : Dictionary.find? node.choices target = none) :
    BetweenFrames passes machine (machine.transitionChosen choice node.name target region).2 :=
  BetweenFrames.of_altered (Change.choose found contained fresh) (altered_modifyState _ choice _)
    (Told.refl machine) (by simp) (by simp) (fun _ => rfl) (fun _ => rfl) (fun _ => rfl)
    fun _ => rfl

theorem BetweenFrames.frameCancelled {handle : FrameHandle}
    (stale : ∀ node, machine.state? handle.state = some node → node.frame ≠ some handle) :
    BetweenFrames passes machine (machine.frameCancelled handle) :=
  BetweenFrames.of_states (Change.cancelFrame handle stale) rfl (Told.refl machine)
  (by simp) (by simp)

theorem BetweenFrames.framesTaken (machine : Machine) :
    BetweenFrames passes machine machine.framesTaken :=
  BetweenFrames.of_states (Change.takeFrames trivial) rfl (Told.refl machine) (by simp) (by simp)

theorem BetweenFrames.frameRequested {node : StateNode} (found : machine.state? state = some node)
    (running : node.timer.running = true) : BetweenFrames passes machine
    (machine.frameRequested state) :=
  BetweenFrames.of_altered (Change.requestFrame found running) (altered_modifyState _ state _)
    (Told.refl machine) (by simp) (by simp) (fun _ => rfl) (fun _ => rfl) (fun _ => rfl)
    fun _ => rfl

theorem BetweenFrames.timerReset {node : StateNode} (found : machine.state? state = some node)
    (stopped : node.timer.running = false) : BetweenFrames passes machine
    (machine.timerReset state) := by
  have altered := altered_modifyState machine state
    fun node => { node with timer := .idle, frame := none }
  exact
    { changes := (Change.resetTimer found stopped).one
      timersCounted := fun clocked _ timersCounted =>
        timersCounted_of_altered altered (Told.refl machine) (by simp)
        (by simp) (fun _ _ _ running => by cases running) clocked timersCounted
      timerRuns :=
        fun _ => timerRuns_of_altered altered
        fun current foundNow timerRuns active normal timed => by
        rw [found] at foundNow
        obtain rfl := Option.some.inj foundNow
        rw [timerRuns active normal timed] at stopped
        cases stopped
      undelivered := ⟨[], Told.refl machine, by simp⟩ }

theorem BetweenFrames.left {node : StateNode} (found : machine.state? state = some node)
    (active : node.status.isActive = true) : BetweenFrames passes machine
    (machine.left state node) := by
  have altered := altered_left found
  refine
    { changes := (Change.leave found active).one
      timersCounted := fun clocked _ => timersCounted_of_altered altered (told_left state node)
        (by simp [Event.isUntimed]) ?_ (fun current _ right running => ?_) clocked
      timerRuns := fun _ => timerRuns_of_altered altered fun _ _ _ active => by cases active
      undelivered := ⟨_, told_left state node, by simp⟩ }
  · intro event member other different
    rw [List.mem_singleton.mp member, Event.sets_left, if_neg (Ne.symm different)]
  · unfold departure at running
    dsimp only at running
    split at running
    · cases running
    · rename_i unstopped
      exact absurd ⟨right.normal running, running⟩ unstopped

/-- A state that is entered has not been timed; if it is to be timed now, its timer does not run
yet. -/
theorem keepsTimers_entered {node : StateNode} (found : machine.state? state = some node)
    (inactive : node.status.isActive = false) :
    (machine.Clocked → machine.TimersCounted → (machine.entered state node.name).TimersCounted) ∧
      ∀ other, other ≠ state ∨ node.kind ≠ .normal → machine.TimerRuns other →
        (machine.entered state node.name).TimerRuns other := by
  have altered : Altered state (fun node => { node with status := .active }) machine
      (machine.entered state node.name) := altered_modifyState machine state _
  refine ⟨timersCounted_of_altered altered (told_entered machine state node.name)
    (by simp [Event.isUntimed]) ?_ fun current foundNow right running => ?_, ?_⟩
  · intro event member other different
    rw [List.mem_singleton.mp member, Event.sets_entered, if_neg (Ne.symm different)]
  · rw [found] at foundNow
    obtain rfl := Option.some.inj foundNow
    rw [right.active running] at inactive
    cases inactive
  · rintro other spared timerRuns node' found'
    rw [altered] at found'
    by_cases here : state = other
    · subst here
      rw [if_pos rfl, found] at found'
      obtain rfl := Option.some.inj found'
      intro _ normal
      exact absurd normal (spared.resolve_left fun different => different rfl)
    · rw [if_neg here] at found'
      exact timerRuns node' found'

theorem BetweenFrames.entered {node : StateNode} (found : machine.state? state = some node)
    (inactive : node.status.isActive = false) (other : node.kind ≠ .normal) :
    BetweenFrames passes machine (machine.entered state node.name) where
  changes := (Change.enter found inactive (Or.inr (Or.inr trivial))).one
  timersCounted := fun clocked _ => (keepsTimers_entered found inactive).1 clocked
  timerRuns := fun _ current => (keepsTimers_entered found inactive).2 current (Or.inr other)
  undelivered := ⟨_, told_entered machine state node.name, by simp⟩

theorem BetweenFrames.started (machine : Machine) {phase : Phase}
    (active : phase = .activity → machine.isStateActive state = true) :
    BetweenFrames passes machine (machine.note (.started phase state)) where
  changes := (Change.note (.started phase state) rfl).one
  timersCounted := fun _ linked timersCounted => timersCounted.started linked.retold active
  timerRuns := fun _ _ timerRuns => timerRuns
  undelivered := ⟨_, told_note machine _, by simp⟩

theorem betweenFrames_timerStarted {node : StateNode} (found : machine.state? state = some node)
    (active : node.status.isActive = true) (normal : node.kind = .normal)
    (timed : node.config.timer = true) (name : String) :
    BetweenFrames passes machine
    ((machine.timerArmed state).note (.notice (.timerStarted state name))) ∧
      ((machine.timerArmed state).note (.notice (.timerStarted state name))).TimerRuns state := by
  have arms : Changes machine (machine.timerArmed state) :=
    (Change.armTimer found active normal timed).one
  have altered := altered_timerArmed machine state
  have timerRuns : (machine.timerArmed state).TimerRuns state := by
    intro node' found' _ _ _
    rw [altered, if_pos rfl] at found'
    obtain ⟨_, _, rfl⟩ := Option.map_eq_some_iff.mp found'
    rfl
  exact
    ⟨{ changes := arms.tail (Change.note _ rfl)
       timersCounted := fun _ _ timersCounted => timersCounted.timerStarted name
       timerRuns := fun _ other earlier => by
         by_cases here : other = state
         · rw [here]
           exact timerRuns
         · intro node' found'
           have found' : (machine.timerArmed state).state? other = some node' := found'
           rw [altered, if_neg (Ne.symm here)] at found'
           exact earlier node' found'
       undelivered := ⟨_, told_note (machine.timerArmed state) _, by simp⟩ }, timerRuns⟩

theorem KeepsTimers.frameFolded {handle : FrameHandle} {node : StateNode}
    (found : machine.state? handle.state = some node) (waits : node.frame = some handle)
    (running : node.timer.running = true) (now : Duration) :
    KeepsTimers passes machine (machine.frameFolded handle node now) where
  changes := (Change.foldFrame found waits running now).one
  timersCounted := fun _ _ timersCounted => timersCounted.frameFolded found running now
  timerRuns := fun _ => timerRuns_of_altered (altered_frameFolded machine handle node now)
    fun _ _ _ _ _ _ => running

end BetweenFrames

end Machine

/-! ### Frames are handed out once, and to timed states -/

/-- No handle is pending twice, and every next one has a new number. -/
structure FrameQueue.Numbered (queue : FrameQueue) : Prop where
  once : queue.pending.Nodup
  earlier : ∀ handle ∈ queue.pending, handle.sequence < queue.nextSequence

namespace FrameQueue.Numbered

variable {queue : FrameQueue} (numbered : queue.Numbered)
include numbered

private theorem schedule (state : StateId) : (queue.schedule state).2.Numbered where
  once := by
    rw [pending_schedule, List.nodup_append]
    refine ⟨numbered.once, List.nodup_singleton _, fun one pending other single => ?_⟩
    rw [List.mem_singleton.mp single]
    rintro rfl
    exact Nat.lt_irrefl _ (numbered.earlier _ pending)
  earlier := by
    intro handle pending
    rw [pending_schedule, List.mem_append, List.mem_singleton] at pending
    rcases pending with earlier | rfl
    · exact Nat.lt_succ_of_lt (numbered.earlier handle earlier)
    · exact Nat.lt_succ_self _

private theorem cancel (handle : FrameHandle) : (queue.cancel handle).Numbered where
  once := numbered.once.filter _
  earlier := fun other pending =>
    numbered.earlier other ((mem_pending_cancel _ _ _).mp pending).1

omit numbered in
private theorem taken (queue : FrameQueue) : queue.takePending.2.Numbered :=
  ⟨List.nodup_nil, fun _ impossible => absurd impossible List.not_mem_nil⟩

end FrameQueue.Numbered

namespace Machine

/-- Frames are numbered, and only timed states have running timers. -/
structure FramesNumbered (machine : Machine) : Prop where
  numbered : machine.frames.Numbered
  timed : ∀ state node, machine.state? state = some node → node.timer.running = true →
    node.config.timer = true

section FramesNumbered

variable {before after : Machine} {state : StateId}

private theorem timed_of_altered {change : StateNode → StateNode}
    (altered : Altered state change before after) (framesNumbered : before.FramesNumbered)
    (keeps : ∀ node, before.state? state = some node → (change node).timer.running = true →
      (change node).config = node.config ∧
        (node.timer.running = true ∨ node.config.timer = true)) :
    ∀ state node, after.state? state = some node → node.timer.running = true →
      node.config.timer = true := by
  intro other node' found' running
  rw [altered] at found'
  by_cases here : state = other
  · subst here
    rw [if_pos rfl] at found'
    obtain ⟨node, found, rfl⟩ := Option.map_eq_some_iff.mp found'
    obtain ⟨config, ran | timed⟩ := keeps node found running
    · rw [config]
      exact framesNumbered.timed state node found ran
    · rw [config]
      exact timed
  · rw [if_neg here] at found'
    exact framesNumbered.timed other node' found' running

private theorem Change.framesNumbered {outer : Prop} (change : Change outer before after)
    (framesNumbered : before.FramesNumbered) : after.FramesNumbered := by
  have numbered := framesNumbered.numbered
  have same {change : StateNode → StateNode} {place : StateId}
      (altered : Altered place change before after)
      (timer : ∀ node, (change node).timer = node.timer)
      (config : ∀ node, (change node).config = node.config) :=
    timed_of_altered altered framesNumbered fun node _ running =>
      ⟨config node, Or.inl (by rw [← timer]; exact running)⟩
  cases change with
  | note _ _ | openRegion _ _ | closeRegion _ _ | join _ | record _ _ =>
      exact ⟨numbered, framesNumbered.timed⟩
  | cancelFrame handle _ => exact ⟨numbered.cancel handle, framesNumbered.timed⟩
  | takeFrames _ => exact ⟨FrameQueue.Numbered.taken _, framesNumbered.timed⟩
  | write _ _ =>
      exact ⟨numbered, same (altered_modifyState before root _) (fun _ => rfl) fun _ => rfl⟩
  | @enter state _ _ _ _ =>
      exact ⟨numbered, same (altered_modifyState before state _) (fun _ => rfl) fun _ => rfl⟩
  | @leave state node found _ =>
      have frames := frames_left before state node
      refine ⟨by rw [frames]; exact numbered,
        timed_of_altered (altered_left found) framesNumbered fun current _ running =>
          ⟨rfl, Or.inl ?_⟩⟩
      unfold departure at running
      dsimp only at running
      split at running
      · cases running
      · exact running
  | @armTimer state node found _ _ timed =>
      refine ⟨?_, timed_of_altered (altered_timerArmed before state) framesNumbered
        fun current foundNow _ => ⟨rfl, Or.inr ?_⟩⟩
      · have scheduled := numbered.schedule state
        unfold timerArmed
        simp only [modifyState]
        split
        · exact scheduled.cancel _
        · exact scheduled
      · rw [found] at foundNow
        rw [← Option.some.inj foundNow]
        exact timed
  | @foldFrame handle node found _ running now =>
      refine ⟨numbered, timed_of_altered (altered_frameFolded before handle node now) framesNumbered
        fun current foundNow _ => ⟨rfl, Or.inl ?_⟩⟩
      rw [found] at foundNow
      rw [← Option.some.inj foundNow]
      exact running
  | @resetTimer state _ _ _ =>
      exact ⟨numbered, timed_of_altered (altered_modifyState before state _) framesNumbered
        fun _ _ running => by cases running⟩
  | @requestFrame state _ _ _ =>
      exact ⟨numbered.schedule state,
        same (altered_modifyState _ state _) (fun _ => rfl) fun _ => rfl⟩
  | @choose choice _ _ _ _ _ _ =>
      exact ⟨numbered, same (altered_modifyState _ choice _) (fun _ => rfl) fun _ => rfl⟩

theorem Changes.framesNumbered (changes : Changes before after)
    (framesNumbered : before.FramesNumbered) :
    after.FramesNumbered := by
  induction changes with
  | refl => exact framesNumbered
  | tail _ change ih => exact change.framesNumbered ih

theorem Grown.framesNumbered (grown : Grown before after) (framesNumbered : before.FramesNumbered) :
    after.FramesNumbered where
  numbered := by
    rw [grown.frames]
    exact framesNumbered.numbered
  timed := by
    intro state node' found' running
    cases found : before.state? state with
    | none =>
        rw [(grown.newStates state node' found found').2.2.2] at running
        cases running
    | some node =>
        have grownNode := grown.grownNode found found'
        have timer : node'.timer = node.timer :=
          StateNode.read_lasting grownNode.lasting StateNode.timer fun _ => rfl
        have config : node'.config = node.config :=
          StateNode.read_lasting grownNode.lasting StateNode.config fun _ => rfl
        rw [config]
        exact framesNumbered.timed state node found (by rw [← timer]; exact running)

end FramesNumbered

end Machine

end Chart
