import Chart.Proofs.Forest.Growth
import Chart.Proofs.Run.Changing
import Chart.Proofs.Run.Journal

set_option autoImplicit false

/-!
Quiet callbacks. A quiet behaviour fires no transition; whether it may fail is a parameter of the
notion. Running it touches only the data of the root and of the state it belongs to; no status
changes, and nothing is told about states entered or left, nor of plans gone wrong. A machine is
calm when its callbacks are quiet and its automatic states own no regions.
-/

namespace Chart

/-- Fires nothing, and fails only where failures are permitted. -/
inductive Behavior.Quiet (mayFail : Prop) : Behavior → Prop
  | done : Quiet mayFail .done
  | fail (error : MachineError) (permitted : mayFail) : Quiet mayFail (.fail error)
  | note (text : String) {next : Behavior} (quiet : Quiet mayFail next) :
      Quiet mayFail (.note text next)
  | look {next : View → Behavior} (quiet : ∀ view, Quiet mayFail (next view)) :
      Quiet mayFail (.look next)
  | write (key : String) (value : Value) {next : Option Value → Behavior}
      (quiet : ∀ old, Quiet mayFail (next old)) : Quiet mayFail (.write key value next)

namespace Event

/-- Tells that a planned step was skipped, or that something already was as it should become. -/
def isMisstep : Event → Bool
  | .notice (.entrySkipped _ _) | .notice (.activationSkipped _ _) | .notice (.misuse _) => true
  | _ => false

/-- Tells that a state was not entered when it was to be: its region had been left, or it was active
already. -/
def isMissedEntry : Event → Bool
  | .notice (.entrySkipped _ _) | .notice (.misuse (.stateAlreadyActive _)) => true
  | _ => false

private theorem isMissedEntry_of_isMisstep {event : Event} (noMisstep : event.isMisstep = false) :
    event.isMissedEntry = false := by
  cases event with
  | notice notice =>
      cases notice with
      | misuse error => cases noMisstep
      | entrySkipped state name => cases noMisstep
      | _ => rfl
  | _ => rfl

/-- A plain event of a machine whose plans are carried out. -/
def isUneventful (event : Event) : Bool :=
  event.isPlain && !event.isMisstep

theorem isPlain_of_isUneventful {event : Event} (uneventful : event.isUneventful = true) :
    event.isPlain = true :=
  (Bool.and_eq_true_iff.mp uneventful).1

private theorem isMisstep_of_isUneventful {event : Event} (uneventful : event.isUneventful = true) :
    event.isMisstep = false :=
  (Bool.not_eq_true' _).mp (Bool.and_eq_true_iff.mp uneventful).2

end Event

namespace Machine

/-- Nothing that a state runs fires a transition; effects may do anything. -/
def QuietStates (mayFail : Prop) (machine : Machine) : Prop :=
  ∀ state node behavior, machine.state? state = some node → node.Runs behavior →
    behavior.Quiet mayFail

theorem QuietStates.of_sameChart {mayFail : Prop} {before after : Machine}
    (quietStates : before.QuietStates mayFail) (same : SameChart before after) :
    after.QuietStates mayFail := by
  intro state node behavior found runs
  obtain ⟨node', found', fixed⟩ := same.state?_backward found
  have runs' : node'.Runs behavior := by
    have equal := StateNode.read_eq fixed (fun node => node.Runs behavior) fun _ => rfl
    rw [equal]
    exact runs
  exact quietStates state node' behavior found' runs'

/-- Quiet callbacks, and no regions at automatic states. -/
structure Calm (mayFail : Prop) (machine : Machine) : Prop where
  behaviors : ∀ state node behavior, machine.state? state = some node → node.Runs behavior →
    behavior.Quiet mayFail
  effects : ∀ transition found effect memo, machine.transition? transition = some found →
    found.effect = some effect → (effect memo).Quiet mayFail
  leaves : ∀ state node, machine.state? state = some node →
    node.config.autoTransition = true → node.regions = []

namespace Calm

variable {mayFail : Prop} {before after : Machine}

theorem of_sameChart (calm : before.Calm mayFail) (same : SameChart before after) :
    after.Calm mayFail where
  behaviors := QuietStates.of_sameChart calm.behaviors same
  effects := by
    intro transition found effect memo present isEffect
    rcases same.chosen transition found present with earlier | ⟨name, choice, target, region, made⟩
    · exact calm.effects transition found effect memo earlier isEffect
    · rw [made] at isEffect
      cases isEffect
  leaves := by
    intro state node found auto
    obtain ⟨node', found', fixed⟩ := same.state?_backward found
    have config : node'.config = node.config :=
      StateNode.read_eq fixed StateNode.config fun _ => rfl
    have regions : node'.regions = node.regions :=
      StateNode.read_eq fixed StateNode.regions fun _ => rfl
    rw [← regions]
    exact calm.leaves state node' found' (by rw [config]; exact auto)

theorem before_sameChart (calm : after.Calm mayFail) (same : SameChart before after) :
    before.Calm mayFail where
  behaviors := by
    intro state node behavior found runs
    obtain ⟨node', found', fixed⟩ := same.state?_forward found
    have runs' : node'.Runs behavior := by
      have equal := StateNode.read_eq fixed (fun node => node.Runs behavior) fun _ => rfl
      rw [equal]
      exact runs
    exact calm.behaviors state node' behavior found' runs'
  effects := by
    intro transition found effect memo present isEffect
    exact calm.effects transition found effect memo (same.kept transition found present) isEffect
  leaves := by
    intro state node found auto
    obtain ⟨node', found', fixed⟩ := same.state?_forward found
    have config : node'.config = node.config :=
      StateNode.read_eq fixed StateNode.config fun _ => rfl
    have regions : node'.regions = node.regions :=
      StateNode.read_eq fixed StateNode.regions fun _ => rfl
    rw [← regions]
    exact calm.leaves state node' found' (by rw [config]; exact auto)

theorem before_grown (calm : after.Calm mayFail) (grown : Grown before after) :
    before.Calm mayFail where
  behaviors := by
    intro state node behavior found runs
    obtain ⟨node', found', grownNode⟩ := grown.states state node found
    have runs' : node'.Runs behavior := by
      have equal := StateNode.read_lasting grownNode.lasting (fun node => node.Runs behavior)
        fun _ => rfl
      rw [equal]
      exact runs
    exact calm.behaviors state node' behavior found' runs'
  effects := by
    intro transition found effect memo present isEffect
    obtain ⟨found', present', grownTransition⟩ := grown.transitions transition found present
    have sameEffect := congrArg Transition.effect grownTransition.lasting
    exact calm.effects transition found' effect memo present' (sameEffect.trans isEffect)
  leaves := by
    intro state node found auto
    obtain ⟨node', found', grownNode⟩ := grown.states state node found
    have config : node'.config = node.config :=
      StateNode.read_lasting grownNode.lasting StateNode.config fun _ => rfl
    have none' := calm.leaves state node' found' (by rw [config]; exact auto)
    have known := grownNode.regions
    rw [none'] at known
    exact List.subset_nil.mp known

end Calm

/-! ### Changes that touch one state -/

/-- On the way no planned step was skipped, and nothing was found to be as it should become. -/
def NoMisstep (before after : Machine) : Prop :=
  ∃ events, Told before after events ∧ ∀ event ∈ events, event.isMisstep = false

/-- On the way every state was entered that was to be. -/
def NoMissedEntry (before after : Machine) : Prop :=
  ∃ events, Told before after events ∧ ∀ event ∈ events, event.isMissedEntry = false

/-- No status changed, and nothing was told of one or of regions that joined. -/
structure Still (before after : Machine) : Prop where
  changes : Changes before after
  states : ∀ state, after.isStateActive state = before.isStateActive state
  regions : after.regions = before.regions
  told : ∃ events, Told before after events ∧ ∀ event ∈ events, event.moves = false

structure Uneventful (before after : Machine) : Prop extends Still before after where
  noMisstep : NoMisstep before after

/-- Uneventful, and no state but the given one and the root is touched. -/
structure TouchesOnly (state : StateId) (before after : Machine) :
    Prop extends Uneventful before after where
  others : ∀ other, other ≠ state → other ≠ root → after.state? other = before.state? other

theorem NoMisstep.refl (machine : Machine) : NoMisstep machine machine :=
  ⟨[], Told.refl machine, by simp⟩

theorem NoMisstep.trans {before middle after : Machine} (first : NoMisstep before middle)
    (second : NoMisstep middle after) : NoMisstep before after := by
  obtain ⟨early, toldEarly, cleanEarly⟩ := first
  obtain ⟨late, toldLate, cleanLate⟩ := second
  exact ⟨early ++ late, toldEarly.trans toldLate,
    List.forall_mem_append.mpr ⟨cleanEarly, cleanLate⟩⟩

theorem NoMisstep.noMissedEntry {before after : Machine} (noMisstep : NoMisstep before after) :
    NoMissedEntry before after := by
  obtain ⟨events, told, unslipped⟩ := noMisstep
  exact ⟨events, told, fun event member => Event.isMissedEntry_of_isMisstep
    (unslipped event member)⟩

theorem NoMissedEntry.trans {before middle after : Machine} (first : NoMissedEntry before middle)
    (second : NoMissedEntry middle after) : NoMissedEntry before after := by
  obtain ⟨early, toldEarly, promptEarly⟩ := first
  obtain ⟨late, toldLate, promptLate⟩ := second
  exact ⟨early ++ late, toldEarly.trans toldLate,
    List.forall_mem_append.mpr ⟨promptEarly, promptLate⟩⟩

theorem noMissedEntry_note (machine : Machine) {event : Event}
    (noMissedEntry : event.isMissedEntry = false) :
    NoMissedEntry machine (machine.note event) :=
  ⟨_, told_note machine event, by simpa using noMissedEntry⟩

namespace Still

theorem refl (machine : Machine) : Still machine machine where
  changes := Relation.ReflTransGen.refl
  states := fun _ => rfl
  regions := rfl
  told := ⟨[], Told.refl machine, by simp⟩

variable {before middle after : Machine}

theorem trans (first : Still before middle) (second : Still middle after) : Still before after where
  changes := first.changes.trans second.changes
  states := fun state => (second.states state).trans (first.states state)
  regions := second.regions.trans first.regions
  told := by
    obtain ⟨early, toldEarly, quietEarly⟩ := first.told
    obtain ⟨late, toldLate, quietLate⟩ := second.told
    refine ⟨early ++ late, toldEarly.trans toldLate, fun event member => ?_⟩
    rcases List.mem_append.mp member with inEarly | inLate
    · exact quietEarly event inEarly
    · exact quietLate event inLate

theorem region? (still : Still before after) (region : RegionId) :
    after.region? region = before.region? region := by
  simp only [Machine.region?, still.regions]

theorem isRegionActive (still : Still before after) (region : RegionId) :
    after.isRegionActive region = before.isRegionActive region := by
  unfold Machine.isRegionActive
  rw [still.region?]

theorem sameChart (still : Still before after) : SameChart before after :=
  still.changes.sameChart

theorem coherent (still : Still before after) (coherent : before.Coherent) : after.Coherent :=
  coherent.of_statuses still.sameChart still.states still.isRegionActive

theorem idle (still : Still before after) {region : RegionId} (idle : before.Idle region) :
    after.Idle region := by
  refine ⟨by rw [still.isRegionActive]; exact idle.1, fun state contained => ?_⟩
  rw [still.sameChart.containerOf?] at contained
  rw [still.states]
  exact idle.2 state contained

theorem childless (still : Still before after) {region : RegionId}
    (childless : after.Childless region) :
    before.Childless region :=
  childless.of_statuses still.sameChart still.states still.isRegionActive

theorem note (machine : Machine) {event : Event} (plain : event.isPlain = true) :
    Still machine (machine.note event) where
  changes := (Change.note event plain).one
  states := fun _ => rfl
  regions := rfl
  told := ⟨[event], told_note machine event, by simpa using Event.moves_of_isPlain plain⟩

end Still

theorem Uneventful.refl (machine : Machine) : Uneventful machine machine :=
  { toStill := Still.refl machine, noMisstep := NoMisstep.refl machine }

theorem Uneventful.trans {before middle after : Machine} (first : Uneventful before middle)
    (second : Uneventful middle after) : Uneventful before after :=
  { toStill := first.toStill.trans second.toStill, noMisstep :=
    first.noMisstep.trans second.noMisstep }

namespace TouchesOnly

variable {state : StateId} {before middle after : Machine}

theorem refl (state : StateId) (machine : Machine) : TouchesOnly state machine machine :=
  { toUneventful := Uneventful.refl machine, others := fun _ _ _ => rfl }

theorem trans (first : TouchesOnly state before middle) (second : TouchesOnly state middle after) :
    TouchesOnly state before after where
  toUneventful := first.toUneventful.trans second.toUneventful
  others := fun other different notRoot =>
    (second.others other different notRoot).trans (first.others other different notRoot)

private theorem of_stores {before after : Machine} {event : Event}
    (change : Change True before after)
    (states : after.states = before.states) (regions : after.regions = before.regions)
    (told : Told before after [event] ∨ Told before after [])
    (quiet : event.moves = false ∧ event.isMisstep = false) : TouchesOnly state before after where
  changes := change.one
  states := by
    intro other
    simp only [isStateActive, state?, states]
  regions := regions
  told := by
    rcases told with one | none'
    · exact ⟨[event], one, by simpa using quiet.1⟩
    · exact ⟨[], none', by simp⟩
  noMisstep := by
    rcases told with one | none'
    · exact ⟨[event], one, by simpa using quiet.2⟩
    · exact ⟨[], none', by simp⟩
  others := by
    intro other _ _
    simp only [state?, states]

theorem note (state : StateId) (machine : Machine) {event : Event}
    (uneventful : event.isUneventful = true) :
    TouchesOnly state machine (machine.note event) :=
  of_stores (Change.note event (Event.isPlain_of_isUneventful uneventful)) rfl rfl
    (Or.inl (told_note machine event))
    ⟨Event.moves_of_isPlain (Event.isPlain_of_isUneventful uneventful),
      Event.isMisstep_of_isUneventful uneventful⟩

theorem recorded (state : StateId) (machine : Machine) (id : TransitionId) (firing : Firing) :
    TouchesOnly state machine (machine.recorded id firing) :=
  of_stores (Change.record id firing) rfl rfl (Or.inl (told_note _ (.recorded id firing)))
    ⟨rfl, rfl⟩

theorem framesTaken (state : StateId) (machine : Machine) :
    TouchesOnly state machine machine.framesTaken :=
  @of_stores state _ _ (.note "") (Change.takeFrames trivial) rfl rfl (Or.inr (Told.refl machine))
    ⟨rfl, rfl⟩

theorem frameCancelled (state : StateId) {machine : Machine} {handle : FrameHandle}
    (stale : ∀ node, machine.state? handle.state = some node → node.frame ≠ some handle) :
    TouchesOnly state machine (machine.frameCancelled handle) :=
  @of_stores state _ _ (.note "") (Change.cancelFrame handle stale) rfl rfl
    (Or.inr (Told.refl machine)) ⟨rfl, rfl⟩

private theorem of_modifyState {before current : Machine} {place : StateId}
    {change : StateNode → StateNode} {events : List Event}
    (step : Change True before (current.modifyState place change))
    (sameStates : current.states = before.states) (sameRegions : current.regions = before.regions)
    (told : Told before current events)
    (quiet : ∀ event ∈ events, event.moves = false ∧ event.isMisstep = false)
    (same : ∀ node, (change node).status = node.status) (allowed : place = state ∨ place = root) :
    TouchesOnly state before (current.modifyState place change) where
  changes := step.one
  states := by
    intro other
    rw [isStateActive_modifyState change same]
    simp only [isStateActive, state?, sameStates]
  regions := sameRegions
  told := ⟨events, told, fun event member => (quiet event member).1⟩
  noMisstep := ⟨events, told, fun event member => (quiet event member).2⟩
  others := by
    intro other different notRoot
    have elsewhere : place ≠ other := by
      rintro rfl
      rcases allowed with here | here
      · exact different here
      · exact notRoot here
    rw [state?_modifyState, if_neg elsewhere]
    simp only [state?, sameStates]

theorem write (state : StateId) (machine : Machine) (key : String) (value : Value) :
    TouchesOnly state machine (machine.set key value).2 :=
  of_modifyState (Change.write key value) rfl rfl (Told.refl machine) (by simp) (fun _ => rfl)
    (Or.inr rfl)

theorem timerArmed {machine : Machine} {node : StateNode}
    (found : machine.state? state = some node) (active : node.status.isActive = true)
    (normal : node.kind = .normal) (timed : node.config.timer = true) :
    TouchesOnly state machine (machine.timerArmed state) :=
  of_modifyState (Change.armTimer found active normal timed) rfl rfl (Told.refl machine)
    (by simp) (fun _ => rfl) (Or.inl rfl)

theorem frameFolded {machine : Machine} {handle : FrameHandle} {node : StateNode}
    (found : machine.state? handle.state = some node) (awaited : node.frame = some handle)
    (running : node.timer.running = true) (now : Duration) :
    TouchesOnly handle.state machine (machine.frameFolded handle node now) :=
  of_modifyState (Change.foldFrame found awaited running now) rfl rfl
    (told_note machine (.delivered handle)) (by simp [Event.moves, Event.isMisstep]) (fun _ => rfl)
    (Or.inl rfl)

theorem timerReset {machine : Machine} {node : StateNode}
    (found : machine.state? state = some node) (stopped : node.timer.running = false) :
    TouchesOnly state machine (machine.timerReset state) :=
  of_modifyState (Change.resetTimer found stopped) rfl rfl (Told.refl machine) (by simp)
    (fun _ => rfl) (Or.inl rfl)

theorem frameRequested {machine : Machine} {node : StateNode}
    (found : machine.state? state = some node) (running : node.timer.running = true) :
    TouchesOnly state machine (machine.frameRequested state) :=
  of_modifyState (Change.requestFrame found running) rfl rfl (Told.refl machine) (by simp)
    (fun _ => rfl) (Or.inl rfl)

theorem transitionChosen {machine : Machine} {node : StateNode} {region : RegionId}
    {target : String} (found : machine.state? state = some node)
    (contained : node.container = some region)
    (fresh : Dictionary.find? node.choices target = none) :
    TouchesOnly state machine (machine.transitionChosen state node.name target region).2 :=
  of_modifyState (Change.choose found contained fresh) rfl rfl (Told.refl machine) (by simp)
    (fun _ => rfl) (Or.inl rfl)

theorem notedAll (state : StateId) (machine : Machine) (texts : List String) :
    TouchesOnly state machine (machine.notedAll texts) := by
  induction texts generalizing machine with
  | nil => exact refl state machine
  | cons text rest ih => exact (note state machine rfl).trans (ih _)

end TouchesOnly

end Machine

namespace Run

open Machine (TouchesOnly)

variable {calls : Calls} {mayFail : Prop}

theorem ends_behave_quiet {state : StateId} {behavior : Behavior}
    (quiet : behavior.Quiet mayFail) (machine : Machine) :
    Ends (behave calls state behavior) machine (fun _ after => TouchesOnly state machine after)
      (fun halt after => TouchesOnly state machine after ∧ halt ≠ .exhausted ∧ mayFail) := by
  -- By induction on the behaviour, which asks for nothing but notes, looks and writes.
  induction quiet generalizing machine with
  | done => exact TouchesOnly.refl state machine
  | fail error permitted => exact ⟨TouchesOnly.refl state machine, by simp, permitted⟩
  | note text _ ih =>
      unfold behave
      rw [ends_bind, ends_note]
      have noted : TouchesOnly state machine (machine.note (.note text)) :=
        TouchesOnly.note state machine rfl
      exact (ih _).mono (fun _ _ touches => noted.trans touches)
        fun _ _ failure => ⟨noted.trans failure.1, failure.2⟩
  | look _ ih =>
      unfold behave
      rw [ends_bind, ends_get]
      exact ih _ machine
  | write key value _ ih =>
      unfold behave
      rw [ends_bind, ends_modifyGet]
      have written := TouchesOnly.write state machine key value
      exact (ih _ _).mono (fun _ _ touches => written.trans touches)
        fun _ _ failure => ⟨written.trans failure.1, failure.2⟩

theorem ends_startBehavior_quiet {state : StateId} {behavior : Option Behavior}
    (quiet : ∀ present, behavior = some present → present.Quiet mayFail) (phase : Phase)
    (machine : Machine) :
    Ends (startBehavior calls state phase behavior) machine
      (fun _ after => TouchesOnly state machine after)
      (fun halt after => TouchesOnly state machine after ∧ halt ≠ .exhausted ∧ mayFail) := by
  unfold startBehavior
  cases behavior with
  | none => exact TouchesOnly.refl state machine
  | some present =>
      dsimp only
      rw [ends_bind, ends_note]
      have started : TouchesOnly state machine (machine.note (.started phase state)) :=
        TouchesOnly.note state machine rfl
      exact (ends_behave_quiet (quiet present rfl) _).mono
        (fun _ _ touches => started.trans touches)
        fun _ _ failure => ⟨started.trans failure.1, failure.2⟩

end Run
end Chart
