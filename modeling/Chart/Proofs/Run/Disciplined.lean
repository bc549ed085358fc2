import Chart.Proofs.Run.Discipline

set_option autoImplicit false

/-!
The operations, each taken once for all disciplines. Over calls that keep a discipline, an operation
keeps it where each of its steps is allowed: what every operation may do is collected in `Sound`,
what only some of them do in `Chooses`, `Fires` and `Ticks`. Disciplines differ most in what they
ask of entries. The operations that enter states are therefore reduced to what is entered, and each
discipline adds its own.
-/

namespace Chart

/-- The behaviours of a state: entry, exit and activity. -/
def StateNode.Runs (node : StateNode) (behavior : Behavior) : Prop :=
  node.entry = some behavior ∨ node.exit = some behavior ∨ node.activity = some behavior

def StateNode.opening (node : StateNode) : Option Behavior :=
  if node.kind = .normal then node.entry else none

def StateNode.closing (node : StateNode) : Option Behavior :=
  if node.kind = .normal then node.exit else none

private theorem StateNode.runs_closing {node : StateNode} {behavior : Behavior}
    (closes : node.closing = some behavior) : node.Runs behavior := by
  unfold closing at closes
  split at closes
  · exact Or.inr (Or.inl closes)
  · cases closes

namespace Machine

/-- The machine when the behaviour, if there is one, begins. -/
def starting (machine : Machine) (phase : Phase) (state : StateId) : Option Behavior → Machine
  | none => machine
  | some _ => machine.note (.started phase state)

/-- The last that was told is that the transition left its source and ran its effect. -/
def JustFired (machine : Machine) (id : TransitionId) : Prop :=
  ∃ firing, machine.journal.back? = some (.recorded id firing) ∧ firing.internal = false

end Machine

namespace Run

open Machine (SameChart)

/-! ### The operations by their parts -/

/-- Runs the behaviour, if there is one, after it has been noted that it starts. -/
def perform (calls : Calls) (state : StateId) : Option Behavior → Run Unit
  | none => pure ()
  | some present => behave calls state present

/-- What is left to do in a normal state when its entry behaviour has ended. -/
def settleEntry (calls : Calls) (state : StateId) (node : StateNode) : Run Unit := do
  if (← get).isStateActive state then
    if node.config.timer then startTimer state else finishEntry calls state node

/-- What an external transition does once its firing is recorded. -/
def enterTarget (calls : Calls) (ends : Machine.Endpoints) : Run Unit := do
  let machine ← get
  if machine.level ends.source < machine.level ends.target then enterExplicit calls ends.target
  else enterDefault calls ends.target

section Parts

variable {calls : Calls} {state : StateId} {machine : Machine} {node : StateNode}
  {ended : Unit → Machine → Prop} {failed : Halt → Machine → Prop}

theorem ends_startBehavior {phase : Phase} {behavior : Option Behavior} :
    Ends (startBehavior calls state phase behavior) machine ended failed ↔
      Ends (perform calls state behavior) (machine.starting phase state behavior) ended
        failed := by
  cases behavior with
  | none => exact Iff.rfl
  | some present =>
      unfold startBehavior
      dsimp only
      rw [ends_bind, ends_note]
      exact Iff.rfl

theorem ends_deactivate (found : machine.state? state = some node)
    (active : node.status.isActive = true) :
    Ends (deactivate calls state) machine ended failed ↔
      Ends (if node.kind = .normal then startBehavior calls state .exit node.exit else pure ())
        (machine.left state node) ended failed := by
  unfold deactivate
  rw [ends_bind, ends_get, found]
  simp only [active, if_true, ends_bind, ends_modify, ends_report]
  unfold Machine.left
  split
  · unfold leaveNormal stopTimer
    rw [ends_bind, ends_modify]
    cases node.container with
    | none => exact Iff.rfl
    | some region => exact ends_bind _ _
  · exact Iff.rfl

theorem ends_activate (found : machine.state? state = some node)
    (inactive : node.status.isActive = false) :
    Ends (activate calls state) machine ended failed ↔
      Ends
        (match node.kind, node.container with
          | .normal, _ => enterNormal calls state node
          | .initial, some region => followInitial calls region
          | .history _, some region => resumeHistory calls state region
          | .initial, none | .history _, none => pure ()
          | .choice, _ => followChoice calls state node
          | .final, _ => reachFinal calls state node
          | .root, _ => pure ())
        (machine.entered state node.name) ended failed := by
  unfold activate
  rw [ends_bind, ends_get, found]
  simp only [inactive, Bool.false_eq_true, if_false, ends_bind, ends_modify, ends_report]
  exact Iff.rfl

theorem ends_enterNormal_begun :
    Ends (enterNormal calls state node) machine ended failed ↔
      Ends (do
        perform calls state node.entry
        settleEntry calls state node) (machine.starting .entry state node.entry) ended failed := by
  unfold enterNormal
  rw [ends_bind, ends_startBehavior, ends_bind]
  exact Iff.rfl

theorem ends_fireExternal_of {id : TransitionId} {transition : Transition}
    {ends : Machine.Endpoints} {memo : Value} {sourceName targetName : String}
    {finished : Outcome → Machine → Prop}
    (parts : Ends (exit calls ends.source)
      (machine.note (.notice (.firing id transition.name sourceName targetName)))
      (fun _ gone => Ends (runEffect calls transition ends.source memo) gone
        (fun _ acted => Ends (enterTarget calls ends)
          (acted.recorded id ⟨transition.name, sourceName, targetName, false⟩)
          (fun _ after => finished .fired after) failed) failed) failed) :
    Ends (fireExternal calls id transition ends sourceName targetName memo) machine finished
      failed := by
  unfold fireExternal
  rw [ends_bind, ends_report, ends_bind]
  refine parts.mono (fun _ gone acting => ?_) fun _ _ failure => failure
  rw [ends_bind]
  refine acting.mono (fun _ acted entering => ?_) fun _ _ failure => failure
  rw [ends_bind]
  change Ends _ (acted.recorded id ⟨transition.name, sourceName, targetName, false⟩) _ _
  unfold enterTarget at entering
  rw [ends_bind, ends_get] at entering ⊢
  split
  · rename_i deeper
    rw [if_pos deeper] at entering
    exact (ends_bind _ _).mpr entering
  · rename_i notDeeper
    rw [if_neg notDeeper] at entering
    exact (ends_bind _ _).mpr entering

end Parts

namespace Discipline

variable {discipline : Discipline}

/-! ### What is allowed -/

/-- Regions may be opened while their owners are active. -/
structure Opens (discipline : Discipline) : Prop where
  opened : ∀ {machine : Machine} {region members}, discipline.fit machine →
    machine.region? region = some members → members.status.isActive = false →
    machine.isStateActive members.owner = true →
    discipline.finished machine (machine.opened region members.name)

/-- What every operation may do: run the callbacks of the machine, leave states and regions, open
regions, and start activities and timers. -/
structure Sound (discipline : Discipline) : Prop extends Lawful discipline, Opens discipline where
  behaviors : ∀ {machine : Machine} {state node behavior}, discipline.fit machine →
    machine.state? state = some node → node.Runs behavior → discipline.permits behavior
  behave : ∀ {calls}, discipline.KeptBy calls → ∀ state {behavior}, discipline.permits behavior →
    discipline.Kept (behave calls state behavior)
  left : ∀ {machine : Machine} {state node}, discipline.fit machine →
    machine.state? state = some node → node.status.isActive = true →
    discipline.finished machine
      ((machine.left state node).starting .exit state node.closing)
  closed : ∀ {machine : Machine} {region members}, discipline.fit machine →
    machine.region? region = some members → members.status.isActive = true →
    discipline.finished machine (machine.closed region members.name)
  joined : ∀ {machine : Machine} {owner}, discipline.fit machine →
    (∀ region ∈ machine.regionsOf owner, machine.isRegionActive region = false) →
    discipline.finished machine (machine.joined owner)
  started : ∀ {machine : Machine} {state}, discipline.fit machine →
    machine.isStateActive state = true →
    discipline.finished machine (machine.note (.started .activity state))
  timed : ∀ {machine : Machine} {state node}, discipline.fit machine →
    machine.state? state = some node → node.status.isActive = true → node.kind = .normal →
    node.config.timer = true →
    discipline.finished machine
      ((machine.timerArmed state).note (.notice (.timerStarted state (machine.stateName state))))

/-- Choices may decide, and may make the transitions they decide for. -/
structure Chooses (discipline : Discipline) : Prop where
  decided : ∀ {machine : Machine} choice answer, discipline.fit machine →
    discipline.finished machine (machine.note (.decided choice answer))
  chosen : ∀ {machine : Machine} {choice node region target}, discipline.fit machine →
    machine.state? choice = some node → node.container = some region →
    Dictionary.find? node.choices target = none →
    (machine.resolveState? region target).isSome = true →
    discipline.finished machine (machine.transitionChosen choice node.name target region).2

/-- States may be entered, and their entry behaviours be started. -/
structure Enters (discipline : Discipline) : Prop where
  entered : ∀ {machine : Machine} {state node}, discipline.fit machine →
    machine.state? state = some node → node.status.isActive = false →
    discipline.finished machine (machine.entered state node.name)
  began : ∀ {machine : Machine} state, discipline.fit machine →
    discipline.finished machine (machine.note (.started .entry state))

/-- Transitions may be asked for, run their effects, and be recorded and settled. -/
structure Fires (discipline : Discipline) : Prop where
  effects : ∀ {machine : Machine} {id transition effect} memo, discipline.fit machine →
    machine.transition? id = some transition → transition.effect = some effect →
    discipline.permits (effect memo)
  requested : ∀ {machine : Machine} id, discipline.fit machine →
    discipline.finished machine (machine.note (.requested id))
  recorded : ∀ {machine : Machine} id firing, discipline.fit machine →
    discipline.finished machine (machine.recorded id firing)
  settled : ∀ {machine : Machine} id outcome, discipline.fit machine →
    discipline.finished machine (machine.note (.settled id outcome))

/-- Frames may be delivered, requested and cancelled, and stopped timers be reset. -/
structure Ticks (discipline : Discipline) : Prop where
  started : ∀ {machine : Machine} state, discipline.fit machine →
    discipline.finished machine (machine.note (.started .activity state))
  folded : ∀ {machine : Machine} {handle : FrameHandle} {node} now, discipline.fit machine →
    machine.state? handle.state = some node → node.frame = some handle →
    node.timer.running = true → discipline.finished machine (machine.frameFolded handle node now)
  requested : ∀ {machine : Machine} {state node}, discipline.fit machine →
    machine.state? state = some node → node.timer.running = true →
    discipline.finished machine (machine.frameRequested state)
  reset : ∀ {machine : Machine} {state node} name, discipline.fit machine →
    machine.state? state = some node → node.timer.running = false →
    discipline.finished machine
      ((machine.timerReset state).note (.notice (.timerStopped state name)))
  cancelled : ∀ {machine : Machine} {handle : FrameHandle}, discipline.fit machine →
    (∀ node, machine.state? handle.state = some node → node.frame ≠ some handle) →
    discipline.finished machine (machine.frameCancelled handle)

theorem finished_starting (lawful : discipline.Lawful) {machine : Machine} {phase : Phase}
    {state : StateId} (fit : discipline.fit machine)
    (starts : discipline.finished machine (machine.note (.started phase state)))
    (behavior : Option Behavior) :
    discipline.finished machine (machine.starting phase state behavior) := by
  cases behavior with
  | none => exact lawful.refl fit
  | some present => exact starts

/-! ### Choosing -/

/-- The choice as it was found when it was entered still tells its name and container, and which
targets it has chosen so far. -/
theorem keptFrom_choiceTransition (lawful : discipline.Lawful) (chooses : discipline.Chooses)
    {choice : StateId}
    {node current : StateNode} {region : RegionId} {machine : Machine} (target : String)
    (fit : discipline.fit machine) (found : machine.state? choice = some current)
    (named : current.name = node.name) (contained : current.container = some region)
    (chosen : current.choices = node.choices) :
    discipline.KeptFrom (choiceTransition choice node region target) machine := by
  unfold choiceTransition
  split
  · exact lawful.refl fit
  · rename_i fresh
    apply KeptFrom.get
    split
    · exact kept_fail lawful _ machine fit
    · rename_i resolved
      have makes : discipline.finished machine
          (machine.transitionChosen choice node.name target region).2 := by
        rw [← named]
        exact chooses.chosen fit found contained (by rw [chosen]; exact fresh)
          (Option.isSome_iff_ne_none.mpr (by simpa using resolved))
      exact makes

theorem keptFrom_followChoice (lawful : discipline.Lawful) (chooses : discipline.Chooses)
    {calls : Calls} (triggers : ∀ id memo, discipline.Kept (calls.trigger id memo))
    {state : StateId}
    {node current : StateNode} {machine : Machine} (fit : discipline.fit machine)
    (found : machine.state? state = some current) (named : current.name = node.name)
    (contained : current.container = node.container) (chosen : current.choices = node.choices) :
    discipline.KeptFrom (followChoice calls state node) machine := by
  unfold followChoice
  split
  · exact kept_fail lawful _ machine fit
  · rename_i decision _
    unfold KeptFrom
    rw [ends_bind, ends_get, ends_bind, ends_note, ends_bind, ends_noteAll]
    set verdict := decision (machine.view state)
    have decided := chooses.decided state verdict.answer fit
    have told := lawful.trans decided
      (finished_notedAll lawful (lawful.fit fit decided) verdict.notes)
    have foundTold : ((machine.note (.decided state verdict.answer)).notedAll
        verdict.notes).state? state = some current := by
      rw [← found]
      simp [Machine.state?, Machine.note]
    generalize (machine.note (.decided state verdict.answer)).notedAll verdict.notes = asked at *
    have fitAsked := lawful.fit fit told
    split
    · exact (kept_fail lawful _ asked fitAsked).after lawful told
    · rename_i target _
      split
      · exact told
      · rename_i region inRegion
        refine KeptFrom.after lawful ?_ told
        apply KeptFrom.bind lawful (keptFrom_choiceTransition lawful chooses target fitAsked
          foundTold named (contained.trans inRegion) chosen)
        intro transition after finished
        exact (triggers transition .null).discard after (lawful.fit fitAsked finished)

theorem keptFrom_activate (lawful : discipline.Lawful) {calls : Calls} {state : StateId}
    {machine : Machine} (fit : discipline.fit machine)
    (enters : ∀ node, machine.state? state = some node → node.status.isActive = false →
      discipline.KeptFrom (activate calls state) machine) :
    discipline.KeptFrom (activate calls state) machine := by
  cases found : machine.state? state with
  | none =>
      unfold KeptFrom activate
      rw [ends_bind, ends_get, found]
      exact lawful.refl fit
  | some node =>
      by_cases active : node.status.isActive = true
      · unfold KeptFrom activate
        rw [ends_bind, ends_get, found]
        simp only [active, if_true]
        exact kept_warn lawful _ machine fit
      · exact enters node found (by simpa using active)

/-! ### Plans of entries -/

section Plans

variable {calls : Calls} (lawful : discipline.Lawful) (opens : discipline.Opens)
include lawful opens

private theorem keptFrom_activateRegion {region : RegionId} {members : Region} {machine : Machine}
    (fit : discipline.fit machine) (found : machine.region? region = some members)
    (active : machine.isStateActive members.owner = true) :
    discipline.KeptFrom (activateRegion region) machine := by
  apply KeptFrom.get
  rw [found]
  dsimp only
  split
  · exact kept_warn lawful _ machine fit
  · rename_i isInactive
    exact opens.opened fit found (by simpa using isInactive) active

theorem keptFrom_entryStep {step : Machine.Step} {machine : Machine}
    (fit : discipline.fit machine) (activates : ∀ state, step = .state state →
      discipline.KeptFrom (activate calls state) machine) :
    discipline.KeptFrom (entryStep calls step) machine := by
  cases step with
  | state state =>
      apply KeptFrom.get
      split
      · exact activates state rfl
      · split
        · exact activates state rfl
        · exact kept_note lawful rfl machine fit
  | region region =>
      apply KeptFrom.get
      split
      · exact lawful.refl fit
      · rename_i members found
        split
        · rename_i active
          exact keptFrom_activateRegion lawful opens fit found active
        · exact kept_note lawful rfl machine fit

theorem keptFrom_enterBy (admits : Machine → StateId → Prop)
    (stays : ∀ {before after state}, discipline.finished before after → admits before state →
      admits after state)
    (activates : ∀ {machine state}, discipline.fit machine → admits machine state →
      discipline.KeptFrom (activate calls state) machine)
    {plan : List Machine.Step} {machine : Machine} (fit : discipline.fit machine)
    (admitted : ∀ state, .state state ∈ plan → admits machine state) :
    discipline.KeptFrom (enterBy calls plan) machine := by
  -- By induction on the plan, whose states stay admitted.
  induction plan generalizing machine with
  | nil => exact lawful.refl fit
  | cons step rest ih =>
      have steps : discipline.KeptFrom (entryStep calls step) machine := by
        apply keptFrom_entryStep lawful opens fit
        intro state isStep
        exact activates fit (admitted state (by rw [isStep]; exact List.mem_cons_self ..))
      apply KeptFrom.bind lawful steps
      intro _ after finished
      apply ih (lawful.fit fit finished)
      exact fun state named => stays finished (admitted state (List.mem_cons_of_mem _ named))

end Plans

/-! ### Requests -/

section Requests

variable {calls : Calls} (lawful : discipline.Lawful) {id : TransitionId} {memo : Value}
  {machine : Machine}
include lawful

theorem keptFrom_fireResolved {transition : Transition} {ends : Machine.Endpoints}
    (fit : discipline.fit machine)
    (fires : ∀ {guarded}, machine.isStateActive ends.source = true →
      discipline.finished machine guarded → discipline.fit guarded →
      discipline.KeptFrom (fireInternal calls id transition ends.source
        (machine.stateName ends.source) memo) guarded ∧
      discipline.KeptFrom (fireExternal calls id transition ends (machine.stateName ends.source)
        (machine.stateName ends.target) memo) guarded) :
    discipline.KeptFrom (fireResolved calls id transition ends memo) machine := by
  apply KeptFrom.get
  split
  · exact kept_note lawful rfl machine fit
  · rename_i isActive
    have active : machine.isStateActive ends.source = true := by simpa using isActive
    apply KeptFrom.bind lawful (kept_guardAccepts lawful _ _ _ machine fit)
    intro accepted guarded finished
    have fitGuarded := lawful.fit fit finished
    split
    · exact kept_note lawful rfl guarded fitGuarded
    · split
      · exact (fires active finished fitGuarded).1
      · exact (fires active finished fitGuarded).2

theorem ends_trigger_of_resolved (settled : ∀ {machine : Machine} outcome, discipline.fit machine →
      discipline.finished machine (machine.note (.settled id outcome)))
    (fit : discipline.fit (machine.note (.requested id)))
    (fires : ∀ {transition ends}, (machine.note (.requested id)).transition? id = some transition →
      (machine.note (.requested id)).endpoints id = .ok ends →
      discipline.KeptFrom (fireResolved calls id transition ends memo)
        (machine.note (.requested id))) :
    Ends (trigger calls id memo) machine
      (fun _ after => discipline.finished (machine.note (.requested id)) after)
      fun halt after => discipline.halted halt (machine.note (.requested id)) after := by
  unfold trigger
  rw [ends_bind, ends_note]
  apply KeptFrom.get
  split
  · rename_i transition ends found resolved
    apply KeptFrom.bind lawful (fires found resolved)
    exact fun outcome after finished => settled outcome (lawful.fit fit finished)
  · exact kept_fail lawful _ _ fit
  · exact kept_fail lawful _ _ fit

end Requests

theorem keptFrom_deactivate (lawful : discipline.Lawful) {calls : Calls} {state : StateId}
    {machine : Machine} (fit : discipline.fit machine)
    (leaves : ∀ node, machine.state? state = some node → node.status.isActive = true →
      Ends (perform calls state node.closing)
        ((machine.left state node).starting .exit state node.closing)
        (fun _ after => discipline.finished machine after)
        fun halt after => discipline.halted halt machine after) :
    discipline.KeptFrom (deactivate calls state) machine := by
  cases found : machine.state? state with
  | none =>
      unfold KeptFrom deactivate
      rw [ends_bind, ends_get, found]
      exact lawful.refl fit
  | some node =>
      by_cases active : node.status.isActive = true
      · have closes : (if node.kind = .normal then startBehavior calls state .exit node.exit
            else pure ()) = startBehavior calls state .exit node.closing := by
          unfold StateNode.closing
          split <;> rfl
        unfold KeptFrom
        rw [ends_deactivate found active, closes, ends_startBehavior]
        exact leaves node found active
      · unfold KeptFrom deactivate
        rw [ends_bind, ends_get, found]
        simp only [active]
        exact kept_warn lawful _ machine fit

section Operations

variable {calls : Calls} (sound : discipline.Sound) (kept : discipline.KeptBy calls)
include sound kept

/-! ### Leaving -/

private theorem kept_perform (state : StateId) {behavior : Option Behavior}
    (permitted : ∀ present, behavior = some present → discipline.permits present) :
    discipline.Kept (perform calls state behavior) := by
  cases behavior with
  | none => exact kept_pure sound.toLawful _
  | some present => exact sound.behave kept state (permitted present rfl)

theorem kept_startBehavior (state : StateId) {phase : Phase} {behavior : Option Behavior}
    (starts : ∀ {machine : Machine}, discipline.fit machine →
      discipline.finished machine (machine.note (.started phase state)))
    (permitted : ∀ present, behavior = some present → discipline.permits present) :
    discipline.Kept (startBehavior calls state phase behavior) := by
  cases behavior with
  | none => exact kept_pure sound.toLawful _
  | some present =>
      have noted : discipline.Kept (note (.started phase state)) := fun _ fit => starts fit
      exact Kept.bind sound.toLawful noted fun _ => sound.behave kept state (permitted present rfl)

theorem kept_deactivate (state : StateId) : discipline.Kept (deactivate calls state) := by
  intro machine fit
  apply keptFrom_deactivate sound.toLawful fit
  intro node found active
  have leaves := sound.left fit found active
  have permitted (present : Behavior) (isClosing : node.closing = some present) :=
    sound.behaviors fit found (StateNode.runs_closing isClosing)
  exact (kept_perform sound kept state permitted _ (sound.fit fit leaves)).after
    sound.toLawful leaves

omit kept in
theorem kept_deactivateRegion (region : RegionId) :
    discipline.Kept (deactivateRegion region) := by
  apply kept_get
  intro machine fit
  split
  · exact sound.refl fit
  · rename_i members found
    split
    · rename_i active
      exact sound.closed fit found active
    · exact kept_warn sound.toLawful _ machine fit

theorem kept_exitStep (step : Machine.Step) : discipline.Kept (exitStep calls step) := by
  cases step with
  | state state => exact kept_deactivate sound kept state
  | region region => exact (kept_deactivateRegion sound region).discard

theorem kept_exit (state : StateId) : discipline.Kept (exit calls state) := by
  apply kept_get
  exact fun machine fit => kept_forM sound.toLawful _ _ (kept_exitStep sound kept) machine fit

theorem kept_completeState (state : StateId) : discipline.Kept (completeState calls state) := by
  apply kept_get
  intro machine fit
  split
  · exact sound.refl fit
  · split
    · split
      · exact Kept.bind sound.toLawful (kept_note sound.toLawful rfl)
          (fun _ => kept_exit sound kept state) machine fit
      · exact sound.refl fit
    · split
      · exact (kept.trigger _ _).discard machine fit
      · exact Kept.bind sound.toLawful (kept_exit sound kept state)
          (fun _ => kept.completeRegion _) machine fit

theorem kept_completeRegion (region : RegionId) :
    discipline.Kept (completeRegion calls region) := by
  apply Kept.bind sound.toLawful (kept_deactivateRegion sound region)
  intro wasActive
  split
  · apply kept_get
    intro machine fit
    split
    · exact sound.refl fit
    · split
      · rename_i members _ inactive
        have joins : discipline.finished machine (machine.joined members.owner) := by
          apply sound.joined fit
          intro other listed
          simpa using List.all_eq_true.mp inactive other listed
        unfold KeptFrom
        rw [ends_bind, ends_report]
        exact (kept_completeState sound kept _ _ (sound.fit fit joins)).after sound.toLawful joins
      · exact sound.refl fit
  · exact kept_pure sound.toLawful _

/-! ### Entering -/

theorem keptFrom_finishEntry {state : StateId} {node : StateNode} {machine : Machine}
    (fit : discipline.fit machine) (active : machine.isStateActive state = true)
    (permitted : ∀ behavior, node.Runs behavior → discipline.permits behavior) :
    discipline.KeptFrom (finishEntry calls state node) machine := by
  unfold KeptFrom finishEntry
  rw [ends_bind, ends_startBehavior]
  have starts := finished_starting sound.toLawful fit (sound.started fit active) node.activity
  have acts : discipline.Kept (perform calls state node.activity) :=
    kept_perform sound kept state fun present isActivity =>
      permitted present (Or.inr (Or.inr isActivity))
  rw [← ends_bind]
  refine KeptFrom.after sound.toLawful ?_ starts
  apply Kept.bind sound.toLawful acts _ _ (sound.fit fit starts)
  intro _
  apply kept_get
  intro middle fitMiddle
  split
  · exact kept_completeState sound kept state middle fitMiddle
  · exact sound.refl fitMiddle

/-- The state as it was found when it was entered still tells its kind and its configuration. -/
theorem keptFrom_settleEntry {chart machine : Machine} {state : StateId} {node : StateNode}
    (fit : discipline.fit machine) (found : chart.state? state = some node)
    (same : SameChart chart machine) (normal : node.kind = .normal)
    (permitted : ∀ behavior, node.Runs behavior → discipline.permits behavior) :
    discipline.KeptFrom (settleEntry calls state node) machine := by
  apply KeptFrom.get
  split
  · rename_i active
    obtain ⟨now, foundNow, activeNow⟩ := Machine.isStateActive_iff.mp active
    have fixed := same.fixed_eq found foundNow
    have kind : now.kind = node.kind := StateNode.read_eq fixed StateNode.kind fun _ => rfl
    have config : now.config = node.config := StateNode.read_eq fixed StateNode.config fun _ => rfl
    split
    · rename_i timed
      exact sound.timed fit foundNow activeNow (kind.trans normal) (by rw [config]; exact timed)
    · exact keptFrom_finishEntry sound kept fit active permitted
  · exact sound.refl fit

section Normal

variable {chart machine : Machine} {state : StateId} {node : StateNode}
  (fit : discipline.fit machine) (found : chart.state? state = some node)
  (same : SameChart chart machine) (normal : node.kind = .normal)
  (permitted : ∀ behavior, node.Runs behavior → discipline.permits behavior)
include fit found same normal permitted

theorem keptFrom_performEntry :
    discipline.KeptFrom (do
      perform calls state node.entry
      settleEntry calls state node) machine := by
  have acts : discipline.Kept (perform calls state node.entry) :=
    kept_perform sound kept state fun present isEntry => permitted present (Or.inl isEntry)
  apply KeptFrom.bind sound.toLawful (acts machine fit)
  intro _ middle begun
  exact keptFrom_settleEntry sound kept (sound.fit fit begun) found
    (same.trans (sound.same begun)) normal permitted

theorem keptFrom_enterNormal
    (starts : discipline.finished machine (machine.starting .entry state node.entry)) :
    discipline.KeptFrom (enterNormal calls state node) machine := by
  unfold KeptFrom
  rw [ends_enterNormal_begun]
  exact (keptFrom_performEntry sound kept (sound.fit fit starts) found
    (same.trans (sound.same starts)) normal permitted).after sound.toLawful starts

end Normal

private theorem kept_reachFinal (state : StateId) (node : StateNode) :
    discipline.Kept (reachFinal calls state node) := by
  apply Kept.bind sound.toLawful (kept_deactivate sound kept state)
  intro _
  split
  · exact kept_pure sound.toLawful _
  · exact kept_completeRegion sound kept _

theorem kept_resumeHistory (enters : ∀ {machine : Machine} {region members last} name,
      discipline.fit machine → machine.region? region = some members →
      members.lastActive = some last →
      discipline.KeptFrom (calls.enter last) (machine.note (.notice (.historyResumes last name))))
    (activates : ∀ {machine : Machine} {region members}, discipline.fit machine →
      machine.region? region = some members →
      discipline.KeptFrom (calls.activate members.initial) machine)
    (state : StateId) (region : RegionId) :
    discipline.Kept (resumeHistory calls state region) := by
  apply Kept.bind sound.toLawful (kept_deactivate sound kept state)
  intro _
  apply kept_get
  intro machine fit
  split
  · exact sound.refl fit
  · rename_i members stored
    split
    · rename_i last remembered
      unfold KeptFrom
      rw [ends_bind, ends_report]
      exact (enters _ fit stored remembered).after sound.toLawful (sound.note fit rfl)
    · exact activates fit stored

omit kept in
theorem kept_resumeHistory_anywhere (kept : discipline.KeptAnywhere calls) (state : StateId)
    (region : RegionId) : discipline.Kept (resumeHistory calls state region) := by
  apply kept_resumeHistory sound kept.toKeptBy
  · exact fun _ fit _ _ => kept.enter _ _ (sound.fit fit (sound.note fit rfl))
  · exact fun fit _ => kept.activate _ _ fit

/-- Only what follows the entry of a normal state, of a history and of a choice differs from one
discipline to the other. -/
theorem ends_activate_kept {state : StateId} {node : StateNode} {machine : Machine}
    {ended : Unit → Machine → Prop} {failed : Halt → Machine → Prop}
    (found : machine.state? state = some node) (inactive : node.status.isActive = false)
    (fit : discipline.fit (machine.entered state node.name))
    (other : ∀ {run : Run Unit}, node.kind ≠ .normal → node.kind ≠ .choice →
      (∀ depth, node.kind = .history depth → node.container = none) →
      discipline.KeptFrom run (machine.entered state node.name) →
      Ends run (machine.entered state node.name) ended failed)
    (normal : node.kind = .normal →
      Ends (enterNormal calls state node) (machine.entered state node.name) ended failed)
    (history : ∀ depth region, node.kind = .history depth → node.container = some region →
      Ends (resumeHistory calls state region) (machine.entered state node.name) ended failed)
    (choice : node.kind = .choice →
      Ends (followChoice calls state node) (machine.entered state node.name) ended failed) :
    Ends (activate calls state) machine ended failed := by
  have passes := kept_pure sound.toLawful () _ fit
  rw [ends_activate found inactive]
  split
  · rename_i isNormal
    exact normal isNormal
  · rename_i isInitial _
    exact other (by simp [isInitial]) (by simp [isInitial]) (by simp [isInitial])
      (kept_followInitial sound.toLawful kept.trigger _ _ fit)
  · rename_i depth region isHistory contained
    exact history depth region isHistory contained
  · rename_i isInitial _
    exact other (by simp [isInitial]) (by simp [isInitial]) (by simp [isInitial]) passes
  · rename_i isHistory free
    exact other (by simp [isHistory]) (by simp [isHistory]) (fun _ _ => free) passes
  · rename_i isChoice
    exact choice isChoice
  · rename_i isFinal
    exact other (by simp [isFinal]) (by simp [isFinal]) (by simp [isFinal])
      (kept_reachFinal sound kept state node _ fit)
  · rename_i isRoot
    exact other (by simp [isRoot]) (by simp [isRoot]) (by simp [isRoot]) passes

omit kept in
theorem kept_activate (kept : discipline.KeptAnywhere calls) (enters : discipline.Enters)
    (chooses : discipline.Chooses) (state : StateId) :
    discipline.Kept (activate calls state) := by
  intro machine fit
  apply keptFrom_activate sound.toLawful fit
  intro node found inactive
  have entered := enters.entered fit found inactive
  have fitEntered := sound.fit fit entered
  have after {run : Run Unit} (keptRun : discipline.KeptFrom run
      (machine.entered state node.name)) := keptRun.after sound.toLawful entered
  apply ends_activate_kept sound kept.toKeptBy found inactive fitEntered
  · exact fun _ _ _ keptRun => after keptRun
  · intro normal
    exact after (keptFrom_enterNormal sound kept.toKeptBy fitEntered found (sound.same entered)
      normal (fun _ runs => sound.behaviors fit found runs)
      (finished_starting sound.toLawful fitEntered (enters.began state fitEntered) node.entry))
  · intro depth region _ _
    exact after (kept_resumeHistory_anywhere sound kept state region _ fitEntered)
  · exact fun _ => after (keptFrom_followChoice sound.toLawful chooses
      kept.trigger fitEntered
      (Machine.state?_entered found node.name) rfl rfl rfl)

section Anywhere

variable (activates : ∀ state, discipline.Kept (activate calls state))
include activates

omit kept in
private theorem kept_enterBy (plan : List Machine.Step) : discipline.Kept (enterBy calls plan) := by
  intro machine fit
  apply keptFrom_enterBy sound.toLawful sound.toOpens (fun _ _ => True)
    (fun _ admitted => admitted) _ fit
  · exact fun _ _ => trivial
  · exact fun fit _ => activates _ _ fit

omit kept in
theorem kept_enterDefault (state : StateId) : discipline.Kept (enterDefault calls state) := by
  apply kept_get
  exact fun machine fit => kept_enterBy sound activates _ machine fit

omit kept in
theorem kept_enterTarget (ends : Machine.Endpoints) :
    discipline.Kept (enterTarget calls ends) := by
  apply kept_get
  intro machine fit
  split
  · apply KeptFrom.get
    exact kept_enterBy sound activates _ machine fit
  · exact kept_enterDefault sound activates ends.target machine fit

end Anywhere

/-! ### Firing -/

theorem kept_runEffect {transition : Transition} (source : StateId) {memo : Value}
    (permitted : ∀ effect, transition.effect = some effect → discipline.permits (effect memo)) :
    discipline.Kept (runEffect calls transition source memo) := by
  unfold runEffect
  split
  · exact kept_pure sound.toLawful _
  · rename_i effect isEffect
    exact sound.behave kept source (permitted effect isEffect)

section Firing

variable (fires : discipline.Fires) {id : TransitionId} {transition : Transition} {memo : Value}
  {machine : Machine}
include fires

section Permitted

variable (fit : discipline.fit machine)
  (permitted : ∀ effect, transition.effect = some effect → discipline.permits (effect memo))
include fit permitted

private theorem keptFrom_fireInternal (source : StateId) (sourceName : String) :
    discipline.KeptFrom (fireInternal calls id transition source sourceName memo) machine := by
  apply Kept.bind sound.toLawful (kept_note sound.toLawful rfl) _ machine fit
  intro _
  apply Kept.bind sound.toLawful (kept_runEffect sound kept source permitted)
  exact fun _ acted fitActed => fires.recorded id _ fitActed

/-- The target is entered in a machine with the same chart, right after the firing was recorded. -/
theorem keptFrom_fireExternal {ends : Machine.Endpoints} (sourceName targetName : String)
    (enters : ∀ {recorded}, discipline.fit recorded → SameChart machine recorded →
      recorded.JustFired id → discipline.KeptFrom (enterTarget calls ends) recorded) :
    discipline.KeptFrom (fireExternal calls id transition ends sourceName targetName memo)
      machine := by
  have told : discipline.finished machine
      (machine.note (.notice (.firing id transition.name sourceName targetName))) :=
    sound.note fit rfl
  have fitTold := sound.fit fit told
  apply ends_fireExternal_of
  apply Ends.mono ((kept_exit sound kept ends.source _ fitTold).after sound.toLawful told)
  · intro _ gone leaves
    have acts := kept_runEffect sound kept ends.source permitted gone (sound.fit fit leaves)
    apply Ends.mono (acts.after sound.toLawful leaves)
    · intro _ acted effects
      have records := sound.trans effects (fires.recorded id
        ⟨transition.name, sourceName, targetName, false⟩ (sound.fit fit effects))
      apply KeptFrom.after sound.toLawful _ records
      apply enters (sound.fit fit records) (sound.same records)
      exact ⟨_, Array.back?_push, rfl⟩
    · exact fun _ _ halted => halted
  · exact fun _ _ halted => halted

end Permitted

theorem ends_trigger_kept (fit : discipline.fit (machine.note (.requested id)))
    (enters : ∀ {ends recorded}, (machine.note (.requested id)).endpoints id = .ok ends →
      discipline.fit recorded → SameChart (machine.note (.requested id)) recorded →
      recorded.JustFired id → discipline.KeptFrom (enterTarget calls ends) recorded) :
    Ends (trigger calls id memo) machine
      (fun _ after => discipline.finished (machine.note (.requested id)) after)
      fun halt after => discipline.halted halt (machine.note (.requested id)) after := by
  apply ends_trigger_of_resolved sound.toLawful
    (fun outcome fit => fires.settled id outcome fit) fit
  intro transition ends found resolved
  have permitted (effect : Effect) (isEffect : transition.effect = some effect) :=
    fires.effects memo fit found isEffect
  apply keptFrom_fireResolved sound.toLawful fit
  intro guarded _ finished fitGuarded
  constructor
  · exact keptFrom_fireInternal sound kept fires fitGuarded permitted _ _
  · apply keptFrom_fireExternal sound kept fires fitGuarded permitted
    exact fun fitRecorded same just =>
      enters resolved fitRecorded ((sound.same finished).trans same) just

theorem keptFrom_trigger (fit : discipline.fit machine)
    (enters : ∀ {asked ends recorded}, discipline.fit asked → asked.endpoints id = .ok ends →
      discipline.fit recorded → SameChart asked recorded → recorded.JustFired id →
      discipline.KeptFrom (enterTarget calls ends) recorded) :
    discipline.KeptFrom (trigger calls id memo) machine := by
  have asks := fires.requested id fit
  have fitAsked := sound.fit fit asks
  apply Ends.mono (ends_trigger_kept sound kept fires fitAsked (enters fitAsked))
  · exact fun _ _ later => sound.trans asks later
  · exact fun _ _ halted => sound.halts asks halted

theorem kept_trigger (activates : ∀ state, discipline.Kept (activate calls state)) :
    discipline.Kept (trigger calls id memo) := by
  intro machine fit
  apply keptFrom_trigger sound kept fires fit
  exact fun _ _ fitRecorded _ _ => kept_enterTarget sound activates _ _ fitRecorded

end Firing

end Operations

/-! ### Frames -/

def Acts (discipline : Discipline) (calls : Calls) : Prop :=
  ∀ machine state node, discipline.fit machine → machine.state? state = some node →
    discipline.Kept (startBehavior calls state .activity node.activity)

theorem Sound.acts {calls : Calls} (sound : discipline.Sound) (kept : discipline.KeptBy calls)
    (ticks : discipline.Ticks) : discipline.Acts calls :=
  fun _ state _ fit found => kept_startBehavior sound kept state (ticks.started state)
    fun _ isActivity => sound.behaviors fit found (Or.inr (Or.inr isActivity))

section Frames

variable {calls : Calls} (ticks : discipline.Ticks)
include ticks

private theorem keptFrom_resetTimer {state : StateId} {node : StateNode} {machine : Machine}
    (fit : discipline.fit machine) (found : machine.state? state = some node)
    (stopped : node.timer.running = false) :
    discipline.KeptFrom (resetTimer state) machine :=
  ticks.reset _ fit found stopped

variable (lawful : discipline.Lawful)
include lawful

private theorem kept_renewFrame (handle : FrameHandle) : discipline.Kept (renewFrame handle) := by
  apply kept_get
  intro machine fit
  split
  · exact lawful.refl fit
  · rename_i node found
    split
    · split
      · rename_i running
        exact ticks.requested fit found running
      · rename_i notRunning
        exact keptFrom_resetTimer ticks fit found (by simpa using notRunning)
    · exact lawful.refl fit

variable (acts : discipline.Acts calls)
include acts

private theorem keptFrom_foldFrame {handle : FrameHandle} (now : Duration) {node : StateNode}
    {machine : Machine} (fit : discipline.fit machine)
    (found : machine.state? handle.state = some node) (awaited : node.frame = some handle)
    (running : node.timer.running = true) :
    discipline.KeptFrom (foldFrame calls handle now node) machine := by
  have folds := ticks.folded now fit found awaited running
  have fitFolded := lawful.fit fit folds
  have renews := kept_renewFrame ticks lawful handle
  unfold KeptFrom foldFrame
  dsimp only
  rw [ends_bind, ends_note, ends_bind, ends_modify]
  split
  · exact (Kept.bind lawful (acts machine handle.state node fit found) (fun _ => renews) _
      fitFolded).after lawful folds
  · exact (renews _ fitFolded).after lawful folds

theorem kept_deliverFrame (handle : FrameHandle) (now : Duration) :
    discipline.Kept (deliverFrame calls handle now) := by
  apply kept_get
  intro machine fit
  split
  · exact kept_fail lawful _ machine fit
  · rename_i node found
    split
    · rename_i other
      exact ticks.cancelled fit (by simpa [found] using other)
    · rename_i awaited
      split
      · rename_i running
        exact keptFrom_foldFrame ticks lawful acts now fit found (not_not.mp awaited) running
      · rename_i notRunning
        exact keptFrom_resetTimer ticks fit found (by simpa using notRunning)

end Frames

theorem keptAnywhere_exhausted (sound : discipline.Sound) :
    discipline.KeptAnywhere Calls.exhausted where
  trigger := fun _ _ _ fit => sound.exhausted fit
  completeRegion := fun _ _ fit => sound.exhausted fit
  enter := fun _ _ fit => sound.exhausted fit
  activate := fun _ _ fit => sound.exhausted fit

theorem keptAnywhere_succ (sound : discipline.Sound) {depth : Nat}
    (kept : discipline.KeptAnywhere (calls depth))
    (activates : ∀ state, discipline.Kept (activate (calls depth) state))
    (triggers : ∀ id memo, discipline.Kept (trigger (calls depth) id memo)) :
    discipline.KeptAnywhere (calls (depth + 1)) where
  trigger := triggers
  completeRegion := kept_completeRegion sound kept.toKeptBy
  enter := kept_enterDefault sound activates
  activate := activates

theorem keptAnywhere_calls (sound : discipline.Sound)
    (activates : ∀ depth, discipline.KeptAnywhere (calls depth) →
      ∀ state, discipline.Kept (activate (calls depth) state))
    (triggers : ∀ depth, discipline.KeptAnywhere (calls depth) →
      ∀ id memo, discipline.Kept (trigger (calls depth) id memo)) (depth : Nat) :
    discipline.KeptAnywhere (calls depth) := by
  -- By induction on the depth.
  induction depth with
  | zero => exact keptAnywhere_exhausted sound
  | succ depth ih => exact keptAnywhere_succ sound ih (activates depth ih) (triggers depth ih)

/-! ### Calls from outside -/

section Outside

variable {depth : Nat}

section Refusing

variable (lawful : discipline.Lawful) (refuses : discipline.Refuses)
include lawful refuses

theorem kept_start (enters : discipline.Kept ((calls (depth + 1)).enter Machine.root)) :
    discipline.Kept (start depth) := by
  apply kept_get
  intro machine fit
  split
  · exact kept_misuse lawful refuses _ machine fit
  · exact enters machine fit

theorem kept_finish (exits : discipline.Kept (exit (calls depth) Machine.root)) :
    discipline.Kept (finish depth) := by
  apply kept_get
  intro machine fit
  split
  · exact exits machine fit
  · exact kept_misuse lawful refuses _ machine fit

theorem kept_completion {state : StateId}
    (completes : discipline.Kept (completeState (calls depth) state)) :
    discipline.Kept (completion depth state) := by
  apply kept_get
  intro machine fit
  split
  · exact kept_fail lawful _ machine fit
  · split
    · exact completes machine fit
    · exact kept_misuse lawful refuses _ machine fit

end Refusing

variable (ticks : discipline.Ticks) (lawful : discipline.Lawful)
  (acts : discipline.Acts (calls depth))
include ticks lawful acts

theorem kept_frame (handle : FrameHandle) (now : Duration) :
    discipline.Kept (frame depth handle now) :=
  kept_deliverFrame ticks lawful acts handle now

theorem ends_advance_kept {machine : Machine} (fit : discipline.fit machine.framesTaken)
    (now : Duration) :
    Ends (advance depth now) machine
      (fun _ after => discipline.finished machine.framesTaken after)
      fun halt after => discipline.halted halt machine.framesTaken after := by
  unfold advance
  rw [ends_bind, ends_modifyGet]
  exact Kept.bind lawful
    (kept_forM lawful _ _ fun handle => kept_frame ticks lawful acts handle now)
    (fun _ => kept_pure lawful _) machine.framesTaken fit

theorem kept_advance (taken : ∀ {machine : Machine}, discipline.fit machine →
      discipline.finished machine machine.framesTaken) (now : Duration) :
    discipline.Kept (advance depth now) := by
  intro machine fit
  have takes := taken fit
  apply Ends.mono (ends_advance_kept ticks lawful acts (lawful.fit fit takes) now)
  · exact fun _ _ later => lawful.trans takes later
  · exact fun _ _ halted => lawful.halts takes halted

end Outside

end Discipline
end Run
end Chart
