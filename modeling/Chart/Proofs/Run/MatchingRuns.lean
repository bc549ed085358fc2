import Chart.Proofs.Run.Activating
import Chart.Proofs.Run.Matching

set_option autoImplicit false

/-!
Matching machines run alike. Where callbacks neither fire nor write and nothing is marked by a
history, an operation ends in the same way on two matching machines, with the same answer or with
errors of one kind, and leaves them matching. Each operation is taken in turn, over calls that run
alike themselves; the operations at all depths follow by induction on the depth.
-/

namespace Chart

namespace Machine

/-- Callbacks only look and tell, nothing is marked by a history, and automatic states own no
regions. -/
structure Forgetful (machine : Machine) : Prop where
  behaviors : ∀ state node behavior, machine.state? state = some node → node.Runs behavior →
    behavior.ReadOnly
  effects : ∀ id found effect memo, machine.transition? id = some found →
    found.effect = some effect → (effect memo).ReadOnly
  unmarked : ∀ state depth, machine.kindOf? state ≠ some (.history depth)
  leaves : ∀ state node, machine.state? state = some node →
    node.config.autoTransition = true → node.regions = []

namespace Forgetful

variable {machine after : Machine} (forgetful : machine.Forgetful)
include forgetful

theorem calm : machine.Calm True where
  behaviors := fun state node behavior found runs =>
    (forgetful.behaviors state node behavior found runs).quiet
  effects := fun id found effect memo known isEffect =>
    (forgetful.effects id found effect memo known isEffect).quiet
  leaves := forgetful.leaves

theorem readOnly (same : SameChart machine after) {state : StateId} {node : StateNode}
    {behavior : Behavior} (found : after.state? state = some node) (runs : node.Runs behavior) :
    behavior.ReadOnly := by
  obtain ⟨origin, foundOrigin, fixed⟩ := same.state?_backward found
  refine forgetful.behaviors state origin behavior foundOrigin ?_
  rw [StateNode.read_eq fixed (fun node => node.Runs behavior) fun _ => rfl]
  exact runs

theorem readOnly_effect (same : SameChart machine after) {id : TransitionId} {found : Transition}
    {effect : Effect} (known : after.transition? id = some found)
    (isEffect : found.effect = some effect) (memo : Value) : (effect memo).ReadOnly := by
  rcases same.chosen id found known with earlier | ⟨name, choice, target, region, rfl⟩
  · exact forgetful.effects id found effect memo earlier isEffect
  · cases isEffect

end Forgetful

end Machine

def Halt.Alike : Halt → Halt → Prop
  | .error cause, .error cause' => cause.word = cause'.word
  | .exhausted, .exhausted => True
  | _, _ => False

theorem Halt.Alike.symm {halt halt' : Halt} (alike : halt.Alike halt') : halt'.Alike halt := by
  cases halt <;> cases halt'
  · exact Eq.symm alike
  · exact alike
  · exact alike
  · exact alike

namespace Run

open Machine (Match Kept Corresponds TouchesOnly)

/-- Both runs finish with the same answer or fail alike, and leave matching machines. -/
def RunAlike {Answer : Type} (base : Machine) (bags : StateId → Option Entity)
    (left right : Run Answer) (one other : Machine) : Prop :=
  match left one, right other with
  | .ok answer after, .ok answer' after' => answer = answer' ∧ Match base bags after after'
  | .error halt after, .error halt' after' => halt.Alike halt' ∧ Match base bags after after'
  | _, _ => False

/-- The calls that entering and completing ask for run alike. -/
structure Calls.CallsAlike (base : Machine) (bags : StateId → Option Entity)
    (calls : Calls) : Prop where
  trigger : ∀ one other id id' memo, Match base bags one other → Corresponds one other id id' →
    RunAlike base bags (calls.trigger id memo) (calls.trigger id' memo) one other
  completeRegion : ∀ one other region, Match base bags one other →
    RunAlike base bags (calls.completeRegion region) (calls.completeRegion region) one other

section Rules

variable {Answer Other : Type} {base one other one' other' : Machine}
variable {bags : StateId → Option Entity}

theorem RunAlike.of_eq {left right left' right' : Run Answer} (isLeft : left one = left' one')
    (isRight : right other = right' other')
    (runAlike : RunAlike base bags left' right' one' other') :
    RunAlike base bags left right one other := by
  unfold RunAlike
  rw [isLeft, isRight]
  exact runAlike

theorem RunAlike.get {left right : Machine → Run Answer}
    (runAlike : RunAlike base bags (left one) (right other) one other) :
    RunAlike base bags (get >>= left) (get >>= right) one other := runAlike

private theorem RunAlike.noted {event event' : Event} {next next' : Run Answer}
    (runAlike : RunAlike base bags next next' (one.note event) (other.note event')) :
    RunAlike base bags (note event >>= fun _ => next) (note event' >>= fun _ => next') one other :=
  runAlike

theorem RunAlike.bind {first first' : Run Other} {next next' : Other → Run Answer}
    (runAlike : RunAlike base bags first first' one other)
    (continues : ∀ answer middle middle', Match base bags middle middle' →
      RunAlike base bags (next answer) (next' answer) middle middle') :
    RunAlike base bags (first >>= next) (first' >>= next') one other := by
  unfold RunAlike at runAlike
  cases isFirst : first one with
  | ok answer middle =>
      cases isFirst' : first' other with
      | ok answer' middle' =>
          rw [isFirst, isFirst'] at runAlike
          obtain ⟨rfl, alike⟩ := runAlike
          refine RunAlike.of_eq ?_ ?_ (continues answer middle middle' alike)
          · simp only [Bind.bind, EStateM.bind, isFirst]
          · simp only [Bind.bind, EStateM.bind, isFirst']
      | error halt' middle' =>
          rw [isFirst, isFirst'] at runAlike
          exact runAlike.elim
  | error halt middle =>
      cases isFirst' : first' other with
      | ok answer' middle' =>
          rw [isFirst, isFirst'] at runAlike
          exact runAlike.elim
      | error halt' middle' =>
          rw [isFirst, isFirst'] at runAlike
          unfold RunAlike
          simp only [Bind.bind, EStateM.bind, isFirst, isFirst']
          exact runAlike

private theorem RunAlike.discard {left right : Run Answer}
    (runAlike : RunAlike base bags left right one other) :
    RunAlike base bags (discard left) (discard right) one other := by
  unfold RunAlike at runAlike ⊢
  simp only [Functor.discard, Functor.mapConst, EStateM.map, Function.comp, Function.const]
  cases isLeft : left one with
  | ok answer after =>
      cases isRight : right other with
      | ok answer' after' =>
          rw [isLeft, isRight] at runAlike
          exact ⟨trivial, runAlike.2⟩
      | error halt' after' =>
          rw [isLeft, isRight] at runAlike
          exact runAlike.elim
  | error halt after =>
      cases isRight : right other with
      | ok answer' after' =>
          rw [isLeft, isRight] at runAlike
          exact runAlike.elim
      | error halt' after' =>
          rw [isLeft, isRight] at runAlike
          exact runAlike

theorem RunAlike.symm {left right : Run Answer}
    (runAlike : RunAlike base bags left right one other) :
    RunAlike base bags right left other one := by
  unfold RunAlike at runAlike ⊢
  cases isLeft : left one with
  | ok answer after =>
      cases isRight : right other with
      | ok answer' after' =>
          rw [isLeft, isRight] at runAlike
          exact ⟨runAlike.1.symm, runAlike.2.symm⟩
      | error halt' after' =>
          rw [isLeft, isRight] at runAlike
          exact runAlike.elim
  | error halt after =>
      cases isRight : right other with
      | ok answer' after' =>
          rw [isLeft, isRight] at runAlike
          exact runAlike.elim
      | error halt' after' =>
          rw [isLeft, isRight] at runAlike
          exact ⟨runAlike.1.symm, runAlike.2.symm⟩

variable (alike : Match base bags one other)
include alike

private theorem runAlike_pure (answer : Answer) :
    RunAlike base bags (pure answer) (pure answer) one other :=
  ⟨rfl, alike⟩

theorem runAlike_note {event event' : Event} (plain : event.isPlain = true)
    (plain' : event'.isPlain = true) : RunAlike base bags (note event) (note event') one other :=
  ⟨rfl, alike.note plain plain'⟩

private theorem runAlike_noteAll (texts : List String) :
    RunAlike base bags (noteAll texts) (noteAll texts) one other :=
  ⟨rfl, alike.notedAll texts texts⟩

theorem runAlike_raise {error error' : MachineError} (same : error.word = error'.word) :
    RunAlike base bags (raise error : Run Answer) (raise error') one other := ⟨same, alike⟩

private theorem runAlike_fail {error error' : ConfigurationError}
    (same : error.word = error'.word) :
    RunAlike base bags (fail error : Run Answer) (fail error') one other :=
  ⟨same, alike.note rfl rfl⟩

private theorem runAlike_exhausted :
    RunAlike base bags (throw .exhausted : Run Answer) (throw .exhausted) one other :=
  ⟨trivial, alike⟩

private theorem runAlike_forM {Item : Type} {step : Item → Run PUnit} (items : List Item)
    (runAlike : ∀ item one other, Match base bags one other →
      RunAlike base bags (step item) (step item) one other) :
    RunAlike base bags (items.forM step) (items.forM step) one other := by
  -- By induction on the list.
  induction items generalizing one other with
  | nil => exact runAlike_pure alike _
  | cons item rest ih =>
      exact RunAlike.bind (runAlike item one other alike) fun _ _ _ later => ih later

end Rules

section Choices

variable {base one other : Machine} {bags : StateId → Option Entity}

private theorem choiceTransition_eq {machine : Machine} (kept : Kept base bags machine)
    (linked : base.Linked) {choice : StateId} {node current : StateNode} {region : RegionId}
    {target : String} (found : machine.state? choice = some current)
    (fixed : current.fixed = node.fixed) (chosen : current.choices = node.choices)
    (contained : node.container = some region)
    (reachable : (machine.resolveState? region target).isSome = true) :
    ∃ id after name, choiceTransition choice node region target machine = .ok id after ∧
      Kept base bags after ∧ TouchesOnly choice machine after ∧
      after.transition? id = some (.ofChoice name node.name target region) := by
  have named : current.name = node.name := StateNode.read_eq fixed StateNode.name fun _ => rfl
  have inRegion : current.container = some region :=
    (StateNode.read_eq fixed StateNode.container fun _ => rfl).trans contained
  unfold choiceTransition
  cases cached : Dictionary.find? node.choices target with
  | some id =>
      obtain ⟨name, container, contained', known⟩ := (kept.changes.linked linked).choices choice
        current target id found (by rw [chosen]; exact cached)
      rw [inRegion] at contained'
      obtain rfl := Option.some.inj contained'
      exact ⟨id, machine, name, rfl, kept, TouchesOnly.refl choice
        machine, by rw [← named]; exact known⟩
  | none =>
      have fresh : Dictionary.find? current.choices target = none := by
        rw [chosen]
        exact cached
      refine ⟨(machine.transitionChosen choice node.name target region).1,
        (machine.transitionChosen choice node.name target region).2, machine.generateName.1,
        ?_, ?_, ?_, ?_⟩
      · change (if (machine.resolveState? region target).isNone then _ else _ : Run TransitionId)
          machine = _
        rw [if_neg fun absent => by
          rw [Option.isNone_iff_eq_none.mp absent] at reachable
          cases reachable]
        rfl
      · rw [← named]
        exact kept.transitionChosen found inRegion fresh reachable
      · rw [← named]
        exact TouchesOnly.transitionChosen found inRegion fresh
      · exact (Machine.transition?_transitionChosen _).trans (if_pos rfl)

private theorem choiceTransition_unreachable {machine : Machine} (kept : Kept base bags machine)
    {choice : StateId} {node current : StateNode} {region : RegionId} {target : String}
    (found : machine.state? choice = some current) (fixed : current.fixed = node.fixed)
    (chosen : current.choices = node.choices) (contained : node.container = some region)
    (unreachable : (machine.resolveState? region target).isNone = true) :
    choiceTransition choice node region target machine =
      (fail (.choiceTargetUnreachable node.name target) : Run TransitionId) machine := by
  have inRegion : current.container = some region :=
    (StateNode.read_eq fixed StateNode.container fun _ => rfl).trans contained
  unfold choiceTransition
  cases cached : Dictionary.find? node.choices target with
  | some id =>
      have reachable := kept.choicesResolved choice current target id region found
        (by rw [chosen]; exact cached) inRegion
      rw [Option.isNone_iff_eq_none.mp unreachable] at reachable
      cases reachable
  | none =>
      change (if (machine.resolveState? region target).isNone then _ else _ : Run TransitionId)
        machine = _
      rw [if_pos unreachable]
      rfl

private theorem corresponds_ofChoice {id id' : TransitionId} {name name' choice target : String}
    {region : RegionId} (known : one.transition? id = some (.ofChoice name choice target region))
    (known' : other.transition? id' = some (.ofChoice name' choice target region)) :
    Corresponds one other id id' := by
  unfold Machine.Corresponds
  rw [known, known']
  rfl

end Choices

section Operations

variable {base one other : Machine} {bags : StateId → Option Entity} {calls : Calls}
variable {state : StateId} (alike : Match base bags one other)
include alike

private theorem runAlike_behave {behavior : Behavior} (readOnly : behavior.ReadOnly) :
    RunAlike base bags (behave calls state behavior) (behave calls state behavior) one other := by
  -- By induction on the behaviour: what it looks at is the same on both machines.
  induction readOnly generalizing one other with
  | done => exact runAlike_pure alike ()
  | fail error => exact runAlike_raise alike rfl
  | note text _ ih => exact RunAlike.bind (runAlike_note alike rfl rfl) fun _ _ _ later => ih later
  | look _ ih =>
      refine RunAlike.get ?_
      rw [alike.view state]
      exact ih (one.view state) alike

private theorem runAlike_startBehavior {phase : Phase} {behavior : Option Behavior}
    (readOnly : ∀ present, behavior = some present → present.ReadOnly) :
    RunAlike base bags (startBehavior calls state phase behavior)
      (startBehavior calls state phase behavior) one other := by
  cases behavior with
  | none => exact runAlike_pure alike ()
  | some present =>
      exact RunAlike.bind (runAlike_note alike rfl rfl) fun _ _ _ later =>
        runAlike_behave later (readOnly present rfl)

private theorem runAlike_deactivateRegion (region : RegionId) :
    RunAlike base bags (deactivateRegion region) (deactivateRegion region) one other := by
  refine RunAlike.get ?_
  cases found : one.region? region with
  | none =>
      rw [alike.region?_none found]
      exact runAlike_pure alike false
  | some members =>
      obtain ⟨members', found', _, status⟩ := alike.region?_forward found
      rw [found']
      dsimp only
      rw [status]
      by_cases active : members.status.isActive = true
      · rw [if_pos active, if_pos active]
        exact RunAlike.of_eq rfl rfl
          (runAlike_pure (alike.closed found found' active (status.trans active)) true)
      · rw [if_neg active, if_neg active]
        exact RunAlike.bind (runAlike_note alike rfl rfl) fun _ _ _ later =>
          runAlike_pure later false

private theorem runAlike_activateRegion (region : RegionId) :
    RunAlike base bags (activateRegion region) (activateRegion region) one other := by
  refine RunAlike.get ?_
  cases found : one.region? region with
  | none =>
      rw [alike.region?_none found]
      exact runAlike_pure alike ()
  | some members =>
      obtain ⟨members', found', _, status⟩ := alike.region?_forward found
      rw [found']
      dsimp only
      rw [status]
      by_cases active : members.status.isActive = true
      · rw [if_pos active, if_pos active]
        exact runAlike_note alike rfl rfl
      · have inactive : members.status.isActive = false := Bool.eq_false_iff.mpr active
        rw [if_neg active, if_neg active]
        exact RunAlike.of_eq rfl rfl
          (runAlike_pure (alike.opened found found' inactive (status.trans inactive)) ())

private theorem runAlike_record (id id' : TransitionId) (firing firing' : Firing) :
    RunAlike base bags (record id firing) (record id' firing') one other :=
  ⟨rfl, alike.recorded id id' firing firing'⟩

variable (forgetful : base.Forgetful)
include forgetful

/-! ### Leaving -/

private theorem runAlike_deactivate (state : StateId) :
    RunAlike base bags (deactivate calls state) (deactivate calls state) one other := by
  cases found : one.state? state with
  | none =>
      refine RunAlike.get ?_
      rw [found, alike.state?_none found]
      exact runAlike_pure alike ()
  | some node =>
      obtain ⟨node', found', fixed, status⟩ := alike.state?_forward found
      by_cases active : node.status.isActive = true
      · have active' := status.trans active
        have left := alike.left found found' active active'
        refine RunAlike.of_eq (eq_of_ends fun _ _ => ends_deactivate found active)
          (eq_of_ends fun _ _ => ends_deactivate found' active') ?_
        rw [StateNode.read_eq fixed StateNode.kind fun _ => rfl,
          StateNode.read_eq fixed StateNode.exit fun _ => rfl]
        split
        · exact runAlike_startBehavior left fun present isExit =>
            forgetful.readOnly alike.first.sameChart found (Or.inr (Or.inl isExit))
        · exact runAlike_pure left ()
      · refine RunAlike.get ?_
        rw [found, found']
        dsimp only
        rw [status, if_neg active, if_neg active]
        exact runAlike_note alike rfl rfl

private theorem runAlike_exit (state : StateId) :
    RunAlike base bags (exit calls state) (exit calls state) one other := by
  refine RunAlike.get ?_
  rw [alike.exitPlan state]
  refine runAlike_forM alike _ fun step one other alike => ?_
  cases step with
  | state state => exact runAlike_deactivate alike forgetful state
  | region region => exact (runAlike_deactivateRegion alike region).discard

variable (callsAlike : calls.CallsAlike base bags) (formed : base.Formed)
include callsAlike formed

private theorem runAlike_completeState (state : StateId) :
    RunAlike base bags (completeState calls state) (completeState calls state) one other := by
  refine RunAlike.get ?_
  cases found : one.state? state with
  | none =>
      rw [alike.state?_none found]
      exact runAlike_pure alike ()
  | some node =>
      obtain ⟨node', found', fixed, _⟩ := alike.state?_forward found
      rw [found']
      dsimp only
      rw [StateNode.read_eq fixed StateNode.container fun _ => rfl,
        StateNode.read_eq fixed StateNode.kind fun _ => rfl,
        StateNode.read_eq fixed StateNode.name fun _ => rfl]
      cases node.container with
      | none =>
          dsimp only
          split
          · exact RunAlike.bind (runAlike_note alike rfl rfl) fun _ _ _ later =>
              runAlike_exit later forgetful state
          · exact runAlike_pure alike ()
      | some region =>
          obtain ⟨searched, known⟩ := alike.find?_transitions formed.toWired region
            fun found => found.source == some node.name
          dsimp only
          unfold firstOutgoing?
          rw [searched]
          split
          · rename_i id first
            refine (callsAlike.trigger one other id id .null alike ?_).discard
            exact congrArg _ (known id (List.mem_of_find?_eq_some first))
          · exact RunAlike.bind (runAlike_exit alike forgetful state) fun _ one other later =>
              callsAlike.completeRegion one other region later

private theorem runAlike_completeRegion (region : RegionId) :
    RunAlike base bags (completeRegion calls region) (completeRegion calls region) one other := by
  refine RunAlike.bind (runAlike_deactivateRegion alike region) fun wasActive one other alike => ?_
  split
  · refine RunAlike.get ?_
    cases stored : one.region? region with
    | none =>
        rw [alike.region?_none stored]
        exact runAlike_pure alike ()
    | some members =>
        obtain ⟨members', stored', fixed, _⟩ := alike.region?_forward stored
        rw [stored']
        dsimp only
        rw [Region.read_eq fixed Region.owner fun _ => rfl, alike.regionsOf members.owner]
        simp only [alike.regions]
        split
        · rename_i joins
          have inactive (region : RegionId) (owned : region ∈ one.regionsOf members.owner) :
              one.isRegionActive region = false := by
            simpa using List.all_eq_true.mp joins region owned
          have joined : Match base bags (one.joined members.owner)
            (other.joined members.owner) := by
            refine ⟨alike.first.joined inactive, alike.second.joined fun region owned => ?_,
              alike.states, alike.regions⟩
            rw [alike.regionsOf] at owned
            rw [alike.regions region]
            exact inactive region owned
          exact RunAlike.of_eq rfl rfl
            (runAlike_completeState joined forgetful callsAlike formed members.owner)
        · exact runAlike_pure alike ()
  · exact runAlike_pure alike ()

/-! ### Entering -/

private theorem runAlike_enterNormal {node node' : StateNode} (fixed : node'.fixed = node.fixed)
    (recorded : (base.state? state).map StateNode.fixed = some node.fixed)
    (normal : node.kind = .normal) :
    RunAlike base bags (enterNormal calls state node)
    (enterNormal calls state node') one other := by
  obtain ⟨origin, found, same⟩ := Option.map_eq_some_iff.mp recorded
  have runs (present : Behavior) (isRun : node.Runs present) : present.ReadOnly := by
    refine forgetful.behaviors state origin present found ?_
    rw [StateNode.read_eq same (fun node => node.Runs present) fun _ => rfl]
    exact isRun
  unfold enterNormal
  rw [StateNode.read_eq fixed StateNode.entry fun _ => rfl,
    StateNode.read_eq fixed StateNode.config fun _ => rfl]
  refine RunAlike.bind
    (runAlike_startBehavior alike fun present isEntry => runs present (Or.inl isEntry))
    fun _ one other alike => RunAlike.get ?_
  rw [alike.states state]
  split
  · rename_i active
    split
    · rename_i timed
      obtain ⟨now, foundNow, isActive⟩ := Machine.isStateActive_iff.mp active
      obtain ⟨now', foundNow', fixedNow, status⟩ := alike.state?_forward foundNow
      obtain ⟨origin', found', sameNow⟩ := alike.first.sameChart.state?_backward foundNow
      rw [found] at found'
      obtain rfl := Option.some.inj found'
      have chart : now.fixed = node.fixed := sameNow.symm.trans same
      have armed := alike.timerArmed foundNow foundNow' fixedNow isActive (status.trans isActive)
        ((StateNode.read_eq chart StateNode.kind fun _ => rfl).trans normal)
        ((StateNode.read_eq chart (fun node => node.config.timer) fun _ => rfl).trans timed)
      exact RunAlike.of_eq rfl rfl (runAlike_note armed rfl rfl)
    · unfold finishEntry
      rw [StateNode.read_eq fixed StateNode.activity fun _ => rfl,
        StateNode.read_eq fixed StateNode.config fun _ => rfl]
      refine RunAlike.bind (runAlike_startBehavior alike fun present isActivity =>
        runs present (Or.inr (Or.inr isActivity))) fun _ one other alike => RunAlike.get ?_
      rw [alike.states state]
      split
      · exact runAlike_completeState alike forgetful callsAlike formed state
      · exact runAlike_pure alike ()
  · exact runAlike_pure alike ()

omit forgetful in
private theorem runAlike_followInitial (region : RegionId) :
    RunAlike base bags (followInitial calls region) (followInitial calls region) one other := by
  refine RunAlike.get ?_
  obtain ⟨searched, known⟩ := alike.find?_transitions formed.toWired region
    fun found => found.source == none
  unfold firstSourceless?
  rw [searched]
  split
  · exact runAlike_fail alike rfl
  · rename_i id first
    refine RunAlike.bind (callsAlike.trigger one other id id .null alike
      (congrArg _ (known id (List.mem_of_find?_eq_some first)))) fun outcome one other alike => ?_
    cases outcome with
    | fired => exact runAlike_pure alike ()
    | _ => exact runAlike_fail alike rfl

section Choice

variable {node node' current current' : StateNode} (linked : base.Linked)
variable (found : one.state? state = some current) (found' : other.state? state = some current')
variable (fixed : current.fixed = node.fixed) (fixed' : current'.fixed = node'.fixed)
variable (chosen : current.choices = node.choices) (chosen' : current'.choices = node'.choices)
variable (same : node'.fixed = node.fixed)
include linked found found' fixed fixed' chosen chosen' same

omit forgetful formed in
/-- Whichever targets have been chosen before, both choices end up with a transition to the same
one. -/
theorem runAlike_choose {region : RegionId} (target : String)
    (contained : node.container = some region) :
    RunAlike base bags
      (choiceTransition state node region target >>= fun id => discard (calls.trigger id .null))
      (choiceTransition state node' region target >>= fun id => discard (calls.trigger id .null))
      one other := by
  have contained' : node'.container = some region :=
    (StateNode.read_eq same StateNode.container fun _ => rfl).trans contained
  have resolved := alike.resolveState? region target
  have named : node'.name = node.name := StateNode.read_eq same StateNode.name fun _ => rfl
  cases unreachable : (one.resolveState? region target).isNone with
  | true =>
      have left := choiceTransition_unreachable alike.first found fixed chosen contained unreachable
      have right := choiceTransition_unreachable alike.second found' fixed' chosen' contained'
        (by rw [resolved]; exact unreachable)
      have fails : RunAlike base bags (fail (.choiceTargetUnreachable node.name target) : Run PUnit)
          (fail (.choiceTargetUnreachable node'.name target)) one other := runAlike_fail alike rfl
      refine RunAlike.of_eq ?_ ?_ fails
      · simp only [Bind.bind, EStateM.bind, left]
        rfl
      · simp only [Bind.bind, EStateM.bind, right]
        rfl
  | false =>
      have reachable : (one.resolveState? region target).isSome = true := by
        rw [← Option.not_isNone, unreachable]
        rfl
      obtain ⟨id, after, name, isOk, kept, touches, known⟩ :=
        choiceTransition_eq alike.first linked found fixed chosen contained reachable
      obtain ⟨id', after', name', isOk', kept', touches', known'⟩ :=
        choiceTransition_eq alike.second linked found' fixed' chosen' contained'
          (by rw [resolved]; exact reachable)
      have later : Match base bags after after' := by
        refine ⟨kept, kept', fun seen => ?_, fun seen => ?_⟩
        · rw [touches.toStill.states, touches'.toStill.states, alike.states seen]
        · rw [touches.toStill.isRegionActive, touches'.toStill.isRegionActive, alike.regions seen]
      rw [named] at known'
      have triggers := (callsAlike.trigger after after' id id' .null later
        (corresponds_ofChoice known known')).discard
      refine RunAlike.of_eq ?_ ?_ triggers
      · simp only [Bind.bind, EStateM.bind, isOk]
      · simp only [Bind.bind, EStateM.bind, isOk']

omit forgetful formed in
private theorem runAlike_followChoice :
    RunAlike base bags (followChoice calls state node)
    (followChoice calls state node') one other := by
  unfold followChoice
  rw [StateNode.read_eq same StateNode.decision fun _ => rfl,
    StateNode.read_eq same StateNode.container fun _ => rfl,
    StateNode.read_eq same StateNode.name fun _ => rfl]
  cases node.decision with
  | none => exact runAlike_fail alike rfl
  | some decision =>
      refine RunAlike.get ?_
      rw [alike.view state]
      obtain ⟨answer, notes⟩ := decision (one.view state)
      cases answer with
      | none =>
          exact RunAlike.bind (runAlike_note alike rfl rfl) fun _ _ _ alike =>
            RunAlike.bind (runAlike_noteAll alike notes) fun _ _ _ alike => runAlike_fail alike rfl
      | some target =>
          cases contained : node.container with
          | none =>
              exact RunAlike.bind (runAlike_note alike rfl rfl) fun _ _ _ alike =>
                RunAlike.bind (runAlike_noteAll alike notes) fun _ _ _ alike =>
                  runAlike_pure alike ()
          | some region =>
              have told : Match base bags
                  ((one.note (.decided state (some target))).notedAll notes)
                  ((other.note (.decided state (some target))).notedAll notes) :=
                (alike.note rfl rfl).notedAll notes notes
              have noted (machine : Machine) :
                  ((machine.note (.decided state (some target))).notedAll notes).state? state =
                    machine.state? state := by
                unfold Machine.state?
                rw [Machine.states_notedAll]
                rfl
              exact RunAlike.of_eq rfl rfl (runAlike_choose told callsAlike linked
                ((noted one).trans found) ((noted other).trans found') fixed fixed'
                chosen chosen' same
                target contained)

end Choice

private theorem runAlike_reachFinal {node node' : StateNode} (fixed : node'.fixed = node.fixed) :
    RunAlike base bags (reachFinal calls state node) (reachFinal calls state node') one other := by
  unfold reachFinal
  rw [StateNode.read_eq fixed StateNode.container fun _ => rfl]
  refine RunAlike.bind (runAlike_deactivate alike forgetful state) fun _ one other alike => ?_
  cases node.container with
  | none => exact runAlike_pure alike ()
  | some region => exact runAlike_completeRegion alike forgetful callsAlike formed region

variable (linked : base.Linked)
include linked

private theorem runAlike_activate (state : StateId) :
    RunAlike base bags (activate calls state) (activate calls state) one other := by
  cases found : one.state? state with
  | none =>
      refine RunAlike.get ?_
      rw [found, alike.state?_none found]
      exact runAlike_pure alike ()
  | some node =>
      obtain ⟨node', found', fixed, status⟩ := alike.state?_forward found
      by_cases active : node.status.isActive = true
      · refine RunAlike.get ?_
        rw [found, found']
        dsimp only
        rw [status, if_pos active, if_pos active]
        exact runAlike_note alike rfl rfl
      · have inactive : node.status.isActive = false := Bool.eq_false_iff.mpr active
        have entered := alike.entered found found' inactive (status.trans inactive)
        refine RunAlike.of_eq (eq_of_ends fun _ _ => ends_activate found inactive)
          (eq_of_ends fun _ _ => ends_activate found' (status.trans inactive)) ?_
        rw [StateNode.read_eq fixed StateNode.kind fun _ => rfl,
          StateNode.read_eq fixed StateNode.container fun _ => rfl]
        split
        · rename_i normal
          refine runAlike_enterNormal entered forgetful callsAlike formed fixed ?_ normal
          rw [← alike.first.sameChart.states state, found]
          rfl
        · exact runAlike_followInitial entered callsAlike formed _
        · rename_i depth _ isHistory _
          refine absurd ?_ (forgetful.unmarked state depth)
          rw [← alike.first.sameChart.kindOf?]
          exact Machine.kindOf?_eq_some.mpr ⟨node, found, isHistory⟩
        · exact runAlike_pure entered ()
        · exact runAlike_pure entered ()
        · exact runAlike_followChoice entered callsAlike linked (Machine.state?_entered found _)
            (Machine.state?_entered found' _) rfl rfl rfl
            rfl fixed
        · exact runAlike_reachFinal entered forgetful callsAlike formed fixed
        · exact runAlike_pure entered ()

private theorem runAlike_enterBy (plan : List Machine.Step) :
    RunAlike base bags (enterBy calls plan) (enterBy calls plan) one other := by
  -- By induction on the plan.
  refine runAlike_forM alike plan fun step one other alike => ?_
  cases step with
  | state state =>
      refine RunAlike.get ?_
      rw [alike.containerOf? state]
      split
      · exact runAlike_activate alike forgetful callsAlike formed linked state
      · rw [alike.regions]
        split
        · exact runAlike_activate alike forgetful callsAlike formed linked state
        · exact runAlike_note alike rfl rfl
  | region region =>
      refine RunAlike.get ?_
      cases stored : one.region? region with
      | none =>
          rw [alike.region?_none stored]
          exact runAlike_pure alike ()
      | some members =>
          obtain ⟨members', stored', fixed, _⟩ := alike.region?_forward stored
          rw [stored']
          dsimp only
          rw [Region.read_eq fixed Region.owner fun _ => rfl, alike.states]
          split
          · exact runAlike_activateRegion alike region
          · exact runAlike_note alike rfl rfl

theorem runAlike_enterDefault (state : StateId) :
    RunAlike base bags (enterDefault calls state) (enterDefault calls state) one other := by
  refine RunAlike.get ?_
  rw [alike.defaultEntryPlan state]
  exact runAlike_enterBy alike forgetful callsAlike formed linked _

private theorem runAlike_enterExplicit (state : StateId) :
    RunAlike base bags (enterExplicit calls state) (enterExplicit calls state) one other := by
  refine RunAlike.get ?_
  rw [alike.explicitEntryPlan state]
  exact runAlike_enterBy alike forgetful callsAlike formed linked _

/-! ### Firing -/

section Firing

variable {found found' : Transition} {id id' : TransitionId} {memo : Value}
variable {ends : Machine.Endpoints} {sourceName targetName : String}
variable (same : found'.unnamed = found.unnamed)
variable (readOnly : ∀ effect, found.effect = some effect → (effect memo).ReadOnly)

omit forgetful callsAlike formed linked in
include same in
private theorem runAlike_guardAccepts (source : StateId) :
    RunAlike base bags (guardAccepts found source memo)
    (guardAccepts found' source memo) one other := by
  unfold guardAccepts
  rw [Transition.read_unnamed same Transition.guard fun _ => rfl]
  cases found.guard with
  | none => exact runAlike_pure alike true
  | some guard =>
      refine RunAlike.get ?_
      rw [alike.view source]
      exact RunAlike.bind (runAlike_noteAll alike _) fun _ _ _ alike => runAlike_pure alike _

omit forgetful callsAlike formed linked in
include same readOnly in
private theorem runAlike_runEffect (source : StateId) :
    RunAlike base bags (runEffect calls found source memo) (runEffect calls found' source memo) one
      other := by
  unfold runEffect
  rw [Transition.read_unnamed same Transition.effect fun _ => rfl]
  cases isEffect : found.effect with
  | none => exact runAlike_pure alike ()
  | some effect => exact runAlike_behave alike (readOnly effect isEffect)

include same readOnly

private theorem runAlike_fireExternal :
    RunAlike base bags (fireExternal calls id found ends sourceName targetName memo)
      (fireExternal calls id' found' ends sourceName targetName memo) one other := by
  unfold fireExternal
  refine RunAlike.bind (runAlike_note alike rfl rfl) fun _ one other alike => ?_
  refine RunAlike.bind (runAlike_exit alike forgetful ends.source) fun _ one other alike => ?_
  refine RunAlike.bind (runAlike_runEffect alike same readOnly ends.source)
    fun _ one other alike => ?_
  refine RunAlike.bind (runAlike_record alike id id' _ _) fun _ one other alike => RunAlike.get ?_
  rw [alike.level ends.source, alike.level ends.target]
  split
  · exact RunAlike.bind
      (runAlike_enterExplicit alike forgetful callsAlike formed linked ends.target)
      fun _ _ _ alike => runAlike_pure alike _
  · exact RunAlike.bind (runAlike_enterDefault alike forgetful callsAlike formed linked ends.target)
      fun _ _ _ alike => runAlike_pure alike _

private theorem runAlike_fireResolved :
    RunAlike base bags (fireResolved calls id found ends memo)
    (fireResolved calls id' found' ends memo)
      one other := by
  refine RunAlike.get ?_
  dsimp only
  rw [alike.states ends.source, alike.stateName ends.source, alike.stateName ends.target,
    Transition.read_unnamed same Transition.internal fun _ => rfl]
  split
  · exact RunAlike.bind (runAlike_note alike rfl rfl) fun _ _ _ alike => runAlike_pure alike _
  · refine RunAlike.bind (runAlike_guardAccepts alike same ends.source)
      fun accepted one other alike => ?_
    split
    · exact RunAlike.bind (runAlike_note alike rfl rfl) fun _ _ _ alike => runAlike_pure alike _
    · split
      · unfold fireInternal
        refine RunAlike.bind (runAlike_note alike rfl rfl) fun _ one other alike => ?_
        refine RunAlike.bind (runAlike_runEffect alike same readOnly ends.source)
          fun _ one other alike => ?_
        exact RunAlike.bind (runAlike_record alike id id' _ _) fun _ _ _ alike =>
          runAlike_pure alike _
      · exact runAlike_fireExternal alike forgetful callsAlike formed linked same readOnly

end Firing

private theorem runAlike_trigger {id id' : TransitionId} {memo : Value}
    (corresponds : Corresponds one other id id') :
    RunAlike base bags (trigger calls id memo) (trigger calls id' memo) one other := by
  refine RunAlike.noted (RunAlike.get ?_)
  have noted : Match base bags (one.note (.requested id)) (other.note (.requested id')) :=
    alike.note rfl rfl
  have corresponding : Corresponds (one.note (.requested id))
    (other.note (.requested id')) id id' :=
    corresponds
  have resolved := noted.endpoints corresponding
  generalize one.note (.requested id) = one' at noted corresponding resolved
  generalize other.note (.requested id') = other' at noted corresponding resolved
  unfold Machine.Corresponds at corresponding
  cases left : one'.endpoints id with
  | error error =>
      cases right : other'.endpoints id' with
      | error error' =>
          rw [left, right] at resolved
          cases one'.transition? id <;> cases other'.transition? id' <;>
            exact runAlike_fail noted resolved
      | ok ends' =>
          rw [left, right] at resolved
          exact resolved.elim
  | ok ends =>
      cases right : other'.endpoints id' with
      | error error' =>
          rw [left, right] at resolved
          exact resolved.elim
      | ok ends' =>
          rw [left, right] at resolved
          obtain rfl : ends = ends' := resolved
          cases known : one'.transition? id with
          | none =>
              rw [known] at corresponding
              rw [Option.map_eq_none_iff.mp corresponding]
              exact runAlike_fail noted rfl
          | some found =>
              rw [known] at corresponding
              obtain ⟨found', known', same⟩ := Option.map_eq_some_iff.mp corresponding
              rw [known']
              refine RunAlike.bind
                (runAlike_fireResolved noted forgetful callsAlike formed linked same
                fun effect isEffect => forgetful.readOnly_effect noted.first.sameChart
                known isEffect memo)
                fun outcome _ _ alike => ?_
              exact RunAlike.bind (runAlike_note alike rfl rfl) fun _ _ _ alike =>
                runAlike_pure alike outcome

end Operations

theorem callsAlike_calls {base : Machine} {bags : StateId → Option Entity}
    (forgetful : base.Forgetful) (formed : base.Formed) (linked : base.Linked) (depth : Nat) :
    (calls depth).CallsAlike base bags := by
  -- By induction on the depth.
  induction depth with
  | zero =>
      exact
        { trigger := fun _ _ _ _ _ alike _ => runAlike_exhausted alike
          completeRegion := fun _ _ _ alike => runAlike_exhausted alike }
  | succ depth ih =>
      exact
        { trigger := fun _ _ _ _ _ alike corresponds =>
            runAlike_trigger alike forgetful ih formed linked corresponds
          completeRegion := fun _ _ region alike =>
            runAlike_completeRegion alike forgetful ih formed region }

end Run

end Chart
