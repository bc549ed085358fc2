import Chart.Proofs.Run.MatchingRuns
import Chart.Proofs.Session.Finishing

set_option autoImplicit false

/-!
Starting again. In a forgetful chart a stopped machine cannot be told from one that was never
started: whatever it has run, and however that went, it starts in the same way, as long as its owner
has given both the same data. Calls leave the data as they are, a machine whose root is inactive has
nothing else active, and matching machines start alike.
-/

namespace Chart

open Run.Discipline hiding Sound Kept
open Machine (Kept Match Change Changes TouchesOnly SameChart)

/-! ### What a call keeps -/

namespace Run

variable {base machine : Machine} {bags : StateId → Option Entity} {calls : Calls}

private theorem runAlike_start {one other : Machine} (alike : Match base bags one other)
    (forgetful : base.Forgetful) (formed : base.Formed) (linked : base.Linked) (depth : Nat) :
    RunAlike base bags (start depth) (start depth) one other := by
  have active : other.isActive = one.isActive := alike.states Machine.root
  refine RunAlike.get ?_
  rw [active]
  split
  · exact RunAlike.bind (runAlike_note alike rfl rfl) fun _ _ _ alike => runAlike_raise alike rfl
  · exact runAlike_enterDefault alike forgetful
      (callsAlike_calls forgetful formed linked depth) formed linked
      Machine.root

/-- The data stay as they are and the choices can be resolved, while callbacks only look and tell.
-/
def keepingData (base : Machine) (bags : StateId → Option Entity) : Discipline where
  permits := Behavior.ReadOnly
  fit := Kept base bags
  finished before after := SameChart before after ∧ Kept base bags after
  halted _ before after := SameChart before after ∧ Kept base bags after

private theorem keepingData_step {after : Machine} (kept : Kept base bags machine)
    (change : Change True machine after)
    (same : ∀ state, (after.state? state).map (fun node => (node.entity, node.choices)) =
      (machine.state? state).map fun node => (node.entity, node.choices)) :
    (keepingData base bags).finished machine after :=
  ⟨change.sameChart, kept.step change.one same⟩

private theorem keepingData_note (kept : Kept base bags machine) {event : Event}
    (plain : event.isPlain = true) :
    (keepingData base bags).finished machine (machine.note event) :=
  keepingData_step kept (Change.note event plain) fun _ => rfl

private theorem lawful_keepingData : (keepingData base bags).Lawful where
  same := And.left
  fit := fun _ spared => spared.2
  refl := fun kept => ⟨SameChart.refl _, kept⟩
  trans := fun first second => ⟨first.1.trans second.1, second.2⟩
  halts := fun first second => ⟨first.1.trans second.1, second.2⟩
  note := fun kept routine => keepingData_note kept (Event.isPlain_of_isRoutine routine)
  exhausted := fun kept => ⟨SameChart.refl _, kept⟩
  misconfigured := fun _ kept => keepingData_note kept rfl

private theorem refuses_keepingData : (keepingData base bags).Refuses where
  misused := fun _ kept => ⟨SameChart.refl _, kept⟩

private theorem keepingData_behave (state : StateId) {behavior : Behavior}
    (readOnly : behavior.ReadOnly) :
    (keepingData base bags).Kept (behave calls state behavior) := by
  -- By induction on the behaviour.
  induction readOnly with
  | done => exact kept_pure lawful_keepingData _
  | fail error => exact fun _ kept => ⟨SameChart.refl _, kept⟩
  | note text _ ih =>
      exact Kept.bind lawful_keepingData (kept_note lawful_keepingData rfl) fun _ => ih
  | look _ ih =>
      apply kept_get
      exact fun machine kept => ih (machine.view state) machine kept

private theorem sound_keepingData (forgetful : base.Forgetful) : (keepingData base bags).Sound where
  toLawful := lawful_keepingData
  behaviors := fun kept found runs => forgetful.readOnly kept.sameChart found runs
  behave := fun _ state _ readOnly => keepingData_behave state readOnly
  left := by
    intro machine state node kept found active
    have leaves := kept.left found active
    have starts : (keepingData base bags).finished (machine.left state node)
        ((machine.left state node).starting .exit state node.closing) :=
      finished_starting lawful_keepingData leaves (keepingData_note leaves rfl) node.closing
    exact ⟨(Machine.sameChart_left machine state node).trans starts.1, starts.2⟩
  closed := fun kept found active =>
    ⟨(@Change.closeRegion True _ _ _ found active).sameChart, kept.closed found active⟩
  joined := fun kept inactive => keepingData_step kept (Change.join inactive) fun _ => rfl
  opened := fun kept found inactive _ =>
    keepingData_step kept (Change.openRegion found inactive) fun _ => rfl
  started := fun kept _ => keepingData_note kept rfl
  timed := by
    intro machine state node kept found active normal timed
    have armed := kept.timerArmed found active normal timed
    exact ⟨(Machine.sameChart_timerArmed machine state).trans (Machine.sameChart_note _ _),
      armed.note rfl⟩

private theorem enters_keepingData : (keepingData base bags).Enters where
  entered := fun kept found inactive =>
    ⟨Machine.sameChart_entered _ _ _, kept.entered found inactive⟩
  began := fun _ kept => keepingData_note kept rfl

private theorem chooses_keepingData : (keepingData base bags).Chooses where
  decided := fun _ _ kept => keepingData_note kept rfl
  chosen := fun kept found contained fresh reachable =>
    ⟨Machine.sameChart_transitionChosen _ _ _ _ _,
      kept.transitionChosen found contained fresh reachable⟩

private theorem fires_keepingData (forgetful : base.Forgetful) : (keepingData base bags).Fires where
  effects := fun memo kept known isEffect =>
    forgetful.readOnly_effect kept.sameChart known isEffect memo
  requested := fun _ kept => keepingData_note kept rfl
  recorded := fun id firing kept => keepingData_step kept (Change.record id firing) fun _ => rfl
  settled := fun _ _ kept => keepingData_note kept rfl

private theorem ticks_keepingData : (keepingData base bags).Ticks where
  started := fun _ kept => keepingData_note kept rfl
  folded := by
    intro machine handle node now kept found awaited running
    exact keepingData_step kept (Change.foldFrame found awaited running now)
      (Machine.readState_modifyState _ _ handle.state (fun current =>
        { current with timer := (node.timer.step now node.config.interval).1 }) fun _ => rfl)
  requested := by
    intro machine state node kept found running
    exact keepingData_step kept (Change.requestFrame found running)
      (Machine.readState_modifyState _ _ state
        (fun node => { node with frame := some (machine.frames.schedule state).1 }) fun _ => rfl)
  reset := by
    intro machine state node name kept found stopped
    have reset := keepingData_step kept (Change.resetTimer found stopped)
      (Machine.readState_modifyState _ machine state
        (fun node => { node with timer := .idle, frame := none }) fun _ => rfl)
    exact ⟨reset.1.trans (Machine.sameChart_note _ _), reset.2.note rfl⟩
  cancelled := fun kept stale => keepingData_step kept (Change.cancelFrame _ stale) fun _ => rfl

private theorem calls_keepingData (forgetful : base.Forgetful) (depth : Nat) :
    (keepingData base bags).KeptAnywhere (Run.calls depth) := by
  have activates (depth : Nat) (kept : (keepingData base bags).KeptAnywhere (Run.calls depth)) :=
    kept_activate (sound_keepingData forgetful) kept enters_keepingData chooses_keepingData
  apply keptAnywhere_calls (sound_keepingData forgetful) activates
  exact fun depth kept _ _ => kept_trigger (sound_keepingData forgetful) kept.toKeptBy
    (fires_keepingData forgetful) (activates depth kept)

end Run

private theorem Request.Returns.kept {base before after : Machine} {bags : StateId → Option Entity}
    {request : Request} {answer : Except MachineError Unit}
    (returns : request.Returns before answer after) (runs : request.runs = true)
    (kept : Kept base bags before) (forgetful : base.Forgetful) : Kept base bags after := by
  have spares (depth : Nat) := Request.kept_run
    (Run.sound_keepingData forgetful) Run.refuses_keepingData
    Run.ticks_keepingData
    (fun depth => (Run.calls_keepingData forgetful depth).toKeptBy)
    (fun kept => Run.keepingData_step kept (Change.takeFrames trivial) fun _ => rfl) runs
    (fun _ depth => (Run.calls_keepingData forgetful depth).enter Machine.root) depth before kept
  rcases returns.ends spares with ⟨_, _, later⟩ | ⟨_, _, _, later⟩
  · exact later
  · exact later

/-! ### Machines that were never started -/

/-- The calls build the chart or give the machine data. -/
def unstarted : Terms := fun _ request _ _ => request.runs = false

namespace Machine

structure Unused (machine : Machine) : Prop where
  states : ∀ state, machine.isStateActive state = false
  regions : ∀ region, machine.isRegionActive region = false
  choices : ∀ state node, machine.state? state = some node → node.choices = []

private theorem Unused.choicesResolved {machine : Machine} (unused : machine.Unused) :
    machine.ChoicesResolved := by
  intro choice node target id region found chosen _
  rw [unused.choices choice node found] at chosen
  cases chosen

private theorem Unused.of_grown {before after : Machine} (unused : before.Unused)
    (grown : Grown before after) : after.Unused where
  states := fun state => grown.isStateActive.trans (unused.states state)
  regions := fun region => grown.isRegionActive.trans (unused.regions region)
  choices := by
    intro state node found
    cases foundBefore : before.state? state with
    | none => exact (grown.newStates state node foundBefore found).2.1
    | some earlier =>
        have grows := grown.grownNode foundBefore found
        exact (StateNode.read_lasting grows.lasting StateNode.choices fun _ => rfl).trans
          (unused.choices state earlier foundBefore)

private theorem Unused.write {machine : Machine} (unused : machine.Unused) (key : String)
    (value : Value) : (machine.set key value).2.Unused where
  states := fun state =>
    ((TouchesOnly.write root machine key value).toStill.states state).trans (unused.states state)
  regions := unused.regions
  choices := by
    intro state node found
    have same := readState_modifyState StateNode.choices machine root
      (fun node => { node with entity := (node.entity.set key value).2 }) (fun _ => rfl) state
    obtain ⟨earlier, foundEarlier, _⟩ :=
      (TouchesOnly.write root machine key value).toStill.sameChart.state?_backward found
    rw [show (machine.modifyState root _).state? state = some node from found, foundEarlier] at same
    exact (Option.some.inj same).trans (unused.choices state earlier foundEarlier)

private theorem unused_new (name : String) (names : NameSource) :
    (Machine.new name names).Unused := by
  obtain ⟨bare, grown, noRegions, _, _, _, onlyRoot⟩ := grown_new name names
  refine Unused.of_grown ⟨fun state => ?_, fun region => ?_, fun state node found => ?_⟩ grown
  · unfold isStateActive
    cases found : bare.state? state with
    | none => rfl
    | some node =>
        rw [onlyRoot state node found]
        rfl
  · unfold isRegionActive region?
    rw [noRegions]
    rfl
  · rw [onlyRoot state node found]
    rfl

private theorem Reached.unused {machine : Machine} (reached : machine.Reached unstarted) :
    machine.Unused := by
  obtain ⟨name, names, session⟩ := reached
  induction session with
  | refl => exact unused_new name names
  | @tail before after earlier call ih =>
      obtain ⟨request, answer, returns, idle⟩ := call
      have formed := Session.formed earlier (formed_new name names)
      cases request with
      | construct construction => exact ih.of_grown (returns.becomes formed).grown
      | setData key value =>
          have writes (depth : Nat) : Ends ((Request.setData key value).run depth) before
              (fun _ after => after.Unused) fun _ after => after.Unused := by
            unfold Request.run
            rw [ends_discard, ends_modifyGet]
            exact ih.write key value
          rcases returns.ends writes with ⟨_, unused⟩ | ⟨_, _, unused⟩
          · exact unused
          · exact unused
      | _ => cases idle

/-- The first machine has only been given data, the second one has run as well, and been given the
same data. -/
inductive Aged (base : Machine) : Machine → Machine → Prop
  | new : Aged base base base
  | run {fresh used after : Machine} {request : Request} {answer : Except MachineError Unit}
      (aged : Aged base fresh used) (runs : request.runs = true)
      (returns : request.Returns used answer after) : Aged base fresh after
  | write {fresh used : Machine} (aged : Aged base fresh used) (key : String) (value : Value) :
      Aged base (fresh.set key value).2 (used.set key value).2

namespace Aged

variable {base fresh used : Machine} (aged : Aged base fresh used)
include aged

private theorem kept (unused : base.Unused) (forgetful : base.Forgetful) :
    ∃ bags, Kept base bags fresh ∧ Kept base bags used := by
  induction aged with
  | new =>
      have kept : Kept base base.entityOf? base :=
        ⟨Relation.ReflTransGen.refl, fun _ => rfl, unused.choicesResolved⟩
      exact ⟨base.entityOf?, kept, kept⟩
  | run _ runs returns ih =>
      obtain ⟨bags, kept, keptUsed⟩ := ih
      exact ⟨bags, kept, returns.kept runs keptUsed forgetful⟩
  | write _ key value ih =>
      obtain ⟨bags, kept, keptUsed⟩ := ih
      exact ⟨_, kept.write key value, keptUsed.write key value⟩

private theorem fresh_unused (unused : base.Unused) : fresh.Unused := by
  induction aged with
  | new => exact unused
  | run _ _ _ ih => exact ih
  | write _ key value ih => exact ih.write key value

private theorem reached (reached : base.Reached anyTerms) : used.Reached anyTerms := by
  induction aged with
  | new => exact reached
  | run _ _ returns ih =>
      obtain ⟨name, names, session⟩ := ih
      exact ⟨name, names, session.tail ⟨_, _, returns, trivial⟩⟩
  | write _ key value ih =>
      obtain ⟨name, names, session⟩ := ih
      exact ⟨name, names, session.tail ⟨.setData key value, .ok (), ⟨0, rfl⟩, trivial⟩⟩

end Aged

private theorem Coherent.inactive {machine : Machine} (coherent : machine.Coherent)
    (wired : machine.Wired)
    (stopped : machine.isActive = false) :
    (∀ state, machine.isStateActive state = false) ∧
      ∀ region, machine.isRegionActive region = false := by
  have states (state : StateId) : machine.isStateActive state = false := by
    rw [Bool.eq_false_iff]
    intro active
    have rootInactive : machine.isStateActive root = false := stopped
    rcases below_root wired coherent active with rfl | ⟨region, owned, inside⟩
    · rw [rootInactive] at active
      cases active
    · obtain ⟨owner, owned', ownerActive⟩ :=
        coherent.owned region (coherent.active_around wired inside active)
      rw [owned] at owned'
      obtain rfl := Option.some.inj owned'
      rw [rootInactive] at ownerActive
      cases ownerActive
  refine ⟨states, fun region => ?_⟩
  rw [Bool.eq_false_iff]
  intro active
  obtain ⟨owner, _, ownerActive⟩ := coherent.owned region active
  rw [states owner] at ownerActive
  cases ownerActive

end Machine

/-! ### Starting again -/

/-- Both calls were answered, or both were refused with errors of one kind. -/
def SameKind : Except MachineError Unit → Except MachineError Unit → Prop
  | .ok _, .ok _ => True
  | .error error, .error error' => error.word = error'.word
  | _, _ => False

theorem SameKind.symm {answer answer' : Except MachineError Unit} (same : SameKind answer answer') :
    SameKind answer' answer := by
  cases answer <;> cases answer'
  · exact Eq.symm same
  · exact same
  · exact same
  · exact same

private theorem Run.RunAlike.returns {base one other after : Machine}
    {bags : StateId → Option Entity}
    {request : Request}
    (runAlike : ∀ depth, RunAlike base bags (request.run depth) (request.run depth)
      one other) {answer : Except MachineError Unit} (returns : request.Returns one answer after) :
    ∃ answer' after', request.Returns other answer' after' ∧ SameKind answer answer' ∧
      Match base bags after after' := by
  obtain ⟨depth, result⟩ := returns
  have runAlike := runAlike depth
  unfold RunAlike at runAlike
  unfold attempt at result
  cases left : request.run depth one with
  | ok _ middle =>
      rw [left] at runAlike result
      cases right : request.run depth other with
      | ok _ after' =>
          rw [right] at runAlike
          cases result
          refine ⟨.ok (), after', ⟨depth, ?_⟩, trivial, runAlike.2⟩
          unfold attempt
          rw [right]
      | error halt after' =>
          rw [right] at runAlike
          exact runAlike.elim
  | error halt middle =>
      rw [left] at runAlike result
      cases right : request.run depth other with
      | ok _ after' =>
          rw [right] at runAlike
          exact runAlike.elim
      | error halt' after' =>
          rw [right] at runAlike
          cases halt with
          | exhausted => cases result
          | error error =>
              cases halt' with
              | exhausted => exact runAlike.1.elim
              | error error' =>
                  cases result
                  refine ⟨.error error', after', ⟨depth, ?_⟩, runAlike.1, runAlike.2⟩
                  unfold attempt
                  rw [right]

namespace Machine

/-- The same statuses of all states and regions, and the same data. -/
structure SameConfiguration (one other : Machine) : Prop where
  states : ∀ state, other.isStateActive state = one.isStateActive state
  regions : ∀ region, other.isRegionActive region = one.isRegionActive region
  entities : ∀ state, other.entityOf? state = one.entityOf? state

/-- A forgetful machine that has stopped starts in the same way as it did at first: log, last active
children, timers, cached choices and earlier errors have no influence. -/
theorem Reached.restart_forgets {base fresh used : Machine} (reached : base.Reached unstarted)
    (forgetful : base.Forgetful) (aged : Aged base fresh used) (stopped : used.isActive = false) :
    (∀ answer after, Request.start.Returns fresh answer after →
      ∃ answer' after', Request.start.Returns used answer' after' ∧ SameKind answer answer' ∧
        SameConfiguration after after') ∧
    ∀ answer' after', Request.start.Returns used answer' after' →
      ∃ answer after, Request.start.Returns fresh answer after ∧ SameKind answer answer' ∧
        SameConfiguration after after' := by
  have unused := reached.unused
  have anyway : base.Reached anyTerms := reached.weaken fun _ _ _ _ _ => trivial
  have formed := anyway.formed
  have linked := anyway.linked
  obtain ⟨bags, kept, keptUsed⟩ := aged.kept unused forgetful
  have freshUnused := aged.fresh_unused unused
  have usedReached := aged.reached anyway
  have coherent := usedReached.coherent (forgetful.calm.of_sameChart keptUsed.sameChart)
  obtain ⟨states, regions⟩ := coherent.inactive usedReached.formed.toWired stopped
  have alike : Match base bags fresh used := by
    refine ⟨kept, keptUsed, fun state => ?_, fun region => ?_⟩
    · rw [states, freshUnused.states]
    · rw [regions, freshUnused.regions]
  have runAlike := Run.runAlike_start alike forgetful formed linked
  have same {after after' : Machine} (later : Match base bags after after') :
      SameConfiguration after after' := ⟨later.states, later.regions, later.entityOf?⟩
  constructor
  · intro answer after returns
    obtain ⟨answer', after', returns', kind, later⟩ := Run.RunAlike.returns runAlike returns
    exact ⟨answer', after', returns', kind, same later⟩
  · intro answer' after' returns'
    obtain ⟨answer, after, returns, kind, later⟩ :=
      Run.RunAlike.returns (fun depth => (runAlike depth).symm) returns'
    exact ⟨answer, after, returns, kind.symm, same later.symm⟩

end Machine

/-! ### Checking that a chart is forgetful -/

def Behavior.isFlat : Behavior → Bool
  | .done | .fail _ => true
  | .note _ next => next.isFlat
  | .look _ | .write _ _ _ | .fire _ _ _ => false

private theorem Behavior.readOnly_of_isFlat {behavior : Behavior} (flat : behavior.isFlat = true) :
    behavior.ReadOnly := by
  induction behavior with
  | done => exact .done
  | fail error => exact .fail error
  | note text next ih => exact .note text (ih flat)
  | look next _ => cases flat
  | write key value next _ => cases flat
  | fire reference memo next _ => cases flat

namespace Machine

def isForgetful (machine : Machine) : Bool :=
  machine.states.toList.all (fun node =>
      node.entry.all Behavior.isFlat && node.exit.all Behavior.isFlat &&
        node.activity.all Behavior.isFlat && !node.config.autoTransition &&
        node.kind != .history .shallow && node.kind != .history .deep) &&
    machine.transitions.toList.all fun transition => transition.effect.isNone

private theorem forgetful_of_isForgetful {machine : Machine}
    (checked : machine.isForgetful = true) :
    machine.Forgetful := by
  obtain ⟨states, transitions⟩ := (Bool.and_eq_true _ _).mp checked
  have known {state : StateId} {node : StateNode} (found : machine.state? state = some node) :=
    List.all_eq_true.mp states node (Array.mem_toList_iff.mpr (Array.mem_of_getElem? found))
  simp only [Bool.and_eq_true, Bool.not_eq_true', bne_iff_ne] at known
  refine { behaviors := ?_, effects := ?_, unmarked := ?_, leaves := ?_ }
  · intro state node behavior found runs
    obtain ⟨⟨⟨⟨⟨entry, exit⟩, activity⟩, _⟩, _⟩, _⟩ := known found
    apply Behavior.readOnly_of_isFlat
    rcases runs with isEntry | isExit | isActivity
    · rw [isEntry] at entry
      exact entry
    · rw [isExit] at exit
      exact exit
    · rw [isActivity] at activity
      exact activity
  · intro id found effect memo present isEffect
    have bare := List.all_eq_true.mp transitions found
      (Array.mem_toList_iff.mpr (Array.mem_of_getElem? present))
    rw [isEffect] at bare
    cases bare
  · intro state depth history
    obtain ⟨node, found, isHistory⟩ := kindOf?_eq_some.mp history
    obtain ⟨⟨_, shallow⟩, deep⟩ := known found
    cases depth with
    | shallow => exact shallow isHistory
    | deep => exact deep isHistory
  · intro state node found automatic
    obtain ⟨⟨⟨_, manual⟩, _⟩, _⟩ := known found
    rw [manual] at automatic
    cases automatic

def gateRequests : List Request :=
  [.construct (.createState (.plain "open")), .construct (.addState ⟨3⟩),
    .construct (.createState
      { StateDefinition.plain "jammed" with entry := some (.fail (.action "jammed")) }),
    .construct (.addState ⟨4⟩),
    .construct (.addChoice ⟨0⟩ "look" fun view =>
      ⟨some (if view.get? "jam" == some (.bool true) then "jammed" else "open"), []⟩),
    .construct (.createTransition (.initial "look")), .construct (.addTransition ⟨0⟩)]

def gate : Machine :=
  Request.outcome 8 gateRequests (Machine.new "gate" (.ofStem "auto"))

def gateFinished : Machine :=
  Request.outcome 8 [.finish] (Request.outcome 8 [.start] gate)

def gateJammed : Machine :=
  Request.start.aftermath 8 (gateFinished.set "jam" (.bool true)).2

def gateCleared : Machine :=
  ((Request.outcome 8 [.finish] gateJammed).set "jam" (.bool false)).2

/-- The gate as it would be if it had never been started. -/
def gateNew : Machine :=
  ((gate.set "jam" (.bool true)).2.set "jam" (.bool false)).2

/-- The gate has been started and finished, and has been jammed; when that is over it opens as if it
were new. -/
theorem gate_restarts :
    gate.Reached unstarted ∧ gate.Forgetful ∧
      Aged gate gateNew gateCleared ∧
      gateCleared.isActive = false ∧ ∃ answer after answer' after',
        Request.start.Returns gateNew answer after ∧
          Request.start.Returns gateCleared answer' after' ∧ SameKind answer answer' ∧
          SameConfiguration after after' := by
  have reached : gate.Reached unstarted := by
    refine ⟨"gate", .ofStem "auto", (session_outcome (by decide +kernel)).weaken ?_⟩
    rintro _ request _ _ ⟨listed, _⟩
    have builds : ∀ request ∈ gateRequests, request.runs = false := by
      simp [gateRequests, Request.runs]
    exact builds request listed
  have forgetful : gate.Forgetful := forgetful_of_isForgetful (by decide +kernel)
  have starts : Request.start.Returns gate (.ok ()) (Request.outcome 8 [.start] gate) :=
    returns_outcome (by decide +kernel)
  have finishes : Request.finish.Returns (Request.outcome 8 [.start] gate) (.ok ()) gateFinished :=
    returns_outcome (by decide +kernel)
  have jams : Request.start.Returns (gateFinished.set "jam" (.bool true)).2
      (.error (.action "jammed")) gateJammed := returns_aftermath (by decide +kernel)
  have recovers : Request.finish.Returns gateJammed (.ok ())
    (Request.outcome 8 [.finish] gateJammed) :=
    returns_outcome (by decide +kernel)
  have aged : Aged gate gateNew gateCleared :=
    (((((Aged.new.run rfl starts).run rfl finishes).write "jam" (.bool true)).run rfl jams).run rfl
      recovers).write "jam" (.bool false)
  have stopped : gateCleared.isActive = false := by decide +kernel
  have fresh : Request.start.Returns gateNew (.ok ()) (Request.outcome 8 [.start] gateNew) :=
    returns_outcome (by decide +kernel)
  obtain ⟨answer', after', returns, kind, same⟩ :=
    (Reached.restart_forgets reached forgetful aged stopped).1 _ _ fresh
  exact ⟨reached, forgetful, aged, stopped, _, _, answer', after', fresh, returns, kind, same⟩

end Machine

end Chart
