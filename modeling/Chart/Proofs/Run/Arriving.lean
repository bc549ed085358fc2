import Chart.Proofs.Run.Completing

set_option autoImplicit false

/-!
What follows when a state has just been entered. A normal state runs its callbacks and, if it is
automatic, completes; every other kind but the root departs at once and settles the region around
it. Nothing but a failing callback or a chart that is not closed can stop this.
-/

namespace Chart.Run

open Machine (Orderly Settled Moved TouchesOnly Emptied)

/-- An active state of a coherent machine, none of whose regions is active. -/
structure NoRegionActive (state : StateId) (machine : Machine) : Prop where
  coherent : machine.Coherent
  active : machine.isStateActive state = true
  bare : ∀ region, machine.ownerOf? region = some state → machine.isRegionActive region = false

namespace NoRegionActive

variable {state : StateId} {machine after : Machine}

private theorem of_touches (alone : NoRegionActive state machine)
    (touches : TouchesOnly state machine after) :
    NoRegionActive state after where
  coherent := touches.coherent alone.coherent
  active := by
    rw [touches.toStill.states]
    exact alone.active
  bare := by
    intro region owned
    rw [touches.sameChart.ownerOf?] at owned
    rw [touches.isRegionActive]
    exact alone.bare region owned

theorem of_entered {node : StateNode} (wired : machine.Wired) (coherent : machine.Coherent)
    (found : machine.state? state = some node) (ready : machine.Ready state)
    (inactive : machine.isStateActive state = false) :
    NoRegionActive state (machine.entered state node.name) where
  coherent := coherent.entered wired found ready node.name
  active := (Machine.isStateActive_entered found node.name state).mpr (Or.inl rfl)
  bare := by
    intro region owned
    rw [(Machine.sameChart_entered machine state node.name).ownerOf?] at owned
    rw [Machine.isRegionActive_entered]
    exact coherent.region_inactive owned inactive

end NoRegionActive

/-- A state that has been entered and whose regions have not been opened. -/
structure Arrived (mayFail : Prop) (state : StateId) (machine : Machine) : Prop
    extends NoRegionActive state machine where
  orderly : machine.Orderly mayFail

namespace Arrived

variable {mayFail : Prop} {state : StateId} {machine after : Machine}

theorem of_touches (arrived : Arrived mayFail state machine)
    (touches : TouchesOnly state machine after) :
    Arrived mayFail state after where
  toNoRegionActive := arrived.toNoRegionActive.of_touches touches
  orderly := arrived.orderly.of_changes touches.changes

theorem of_entered {node : StateNode} (orderly : machine.Orderly mayFail)
    (coherent : machine.Coherent) (found : machine.state? state = some node)
    (ready : machine.Ready state) (inactive : machine.isStateActive state = false) :
    Arrived mayFail state (machine.entered state node.name) where
  toNoRegionActive := NoRegionActive.of_entered orderly.toWired coherent found ready inactive
  orderly := by
    have inactiveNode := (Machine.isStateActive_eq found).symm.trans inactive
    exact orderly.of_changes (Machine.Change.enter found inactiveNode (Or.inr (Or.inr trivial))).one

variable (arrived : Arrived mayFail state machine)
include arrived

private theorem attached {region : RegionId}
    (contained : machine.containerOf? state = some region) :
    machine.Attached region :=
  arrived.coherent.attached arrived.orderly.toWired
    (arrived.coherent.container_active arrived.orderly.toWired arrived.active contained)

private theorem members {region : RegionId} (contained : machine.containerOf? state = some region) :
    ∃ members, machine.region? region = some members ∧ members.status.isActive = true :=
  Machine.isRegionActive_iff.mp
    (arrived.coherent.container_active arrived.orderly.toWired arrived.active contained)

/-- The region around a state that is left at once is idle, and its child has just been left. -/
theorem ends_deactivate {calls : Calls} {region : RegionId}
    (contained : machine.containerOf? state = some region) :
    Ends (deactivate calls state) machine
      (fun _ empty => Emptied (machine.Below state) (machine.Beneath state) machine empty ∧
        empty.Orderly mayFail ∧ empty.Idle region ∧
        (machine.Terminal region state → empty.ReachedTerminal region empty.journal.toList))
      (Aborted mayFail) := by
  refine (ends_deactivate_emptied arrived.orderly.leavable arrived.coherent arrived.active
    arrived.bare).mono (fun _ empty single => ?_) fun _ _ failure => failure
  have emptied := single.of_single arrived.orderly.toWired arrived.coherent arrived.bare
  exact ⟨emptied, arrived.orderly.of_changes emptied.changes,
    emptied.idle arrived.orderly.toWired arrived.coherent contained arrived.active,
    emptied.reachedTerminal arrived.orderly.linked.retold arrived.orderly.toWired contained
      (Machine.Below.refl machine state) arrived.active⟩

end Arrived

variable {mayFail : Prop} {related : Machine → Machine → Prop} {calls : Calls}

theorem aborted_note {machine : Machine} (coherent : machine.Coherent)
    {error : ConfigurationError} (permitted : mayFail) :
    Aborted mayFail (.error (.configuration error))
      (machine.note (.notice (.misconfiguration error))) :=
  ⟨(TouchesOnly.note Machine.root machine rfl).coherent coherent, fun _ => permitted⟩

theorem ends_startTimer {state : StateId} {machine : Machine} {node : StateNode}
    (found : machine.state? state = some node) (active : node.status.isActive = true)
    (normal : node.kind = .normal) (timed : node.config.timer = true)
    {failed : Halt → Machine → Prop} :
    Ends (startTimer state) machine (fun _ after => TouchesOnly state machine after) failed := by
  have armed : TouchesOnly state machine (machine.timerArmed state) :=
    TouchesOnly.timerArmed found active normal timed
  exact armed.trans (TouchesOnly.note state (machine.timerArmed state) rfl)

/-! ### What the callbacks of a state lead to -/

section Callbacks

variable {machine : Machine} {state : StateId} {node : StateNode}
variable {finished : Unit → Machine → Prop} {failed : Halt → Machine → Prop}

private theorem ends_finishEntry
    (quiet : ∀ present, node.activity = some present → present.Quiet mayFail)
    (stays : ∀ after, TouchesOnly state machine after → finished () after)
    (fails : ∀ halt after, TouchesOnly state machine after → mayFail → failed halt after)
    (completes : node.config.autoTransition = true → ∀ middle, TouchesOnly state machine middle →
      middle.isStateActive state = true →
      Ends (completeState calls state) middle finished failed) :
    Ends (finishEntry calls state node) machine finished failed := by
  unfold finishEntry
  rw [ends_bind]
  refine (ends_startBehavior_quiet quiet .activity machine).mono (fun _ middle touches => ?_)
    fun halt after failure => fails halt after failure.1 failure.2.2
  rw [ends_bind, ends_get]
  split
  · rename_i both
    obtain ⟨active, auto⟩ := Bool.and_eq_true_iff.mp both
    exact completes auto middle touches active
  · exact stays middle touches

theorem ends_enterNormal {current : StateNode} (found : machine.state? state = some current)
    (same : current.fixed = node.fixed) (normal : node.kind = .normal)
    (quiet : ∀ present, node.Runs present → present.Quiet mayFail)
    (stays : ∀ after, TouchesOnly state machine after → finished () after)
    (fails : ∀ halt after, TouchesOnly state machine after → mayFail → failed halt after)
    (completes : node.config.autoTransition = true → ∀ middle, TouchesOnly state machine middle →
      middle.isStateActive state = true →
      Ends (completeState calls state) middle finished failed) :
    Ends (enterNormal calls state node) machine finished failed := by
  unfold enterNormal
  rw [ends_bind]
  refine (ends_startBehavior_quiet (fun present isEntry => quiet present (Or.inl isEntry)) .entry
    machine).mono (fun _ middle touches => ?_)
    fun halt after failure => fails halt after failure.1 failure.2.2
  rw [ends_bind, ends_get]
  split
  · rename_i active
    obtain ⟨now, foundNow, activeNow⟩ := Machine.isStateActive_iff.mp active
    have fixed : now.fixed = node.fixed := (touches.sameChart.fixed_eq found foundNow).trans same
    have kind : now.kind = node.kind := StateNode.read_eq fixed StateNode.kind fun _ => rfl
    have config : now.config = node.config := StateNode.read_eq fixed StateNode.config fun _ => rfl
    split
    · rename_i timed
      refine Ends.mono (ends_startTimer foundNow activeNow (kind.trans normal)
        (by rw [config]; exact timed)) (fun _ after armed => stays after (touches.trans armed))
        fun _ _ (impossible : False) => impossible.elim
    · exact ends_finishEntry (fun present isActivity => quiet present (Or.inr (Or.inr isActivity)))
        (fun after more => stays after (touches.trans more))
        (fun halt after more permitted => fails halt after (touches.trans more) permitted)
        fun auto later more activeLater => completes auto later (touches.trans more) activeLater
  · exact stays middle touches

private theorem ends_choiceTransition {current : StateNode} {region : RegionId} {target : String}
    (linked : machine.Linked) (found : machine.state? state = some current)
    (contained : current.container = some region) (named : current.name = node.name)
    (chosen : current.choices = node.choices) :
    Ends (choiceTransition state node region target) machine
      (fun id after => TouchesOnly state machine after ∧ ∃ name,
        after.transition? id = some (.ofChoice name node.name target region))
      (fun _ after => TouchesOnly state machine after ∧
        machine.resolveState? region target = none) := by
  unfold choiceTransition
  cases known : Dictionary.find? node.choices target with
  | some id =>
      rw [← chosen] at known
      obtain ⟨name, region', contained', present⟩ :=
        linked.choices state current target id found known
      rw [contained] at contained'
      obtain rfl := Option.some.inj contained'
      rw [named] at present
      exact ⟨TouchesOnly.refl state machine, name, present⟩
  | none =>
      dsimp only
      rw [ends_bind, ends_get]
      split
      · rename_i unreachable
        rw [ends_bind, ends_fail]
        exact ⟨TouchesOnly.note state machine rfl, Option.isNone_iff_eq_none.mp unreachable⟩
      · have chooses : TouchesOnly state machine
            (machine.transitionChosen state node.name target region).2 := by
          rw [← named]
          exact TouchesOnly.transitionChosen found contained (by rw [chosen]; exact known)
        exact ⟨chooses, machine.generateName.1, Array.getElem?_push_size ..⟩

/-- A choice triggers a transition of its own to the target it decides for, unless its region has no
such target. -/
theorem ends_followChoice {current : StateNode} {region : RegionId} (linked : machine.Linked)
    (found : machine.state? state = some current) (same : current.fixed = node.fixed)
    (chosen : current.choices = node.choices) (contained : node.container = some region)
    (fails : ∀ halt after, TouchesOnly state machine after →
      (∀ decision target, node.decision = some decision →
        (decision (machine.view state)).answer = some target →
        machine.resolveState? region target = none) → failed halt after)
    (departs : ∀ decision target name id ready, node.decision = some decision →
      (decision (machine.view state)).answer = some target → TouchesOnly state machine ready →
      ready.transition? id = some (.ofChoice name node.name target region) →
      Ends (calls.trigger id .null) ready (fun _ after => finished () after) failed) :
    Ends (followChoice calls state node) machine finished failed := by
  have inRegion : current.container = some region := by
    rw [StateNode.read_eq same StateNode.container fun _ => rfl]
    exact contained
  have named : current.name = node.name := StateNode.read_eq same StateNode.name fun _ => rfl
  unfold followChoice
  cases decides : node.decision with
  | none =>
      refine (ends_fail _).mpr
        (fails _ _ (TouchesOnly.note state machine rfl) fun decision _ isDecision => ?_)
      rw [decides] at isDecision
      cases isDecision
  | some decision =>
      dsimp only
      rw [ends_bind, ends_get]
      have known (other : Decision) (isDecision : node.decision = some other) : other = decision :=
        Option.some.inj (isDecision.symm.trans decides)
      have departs := departs decision
      generalize isVerdict : decision (machine.view state) = verdict at departs
      rw [ends_bind, ends_note, ends_bind, ends_noteAll]
      set told := (machine.note (.decided state verdict.answer)).notedAll verdict.notes
      have touches : TouchesOnly state machine told :=
        (TouchesOnly.note state machine rfl).trans (TouchesOnly.notedAll state _ verdict.notes)
      cases answer : verdict.answer with
      | none =>
          refine (ends_fail _).mpr (fails _ _ (touches.trans (TouchesOnly.note state told rfl))
            fun other target isDecision answered => ?_)
          rw [known other isDecision, isVerdict, answer] at answered
          cases answered
      | some target =>
          rw [contained]
          dsimp only
          have foundTold : told.state? state = some current := by
            unfold Machine.state?
            rw [Machine.states_notedAll]
            exact found
          have linkedTold := touches.changes.linked linked
          rw [ends_bind]
          refine (ends_choiceTransition linkedTold foundTold inRegion named chosen).mono
            (fun id ready result => ?_) fun halt after failure => ?_
          · obtain ⟨chooses, name, present⟩ := result
            rw [ends_discard]
            exact departs target name id ready decides answer (touches.trans chooses) present
          · refine fails halt after (touches.trans failure.1)
              fun other goal isDecision answered => ?_
            rw [known other isDecision, isVerdict, answer] at answered
            rw [← Option.some.inj answered, ← touches.sameChart.resolveState?]
            exact failure.2

end Callbacks

/-! ### Where the other kinds lead -/

variable (respects : Respects mayFail related) (steady : Steady mayFail related calls)
include respects steady

omit respects steady in
theorem firstSourceless?_spec {machine : Machine} (wired : machine.Wired) {region : RegionId}
    {id : TransitionId} (first : firstSourceless? machine region = some id) :
    ∃ found, machine.transition? id = some found ∧ found.container = some region ∧
      found.source = none ∧ id ∈ machine.transitionsOf region := by
  have listed := List.mem_of_find?_eq_some first
  obtain ⟨found, present, contained⟩ := wired.registered region id listed
  have sourceless := List.find?_some first
  rw [present] at sourceless
  exact ⟨found, present, contained, by simpa using sourceless, listed⟩

omit respects in
theorem ends_followInitial {machine : Machine} {state : StateId} {region : RegionId}
    (arrived : Arrived mayFail state machine)
    (contained : machine.containerOf? state = some region)
    (initial : machine.kindOf? state = some .initial) :
    Ends (followInitial calls region) machine
      (fun _ after => Departed related state machine after) (Aborted mayFail) := by
  obtain ⟨members, stored, isActive⟩ := arrived.members contained
  have marker : state = members.initial :=
    (arrived.orderly.initial region members state stored).mp ⟨contained, initial⟩
  unfold followInitial
  rw [ends_bind, ends_get]
  cases first : firstSourceless? machine region with
  | none =>
      refine (ends_fail _).mpr (aborted_note arrived.coherent ?_)
      by_contra strict
      obtain ⟨id, _, present, _⟩ :=
        (arrived.orderly.closed strict).initial region (arrived.attached contained)
      rw [first] at present
      cases present
  | some id =>
      obtain ⟨found, present, inRegion, sourceless, listed⟩ :=
        firstSourceless?_spec arrived.orderly.toWired first
      dsimp only
      rw [ends_bind]
      refine (steady.trigger machine id .null found region members arrived.orderly
        arrived.coherent present inRegion stored isActive fun strict => ?_).mono
        (fun outcome after answers => ?_) fun _ _ failure => failure
      · refine (arrived.orderly.closed strict).registered region members id found
          (arrived.attached contained) stored ?_ present
        rw [Machine.transitionsOf, stored] at listed
        exact listed
      · obtain ⟨source, resolved, whenFired, otherwise, mustFire⟩ := answers
        unfold Machine.sourceOf at resolved
        rw [sourceless] at resolved
        obtain rfl := Except.ok.inj resolved
        rw [← marker] at whenFired otherwise mustFire
        by_cases fired : outcome = .fired
        · subst fired
          exact (whenFired rfl).2
        · have rejected : Aborted mayFail
              (.error (.configuration (.initialTransitionRejected (machine.transitionName id))))
              (after.note (.notice (.misconfiguration
                (.initialTransitionRejected (machine.transitionName id))))) := by
            refine aborted_note ((otherwise fired).coherent arrived.coherent) ?_
            by_contra strict
            obtain ⟨id', found', first', present', unguarded, _⟩ :=
              (arrived.orderly.closed strict).initial region (arrived.attached contained)
            rw [first] at first'
            obtain rfl := Option.some.inj first'
            rw [present] at present'
            obtain rfl := Option.some.inj present'
            refine fired (mustFire unguarded ?_ arrived.active)
            by_contra internal
            exact arrived.orderly.sourced strict id found present (by simpa using internal)
              sourceless
          cases outcome with
          | fired => exact absurd rfl fired
          | _ => exact rejected

theorem ends_resumeHistory {machine : Machine} {state : StateId} {region : RegionId}
    (arrived : Arrived mayFail state machine)
    (contained : machine.containerOf? state = some region) :
    Ends (resumeHistory calls state region) machine
      (fun _ after => Departed related state machine after) (Aborted mayFail) := by
  unfold resumeHistory
  rw [ends_bind]
  refine (arrived.ends_deactivate contained).mono (fun _ empty left => ?_)
    fun _ _ failure => failure
  obtain ⟨emptied, orderly, idle, _⟩ := left
  obtain ⟨members, stored, _⟩ := Machine.isRegionActive_iff.mp idle.1
  rw [ends_bind, ends_get, stored]
  dsimp only
  cases remembered : members.lastActive with
  | some last =>
      dsimp only
      rw [ends_bind, ends_report]
      obtain ⟨containedLast, _⟩ := orderly.linked.lastActive region members last stored remembered
      have told : TouchesOnly last empty
          (empty.note (.notice (.historyResumes last (empty.stateName last)))) :=
        TouchesOnly.note last empty rfl
      refine (steady.enter _ last (orderly.of_changes told.changes)
        (told.coherent emptied.coherent) (Or.inr ⟨region, containedLast, told.idle idle⟩)
        (Machine.isSome_of_contained containedLast)).mono (fun _ after settled => ?_)
        fun _ _ failure => failure
      refine ⟨machine, empty, TouchesOnly.refl state machine, emptied, ?_⟩
      rw [told.sameChart.containerOf?, containedLast] at settled
      rw [contained]
      exact respects.after_touches orderly.toWired emptied.coherent told containedLast settled
  | none =>
      dsimp only
      have containedInitial :=
        ((orderly.initial region members members.initial stored).mpr rfl).1
      refine (steady.activate empty members.initial orderly emptied.coherent
        (Or.inr ⟨region, containedInitial, idle⟩)
        (Machine.isSome_of_contained containedInitial)).mono (fun _ after settled => ?_)
        fun _ _ failure => failure
      refine ⟨machine, empty, TouchesOnly.refl state machine, emptied, ?_⟩
      rw [containedInitial] at settled
      rw [contained]
      exact settled

theorem ends_reachFinal {machine : Machine} {state : StateId} {node : StateNode}
    {region : RegionId} (arrived : Arrived mayFail state machine)
    (contained : machine.containerOf? state = some region) (inRegion : node.container = some region)
    (isFinal : machine.kindOf? state = some .final) :
    Ends (reachFinal calls state node) machine
      (fun _ after => Departed related state machine after) (Aborted mayFail) := by
  unfold reachFinal
  rw [ends_bind]
  refine (arrived.ends_deactivate contained).mono (fun _ empty left => ?_)
    fun _ _ failure => failure
  obtain ⟨emptied, orderly, idle, reachedTerminal⟩ := left
  rw [inRegion]
  refine (ends_completeRegion respects steady orderly emptied.coherent idle
    (reachedTerminal (Or.inl isFinal))).mono
    (fun _ after settled => ?_) fun _ _ failure => failure
  refine ⟨machine, empty, TouchesOnly.refl state machine, emptied, ?_⟩
  rw [contained]
  exact settled

omit respects in
private theorem ends_departChosen {machine : Machine} {state : StateId} {node : StateNode}
    {region : RegionId} {id : TransitionId} {name target : String}
    (arrived : Arrived mayFail state machine) (found : machine.state? state = some node)
    (choice : node.kind = .choice) (contained : machine.containerOf? state = some region)
    (present : machine.transition? id = some (.ofChoice name node.name target region))
    (leads : ¬mayFail → machine.Leads region target) :
    Ends (calls.trigger id .null) machine
      (fun _ after => Departed related state machine after) (Aborted mayFail) := by
  obtain ⟨members, stored, isActive⟩ := arrived.members contained
  have resolved : Machine.sourceOf members (.ofChoice name node.name target region) = .ok state :=
    sourceOf_child arrived.orderly.toWired stored found contained rfl
  refine (steady.trigger machine id .null (.ofChoice name node.name target region) region members
    arrived.orderly arrived.coherent present rfl stored isActive fun strict => ⟨?_, ?_⟩).mono
    (fun outcome after answers => ?_) fun _ _ failure => failure
  · intro source isSource
    obtain rfl := Option.some.inj isSource
    refine ⟨state, ?_, ?_⟩
    · unfold Machine.sourceOf at resolved
      cases indexed : Dictionary.find? members.stateIndex node.name with
      | none => simp [Transition.ofChoice, indexed] at resolved
      | some other => simpa [Transition.ofChoice, indexed] using resolved
    · rw [Machine.kindOf?_eq_some.mpr ⟨node, found, choice⟩]
      simp
  · intro goal isTarget
    obtain rfl := Option.some.inj isTarget
    exact leads strict
  · obtain ⟨source, resolved', whenFired, _, mustFire⟩ := answers
    rw [resolved] at resolved'
    obtain rfl := Except.ok.inj resolved'
    exact (whenFired (mustFire rfl rfl arrived.active)).2

omit respects in
theorem ends_departChoice {machine : Machine} {state : StateId} {node current : StateNode}
    {region : RegionId} (arrived : Arrived mayFail state machine)
    (found : machine.state? state = some current) (same : current.fixed = node.fixed)
    (chosen : current.choices = node.choices) (choice : node.kind = .choice)
    (contained : node.container = some region) :
    Ends (followChoice calls state node) machine
      (fun _ after => Departed related state machine after) (Aborted mayFail) := by
  have inRegion : current.container = some region := by
    rw [StateNode.read_eq same StateNode.container fun _ => rfl]
    exact contained
  have choiceNow : current.kind = .choice := by
    rw [StateNode.read_eq same StateNode.kind fun _ => rfl]
    exact choice
  have decisionNow : current.decision = node.decision :=
    StateNode.read_eq same StateNode.decision fun _ => rfl
  have container : machine.containerOf? state = some region :=
    Machine.containerOf?_eq_some.mpr ⟨current, found, inRegion⟩
  have reaches (strict : ¬mayFail) {decision : Decision}
    (decides : node.decision = some decision) :=
    (arrived.orderly.closed strict).decided region state current decision (machine.view state)
      (arrived.attached container) container found choiceNow (decisionNow.trans decides)
  refine ends_followChoice arrived.orderly.linked found same chosen contained
    (fun halt after touches stuck => ⟨touches.coherent arrived.coherent, fun _ => ?_⟩)
    fun decision target name id ready decides answered touches present => ?_
  · by_contra strict
    obtain ⟨decision, decides⟩ := Option.isSome_iff_exists.mp
      (arrived.orderly.decided state current found choiceNow)
    rw [decisionNow] at decides
    obtain ⟨target, answered, reached, resolved, _⟩ := reaches strict decides
    rw [stuck decision target decides answered] at resolved
    cases resolved
  · obtain ⟨nodeReady, foundReady, fixed⟩ := touches.sameChart.state?_forward found
    have fixedReady : nodeReady.fixed = node.fixed := fixed.trans same
    have namedReady : nodeReady.name = node.name :=
      StateNode.read_eq fixedReady StateNode.name fun _ => rfl
    have kindReady : nodeReady.kind = node.kind :=
      StateNode.read_eq fixedReady StateNode.kind fun _ => rfl
    refine (ends_departChosen steady (arrived.of_touches touches) foundReady
      (kindReady.trans choice)
      (by rw [touches.sameChart.containerOf?]; exact container)
      (by rw [namedReady]; exact present) fun strict => ?_).mono
      (fun _ after departed => departed.after_touches touches) fun _ _ failure => failure
    obtain ⟨target', answered', leads⟩ := reaches strict decides
    rw [answered] at answered'
    rw [Option.some.inj answered']
    exact touches.sameChart.leads.mpr leads

end Chart.Run
