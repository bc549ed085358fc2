import Chart.Proofs.Run.Activating

set_option autoImplicit false

/-!
Firing transitions in an active region. The source is a child of the region and the target lies
inside it, so that an external transition leaves the active child of the region and settles the
region anew. With this, the operations at every depth are steady.
-/

namespace Chart

namespace Machine

section Endpoints

variable {machine : Machine} {region : RegionId} {members : Region} {found : Transition}
variable (stored : machine.region? region = some members)
include stored

private theorem Starts.sourceOf (starts : machine.Starts members found) (formed : machine.Formed) :
    ∃ source, Machine.sourceOf members found = .ok source ∧
      machine.kindOf? source ≠ some .final := by
  unfold Machine.sourceOf
  cases isSource : found.source with
  | none =>
      refine ⟨members.initial, rfl, ?_⟩
      rw [((formed.initial region members members.initial stored).mpr rfl).2]
      simp
  | some name =>
      obtain ⟨child, indexed, notFinal⟩ := starts name isSource
      dsimp only
      rw [indexed]
      exact ⟨child, rfl, notFinal⟩

private theorem LeadsOn.targetOf (leads : machine.LeadsOn region found) (formed : machine.Formed) :
    ∃ target, Machine.targetOf machine region members found = .ok target ∧
      machine.kindOf? target ≠ some .initial := by
  unfold Machine.targetOf
  cases isTarget : found.target with
  | none =>
      refine ⟨members.final, rfl, ?_⟩
      rw [((formed.final region members members.final stored).mpr rfl).2]
      simp
  | some name =>
      obtain ⟨reached, resolved, notInitial⟩ := leads name isTarget
      dsimp only
      rw [resolved]
      exact ⟨reached, rfl, notInitial⟩

/-- In an active region the endpoints are resolved, and always are if the transition starts and
leads on properly. -/
theorem endpoints_of_active (formed : machine.Formed) {id : TransitionId}
    (known : machine.transition? id = some found) (inRegion : found.container = some region)
    (active : members.status.isActive = true) :
    (∃ error, machine.endpoints id = .error error ∧
      ¬(machine.Starts members found ∧ machine.LeadsOn region found)) ∨
    ∃ source target, machine.endpoints id = .ok ⟨source, target⟩ ∧
      Machine.sourceOf members found = .ok source ∧
      Machine.targetOf machine region members found = .ok target := by
  have resolves (proper : machine.Starts members found ∧ machine.LeadsOn region found) :=
    And.intro (proper.1.sourceOf stored formed) (proper.2.targetOf stored formed)
  unfold endpoints
  rw [known]
  dsimp only
  rw [inRegion]
  dsimp only
  rw [stored]
  dsimp only
  rw [if_pos active]
  cases isSource : Machine.sourceOf members found with
  | error error =>
      refine Or.inl ⟨error, rfl, fun proper => ?_⟩
      obtain ⟨source, resolved, _⟩ := (resolves proper).1
      rw [isSource] at resolved
      cases resolved
  | ok source =>
      cases isTarget : Machine.targetOf machine region members found with
      | error error =>
          refine Or.inl ⟨error, rfl, fun proper => ?_⟩
          obtain ⟨target, resolved, _⟩ := (resolves proper).2
          rw [isTarget] at resolved
          cases resolved
      | ok target =>
          by_cases final : machine.kindOf? source = some .final
          · refine Or.inl ⟨.finalSource found.name, ?_, fun proper => ?_⟩
            · simp [final, bind, Except.bind, throw, throwThe, MonadExceptOf.throw]
            · obtain ⟨source', resolved, notFinal⟩ := (resolves proper).1
              rw [isSource] at resolved
              obtain rfl := Except.ok.inj resolved
              exact notFinal final
          · by_cases initial : machine.kindOf? target = some .initial
            · refine Or.inl ⟨.initialTarget found.name, ?_, fun proper => ?_⟩
              · simp [final, initial, bind, Except.bind, throw, throwThe, MonadExceptOf.throw]
              · obtain ⟨target', resolved, notInitial⟩ := (resolves proper).2
                rw [isTarget] at resolved
                obtain rfl := Except.ok.inj resolved
                exact notInitial initial
            · refine Or.inr ⟨source, target, ?_, rfl, rfl⟩
              simp [final, initial, bind, Except.bind, pure, Except.pure]

end Endpoints

end Machine

namespace Run

open Machine (Orderly Settled Moved TouchesOnly Emptied)

variable {mayFail : Prop} {related : Machine → Machine → Prop} {calls : Calls}

theorem ends_guardAccepts {machine : Machine} {found : Transition} {source : StateId}
    {memo : Value} {failed : Halt → Machine → Prop} :
    Ends (guardAccepts found source memo) machine
      (fun accepted after => TouchesOnly source machine after ∧
        (found.guard = none → accepted = true))
      failed := by
  unfold guardAccepts
  cases found.guard with
  | none => exact ⟨TouchesOnly.refl source machine, fun _ => rfl⟩
  | some guard =>
      dsimp only
      rw [ends_bind, ends_get, ends_bind, ends_noteAll]
      exact ⟨TouchesOnly.notedAll source machine _, fun absent => by cases absent⟩

theorem ends_runEffect {machine : Machine} {found : Transition} {source : StateId} {memo : Value}
    (quiet : ∀ effect, found.effect = some effect → (effect memo).Quiet mayFail) :
    Ends (runEffect calls found source memo) machine
    (fun _ after => TouchesOnly source machine after)
      (fun halt after => TouchesOnly source machine after ∧ halt ≠ .exhausted ∧ mayFail) := by
  unfold runEffect
  cases isEffect : found.effect with
  | none => exact TouchesOnly.refl source machine
  | some effect => exact ends_behave_quiet (quiet effect isEffect) machine

private theorem ends_fireInternal {machine : Machine} {id : TransitionId} {found : Transition}
    {source : StateId} {sourceName : String} {memo : Value} (coherent : machine.Coherent)
    (quiet : ∀ effect, found.effect = some effect → (effect memo).Quiet mayFail) :
    Ends (fireInternal calls id found source sourceName memo) machine
      (fun outcome after => outcome = .internal ∧ TouchesOnly source machine after)
      (Aborted mayFail) := by
  unfold fireInternal
  rw [ends_bind, ends_report, ends_bind]
  have told : TouchesOnly source machine (machine.note (.notice (.firingInternal id found.name))) :=
    TouchesOnly.note source machine rfl
  refine (ends_runEffect quiet).mono (fun _ middle touches => ?_)
    fun _ _ failure => ⟨(told.trans failure.1).coherent coherent, fun _ => failure.2.2⟩
  have recorded := TouchesOnly.recorded source middle id ⟨found.name, sourceName, sourceName, true⟩
  exact ⟨rfl, (told.trans touches).trans recorded⟩

/-- The source of a transition has been left, its effect has run and the firing is recorded. -/
structure Cleared (mayFail : Prop) (source : StateId) (region : RegionId)
    (machine told empty ready : Machine) : Prop where
  tells : TouchesOnly source machine told
  emptied : Emptied (told.Below source) (told.Beneath source) told empty
  effects : TouchesOnly source empty ready
  orderly : ready.Orderly mayFail
  coherent : ready.Coherent
  idle : ready.Idle region

theorem Cleared.sameChart {source : StateId} {region : RegionId}
    {machine told empty ready : Machine}
    (cleared : Cleared mayFail source region machine told empty ready) :
    Machine.SameChart machine ready :=
  (cleared.tells.sameChart.trans cleared.emptied.changes.sameChart).trans cleared.effects.sameChart

/-- An external transition ends as the entry of its target does, which begins in an idle region. -/
theorem ends_fireExternal_cleared {machine : Machine} {id : TransitionId} {found : Transition}
    {ends : Machine.Endpoints} {region : RegionId} {sourceName targetName : String} {memo : Value}
    {finished : Outcome → Machine → Prop}
    (orderly : machine.Orderly mayFail) (coherent : machine.Coherent)
    (sourceActive : machine.isStateActive ends.source = true)
    (contained : machine.containerOf? ends.source = some region)
    (quiet : ∀ effect, found.effect = some effect → (effect memo).Quiet mayFail)
    (explicitly : ∀ told empty ready, Cleared mayFail ends.source region machine told empty ready →
      ready.level ends.source < ready.level ends.target →
      Ends (enterExplicit calls ends.target) ready (fun _ after => finished .fired after)
        (Aborted mayFail))
    (directly : ∀ told empty ready, Cleared mayFail ends.source region machine told empty ready →
      ¬ready.level ends.source < ready.level ends.target →
      Ends (enterDefault calls ends.target) ready (fun _ after => finished .fired after)
        (Aborted mayFail)) :
    Ends (fireExternal calls id found ends sourceName targetName memo) machine finished
      (Aborted mayFail) := by
  unfold fireExternal
  rw [ends_bind, ends_report, ends_bind]
  set told := machine.note (.notice (.firing id found.name sourceName targetName))
  have touches : TouchesOnly ends.source machine told := TouchesOnly.note ends.source machine rfl
  have orderlyTold := orderly.of_changes touches.changes
  have coherentTold := touches.coherent coherent
  have containedTold : told.containerOf? ends.source = some region := by
    rw [touches.sameChart.containerOf?]
    exact contained
  have activeTold : told.isStateActive ends.source = true := by
    rw [touches.toStill.states]
    exact sourceActive
  refine (ends_exit orderlyTold.leavable coherentTold activeTold).mono (fun _ empty emptied => ?_)
    fun _ _ failure => failure
  have orderlyEmpty := orderlyTold.of_changes emptied.changes
  have idle := emptied.idle orderlyTold.toWired coherentTold containedTold activeTold
  rw [ends_bind]
  refine (ends_runEffect quiet).mono (fun _ effected quietly => ?_)
    fun _ _ failure => ⟨failure.1.coherent emptied.coherent, fun _ => failure.2.2⟩
  rw [ends_bind]
  -- The effect has finished and the firing is recorded; now the target is entered.
  have recorded := TouchesOnly.recorded ends.source effected id
    ⟨found.name, sourceName, targetName, false⟩
  have effects := quietly.trans recorded
  change Ends _ (effected.recorded id ⟨found.name, sourceName, targetName, false⟩) _ _
  generalize effected.recorded id ⟨found.name, sourceName, targetName, false⟩ = ready at effects ⊢
  have cleared : Cleared mayFail ends.source region machine told empty ready :=
    { tells := touches
      emptied := emptied
      effects := effects
      orderly := orderlyEmpty.of_changes effects.changes
      coherent := effects.coherent emptied.coherent
      idle := effects.idle idle }
  rw [ends_bind, ends_get]
  split
  · rename_i deeper
    rw [ends_bind]
    exact explicitly told empty ready cleared deeper
  · rename_i notDeeper
    rw [ends_bind]
    exact directly told empty ready cleared notDeeper

theorem contained_of_not_deeper {machine : Machine} {source target : StateId} {region : RegionId}
    (wired : machine.Wired) (contained : machine.containerOf? source = some region)
    (inside : machine.Inside region target)
    (notDeeper : ¬machine.level source < machine.level target) :
    machine.containerOf? target = some region := by
  obtain ⟨owner, owned⟩ := wired.exists_owner contained
  have sourceLevel := wired.level_succ contained owned
  cases inside with
  | member contained => exact contained
  | deeper containedTarget ownedNested insideOwner =>
      have targetLevel := wired.level_succ containedTarget ownedNested
      have ownerLevel := wired.level_lt_of_inside owned insideOwner
      omega

variable (respects : Respects mayFail related) (active : Activating mayFail related calls)
include respects active

private theorem ends_fireExternal {machine : Machine} {id : TransitionId} {found : Transition}
    {ends : Machine.Endpoints} {region : RegionId} {sourceName targetName : String} {memo : Value}
    (orderly : machine.Orderly mayFail) (coherent : machine.Coherent)
    (sourceActive : machine.isStateActive ends.source = true)
    (contained : machine.containerOf? ends.source = some region)
    (inside : machine.Inside region ends.target)
    (quiet : ∀ effect, found.effect = some effect → (effect memo).Quiet mayFail) :
    Ends (fireExternal calls id found ends sourceName targetName memo) machine
      (fun outcome after => outcome = .fired ∧ Departed related ends.source machine after)
      (Aborted mayFail) := by
  have departs {told empty ready after : Machine}
      (cleared : Cleared mayFail ends.source region machine told empty ready)
      (settled : Settled related (some region) ready after) :
      Departed related ends.source machine after := by
    have sameEmpty := cleared.tells.sameChart.trans cleared.emptied.changes.sameChart
    have orderlyEmpty := (orderly.of_changes cleared.tells.changes).of_changes
      cleared.emptied.changes
    refine ⟨told, empty, cleared.tells, cleared.emptied, ?_⟩
    rw [contained]
    exact respects.after_touches orderlyEmpty.toWired cleared.emptied.coherent cleared.effects
      (by rw [sameEmpty.containerOf?]; exact contained) settled
  refine ends_fireExternal_cleared orderly coherent sourceActive contained quiet
    (fun told empty ready cleared _ => ?_) fun told empty ready cleared notDeeper => ?_
  · exact (ends_enterExplicit respects active cleared.orderly cleared.coherent cleared.idle
      (cleared.sameChart.inside.mpr inside)).mono
      (fun _ _ settled => ⟨rfl, departs cleared settled⟩) fun _ _ failure => failure
  · have containedTarget := contained_of_not_deeper cleared.orderly.toWired
      ((cleared.sameChart.containerOf? _).trans contained) (cleared.sameChart.inside.mpr inside)
      notDeeper
    refine (ends_enterDefault respects active cleared.orderly cleared.coherent
      (Or.inr ⟨region, containedTarget, cleared.idle⟩)
      (Machine.isSome_of_contained containedTarget)).mono
      (fun _ after settled => ?_) fun _ _ failure => failure
    rw [containedTarget] at settled
    exact ⟨rfl, departs cleared settled⟩

private theorem ends_fireResolved {machine : Machine} {id : TransitionId} {found : Transition}
    {ends : Machine.Endpoints} {region : RegionId} {memo : Value}
    (orderly : machine.Orderly mayFail) (coherent : machine.Coherent)
    (contained : machine.containerOf? ends.source = some region)
    (inside : machine.Inside region ends.target)
    (quiet : ∀ effect, found.effect = some effect → (effect memo).Quiet mayFail) :
    Ends (fireResolved calls id found ends memo) machine
      (fun outcome after =>
        (outcome = .fired → machine.isStateActive ends.source = true ∧
          Departed related ends.source machine after) ∧
        (outcome ≠ .fired → TouchesOnly ends.source machine after) ∧
        (found.guard = none → found.internal = false →
          machine.isStateActive ends.source = true → outcome = .fired))
      (Aborted mayFail) := by
  unfold fireResolved
  rw [ends_bind, ends_get]
  dsimp only
  cases sourceActive : machine.isStateActive ends.source with
  | false =>
      rw [if_pos Bool.not_false, ends_bind, ends_report]
      exact ⟨fun fired => (by cases fired), fun _ => TouchesOnly.note ends.source machine rfl,
        fun _ _ impossible => (by cases impossible)⟩
  | true =>
      rw [if_neg (by simp), ends_bind]
      refine Ends.mono ends_guardAccepts (fun accepted middle guarded => ?_)
        fun _ _ (impossible : False) => impossible.elim
      obtain ⟨touches, unguarded⟩ := guarded
      cases accepted with
      | false =>
          rw [if_pos Bool.not_false, ends_bind, ends_report]
          refine ⟨fun fired => (by cases fired), fun _ => ?_, fun absent => ?_⟩
          · exact touches.trans (TouchesOnly.note ends.source middle rfl)
          · cases unguarded absent
      | true =>
          rw [if_neg (by simp)]
          cases internal : found.internal with
          | true =>
              rw [if_pos rfl]
              refine (ends_fireInternal (touches.coherent coherent) quiet).mono
                (fun outcome after fired => ?_) fun _ _ failure => failure
              obtain ⟨isInternal, touchesAfter⟩ := fired
              subst isInternal
              exact ⟨fun fired => (by cases fired), fun _ => touches.trans touchesAfter,
                fun _ impossible => (by cases impossible)⟩
          | false =>
              rw [if_neg (by simp)]
              have same := touches.sameChart
              refine (ends_fireExternal respects active (orderly.of_changes touches.changes)
                (touches.coherent coherent) (by rw [touches.toStill.states]; exact sourceActive)
                (by rw [same.containerOf?]; exact contained) (same.inside.mpr inside) quiet).mono
                (fun outcome after fired => ?_) fun _ _ failure => failure
              obtain ⟨isFired, departed⟩ := fired
              subst isFired
              exact ⟨fun _ => ⟨rfl, departed.after_touches touches⟩, fun notFired =>
                absurd rfl notFired,
                fun _ _ _ => rfl⟩

theorem ends_trigger_resolved {machine : Machine} {id : TransitionId} {memo : Value}
    {found : Transition} {region : RegionId} {members : Region} {source target : StateId}
    (orderly : machine.Orderly mayFail) (coherent : machine.Coherent)
    (known : machine.transition? id = some found)
    (stored : machine.region? region = some members)
    (resolved : (machine.note (.requested id)).endpoints id = .ok ⟨source, target⟩)
    (isSource : Machine.sourceOf members found = .ok source)
    (isTarget : Machine.targetOf (machine.note (.requested id)) region members found =
      .ok target) :
    Ends (trigger calls id memo) machine (Answers related found members machine)
      (Aborted mayFail) := by
  unfold trigger
  rw [ends_bind, ends_note]
  have asked : TouchesOnly source machine (machine.note (.requested id)) :=
    TouchesOnly.note source machine rfl
  have orderlyAsked := orderly.of_changes asked.changes
  have same := asked.sameChart
  rw [ends_bind, ends_get, Machine.transition?_note, known, resolved]
  dsimp only
  have contained : machine.containerOf? source = some region :=
    Machine.containerOf?_sourceOf stored orderly.toFormed isSource
  have inside : (machine.note (.requested id)).Inside region target :=
    Machine.inside_targetOf (machine.region?_note (.requested id) region ▸ stored)
      orderlyAsked.toFormed isTarget
  rw [ends_bind]
  refine (ends_fireResolved respects active orderlyAsked (asked.coherent coherent)
    (by rw [same.containerOf?]; exact contained) inside
    fun effect isEffect => orderly.calm.effects id found effect memo known isEffect).mono
    (fun outcome after fires => ?_) fun _ _ failure => failure
  obtain ⟨whenFired, otherwise, mustFire⟩ := fires
  rw [asked.toStill.states] at whenFired mustFire
  rw [ends_bind, ends_note]
  refine ⟨source, isSource, fun fired => ⟨(whenFired fired).1, ?_⟩, fun notFired => ?_, mustFire⟩
  · obtain ⟨ready, empty, touches, emptied, settled⟩ := (whenFired fired).2.after_touches asked
    exact ⟨ready, empty, touches, emptied, respects.settled_note settled rfl⟩
  · exact (asked.trans (otherwise notFired)).trans (TouchesOnly.note source after rfl)

private theorem ends_trigger {machine : Machine} {id : TransitionId} {memo : Value}
    {found : Transition}
    {region : RegionId} {members : Region} (orderly : machine.Orderly mayFail)
    (coherent : machine.Coherent) (known : machine.transition? id = some found)
    (inRegion : found.container = some region) (stored : machine.region? region = some members)
    (isActive : members.status.isActive = true)
    (proper : ¬mayFail → machine.Starts members found ∧ machine.LeadsOn region found) :
    Ends (trigger calls id memo) machine (Answers related found members machine)
      (Aborted mayFail) := by
  have asked : TouchesOnly Machine.root machine (machine.note (.requested id)) :=
    TouchesOnly.note Machine.root machine rfl
  have same := asked.sameChart
  rcases Machine.endpoints_of_active (machine.region?_note (.requested id) region ▸ stored)
    (orderly.of_changes asked.changes).toFormed
    (machine.transition?_note (.requested id) id ▸ known) inRegion isActive
    with ⟨error, wrong, improper⟩ | ⟨source, target, resolved, isSource, isTarget⟩
  · unfold trigger
    rw [ends_bind, ends_note, ends_bind, ends_get, Machine.transition?_note, known, wrong]
    refine (ends_fail error).mpr (aborted_note (asked.coherent coherent) ?_)
    by_contra strict
    refine improper ⟨fun name named => ?_, fun name named => ?_⟩
    · obtain ⟨child, indexed, notFinal⟩ := (proper strict).1 name named
      exact ⟨child, indexed, by rw [same.kindOf?]; exact notFinal⟩
    · exact same.leads.mpr ((proper strict).2 name named)
  · exact ends_trigger_resolved respects active orderly coherent known stored resolved isSource
      isTarget

omit respects active in
/-- The operations at every depth are steady, by induction on the depth. -/
theorem steady_calls (respects : Respects mayFail related) (depth : Nat) :
    Steady mayFail related (Run.calls depth) := by
  induction depth with
  | zero =>
      have stops {machine : Machine} (coherent : machine.Coherent) :
          Aborted mayFail .exhausted machine := ⟨coherent, fun impossible => absurd rfl impossible⟩
      exact
        { trigger := fun _ _ _ _ _ _ _ coherent _ _ _ _ _ => stops coherent
          enter := fun _ _ _ coherent _ _ => stops coherent
          activate := fun _ _ _ coherent _ _ => stops coherent
          completeRegion := fun _ _ _ coherent _ _ => stops coherent }
  | succ depth ih =>
      have active := activating respects ih ⟨depth, rfl⟩
      exact
        { trigger := fun _ _ _ _ _ _ orderly coherent known inRegion stored isActive proper =>
            ends_trigger respects active orderly coherent known inRegion stored isActive proper
          enter := fun _ _ orderly coherent ready present =>
            ends_enterDefault respects active orderly coherent ready present
          activate := fun machine state orderly coherent ready present =>
            (active machine state orderly coherent ready present).mono
              (fun _ _ activated => activated.1) fun _ _ failure => failure
          completeRegion := fun _ _ orderly coherent idle reachedTerminal =>
            ends_completeRegion respects ih orderly coherent idle reachedTerminal }

end Run
end Chart
