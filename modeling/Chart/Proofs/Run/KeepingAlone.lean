import Chart.Proofs.Run.StandingAlone

set_option autoImplicit false

/-!
Every trigger keeps a state standing alone until the state is left, whatever its callbacks do. The
operations that a trigger is made of do so under conditions: a state may be entered, or completed,
if it does not lie beside the state; and a region may be completed if nothing in it does.
-/

namespace Chart.Run

open Discipline hiding Sound
open Machine (Change Changes KeepsAlone SameChart StandsAlone Told Vacates)

variable {state : StateId}

/-- The state keeps standing alone, when a run finishes and when it ends with an error. -/
def keepingAlone (state : StateId) : Discipline :=
  .throughout (fun _ => True) (fun machine => machine.Formed ∧ machine.Linked) (KeepsAlone state)

structure Calls.KeepAlone (state : StateId) (calls : Calls) : Prop where
  changing : calls.Changing True
  trigger : ∀ id memo, (keepingAlone state).Kept (calls.trigger id memo)
  enter : ∀ (machine : Machine) other, (keepingAlone state).fit machine →
    ¬machine.Beside other state → (keepingAlone state).KeptFrom (calls.enter other) machine
  activate : ∀ (machine : Machine) other, (keepingAlone state).fit machine →
    ¬machine.Beside other state → (keepingAlone state).KeptFrom (calls.activate other) machine
  completeRegion : ∀ (machine : Machine) region, (keepingAlone state).fit machine →
    machine.Clear region state →
    (keepingAlone state).KeptFrom (calls.completeRegion region) machine

/-! ### What is allowed -/

theorem lawful_keepingAlone : (keepingAlone state).Lawful :=
  lawful_throughout (fun keeps => keeps.changes.sameChart)
    (fun fit keeps => ⟨fit.1.of_sameChart keeps.changes.sameChart, keeps.changes.linked fit.2⟩)
    (fun _ => KeepsAlone.refl _) (fun first second => first.trans second)
    (fun fit routine => KeepsAlone.note fit.2 (Event.isPlain_of_isRoutine routine))
    fun _ fit => KeepsAlone.note fit.2 rfl

private theorem lenient_keepingAlone : (keepingAlone state).Lenient :=
  lenient_throughout (fun _ => KeepsAlone.refl _)
    fun {machine} key value fit =>
      .of_still fit.2 (Change.write key value).one (Told.refl machine) (by simp)

private theorem opens_keepingAlone : (keepingAlone state).Opens where
  opened := fun _ found inactive _ => KeepsAlone.opened found inactive

private theorem chooses_keepingAlone : (keepingAlone state).Chooses where
  decided := fun _ _ fit => KeepsAlone.note fit.2 rfl
  chosen := fun {machine} {_ _ _ _} fit found contained fresh _ =>
    .of_still fit.2 (Change.choose found contained fresh).one (Told.refl machine) (by simp)

theorem refuses_keepingAlone : (keepingAlone state).Refuses :=
  refuses_throughout fun _ => KeepsAlone.refl _

theorem ticks_keepingAlone : (keepingAlone state).Ticks where
  started := fun _ fit => KeepsAlone.note fit.2 rfl
  folded := fun {machine handle _} now fit found awaited running =>
    .of_still fit.2 (Change.foldFrame found awaited running now).one
      (Machine.told_note machine (.delivered handle)) (by simp [Event.moves])
  requested := fun {machine _ _} fit found running =>
    .of_still fit.2 (Change.requestFrame found running).one (Told.refl machine) (by simp)
  reset := fun {machine place _} _ fit found stopped =>
    have resets : Changes machine (machine.timerReset place) :=
      (Change.resetTimer found stopped).one
    .of_still fit.2 (resets.tail (Change.note _ rfl))
      (Machine.told_note (machine.timerReset place) _) (by simp [Event.moves])
  cancelled := fun {machine handle} fit stale =>
    .of_still fit.2 (Change.cancelFrame handle stale).one (Told.refl machine) (by simp)

theorem keptFrom_of_standsAlone {Answer : Type} {run : Run Answer} {machine : Machine}
    (changes : (changing True).Kept run)
    (keeps : machine.StandsAlone state → (keepingAlone state).KeptFrom run machine) :
    (keepingAlone state).KeptFrom run machine := by
  by_cases stands : machine.StandsAlone state
  · exact keeps stands
  · exact (changes machine (Or.inl trivial)).mono (fun _ _ steps => .of_changes stands steps)
      fun _ _ steps => Or.inr (.of_changes stands steps)

section Operations

variable {calls : Calls} (keeps : calls.KeepAlone state) {machine : Machine}
include keeps

private theorem kept_perform_alone (other : StateId) (behavior : Option Behavior) :
    (keepingAlone state).Kept (perform calls other behavior) := by
  cases behavior with
  | none => exact kept_pure lawful_keepingAlone _
  | some present =>
      exact kept_behave lawful_keepingAlone lenient_keepingAlone keeps.trigger other present

private theorem keptFrom_perform_alone (phase : Phase) (other : StateId)
    (behavior : Option Behavior)
    (fit : (keepingAlone state).fit machine) :
    Ends (perform calls other behavior) (machine.starting phase other behavior)
      (fun _ after => (keepingAlone state).finished machine after)
      fun halt after => (keepingAlone state).halted halt machine after := by
  have starts : (keepingAlone state).finished machine (machine.starting phase other behavior) :=
    finished_starting lawful_keepingAlone fit (KeepsAlone.note fit.2 rfl) behavior
  exact (kept_perform_alone keeps other behavior _ (lawful_keepingAlone.fit fit starts)).after
    lawful_keepingAlone starts

theorem acts_alone : (keepingAlone state).Acts calls := by
  intro chart other node _ _
  cases node.activity with
  | none => exact kept_pure lawful_keepingAlone _
  | some present =>
      have starts : (keepingAlone state).Kept (note (.started .activity other)) :=
        fun _ fit => KeepsAlone.note fit.2 rfl
      exact Kept.bind lawful_keepingAlone starts fun _ =>
        kept_perform_alone keeps other (some present)

/-! ### Leaving -/

private theorem keptFrom_deactivate_alone {other : StateId} (fit : (keepingAlone state).fit machine)
    (notBelow : ¬machine.Below other state) :
    (keepingAlone state).KeptFrom (deactivate calls other) machine := by
  refine keptFrom_deactivate lawful_keepingAlone fit fun node found active => ?_
  have leaves : (keepingAlone state).finished machine (machine.left other node) :=
    KeepsAlone.left found active notBelow
  exact (keptFrom_perform_alone keeps .exit other node.closing
    (lawful_keepingAlone.fit fit leaves)).mono
    (fun _ _ later => leaves.trans later)
    fun _ _ halted => lawful_keepingAlone.halts leaves halted

omit keeps in
private theorem keptFrom_deactivateRegion_alone {region : RegionId}
    (fit : (keepingAlone state).fit machine)
    (outside : ¬machine.Inside region state) :
    (keepingAlone state).KeptFrom (deactivateRegion region) machine := by
  apply KeptFrom.get
  split
  · exact KeepsAlone.refl machine
  · rename_i members found
    split
    · rename_i active
      exact KeepsAlone.closed found active outside
    · exact kept_warn lawful_keepingAlone _ machine fit

private theorem keptFrom_exitSteps_alone {plan : List Machine.Step}
    (fit : (keepingAlone state).fit machine)
    (avoids : ∀ step ∈ plan, machine.Avoids state step) :
    (keepingAlone state).KeptFrom (plan.forM (exitStep calls)) machine := by
  -- By induction on the plan.
  induction plan generalizing machine with
  | nil => exact KeepsAlone.refl machine
  | cons step rest ih =>
      have leaves : (keepingAlone state).KeptFrom (exitStep calls step) machine := by
        have avoidsStep := avoids step (List.mem_cons_self ..)
        cases step with
        | state other => exact keptFrom_deactivate_alone keeps fit avoidsStep
        | region region => exact (keptFrom_deactivateRegion_alone fit avoidsStep).discard
      refine leaves.bind lawful_keepingAlone fun _ after left =>
        ih (lawful_keepingAlone.fit fit left) fun other member =>
          left.changes.sameChart.avoids (avoids other (List.mem_cons_of_mem _ member))

private theorem ends_exit_vacates {top : StateId} (fit : (keepingAlone state).fit machine)
    (below : machine.Below top state) :
    Ends (exit calls top) machine (fun _ after => Vacates state machine after)
      fun halt after => halt = .exhausted ∨ KeepsAlone state machine after := by
  have any {Answer : Type} {run : Run Answer} (kept : (changing True).Kept run) (from_ : Machine) :
      Ends run from_ (fun _ after => Changes from_ after) fun _ after => Changes from_ after :=
    kept from_ (Or.inl trivial)
  by_cases stands : machine.StandsAlone state
  · unfold exit
    rw [ends_bind, ends_get]
    obtain ⟨early, late, plan, avoids⟩ := stands.exitPlan_eq fit.1.toWired below
    rw [plan, ends_forM_append]
    refine (keptFrom_exitSteps_alone keeps fit avoids).mono (fun _ middle kept => ?_)
      fun _ _ halted => halted
    rw [ends_forM_cons]
    have vacates : Ends (exitStep calls (.state state)) middle
        (fun _ after => Vacates state machine after) fun _ after =>
          Vacates state machine after := by
      change Ends (deactivate calls state) middle _ _
      by_cases active : middle.isStateActive state = true
      · obtain ⟨node, found, isActive⟩ := Machine.isStateActive_iff.mp active
        have leaves : Vacates state machine (middle.left state node) :=
          KeepsAlone.trans_vacates kept (Vacates.left found isActive)
        rw [ends_deactivate found isActive]
        split
        · exact (any (changing_startBehavior keeps.changing state .exit node.exit) _).mono
            (fun _ _ later => leaves.trans_changes later)
            fun _ _ later => leaves.trans_changes later
        · exact leaves
      · have gone : ¬middle.StandsAlone state := fun standing => active standing.active
        have absent : Vacates state middle middle :=
          ⟨Relation.ReflTransGen.refl, fun standing => absurd standing gone⟩
        have leaves : Vacates state machine middle := KeepsAlone.trans_vacates kept absent
        exact (any (kept_deactivate (sound_changing True) keeps.changing.toKeptBy state) _).mono
          (fun _ _ later => leaves.trans_changes later)
          fun _ _ later => leaves.trans_changes later
    refine vacates.mono (fun _ after leaves => ?_) fun _ _ leaves => Or.inr leaves.keepsAlone
    have rest : (changing True).Kept (late.forM (exitStep calls)) :=
      kept_forM (lawful_changing True) late _
        (kept_exitStep (sound_changing True) keeps.changing.toKeptBy)
    exact (any rest after).mono (fun _ _ later => leaves.trans_changes later)
      fun _ _ later => Or.inr (leaves.trans_changes later).keepsAlone
  · have leaves : (changing True).Kept (exit calls top) :=
      kept_exit (sound_changing True) keeps.changing.toKeptBy top
    exact (any leaves machine).mono
      (fun _ _ changes => ⟨changes, fun standing => absurd standing stands⟩)
      fun _ _ changes => Or.inr (.of_changes stands changes)

theorem kept_exit_alone (top : StateId) : (keepingAlone state).Kept (exit calls top) := by
  intro machine fit
  by_cases below : machine.Below top state
  · exact (ends_exit_vacates keeps fit below).mono (fun _ _ leaves => leaves.keepsAlone)
      fun _ _ halted => halted
  · apply KeptFrom.get
    apply keptFrom_exitSteps_alone keeps fit
    exact fun step named =>
      Machine.avoids_of_not_below fit.1.toWired below (List.mem_reverse.mp named)

/-! ### Completing -/

/-- The container of a completed state is completed only when the state has been left; so it was
left as well if it lies at the completed one. -/
theorem keptFrom_completeState_alone {other : StateId} (fit : (keepingAlone state).fit machine)
    (apart : ¬machine.Beside other state) :
    (keepingAlone state).KeptFrom (completeState calls other) machine := by
  apply KeptFrom.get
  split
  · exact KeepsAlone.refl machine
  · rename_i node found
    split
    · split
      · exact Kept.bind lawful_keepingAlone (kept_note lawful_keepingAlone rfl)
          (fun _ => kept_exit_alone keeps other) machine fit
      · exact KeepsAlone.refl machine
    · rename_i region inRegion
      split
      · exact (keeps.trigger _ _).discard machine fit
      · have contained : machine.containerOf? other = some region := by
          unfold Machine.containerOf?
          rw [found]
          exact inRegion
        by_cases below : machine.Below other state
        · unfold KeptFrom
          rw [ends_bind]
          refine (ends_exit_vacates keeps fit below).mono (fun _ middle leaves => ?_)
            fun _ _ halted => halted
          exact (keeps.changing.completeRegion region middle (Or.inl trivial)).mono
            (fun _ _ later => (leaves.trans_changes later).keepsAlone)
            fun _ _ later => Or.inr (leaves.trans_changes later).keepsAlone
        · have clear := Machine.clear_of_child fit.1.toWired contained apart below
          refine (kept_exit_alone keeps other machine fit).bind lawful_keepingAlone
            fun _ after left => ?_
          exact keeps.completeRegion after region (lawful_keepingAlone.fit fit left)
            (left.changes.sameChart.clear clear)

private theorem keptFrom_completeRegion_alone {region : RegionId}
    (fit : (keepingAlone state).fit machine)
    (clear : machine.Clear region state) :
    (keepingAlone state).KeptFrom (completeRegion calls region) machine := by
  refine (keptFrom_deactivateRegion_alone fit clear.outside).bind lawful_keepingAlone
    fun wasActive middle closed => ?_
  have fitMiddle := lawful_keepingAlone.fit fit closed
  split
  · apply KeptFrom.get
    split
    · exact KeepsAlone.refl middle
    · rename_i members found
      split
      · rename_i inactive
        have joins : (keepingAlone state).finished middle (middle.joined members.owner) :=
          KeepsAlone.joined
          fun other listed => by simpa using List.all_eq_true.mp inactive other listed
        have owned : machine.ownerOf? region = some members.owner := by
          rw [← closed.changes.sameChart.ownerOf?]
          unfold Machine.ownerOf?
          rw [found]
          rfl
        have same := (lawful_keepingAlone.trans closed joins).changes.sameChart
        unfold KeptFrom
        rw [ends_bind, ends_report]
        refine KeptFrom.after lawful_keepingAlone ?_ joins
        apply keptFrom_completeState_alone keeps (lawful_keepingAlone.fit fitMiddle joins)
        rw [same.beside]
        exact clear.owner members.owner owned
      · exact KeepsAlone.refl middle
  · exact KeepsAlone.refl middle

/-! ### Entering -/

private theorem keptFrom_finishEntry_alone {other : StateId} {node : StateNode}
    (fit : (keepingAlone state).fit machine) (apart : ¬machine.Beside other state) :
    (keepingAlone state).KeptFrom (finishEntry calls other node) machine := by
  unfold KeptFrom finishEntry
  rw [ends_bind, ends_startBehavior]
  refine (keptFrom_perform_alone keeps .activity other node.activity fit).mono
    (fun _ middle acted => ?_) fun _ _ halted => halted
  refine KeptFrom.after lawful_keepingAlone ?_ acted
  apply KeptFrom.get
  have fitMiddle := lawful_keepingAlone.fit fit acted
  split
  · apply keptFrom_completeState_alone keeps fitMiddle
    rw [acted.changes.sameChart.beside]
    exact apart
  · exact KeepsAlone.refl middle

private theorem keptFrom_enterNormal_alone {other : StateId} {node current : StateNode}
    (fit : (keepingAlone state).fit machine) (found : machine.state? other = some current)
    (same : current.fixed = node.fixed) (normal : node.kind = .normal)
    (apart : ¬machine.Beside other state) :
    (keepingAlone state).KeptFrom (enterNormal calls other node) machine := by
  unfold KeptFrom
  rw [ends_enterNormal_begun, ends_bind]
  refine (keptFrom_perform_alone keeps .entry other node.entry fit).mono
    (fun _ middle begun => ?_) fun _ _ halted => halted
  refine KeptFrom.after lawful_keepingAlone ?_ begun
  have fitMiddle := lawful_keepingAlone.fit fit begun
  apply KeptFrom.get
  split
  · rename_i active
    obtain ⟨now, foundNow, activeNow⟩ := Machine.isStateActive_iff.mp active
    have fixed := (begun.changes.sameChart.fixed_eq found foundNow).trans same
    have kind : now.kind = node.kind := StateNode.read_eq fixed StateNode.kind fun _ => rfl
    have config : now.config = node.config := StateNode.read_eq fixed StateNode.config fun _ => rfl
    split
    · rename_i timed
      have arms : Changes middle (middle.timerArmed other) :=
        (Change.armTimer foundNow activeNow (kind.trans normal) (by rw [config]; exact timed)).one
      exact KeepsAlone.of_still fitMiddle.2 (arms.tail (Change.note _ rfl))
        (Machine.told_note (middle.timerArmed other) _) (by simp [Event.moves])
    · apply keptFrom_finishEntry_alone keeps fitMiddle
      rw [begun.changes.sameChart.beside]
      exact apart
  · exact KeepsAlone.refl middle

private theorem keptFrom_resumeHistory_alone {other : StateId} {region : RegionId}
    (fit : (keepingAlone state).fit machine) (clear : machine.Clear region state)
    (notBelow : ¬machine.Below other state) :
    (keepingAlone state).KeptFrom (resumeHistory calls other region) machine := by
  refine (keptFrom_deactivate_alone keeps fit notBelow).bind lawful_keepingAlone
    fun _ middle left => ?_
  have fitMiddle := lawful_keepingAlone.fit fit left
  have clearMiddle := left.changes.sameChart.clear clear
  apply KeptFrom.get
  split
  · exact KeepsAlone.refl middle
  · rename_i members stored
    split
    · rename_i last remembered
      have contained := (fitMiddle.2.lastActive region members last stored remembered).1
      have noted : (keepingAlone state).finished middle
          (middle.note (.notice (.historyResumes last (middle.stateName last)))) :=
        KeepsAlone.note fitMiddle.2 rfl
      unfold KeptFrom
      rw [ends_bind, ends_report]
      refine KeptFrom.after lawful_keepingAlone ?_ noted
      apply keeps.enter _ last (lawful_keepingAlone.fit fitMiddle noted)
      rw [noted.changes.sameChart.beside]
      exact clearMiddle.child fitMiddle.1.toWired contained
    · have contained := ((fitMiddle.1.initial region members members.initial stored).mpr rfl).1
      exact keeps.activate middle _ fitMiddle (clearMiddle.child fitMiddle.1.toWired contained)

private theorem keptFrom_reachFinal_alone {other : StateId} {node : StateNode}
    (fit : (keepingAlone state).fit machine) (notBelow : ¬machine.Below other state)
    (clear : ∀ region, node.container = some region → machine.Clear region state) :
    (keepingAlone state).KeptFrom (reachFinal calls other node) machine := by
  refine (keptFrom_deactivate_alone keeps fit notBelow).bind lawful_keepingAlone
    fun _ middle left => ?_
  split
  · exact KeepsAlone.refl middle
  · rename_i region inRegion
    exact keptFrom_completeRegion_alone keeps (lawful_keepingAlone.fit fit left)
      (left.changes.sameChart.clear (clear region inRegion))

private theorem keptFrom_activate_alone {other : StateId} (fit : (keepingAlone state).fit machine)
    (apart : ¬machine.Beside other state) :
    (keepingAlone state).KeptFrom (activate calls other) machine := by
  refine keptFrom_of_standsAlone (fun _ sound =>
    changing_activate keeps.changing sound (Or.inr (Or.inr trivial))) fun stands => ?_
  refine keptFrom_activate lawful_keepingAlone fit fun node found inactive => ?_
  have notBelow : ¬machine.Below other state := by
    intro below
    obtain ⟨node', found', active⟩ := Machine.isStateActive_iff.mp (stands.above other below)
    rw [found] at found'
    obtain rfl := Option.some.inj found'
    rw [inactive] at active
    cases active
  have enters : (keepingAlone state).finished machine (machine.entered other node.name) :=
    KeepsAlone.entered found inactive apart
  have fitEntered := lawful_keepingAlone.fit fit enters
  have same := enters.changes.sameChart
  have notBelowNow : ¬(machine.entered other node.name).Below other state := by
    rw [same.below]
    exact notBelow
  have clear (region : RegionId) (inRegion : node.container = some region) :
      (machine.entered other node.name).Clear region state := by
    have contained : machine.containerOf? other = some region := by
      unfold Machine.containerOf?
      rw [found]
      exact inRegion
    exact same.clear (Machine.clear_of_child fit.1.toWired contained apart notBelow)
  have present := Machine.state?_entered found node.name
  unfold KeptFrom
  rw [ends_activate found inactive]
  refine KeptFrom.after lawful_keepingAlone ?_ enters
  split
  · rename_i normal
    apply keptFrom_enterNormal_alone keeps fitEntered present rfl normal
    rw [same.beside]
    exact apart
  · exact kept_followInitial lawful_keepingAlone keeps.trigger _ _ fitEntered
  · rename_i region _ inRegion
    exact keptFrom_resumeHistory_alone keeps fitEntered (clear region inRegion) notBelowNow
  · exact KeepsAlone.refl _
  · exact KeepsAlone.refl _
  · exact keptFrom_followChoice lawful_keepingAlone chooses_keepingAlone keeps.trigger fitEntered
      present rfl rfl rfl
  · exact keptFrom_reachFinal_alone keeps fitEntered notBelowNow clear
  · exact KeepsAlone.refl _

private theorem keptFrom_enterBy_alone {plan : List Machine.Step}
    (fit : (keepingAlone state).fit machine)
    (apart : ∀ other, .state other ∈ plan → ¬machine.Beside other state) :
    (keepingAlone state).KeptFrom (enterBy calls plan) machine := by
  refine keptFrom_enterBy lawful_keepingAlone opens_keepingAlone
    (fun machine other => ¬machine.Beside other state) (fun kept apart => ?_)
    (fun fit apart => keptFrom_activate_alone keeps fit apart) fit apart
  rw [kept.changes.sameChart.beside]
  exact apart

private theorem keptFrom_enterDefault_alone {other : StateId}
    (fit : (keepingAlone state).fit machine)
    (apart : ¬machine.Beside other state) :
    (keepingAlone state).KeptFrom (enterDefault calls other) machine := by
  refine keptFrom_of_standsAlone (fun _ sound =>
    changing_enterDefault keeps.changing sound (Or.inr trivial)) fun stands => ?_
  apply KeptFrom.get
  apply keptFrom_enterBy_alone keeps fit
  exact fun _ named => stands.apart_defaultEntryPlan fit.1 apart named

private theorem keptFrom_enterTarget_alone {ends : Machine.Endpoints}
    (fit : (keepingAlone state).fit machine) (apart : ¬machine.Beside ends.target state) :
    (keepingAlone state).KeptFrom (enterTarget calls ends) machine := by
  have activates (other : StateId) : (changing True).Kept (activate calls other) :=
    fun _ sound => changing_activate keeps.changing sound (Or.inr (Or.inr trivial))
  refine keptFrom_of_standsAlone (kept_enterTarget (sound_changing True) activates ends)
    fun stands => ?_
  apply KeptFrom.get
  split
  · apply KeptFrom.get
    apply keptFrom_enterBy_alone keeps fit
    exact fun _ named => stands.apart_explicitEntryPlan fit.1 apart named
  · exact keptFrom_enterDefault_alone keeps fit apart

/-! ### Firing -/

private theorem kept_runEffect_alone (transition : Transition) (source : StateId) (memo : Value) :
    (keepingAlone state).Kept (runEffect calls transition source memo) := by
  unfold runEffect
  split
  · exact kept_pure lawful_keepingAlone _
  · exact kept_behave lawful_keepingAlone lenient_keepingAlone keeps.trigger _ _

omit keeps in
private theorem keepsAlone_recorded (fit : (keepingAlone state).fit machine) (id : TransitionId)
    (firing : Firing) : KeepsAlone state machine (machine.recorded id firing) :=
  .of_still fit.2 (Change.record id firing).one (Machine.told_note _ (.recorded id firing))
    (by simp [Event.moves])

/-- The source lies around the state, and it is left with it, or else nothing in the region of the
transition lies beside it. -/
theorem keptFrom_fireExternal_alone {id : TransitionId} {transition : Transition}
    {ends : Machine.Endpoints} {region : RegionId} {memo : Value} (sourceName targetName : String)
    (fit : (keepingAlone state).fit machine)
    (source : machine.containerOf? ends.source = some region)
    (target : machine.Inside region ends.target) (apart : ¬machine.Beside ends.source state) :
    (keepingAlone state).KeptFrom
      (fireExternal calls id transition ends sourceName targetName memo) machine := by
  have noted : (keepingAlone state).finished machine
      (machine.note (.notice (.firing id transition.name sourceName targetName))) :=
    KeepsAlone.note fit.2 rfl
  have fitNoted := lawful_keepingAlone.fit fit noted
  have sameNoted := noted.changes.sameChart
  apply ends_fireExternal_of
  by_cases below : machine.Below ends.source state
  · have leaves := ends_exit_vacates keeps fitNoted (sameNoted.below.mpr below)
    refine leaves.mono (fun _ gone vacates => ?_)
      fun _ _ halted => lawful_keepingAlone.halts noted halted
    have vacates := noted.trans_vacates vacates
    have acts : (changing True).Kept (runEffect calls transition ends.source memo) :=
      kept_runEffect (sound_changing True) keeps.changing.toKeptBy ends.source fun _ _ => trivial
    refine (acts gone (Or.inl trivial)).mono (fun _ acted changes => ?_)
      fun _ _ changes => Or.inr (vacates.trans_changes changes).keepsAlone
    have vacates := (vacates.trans_changes changes).trans_changes
      (Change.record id ⟨transition.name, sourceName, targetName, false⟩).one
    have activates (other : StateId) : (changing True).Kept (activate calls other) :=
      fun _ sound => changing_activate keeps.changing sound (Or.inr (Or.inr trivial))
    exact (kept_enterTarget (sound_changing True) activates ends _ (Or.inl trivial)).mono
      (fun _ _ changes => (vacates.trans_changes changes).keepsAlone)
      fun _ _ changes => Or.inr (vacates.trans_changes changes).keepsAlone
  · have clear := Machine.clear_of_child fit.1.toWired source apart below
    refine ((kept_exit_alone keeps ends.source _ fitNoted).after lawful_keepingAlone noted).mono
      (fun _ gone left => ?_) fun _ _ halted => halted
    have fitGone := lawful_keepingAlone.fit fit left
    refine ((kept_runEffect_alone keeps transition ends.source memo gone fitGone).after
      lawful_keepingAlone left).mono (fun _ acted effects => ?_) fun _ _ halted => halted
    have records := lawful_keepingAlone.trans effects
      (keepsAlone_recorded (lawful_keepingAlone.fit fit effects) id
        ⟨transition.name, sourceName, targetName, false⟩)
    refine KeptFrom.after lawful_keepingAlone ?_ records
    apply keptFrom_enterTarget_alone keeps (lawful_keepingAlone.fit fit records)
    rw [records.changes.sameChart.beside]
    exact clear.inside fit.1.toWired target

private theorem kept_trigger_alone (id : TransitionId) (memo : Value) :
    (keepingAlone state).Kept (trigger calls id memo) := by
  intro machine fit
  refine keptFrom_of_standsAlone (changing_trigger keeps.changing id memo) fun stands => ?_
  have asks : (keepingAlone state).finished machine (machine.note (.requested id)) :=
    KeepsAlone.note fit.2 rfl
  have fitAsked := lawful_keepingAlone.fit fit asks
  have standsAsked := stands.of_statuses (Machine.sameChart_note machine (.requested id))
    (fun _ => rfl) fun _ => rfl
  refine (ends_trigger_of_resolved lawful_keepingAlone
    (fun _ fit => KeepsAlone.note fit.2 rfl) fitAsked
    fun {transition ends} found resolved => ?_).mono
    (fun _ _ later => asks.trans later) fun _ _ halted => lawful_keepingAlone.halts asks halted
  obtain ⟨found', region, members, known, inRegion, _⟩ := Machine.endpoints_eq_ok resolved
  obtain ⟨_, source, target⟩ := Machine.endpoints_spec fitAsked.1 known inRegion resolved
  refine keptFrom_fireResolved lawful_keepingAlone fitAsked fun active finished fitGuarded => ?_
  have same := finished.changes.sameChart
  constructor
  · apply Kept.bind lawful_keepingAlone (kept_note lawful_keepingAlone rfl) _ _ fitGuarded
    intro _
    apply Kept.bind lawful_keepingAlone (kept_runEffect_alone keeps transition ends.source memo)
    exact fun _ _ fit => keepsAlone_recorded fit id _
  · have sourceNow := same.containerOf? ends.source |>.trans source
    apply keptFrom_fireExternal_alone keeps _ _ fitGuarded sourceNow (same.inside.mpr target)
    rw [same.beside]
    exact standsAsked.alone ends.source active

end Operations

theorem calls_keepAlone (state : StateId) (depth : Nat) : (calls depth).KeepAlone state := by
  -- By induction on the depth.
  induction depth with
  | zero =>
      exact
        { changing := calls_changing True 0
          trigger := fun _ _ _ _ => Or.inl rfl
          enter := fun _ _ _ _ => Or.inl rfl
          activate := fun _ _ _ _ => Or.inl rfl
          completeRegion := fun _ _ _ _ => Or.inl rfl }
  | succ depth ih =>
      exact
        { changing := calls_changing True (depth + 1)
          trigger := kept_trigger_alone ih
          enter := fun _ _ fit apart => keptFrom_enterDefault_alone ih fit apart
          activate := fun _ _ fit apart => keptFrom_activate_alone ih fit apart
          completeRegion := fun _ _ fit clear => keptFrom_completeRegion_alone ih fit clear }

end Chart.Run
