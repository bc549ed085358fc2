import Chart.Proofs.Run.Leaving

set_option autoImplicit false

/-!
The frame of an exit. When the states run quiet behaviours, an exit turns off nothing but what its
plan names, however it ends; a finished one has turned off all of that, and none of them ever asks
for more depth. Nothing is assumed of the statuses the exit begins with.
-/

namespace Chart

namespace Machine

/-- The steps that leave a state lie at it; by induction on the depth of the walk. -/
theorem below_of_mem_activeSteps {machine : Machine} (wired : machine.Wired) {depth : Nat}
    {top : StateId} :
    (∀ state, .state state ∈ machine.activeSteps depth top → machine.Below top state) ∧
      ∀ region, .region region ∈ machine.activeSteps depth top → machine.Beneath top region := by
  induction depth generalizing top with
  | zero =>
      constructor
      · intro state named
        cases named
      · intro region named
        cases named
  | succ depth ih =>
      have inner {region : RegionId} {child : StateId}
          (owns : region ∈ (machine.regionsOf top).filter machine.isRegionActive)
          (chosen : machine.activeChild? region = some child) :
          machine.ownerOf? region = some top ∧ machine.containerOf? child = some region :=
        ⟨(wired.owned region top).mpr (List.mem_filter.mp owns).1,
          (wired.listed child region).mpr (List.mem_of_find?_eq_some chosen)⟩
      constructor
      · intro state named
        rcases List.mem_cons.mp named with here | later
        · exact Or.inl (Step.state.inj here)
        · obtain ⟨region, owns, named⟩ := List.mem_flatMap.mp later
          rcases List.mem_cons.mp named with impossible | named
          · cases impossible
          · cases chosen : machine.activeChild? region with
            | none =>
                rw [chosen] at named
                cases named
            | some child =>
                rw [chosen] at named
                obtain ⟨owned, contained⟩ := inner owns chosen
                exact Or.inr ⟨region, owned, Inside.of_below contained (ih.1 state named)⟩
      · intro nested named
        rcases List.mem_cons.mp named with impossible | later
        · cases impossible
        · obtain ⟨region, owns, named⟩ := List.mem_flatMap.mp later
          rcases List.mem_cons.mp named with here | named
          · obtain rfl := Step.region.inj here
            exact ⟨top, (wired.owned nested top).mpr (List.mem_filter.mp owns).1, Below.refl _ _⟩
          · cases chosen : machine.activeChild? region with
            | none =>
                rw [chosen] at named
                cases named
            | some child =>
                rw [chosen] at named
                obtain ⟨owned, contained⟩ := inner owns chosen
                exact beneath_iff.mpr
                  ⟨region, owned, Within.of_beneath contained (ih.2 nested named)⟩

/-- A state is left after its active regions; by induction on the depth of the walk. -/
theorem region_mem_activeSteps {machine : Machine} (wired : machine.Wired) {depth : Nat}
    {top owner : StateId} {region : RegionId}
    (named : .state owner ∈ machine.activeSteps depth top)
    (owned : machine.ownerOf? region = some owner) (active : machine.isRegionActive region = true) :
    .region region ∈ machine.activeSteps depth top := by
  induction depth generalizing top with
  | zero => cases named
  | succ depth ih =>
      rcases List.mem_cons.mp named with here | later
      · obtain rfl := Step.state.inj here
        refine List.mem_cons_of_mem _ (List.mem_flatMap.mpr ⟨region, List.mem_filter.mpr
          ⟨(wired.owned region owner).mp owned, active⟩, List.mem_cons_self ..⟩)
      · obtain ⟨outer, owns, named⟩ := List.mem_flatMap.mp later
        refine List.mem_cons_of_mem _ (List.mem_flatMap.mpr ⟨outer, owns, ?_⟩)
        rcases List.mem_cons.mp named with impossible | named
        · cases impossible
        · refine List.mem_cons_of_mem _ ?_
          cases chosen : machine.activeChild? outer with
          | none =>
              rw [chosen] at named
              cases named
          | some child =>
              rw [chosen] at named
              exact ih named

end Machine

namespace Run

open Machine (Changes NoMissedEntry Still)

variable {mayFail : Prop} {calls : Calls}

/-- Nothing but what the steps name has another status. -/
structure LeavesOnly (steps : List Machine.Step) (before after : Machine) : Prop where
  changes : Changes before after
  states : ∀ state, .state state ∉ steps →
    after.isStateActive state = before.isStateActive state
  regions : ∀ region, .region region ∉ steps →
    after.isRegionActive region = before.isRegionActive region

structure AllInactive (steps : List Machine.Step) (machine : Machine) : Prop where
  states : ∀ state, .state state ∈ steps → machine.isStateActive state = false
  regions : ∀ region, .region region ∈ steps → machine.isRegionActive region = false

namespace LeavesOnly

variable {steps early late : List Machine.Step} {before middle after : Machine}

theorem of_still (steps : List Machine.Step) (still : Still before after) :
    LeavesOnly steps before after where
  changes := still.changes
  states := fun state _ => still.states state
  regions := fun region _ => still.isRegionActive region

theorem append (first : LeavesOnly early before middle) (second : LeavesOnly late middle after) :
    LeavesOnly (early ++ late) before after where
  changes := first.changes.trans second.changes
  states := fun state unnamed => by
    rw [List.mem_append, not_or] at unnamed
    exact (second.states state unnamed.2).trans (first.states state unnamed.1)
  regions := fun region unnamed => by
    rw [List.mem_append, not_or] at unnamed
    exact (second.regions region unnamed.2).trans (first.regions region unnamed.1)

theorem off (leavesOnly : LeavesOnly late middle after) (begun : AllInactive early middle)
    (done : AllInactive late after) :
    AllInactive (early ++ late) after where
  states := fun state named => by
    by_cases later : .state state ∈ late
    · exact done.states state later
    · rw [leavesOnly.states state later]
      exact begun.states state ((List.mem_append.mp named).resolve_right later)
  regions := fun region named => by
    by_cases later : .region region ∈ late
    · exact done.regions region later
    · rw [leavesOnly.regions region later]
      exact begun.regions region ((List.mem_append.mp named).resolve_right later)

private theorem widen (leavesOnly : LeavesOnly early before after) (wider : early ⊆ steps) :
    LeavesOnly steps before after where
  changes := leavesOnly.changes
  states := fun state unnamed => leavesOnly.states state fun named => unnamed (wider named)
  regions := fun region unnamed => leavesOnly.regions region fun named => unnamed (wider named)

end LeavesOnly

theorem leavesOnly_left {machine : Machine} {state : StateId} {node : StateNode}
    (found : machine.state? state = some node) (active : node.status.isActive = true) :
    LeavesOnly [.state state] machine (machine.left state node) where
  changes := (Machine.Change.leave found active).one
  states := fun other unnamed => by
    have different : other ≠ state :=
      fun same => unnamed (by rw [same]; exact List.mem_singleton_self _)
    rw [Bool.eq_iff_iff, Machine.isStateActive_left]
    exact and_iff_right different
  regions := fun region _ => Machine.isRegionActive_left state node region

theorem leavesOnly_closed {machine : Machine} {region : RegionId} {members : Region}
    (found : machine.region? region = some members) (active : members.status.isActive = true) :
    LeavesOnly [.region region] machine (machine.closed region members.name) where
  changes := (Machine.Change.closeRegion found active).one
  states := fun state _ => Machine.isStateActive_closed region members.name state
  regions := fun other unnamed => by
    have different : other ≠ region :=
      fun same => unnamed (by rw [same]; exact List.mem_singleton_self _)
    exact Machine.isRegionActive_closed_of_ne members.name different

theorem ends_deactivate_leavesOnly {machine : Machine} (quietStates : machine.QuietStates mayFail)
    (state : StateId) :
    Ends (deactivate calls state) machine
      (fun _ after => LeavesOnly [.state state] machine after ∧ after.isStateActive state = false)
      (fun halt after => LeavesOnly [.state state] machine after ∧ halt ≠ .exhausted) := by
  cases active : machine.isStateActive state with
  | true =>
      obtain ⟨node, found, isActive⟩ := Machine.isStateActive_iff.mp active
      have leaves := leavesOnly_left found isActive
      have inactive : (machine.left state node).isStateActive state = false :=
        Bool.eq_false_iff.mpr fun stays => (Machine.isStateActive_left state |>.mp stays).1 rfl
      rw [ends_deactivate found isActive]
      split
      · have quiet (present : Behavior) (isExit : node.exit = some present) :
            present.Quiet mayFail :=
          quietStates state node present found (Or.inr (Or.inl isExit))
        refine (ends_startBehavior_quiet quiet .exit _).mono (fun _ after touches => ?_)
          fun _ _ failure => ?_
        · refine ⟨leaves.append (LeavesOnly.of_still [] touches.toStill), ?_⟩
          rw [touches.toStill.states]
          exact inactive
        · exact ⟨leaves.append (LeavesOnly.of_still [] failure.1.toStill), failure.2.1⟩
      · exact ⟨leaves, inactive⟩
  | false =>
      have still := LeavesOnly.of_still [.state state] (Still.refl machine)
      unfold deactivate
      rw [ends_bind, ends_get]
      cases found : machine.state? state with
      | none => exact ⟨still, active⟩
      | some node =>
          have notActive : ¬node.status.isActive = true := fun isActive => by
            rw [Machine.isStateActive_iff.mpr ⟨node, found, isActive⟩] at active
            cases active
          dsimp only
          rw [if_neg notActive, ends_warn]
          have noted : Still machine
              (machine.note (.notice (.misuse (.stateAlreadyInactive node.name)))) :=
            Still.note machine rfl
          exact ⟨LeavesOnly.of_still _ noted, by rw [noted.states]; exact active⟩

theorem ends_deactivateRegion_leavesOnly {machine : Machine} (region : RegionId)
    {failed : Halt → Machine → Prop} :
    Ends (deactivateRegion region) machine
      (fun _ after => LeavesOnly [.region region] machine after ∧
        after.isRegionActive region = false)
      failed := by
  unfold deactivateRegion
  rw [ends_bind, ends_get]
  cases active : machine.isRegionActive region with
  | true =>
      obtain ⟨members, found, isActive⟩ := Machine.isRegionActive_iff.mp active
      rw [found]
      dsimp only
      rw [if_pos isActive, ends_bind, ends_modify, ends_bind, ends_report, ends_pure]
      exact ⟨leavesOnly_closed found isActive,
        Machine.isRegionActive_closed_self region members.name⟩
  | false =>
      cases found : machine.region? region with
      | none => exact ⟨LeavesOnly.of_still _ (Still.refl machine), active⟩
      | some members =>
          have notActive : ¬members.status.isActive = true := fun isActive => by
            rw [Machine.isRegionActive_iff.mpr ⟨members, found, isActive⟩] at active
            cases active
          dsimp only
          rw [if_neg notActive, ends_bind, ends_warn, ends_pure]
          have noted : Still machine
              (machine.note (.notice (.misuse (.regionAlreadyInactive members.name)))) :=
            Still.note machine rfl
          exact ⟨LeavesOnly.of_still _ noted, by rw [noted.isRegionActive]; exact active⟩

private theorem ends_exitStep_leavesOnly {machine : Machine}
    (quietStates : machine.QuietStates mayFail)
    (step : Machine.Step) :
    Ends (exitStep calls step) machine
      (fun _ after => LeavesOnly [step] machine after ∧ AllInactive [step] after)
      (fun halt after => LeavesOnly [step] machine after ∧ halt ≠ .exhausted) := by
  cases step with
  | state state =>
      refine (ends_deactivate_leavesOnly quietStates state).mono
        (fun _ after leaves => ⟨leaves.1, ?_⟩)
        fun _ _ failure => failure
      refine { states := fun other named => ?_, regions := fun _ named => ?_ }
      · obtain rfl := Machine.Step.state.inj (List.mem_singleton.mp named)
        exact leaves.2
      · cases List.mem_singleton.mp named
  | region region =>
      unfold exitStep
      rw [ends_discard]
      refine (ends_deactivateRegion_leavesOnly region).mono (fun _ after leaves => ⟨leaves.1, ?_⟩)
        fun _ _ failure => failure
      refine { states := fun _ named => ?_, regions := fun other named => ?_ }
      · cases List.mem_singleton.mp named
      · obtain rfl := Machine.Step.region.inj (List.mem_singleton.mp named)
        exact leaves.2

private theorem ends_exitSteps_leavesOnly (steps : List Machine.Step) {machine : Machine}
    (quietStates : machine.QuietStates mayFail) :
    Ends (steps.forM (exitStep calls)) machine
      (fun _ after => LeavesOnly steps machine after ∧ AllInactive steps after)
      (fun halt after => LeavesOnly steps machine after ∧ halt ≠ .exhausted) := by
  -- By induction on the steps; what is done stays done.
  induction steps generalizing machine with
  | nil =>
      refine ⟨LeavesOnly.of_still [] (Still.refl machine), { states := ?_, regions := ?_ }⟩
      · intro _ named
        cases named
      · intro _ named
        cases named
  | cons step rest ih =>
      rw [ends_forM_cons]
      refine (ends_exitStep_leavesOnly quietStates step).mono
        (fun _ middle first => ?_) fun _ _ failure => ?_
      · refine (ih (quietStates.of_sameChart first.1.changes.sameChart)).mono
          (fun _ after later => ?_)
          fun _ _ failure => ?_
        · exact ⟨first.1.append later.1, later.1.off first.2 later.2⟩
        · exact ⟨first.1.append failure.1, failure.2⟩
      · exact ⟨failure.1.widen (List.cons_subset_cons step (List.nil_subset rest)), failure.2⟩

theorem ends_exit_leavesOnly {machine : Machine} (quietStates : machine.QuietStates mayFail)
    (state : StateId) :
    Ends (exit calls state) machine
      (fun _ after => LeavesOnly (machine.exitPlan state) machine after ∧
        AllInactive (machine.exitPlan state) after)
      (fun halt after => LeavesOnly (machine.exitPlan state) machine after ∧
        halt ≠ .exhausted) := by
  unfold exit
  rw [ends_bind, ends_get]
  exact ends_exitSteps_leavesOnly (machine.exitPlan state) quietStates

/-! ### Nothing is to be entered meanwhile -/

theorem ends_deactivate_noMissedEntry {machine : Machine}
    (quietStates : machine.QuietStates mayFail)
    (state : StateId) :
    Ends (deactivate calls state) machine (fun _ after => NoMissedEntry machine after)
      (fun _ after => NoMissedEntry machine after) := by
  cases found : machine.state? state with
  | none =>
      unfold deactivate
      rw [ends_bind, ends_get, found]
      exact (Machine.NoMisstep.refl machine).noMissedEntry
  | some node =>
      by_cases active : node.status.isActive = true
      · have leaves : NoMissedEntry machine (machine.left state node) :=
          ⟨_, Machine.told_left state node, by simp [Event.isMissedEntry]⟩
        rw [ends_deactivate found active]
        split
        · have quiet (present : Behavior) (isExit : node.exit = some present) :
              present.Quiet mayFail :=
            quietStates state node present found (Or.inr (Or.inl isExit))
          apply (ends_startBehavior_quiet quiet .exit _).mono
          · exact fun _ _ touches => leaves.trans touches.noMisstep.noMissedEntry
          · exact fun _ _ failure => leaves.trans failure.1.noMisstep.noMissedEntry
        · exact leaves
      · unfold deactivate
        rw [ends_bind, ends_get, found]
        dsimp only
        rw [if_neg active, ends_warn]
        exact Machine.noMissedEntry_note machine rfl

private theorem ends_exitStep_noMissedEntry {machine : Machine}
    (quietStates : machine.QuietStates mayFail)
    (step : Machine.Step) :
    Ends (exitStep calls step) machine (fun _ after => NoMissedEntry machine after)
      (fun _ after => NoMissedEntry machine after) := by
  cases step with
  | state state => exact ends_deactivate_noMissedEntry quietStates state
  | region region =>
      unfold exitStep deactivateRegion
      rw [ends_discard, ends_bind, ends_get]
      split
      · exact (Machine.NoMisstep.refl machine).noMissedEntry
      · rename_i members _
        split
        · exact ⟨_, Machine.told_closed machine region members.name, by simp [Event.isMissedEntry]⟩
        · exact Machine.noMissedEntry_note machine rfl

private theorem ends_exitSteps_noMissedEntry (steps : List Machine.Step) {machine : Machine}
    (quietStates : machine.QuietStates mayFail) :
    Ends (steps.forM (exitStep calls)) machine (fun _ after => NoMissedEntry machine after)
      (fun _ after => NoMissedEntry machine after) := by
  -- By induction on the steps.
  induction steps generalizing machine with
  | nil => exact (Machine.NoMisstep.refl machine).noMissedEntry
  | cons step rest ih =>
      rw [ends_forM_cons]
      apply ((ends_exitStep_leavesOnly quietStates step).and
        (ends_exitStep_noMissedEntry quietStates step)).mono
      · intro _ middle first
        apply (ih (quietStates.of_sameChart first.1.1.changes.sameChart)).mono
        · exact fun _ _ later => first.2.trans later
        · exact fun _ _ later => first.2.trans later
      · exact fun _ _ failure => failure.2

theorem ends_exit_noMissedEntry {machine : Machine} (quietStates : machine.QuietStates mayFail)
    (state : StateId) :
    Ends (exit calls state) machine (fun _ after => NoMissedEntry machine after)
      (fun _ after => NoMissedEntry machine after) := by
  unfold exit
  rw [ends_bind, ends_get]
  exact ends_exitSteps_noMissedEntry (machine.exitPlan state) quietStates

end Run
end Chart
