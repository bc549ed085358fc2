import Chart.Proofs.Run.ClosedCharts

set_option autoImplicit false

/-!
Following an exit plan. In a coherent machine whose states run quiet behaviours the exit of an
active state empties what lies at it, or stops at a failing exit behaviour in a coherent machine.
-/

namespace Chart

namespace Machine

theorem Wired.level_le_of_below {machine : Machine} (wired : machine.Wired)
    {top state : StateId} (below : machine.Below top state) :
    machine.level top ≤ machine.level state := by
  rcases below with same | ⟨region, owned, inside⟩
  · rw [same]
  · exact Nat.le_of_lt (wired.level_lt_of_inside owned inside)

theorem Wired.not_beneath_container {machine : Machine} (wired : machine.Wired)
    {state : StateId} {region : RegionId} (contained : machine.containerOf? state = some region) :
    ¬machine.Beneath state region := by
  rintro ⟨owner, owned, below⟩
  have step := wired.level_succ contained owned
  have around := wired.level_le_of_below below
  omega

theorem Emptied.idle_of_gone {before after : Machine} {gone : StateId → Prop}
    {shut : RegionId → Prop} {state : StateId} {region : RegionId}
    (emptied : Emptied gone shut before after) (isGone : gone state) (notShut : ¬shut region)
    (wired : before.Wired) (coherent : before.Coherent)
    (contained : before.containerOf? state = some region)
    (active : before.isStateActive state = true) : after.Idle region := by
  refine ⟨?_, fun other containedOther => ?_⟩
  · rw [emptied.regionStatuses region notShut]
    exact coherent.container_active wired active contained
  · rw [emptied.changes.sameChart.containerOf?] at containedOther
    by_cases otherGone : gone other
    · exact emptied.left other otherGone
    · rw [emptied.statuses other otherGone]
      cases isActive : before.isStateActive other with
      | false => rfl
      | true =>
          have same := coherent.single region other state containedOther contained isActive active
          rw [same] at otherGone
          exact absurd isGone otherGone

/-- What an exit relies on: a wired chart, and states whose behaviours are quiet. -/
structure Leavable (mayFail : Prop) (machine : Machine) : Prop extends Wired machine where
  quietStates : machine.QuietStates mayFail

private theorem Leavable.of_changes {mayFail : Prop} {before after : Machine}
    (leavable : before.Leavable mayFail) (changes : Changes before after) :
    after.Leavable mayFail where
  toWired := leavable.toWired.of_sameChart changes.sameChart
  quietStates := leavable.quietStates.of_sameChart changes.sameChart

theorem Orderly.leavable {mayFail : Prop} {machine : Machine} (orderly : machine.Orderly mayFail) :
    machine.Leavable mayFail where
  toWired := orderly.toWired
  quietStates := orderly.calm.behaviors

end Machine

namespace Run

open Machine (Emptied Leavable Changes)

variable {mayFail : Prop} {calls : Calls}

/-- A run that stops early leaves a coherent machine; unless it is exhausted, failures are
permitted. -/
def Aborted (mayFail : Prop) (halt : Halt) (after : Machine) : Prop :=
  after.Coherent ∧ (halt ≠ .exhausted → mayFail)

theorem ends_deactivate_emptied {machine : Machine} {state : StateId}
    (leavable : machine.Leavable mayFail) (coherent : machine.Coherent)
    (active : machine.isStateActive state = true)
    (bare : ∀ region, machine.ownerOf? region = some state →
      machine.isRegionActive region = false) :
    Ends (deactivate calls state) machine
      (fun _ after => Emptied (fun other => other = state) (fun _ => False) machine after)
      (Aborted mayFail) := by
  obtain ⟨node, found, isActive⟩ := Machine.isStateActive_iff.mp active
  have leaves := Machine.emptied_left leavable.toWired coherent found isActive bare
  have gone := leaves.left state rfl
  rw [ends_deactivate found isActive]
  split
  · have quiet (present : Behavior) (isExit : node.exit = some present) :
        present.Quiet mayFail :=
      leavable.quietStates state node present found (Or.inr (Or.inl isExit))
    refine (ends_startBehavior_quiet quiet .exit _).mono (fun _ after touches => ?_)
      fun halt after failure => ?_
    · have both := leaves.trans (Emptied.of_touches touches leaves.coherent gone) coherent
      exact both.widen (fun _ either => either.elim id id)
        (fun _ here notGone => absurd (Or.inl here) notGone)
        (fun _ either => either.elim id id) fun _ impossible => impossible.elim
    · exact ⟨failure.1.coherent leaves.coherent, fun _ => failure.2.2⟩
  · exact leaves

theorem ends_deactivateRegion_emptied {machine : Machine} {region : RegionId}
    (coherent : machine.Coherent) (active : machine.isRegionActive region = true)
    (childless : ∀ child, machine.containerOf? child = some region →
      machine.isStateActive child = false) {failed : Halt → Machine → Prop} :
    Ends (deactivateRegion region) machine
      (fun answer after => answer = true ∧ ∃ members, machine.region? region = some members ∧
        after = machine.closed region members.name ∧
        Emptied (fun _ => False) (fun other => other = region) machine after) failed := by
  obtain ⟨members, found, isActive⟩ := Machine.isRegionActive_iff.mp active
  unfold deactivateRegion
  rw [ends_bind, ends_get, found]
  dsimp only
  rw [if_pos isActive, ends_bind, ends_modify, ends_bind, ends_report, ends_pure]
  exact ⟨rfl, members, rfl, rfl, Machine.emptied_closed coherent found isActive childless⟩

/-! ### The exit plan of a state -/

/-- The machine still has, inside the region, the statuses that were planned with. -/
private structure Agrees (plan machine : Machine) (region : RegionId) : Prop where
  states : ∀ state, plan.Inside region state →
    machine.isStateActive state = plan.isStateActive state
  regions : ∀ nested, plan.Within region nested →
    machine.isRegionActive nested = plan.isRegionActive nested

/-- The part of an exit plan that belongs to one region, before it is turned around. -/
def branch (plan : Machine) (depth : Nat) (region : RegionId) : List Machine.Step :=
  .region region ::
    match plan.activeChild? region with
    | some child => plan.activeSteps depth child
    | none => []

theorem activeSteps_succ (plan : Machine) (depth : Nat) (state : StateId) :
    plan.activeSteps (depth + 1) state =
      .state state ::
        ((plan.regionsOf state).filter plan.isRegionActive).flatMap (branch plan depth) := rfl

/-- Leaving at a state, for all calls of the exit at a smaller depth. -/
private def Leaves (mayFail : Prop) (calls : Calls) (plan : Machine) (depth : Nat) : Prop :=
  ∀ (top : StateId) (machine : Machine), Machine.SameChart plan machine →
    machine.Leavable mayFail → machine.Coherent →
    (∀ region, plan.ownerOf? region = some top → Agrees plan machine region) →
    machine.isStateActive top = true → plan.nestingBound < depth + plan.level top →
    Ends ((plan.activeSteps depth top).reverse.forM (exitStep calls)) machine
      (fun _ after => Emptied (plan.Below top) (plan.Beneath top) machine after)
      (Aborted mayFail)

private theorem below_of_inside {machine : Machine} (leavable : machine.Leavable mayFail)
    (coherent : machine.Coherent) {region : RegionId} {child state : StateId}
    (contained : machine.containerOf? child = some region)
    (active : machine.isStateActive child = true) (inside : machine.Inside region state)
    (activeState : machine.isStateActive state = true) : machine.Below child state := by
  obtain ⟨other, containedOther, activeOther, below⟩ :=
    coherent.below_child leavable.toWired inside activeState
  rw [coherent.single region child other contained containedOther active activeOther]
  exact below

private theorem emptied_branch {plan machine middle after : Machine} {region : RegionId}
    {child : StateId} (same : Machine.SameChart plan machine) (leavable : machine.Leavable mayFail)
    (coherent : machine.Coherent) (contained : plan.containerOf? child = some region)
    (active : machine.isStateActive child = true)
    (emptied : Emptied (plan.Below child) (plan.Beneath child) machine middle)
    (closed : Emptied (fun _ => False) (fun other => other = region) middle after) :
    Emptied (plan.Inside region) (plan.Within region) machine after := by
  have below {state : StateId} (inside : plan.Inside region state)
      (activeState : machine.isStateActive state = true) : plan.Below child state :=
    same.below.mp (below_of_inside leavable coherent ((same.containerOf? child).trans contained)
      active (same.inside.mpr inside) activeState)
  refine (emptied.trans closed coherent).widen ?_ (fun state inside notGone => ?_) ?_
    fun nested within notShut => ?_
  · rintro state (below | impossible)
    · exact Machine.Inside.of_below contained below
    · exact impossible.elim
  · exact Bool.eq_false_iff.mpr fun activeState =>
      notGone (Or.inl (below inside activeState))
  · rintro nested (beneath | here)
    · exact Machine.Within.of_beneath contained beneath
    · exact Or.inl here
  · refine Bool.eq_false_iff.mpr fun activeNested => notShut ?_
    rcases within with here | ⟨owner, owned, inside⟩
    · exact Or.inr here
    · have ownedNow : machine.ownerOf? nested = some owner := (same.ownerOf? nested).trans owned
      exact Or.inl ⟨owner, owned, below inside (coherent.owner_active activeNested ownedNow)⟩

private theorem ends_branch {plan : Machine} {depth : Nat}
    (leaves : Leaves mayFail calls plan depth) (planWired : plan.Wired) {top : StateId}
    {region : RegionId} (owned : plan.ownerOf? region = some top) {machine : Machine}
    (same : Machine.SameChart plan machine) (leavable : machine.Leavable mayFail)
    (coherent : machine.Coherent) (agrees : Agrees plan machine region)
    (active : machine.isRegionActive region = true)
    (deep : plan.nestingBound < depth + 1 + plan.level top) :
    Ends ((branch plan depth region).reverse.forM (exitStep calls)) machine
      (fun _ after => Emptied (plan.Inside region) (plan.Within region) machine after)
      (Aborted mayFail) := by
  unfold branch
  cases chosen : plan.activeChild? region with
  | none =>
      have childless (child : StateId) (contained : machine.containerOf? child = some region) :
          machine.isStateActive child = false := by
        rw [same.containerOf?] at contained
        rw [agrees.states child (.member contained)]
        have listed := (planWired.listed child region).mp contained
        simpa using List.find?_eq_none.mp chosen child listed
      rw [List.reverse_singleton, ends_forM_cons]
      simp only [ends_forM_nil]
      unfold exitStep
      rw [ends_discard]
      refine (ends_deactivateRegion_emptied coherent active childless).mono
        (fun answer after closes => ?_) fun _ _ failure => failure
      obtain ⟨_, members, _, _, emptied⟩ := closes
      refine emptied.widen (fun _ impossible => impossible.elim) (fun state inside _ => ?_)
        (fun nested here => Or.inl here) fun nested within different => ?_
      · exact coherent.inside_inactive leavable.toWired childless (same.inside.mpr inside)
      · exact coherent.within_inactive leavable.toWired childless (same.within.mpr within) different
  | some child =>
      have listed : child ∈ plan.statesOf region := List.mem_of_find?_eq_some chosen
      have planActive : plan.isStateActive child = true := List.find?_some chosen
      have contained : plan.containerOf? child = some region :=
        (planWired.listed child region).mpr listed
      have containedNow : machine.containerOf? child = some region := by
        rw [same.containerOf?]
        exact contained
      have activeChild : machine.isStateActive child = true := by
        rw [agrees.states child (.member contained)]
        exact planActive
      have level := planWired.level_succ contained owned
      have childEnds := leaves child machine same leavable coherent
        (fun nested ownedNested =>
          { states := fun state inside => agrees.states state
              (inside.of_within (Machine.Within.of_member ownedNested contained))
            regions := fun inner within => agrees.regions inner
              ((Machine.Within.of_member ownedNested contained).trans within) })
        activeChild (by omega)
      rw [List.reverse_cons, ends_forM_append]
      refine childEnds.mono (fun _ middle emptied => ?_) fun _ _ failure => failure
      have idle : middle.Idle region := emptied.idle_of_gone (Or.inl rfl)
        (planWired.not_beneath_container contained) leavable.toWired coherent
        containedNow activeChild
      rw [ends_forM_cons]
      simp only [ends_forM_nil]
      unfold exitStep
      rw [ends_discard]
      refine (ends_deactivateRegion_emptied emptied.coherent idle.1 idle.2).mono
        (fun answer after closes => ?_) fun _ _ failure => failure
      obtain ⟨_, members, _, _, closed⟩ := closes
      exact emptied_branch same leavable coherent contained activeChild emptied closed

private theorem emptied_cons {plan machine middle after : Machine} {first : RegionId}
    {rest : List RegionId} (coherent : machine.Coherent)
    (emptied : Emptied (fun state => ∃ region ∈ rest, plan.Inside region state)
      (fun nested => ∃ region ∈ rest, plan.Within region nested) machine middle)
    (last : Emptied (plan.Inside first) (plan.Within first) middle after) :
    Emptied (fun state => ∃ region ∈ first :: rest, plan.Inside region state)
      (fun nested => ∃ region ∈ first :: rest, plan.Within region nested) machine after := by
  refine (emptied.trans last coherent).widen ?_ (fun state inside notGone => ?_) ?_
    fun nested within notShut => ?_
  · rintro state (⟨region, member, inside⟩ | inside)
    · exact ⟨region, List.mem_cons_of_mem _ member, inside⟩
    · exact ⟨first, List.mem_cons_self .., inside⟩
  · obtain ⟨region, member, insideRegion⟩ := inside
    rcases List.mem_cons.mp member with here | later
    · rw [here] at insideRegion
      exact absurd (Or.inr insideRegion) notGone
    · exact absurd (Or.inl ⟨region, later, insideRegion⟩) notGone
  · rintro nested (⟨region, member, within⟩ | within)
    · exact ⟨region, List.mem_cons_of_mem _ member, within⟩
    · exact ⟨first, List.mem_cons_self .., within⟩
  · obtain ⟨region, member, withinRegion⟩ := within
    rcases List.mem_cons.mp member with here | later
    · rw [here] at withinRegion
      exact absurd (Or.inr withinRegion) notShut
    · exact absurd (Or.inl ⟨region, later, withinRegion⟩) notShut

private theorem ends_branches {plan : Machine} {depth : Nat}
    (leaves : Leaves mayFail calls plan depth) (planWired : plan.Wired) {top : StateId}
    (regions : List RegionId) (nodup : regions.Nodup)
    (owned : ∀ region ∈ regions, plan.ownerOf? region = some top) {machine : Machine}
    (same : Machine.SameChart plan machine) (leavable : machine.Leavable mayFail)
    (coherent : machine.Coherent) (agrees : ∀ region ∈ regions, Agrees plan machine region)
    (active : ∀ region ∈ regions, machine.isRegionActive region = true)
    (deep : plan.nestingBound < depth + 1 + plan.level top) :
    Ends ((regions.flatMap (branch plan depth)).reverse.forM (exitStep calls)) machine
      (fun _ after => Emptied (fun state => ∃ region ∈ regions, plan.Inside region state)
        (fun nested => ∃ region ∈ regions, plan.Within region nested) machine after)
      (Aborted mayFail) := by
  induction regions with
  | nil =>
      refine (Emptied.nothing coherent).widen (fun _ impossible => impossible.elim) ?_
        (fun _ impossible => impossible.elim) ?_
      · rintro state ⟨region, member, _⟩
        cases member
      · rintro nested ⟨region, member, _⟩
        cases member
  | cons first rest ih =>
      obtain ⟨notListed, nodupRest⟩ := List.nodup_cons.mp nodup
      rw [List.flatMap_cons, List.reverse_append, ends_forM_append]
      refine (ih nodupRest (fun region member => owned region (List.mem_cons_of_mem _ member))
        (fun region member => agrees region (List.mem_cons_of_mem _ member))
        (fun region member => active region (List.mem_cons_of_mem _ member))).mono
        (fun _ middle emptied => ?_) fun _ _ failure => failure
      have sameMiddle := emptied.changes.sameChart
      have apart (region : RegionId) (member : region ∈ rest) : plan.Apart region first := by
        refine planWired.siblings_apart (owned region (List.mem_cons_of_mem _ member))
          (owned first (List.mem_cons_self ..)) ?_
        rintro rfl
        exact notListed member
      have untouched (state : StateId) (inside : plan.Inside first state) :
          ¬∃ region ∈ rest, plan.Inside region state := by
        rintro ⟨region, member, insideRest⟩
        exact (apart region member).not_inside insideRest inside
      have untouchedRegion (nested : RegionId) (within : plan.Within first nested) :
          ¬∃ region ∈ rest, plan.Within region nested := by
        rintro ⟨region, member, withinRest⟩
        rcases within.comparable withinRest with around | around
        · exact (apart region member).2 around
        · exact (apart region member).1 around
      have firstAgrees := agrees first (List.mem_cons_self ..)
      refine (ends_branch leaves planWired (owned first (List.mem_cons_self ..))
        (same.trans sameMiddle) (leavable.of_changes emptied.changes) emptied.coherent
        { states := fun state inside => by
            rw [emptied.statuses state (untouched state inside)]
            exact firstAgrees.states state inside
          regions := fun nested within => by
            rw [emptied.regionStatuses nested (untouchedRegion nested within)]
            exact firstAgrees.regions nested within }
        (by
          rw [emptied.regionStatuses first
            (untouchedRegion first (Machine.Within.refl plan first))]
          exact active first (List.mem_cons_self ..))
        deep).mono (fun _ _ last => emptied_cons coherent emptied last) fun _ _ failure => failure

/-- Once the active regions of a state and then the state itself have been emptied, everything that
lies at it is. -/
private theorem emptied_below {plan machine middle after : Machine} {top : StateId}
    {visited : List RegionId} (same : Machine.SameChart plan machine)
    (leavable : machine.Leavable mayFail) (coherent : machine.Coherent)
    (isOwned : ∀ region ∈ visited, plan.ownerOf? region = some top)
    (unvisited : ∀ region, plan.ownerOf? region = some top → region ∉ visited →
      machine.isRegionActive region = false)
    (emptied : Emptied (fun state => ∃ region ∈ visited, plan.Inside region state)
      (fun nested => ∃ region ∈ visited, plan.Within region nested) machine middle)
    (leaves : Emptied (fun other => other = top) (fun _ => False) middle after) :
    Emptied (plan.Below top) (plan.Beneath top) machine after := by
  refine (emptied.trans leaves coherent).widen ?_ (fun state below notGone => ?_) ?_
    fun nested beneath notShut => ?_
  · rintro state (⟨region, member, inside⟩ | here)
    · exact Or.inr ⟨region, isOwned region member, inside⟩
    · exact Or.inl here
  · rcases below with here | ⟨region, owned, inside⟩
    · exact absurd (Or.inr here) notGone
    · have skipped : region ∉ visited := fun member => notGone (Or.inl ⟨region, member, inside⟩)
      refine Bool.eq_false_iff.mpr fun activeState => ?_
      have around := coherent.active_around leavable.toWired (same.inside.mpr inside) activeState
      rw [unvisited region owned skipped] at around
      cases around
  · rintro nested (⟨region, member, within⟩ | impossible)
    · exact Machine.beneath_iff.mpr ⟨region, isOwned region member, within⟩
    · exact impossible.elim
  · obtain ⟨region, owned, within⟩ := Machine.beneath_iff.mp beneath
    have skipped : region ∉ visited := fun member => notShut (Or.inl ⟨region, member, within⟩)
    refine Bool.eq_false_iff.mpr fun activeNested => ?_
    have around := coherent.active_outside leavable.toWired (same.within.mpr within) activeNested
    rw [unvisited region owned skipped] at around
    cases around

private theorem leaves_all (plan : Machine) (planWired : plan.Wired) (depth : Nat) :
    Leaves mayFail calls plan depth := by
  -- By induction on the depth, which the level of the state makes large enough.
  induction depth with
  | zero =>
      intro top machine _ _ _ _ _ deep
      have bound := planWired.level_le_nestingBound top
      omega
  | succ depth ih =>
      intro top machine same leavable coherent agrees active deep
      rw [activeSteps_succ, List.reverse_cons, ends_forM_append]
      have isOwned (region : RegionId)
          (member : region ∈ (plan.regionsOf top).filter plan.isRegionActive) :
          plan.ownerOf? region = some top :=
        (planWired.owned region top).mpr (List.mem_filter.mp member).1
      have isActive (region : RegionId)
          (member : region ∈ (plan.regionsOf top).filter plan.isRegionActive) :
          machine.isRegionActive region = true := by
        rw [(agrees region (isOwned region member)).regions region
          (Machine.Within.refl plan region)]
        exact (List.mem_filter.mp member).2
      -- A region of the state that is not visited was inactive from the beginning.
      have unvisited (region : RegionId) (owned : plan.ownerOf? region = some top)
          (skipped : region ∉ (plan.regionsOf top).filter plan.isRegionActive) :
          machine.isRegionActive region = false := by
        rw [(agrees region owned).regions region (Machine.Within.refl plan region)]
        cases isActive : plan.isRegionActive region with
        | false => rfl
        | true =>
            exact absurd (List.mem_filter.mpr ⟨(planWired.owned region top).mp owned, isActive⟩)
              skipped
      refine (ends_branches ih planWired _ ((planWired.ownedOnce top).filter _)
        isOwned same leavable
        coherent (fun region member => agrees region (isOwned region member)) isActive
        deep).mono (fun _ middle emptied => ?_) fun _ _ failure => failure
      have sameMiddle := emptied.changes.sameChart
      have topKept : middle.isStateActive top = true := by
        rw [emptied.statuses top]
        · exact active
        · rintro ⟨region, member, inside⟩
          exact planWired.not_inside_own_region (isOwned region member) inside
      have bare (region : RegionId) (owned : middle.ownerOf? region = some top) :
          middle.isRegionActive region = false := by
        rw [sameMiddle.ownerOf?, same.ownerOf?] at owned
        by_cases visited : region ∈ (plan.regionsOf top).filter plan.isRegionActive
        · exact emptied.closed region ⟨region, visited, Machine.Within.refl plan region⟩
        · by_cases shut : ∃ other ∈ (plan.regionsOf top).filter plan.isRegionActive,
              plan.Within other region
          · exact emptied.closed region shut
          · rw [emptied.regionStatuses region shut]
            exact unvisited region owned visited
      rw [ends_forM_cons]
      simp only [ends_forM_nil]
      refine (ends_deactivate_emptied (leavable.of_changes emptied.changes) emptied.coherent topKept
        bare).mono (fun _ _ leaves => ?_) fun _ _ failure => failure
      exact emptied_below same leavable coherent isOwned unvisited emptied leaves

theorem ends_exit {machine : Machine} {state : StateId} (leavable : machine.Leavable mayFail)
    (coherent : machine.Coherent) (active : machine.isStateActive state = true) :
    Ends (exit calls state) machine
      (fun _ after => Emptied (machine.Below state) (machine.Beneath state) machine after)
      (Aborted mayFail) := by
  unfold exit
  rw [ends_bind, ends_get]
  exact leaves_all machine leavable.toWired (machine.nestingBound + 1) state machine
    (Machine.SameChart.refl machine) leavable coherent
    (fun _ _ => { states := fun _ _ => rfl, regions := fun _ _ => rfl }) active (by omega)

end Run
end Chart
