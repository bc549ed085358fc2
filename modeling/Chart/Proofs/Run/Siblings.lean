import Chart.Proofs.Run.ExitOrder

set_option autoImplicit false

/-!
States that stand alone. Two states lie beside each other when they lie at different children of one
region. A state stands alone while everything around it is active and nothing beside it is. In a
coherent machine every active state does; in any machine this is lost only when the state is left,
when something around it is, or when something is entered beside it.
-/

namespace Chart.Machine

/-- The states lie at different children of one region. -/
def Beside (machine : Machine) (one other : StateId) : Prop :=
  ∃ region first second, machine.containerOf? first = some region ∧
    machine.containerOf? second = some region ∧ first ≠ second ∧ machine.Below first one ∧
    machine.Below second other

structure Clear (machine : Machine) (region : RegionId) (state : StateId) : Prop where
  outside : ¬machine.Inside region state
  owner : ∀ owner, machine.ownerOf? region = some owner → ¬machine.Beside owner state

/-- The state and everything around it are active, and nothing beside it is. -/
structure StandsAlone (machine : Machine) (state : StateId) : Prop where
  above : ∀ top, machine.Below top state → machine.isStateActive top = true
  around : ∀ region, machine.Inside region state → machine.isRegionActive region = true
  alone : ∀ other, machine.isStateActive other = true → ¬machine.Beside other state

section Places

variable {machine : Machine} {one other state top : StateId} {region : RegionId}

theorem Beside.symm (beside : machine.Beside one other) : machine.Beside other one := by
  obtain ⟨region, first, second, containedFirst, containedSecond, different, atFirst, atSecond⟩ :=
    beside
  exact ⟨region, second, first, containedSecond, containedFirst, different.symm, atSecond, atFirst⟩

theorem Below.trans {middle : StateId} (outer : machine.Below top middle)
    (inner : machine.Below middle state) : machine.Below top state := by
  rcases inner with rfl | ⟨region, owned, inside⟩
  · exact outer
  · rcases outer with rfl | ⟨around, ownedAround, insideAround⟩
    · exact Or.inr ⟨region, owned, inside⟩
    · exact Or.inr ⟨around, ownedAround, inside.of_within (Within.of_owner owned insideAround)⟩

theorem Beside.lower (beside : machine.Beside top other) (below : machine.Below top state) :
    machine.Beside state other := by
  obtain ⟨region, first, second, containedFirst, containedSecond, different, atFirst, atSecond⟩ :=
    beside
  exact ⟨region, first, second, containedFirst, containedSecond, different, atFirst.trans below,
    atSecond⟩

private theorem Inside.exists_child (inside : machine.Inside region state) :
    ∃ child, machine.containerOf? child = some region ∧ machine.Below child state := by
  induction inside with
  | @member state contained => exact ⟨state, contained, Below.refl machine state⟩
  | deeper contained owned _ ih =>
      obtain ⟨child, containedChild, below⟩ := ih
      exact ⟨child, containedChild, below_iff_parent.mpr
        (Or.inr ⟨_, parentOf?_eq_some.mpr ⟨_, contained, owned⟩, below⟩)⟩

variable (wired : machine.Wired)
include wired

/-- It lies at one child only; by induction on its level. -/
theorem child_unique {first second : StateId}
    (containedFirst : machine.containerOf? first = some region)
    (containedSecond : machine.containerOf? second = some region)
    (belowFirst : machine.Below first state) (belowSecond : machine.Below second state) :
    first = second := by
  obtain ⟨owner, owned⟩ := wired.exists_owner containedFirst
  have levelFirst := wired.level_succ containedFirst owned
  have levelSecond := wired.level_succ containedSecond owned
  have unordered {one other : StateId} (containedOther : machine.containerOf? other = some region)
      (level : machine.level one = machine.level owner + 1) (below : machine.Below one other) :
      other = one := by
    refine (below_iff_parent.mp below).resolve_right fun ⟨parent, isParent, deeper⟩ => ?_
    obtain ⟨region', contained', owned'⟩ := parentOf?_eq_some.mp isParent
    rw [containedOther] at contained'
    obtain rfl := Option.some.inj contained'
    rw [owned] at owned'
    obtain rfl := Option.some.inj owned'
    have bound := wired.level_le_of_below deeper
    omega
  induction level : machine.level state using Nat.strongRecOn generalizing state with
  | ind bound ih =>
      rcases below_iff_parent.mp belowFirst with rfl | ⟨parent, isParent, deeperFirst⟩
      · exact unordered containedFirst levelSecond belowSecond
      · rcases below_iff_parent.mp belowSecond with rfl | ⟨parent', isParent', deeperSecond⟩
        · exact (unordered containedSecond levelFirst belowFirst).symm
        · rw [isParent] at isParent'
          obtain rfl := Option.some.inj isParent'
          obtain ⟨region', contained', owned'⟩ := parentOf?_eq_some.mp isParent
          have step := wired.level_succ contained' owned'
          exact ih (machine.level parent) (by omega) deeperFirst deeperSecond rfl

theorem not_beside_of_below (below : machine.Below top state) : ¬machine.Beside top state := by
  rintro ⟨region, first, second, containedFirst, containedSecond, different, atFirst, atSecond⟩
  exact different
    (child_unique wired containedFirst containedSecond (atFirst.trans below) atSecond)

theorem not_beside_root : ¬machine.Beside root other := by
  rintro ⟨region, first, _, contained, _, _, below, _⟩
  have free := wired.rootFree
  rcases below_iff_parent.mp below with rfl | ⟨parent, isParent, _⟩
  · rw [contained] at free
    cases free
  · obtain ⟨region', contained', _⟩ := parentOf?_eq_some.mp isParent
    rw [contained'] at free
    cases free

/-- Either the states part in the container of the first one, or its parent lies beside the other
one. -/
theorem beside_iff_parent :
    machine.Beside one other ↔
      (∃ region, machine.containerOf? one = some region ∧ machine.Inside region other ∧
        ¬machine.Below one other) ∨
      ∃ parent, machine.parentOf? one = some parent ∧ machine.Beside parent other := by
  constructor
  · rintro ⟨region, first, second, containedFirst, containedSecond, different, atFirst, atSecond⟩
    rcases below_iff_parent.mp atFirst with rfl | ⟨parent, isParent, belowParent⟩
    · exact Or.inl ⟨region, containedFirst, Inside.of_below containedSecond atSecond,
        fun below => different (child_unique wired containedFirst containedSecond below atSecond)⟩
    · exact Or.inr ⟨parent, isParent, region, first, second, containedFirst, containedSecond,
        different, belowParent, atSecond⟩
  · rintro (⟨region, contained, inside, notBelow⟩ | ⟨parent, isParent, beside⟩)
    · obtain ⟨child, containedChild, below⟩ := inside.exists_child
      exact ⟨region, one, child, contained, containedChild,
        fun same => notBelow (by rw [same]; exact below), Below.refl machine one, below⟩
    · exact beside.lower
        (below_iff_parent.mpr (Or.inr ⟨parent, isParent, Below.refl machine parent⟩))

theorem Clear.child (clear : machine.Clear region state)
    (contained : machine.containerOf? other = some region) : ¬machine.Beside other state := by
  intro beside
  rcases (beside_iff_parent wired).mp beside with ⟨region', contained', inside, _⟩ | ⟨parent,
    isParent, above⟩
  · rw [contained] at contained'
    obtain rfl := Option.some.inj contained'
    exact clear.outside inside
  · obtain ⟨region', contained', owned⟩ := parentOf?_eq_some.mp isParent
    rw [contained] at contained'
    obtain rfl := Option.some.inj contained'
    exact clear.owner parent owned above

/-- Around a state beside which another one does not lie, nothing lies beside that one, unless it
lies at the state. -/
theorem clear_of_child (contained : machine.containerOf? other = some region)
    (apart : ¬machine.Beside other state) (notBelow : ¬machine.Below other state) :
    machine.Clear region state where
  outside := fun inside =>
    apart ((beside_iff_parent wired).mpr (Or.inl ⟨region, contained, inside, notBelow⟩))
  owner := fun owner owned beside =>
    apart ((beside_iff_parent wired).mpr
      (Or.inr ⟨owner, parentOf?_eq_some.mpr ⟨region, contained, owned⟩, beside⟩))

theorem Clear.inside (clear : machine.Clear region state) (inside : machine.Inside region other) :
    ¬machine.Beside other state := by
  induction inside with
  | member contained => exact clear.child wired contained
  | @deeper other owner nested contained owned insideOwner ih =>
      have nestedClear : machine.Clear nested state :=
        { outside := fun around =>
            clear.outside (around.of_within (Within.of_owner owned insideOwner))
          owner := fun owner' owned' => by
            rw [owned] at owned'
            obtain rfl := Option.some.inj owned'
            exact ih }
      exact nestedClear.child wired contained

end Places

section SameChart

variable {before after : Machine} (same : SameChart before after)
include same

theorem SameChart.beside {one other : StateId} :
    after.Beside one other ↔ before.Beside one other := by
  unfold Beside
  simp only [same.containerOf?, same.below]

theorem SameChart.clear {region : RegionId} {state : StateId} (clear : before.Clear region state) :
    after.Clear region state where
  outside := by
    rw [same.inside]
    exact clear.outside
  owner := by
    intro owner
    rw [same.ownerOf?, same.beside]
    exact clear.owner owner

end SameChart

/-! ### What changes leave alone -/

section StandsAlone

variable {machine after : Machine} {state other : StateId}

theorem StandsAlone.active (stands : machine.StandsAlone state) :
    machine.isStateActive state = true :=
  stands.above state (Below.refl machine state)

theorem Coherent.standsAlone (coherent : machine.Coherent) (wired : machine.Wired)
    (active : machine.isStateActive state = true) : machine.StandsAlone state := by
  have above {state top : StateId} (active : machine.isStateActive state = true)
      (below : machine.Below top state) : machine.isStateActive top = true := by
    rcases below with rfl | ⟨region, owned, inside⟩
    · exact active
    · exact coherent.owner_active (coherent.active_around wired inside active) owned
  refine ⟨fun _ => above active, fun _ inside => coherent.active_around wired inside active, ?_⟩
  rintro other activeOther
    ⟨region, first, second, containedFirst, containedSecond, different, atFirst, atSecond⟩
  exact different (coherent.single region first second containedFirst containedSecond
    (above activeOther atFirst) (above active atSecond))

/-- It stands alone as long as it does not lose what is around it and gains nothing beside it. -/
theorem StandsAlone.of_changed (stands : machine.StandsAlone state) (same : SameChart machine after)
    (kept : ∀ top, machine.Below top state → machine.isStateActive top = true →
      after.isStateActive top = true)
    (open_ : ∀ region, machine.Inside region state → machine.isRegionActive region = true →
      after.isRegionActive region = true)
    (gained : ∀ other, after.isStateActive other = true →
      machine.isStateActive other = true ∨ ¬machine.Beside other state) : after.StandsAlone
      state where
  above := fun top below => kept top (same.below.mp below) (stands.above top (same.below.mp below))
  around := fun region inside =>
    open_ region (same.inside.mp inside) (stands.around region (same.inside.mp inside))
  alone := by
    intro other active
    rw [same.beside]
    rcases gained other active with before | apart
    · exact stands.alone other before
    · exact apart

theorem StandsAlone.of_statuses (stands : machine.StandsAlone state)
    (same : SameChart machine after)
    (states : ∀ state, after.isStateActive state = machine.isStateActive state)
    (regions : ∀ region, after.isRegionActive region = machine.isRegionActive region) :
    after.StandsAlone state :=
  stands.of_changed same (fun top _ active => by rw [states]; exact active)
    (fun region _ active => by rw [regions]; exact active)
    fun other active => Or.inl (by rw [← states]; exact active)

theorem StandsAlone.entered {node : StateNode} (stands : machine.StandsAlone state)
    (found : machine.state? other = some node) (apart : ¬machine.Beside other state)
    (name : String) :
    (machine.entered other name).StandsAlone state := by
  refine stands.of_changed (sameChart_entered machine other name) ?_ ?_ ?_
  · exact fun top _ active => (isStateActive_entered found name top).mpr (Or.inr active)
  · exact fun _ _ active => active
  · intro another active
    rcases (isStateActive_entered found name another).mp active with rfl | before
    · exact Or.inr apart
    · exact Or.inl before

theorem StandsAlone.left {node : StateNode} (stands : machine.StandsAlone state)
    (notBelow : ¬machine.Below other state) : (machine.left other node).StandsAlone state := by
  refine stands.of_changed (sameChart_left machine other node) ?_ ?_ ?_
  · refine fun top below active => (isStateActive_left top).mpr ⟨?_, active⟩
    rintro rfl
    exact notBelow below
  · intro region _ active
    rw [isRegionActive_left]
    exact active
  · exact fun another active => Or.inl ((isStateActive_left another).mp active).2

theorem StandsAlone.opened {region : RegionId} {members : Region}
    (stands : machine.StandsAlone state)
    (found : machine.region? region = some members) (name : String) :
    (machine.opened region name).StandsAlone state := by
  refine stands.of_changed ((sameChart_setRegionStatus machine region .active).trans
    (sameChart_note _ _)) (fun _ _ active => active) ?_ fun _ active => Or.inl active
  exact fun other _ active => (isRegionActive_opened found name other).mpr (Or.inr active)

theorem StandsAlone.closed {region : RegionId} (stands : machine.StandsAlone state)
    (outside : ¬machine.Inside region state) (name : String) :
    (machine.closed region name).StandsAlone state := by
  refine stands.of_changed ((sameChart_setRegionStatus machine region .inactive).trans
    (sameChart_note _ _)) (fun _ _ active => active) ?_ fun _ active => Or.inl active
  refine fun other inside active => (isRegionActive_closed region name other).mpr ⟨?_, active⟩
  rintro rfl
  exact outside inside

end StandsAlone

/-! ### Plans around a state that stands alone -/

/-- The step touches neither the state nor anything around it. -/
def Avoids (machine : Machine) (state : StateId) : Step → Prop
  | .state other => ¬machine.Below other state
  | .region nested => ¬machine.Inside nested state

theorem SameChart.avoids {before after : Machine} (same : SameChart before after) {state : StateId}
    {step : Step} (avoids : before.Avoids state step) : after.Avoids state step := by
  cases step with
  | state other => exact fun below => avoids (same.below.mp below)
  | region nested => exact fun inside => avoids (same.inside.mp inside)

section Plans

variable {machine : Machine} (wired : machine.Wired) {state : StateId}
include wired

theorem avoids_of_not_below {depth : Nat} {top : StateId} (notBelow : ¬machine.Below top state)
    {step : Step} (named : step ∈ machine.activeSteps depth top) : machine.Avoids state step := by
  cases step with
  | state other =>
      exact fun below => notBelow (((below_of_mem_activeSteps wired).1 other named).trans below)
  | region nested =>
      intro inside
      obtain ⟨owner, owned, below⟩ := (below_of_mem_activeSteps wired).2 nested named
      exact notBelow (below.trans (Or.inr ⟨nested, owned, inside⟩))

private theorem avoids_of_mem_branch {depth : Nat} {region : RegionId}
    (outside : ¬machine.Inside region state)
    {step : Step} (named : step ∈ Run.branch machine depth region) : machine.Avoids state step := by
  cases step with
  | state other =>
      intro below
      have inside := (inside_of_mem_branch wired).1 other named
      rcases below with rfl | ⟨nested, owned, around⟩
      · exact outside inside
      · exact outside (around.of_within (Within.of_owner owned inside))
  | region nested =>
      exact fun inside => outside (inside.of_within ((inside_of_mem_branch wired).2 nested named))

private theorem StandsAlone.activeChild?_eq (stands : machine.StandsAlone state) {region : RegionId}
    {child : StateId} (contained : machine.containerOf? child = some region)
    (below : machine.Below child state) : machine.activeChild? region = some child := by
  have active := stands.above child below
  unfold activeChild?
  cases found : (machine.statesOf region).find? machine.isStateActive with
  | none =>
      have none := List.find?_eq_none.mp found child ((wired.listed child region).mp contained)
      exact absurd active none
  | some other =>
      have containedOther : machine.containerOf? other = some region :=
        (wired.listed other region).mpr (List.mem_of_find?_eq_some found)
      by_contra different
      refine stands.alone other (List.find?_some found) ⟨region, other, child, containedOther,
        contained, fun same => different (congrArg some same), Below.refl machine other, below⟩

/-- On the walk from a state around it, what comes after the state avoids it; by induction on the
depth of the walk. -/
theorem StandsAlone.activeSteps_eq (stands : machine.StandsAlone state) {depth : Nat}
    {top : StateId}
    (below : machine.Below top state) (deep : machine.level state < machine.level top + depth) :
    ∃ early late, machine.activeSteps depth top = early ++ .state state :: late ∧
      ∀ step ∈ late, machine.Avoids state step := by
  induction depth generalizing top with
  | zero =>
      have bound := wired.level_le_of_below below
      omega
  | succ depth ih =>
      have isOwned {region : RegionId}
          (member : region ∈ (machine.regionsOf top).filter machine.isRegionActive) :
          machine.ownerOf? region = some top :=
        (wired.owned region top).mpr (List.mem_filter.mp member).1
      rw [Run.activeSteps_succ]
      rcases below with rfl | ⟨region, owned, inside⟩
      · refine ⟨[], _, rfl, fun step named => ?_⟩
        obtain ⟨region, member, named⟩ := List.mem_flatMap.mp named
        exact avoids_of_mem_branch wired (wired.not_inside_own_region (isOwned member)) named
      · obtain ⟨child, contained, belowChild⟩ := inside.exists_child
        have member : region ∈ (machine.regionsOf top).filter machine.isRegionActive :=
          List.mem_filter.mpr ⟨(wired.owned region top).mp owned, stands.around region inside⟩
        have nodup := (wired.ownedOnce top).filter machine.isRegionActive
        obtain ⟨before, others, split⟩ := List.append_of_mem member
        have level := wired.level_succ contained owned
        obtain ⟨early, late, walk, avoids⟩ := ih belowChild (by omega)
        have branches : Run.branch machine depth region =
            .region region :: (early ++ .state state :: late) := by
          unfold Run.branch
          rw [stands.activeChild?_eq wired contained belowChild, ← walk]
        refine ⟨.state top :: (before.flatMap
          (Run.branch machine depth) ++ .region region :: early),
          late ++ others.flatMap (Run.branch machine depth), ?_, fun step named => ?_⟩
        · simp [split, branches]
        · rcases List.mem_append.mp named with inChild | named
          · exact avoids step inChild
          · obtain ⟨other, memberOther, named⟩ := List.mem_flatMap.mp named
            have different : region ≠ other := by
              rintro rfl
              rw [split] at nodup
              exact (List.nodup_cons.mp (List.nodup_append.mp nodup).2.1).1 memberOther
            have apart := wired.siblings_apart owned (isOwned (by rw [split]; simp [memberOther]))
              different
            exact avoids_of_mem_branch wired (apart.not_inside inside) named

theorem StandsAlone.exitPlan_eq (stands : machine.StandsAlone state) {top : StateId}
    (below : machine.Below top state) :
    ∃ early late, machine.exitPlan top = early ++ .state state :: late ∧
      ∀ step ∈ early, machine.Avoids state step := by
  have bound := wired.level_le_nestingBound state
  have deep : machine.level state < machine.level top + (machine.nestingBound + 1) := by omega
  obtain ⟨early, late, walk, avoids⟩ := stands.activeSteps_eq wired below deep
  refine ⟨late.reverse, early.reverse, ?_, fun step named =>
    avoids step (List.mem_reverse.mp named)⟩
  unfold exitPlan
  rw [walk]
  simp

end Plans

end Chart.Machine
