import Chart.Proofs.Run.ExitScope

set_option autoImplicit false

/-!
The order of an exit. In a coherent machine the plan of an exit, read backwards, lists what is
active at the state in pre-order: every active state and region once, an owner before its regions,
and a region before its active child. When the states run quiet behaviours, an exit carries its plan
out step by step. It stops at the first exit behaviour that fails, and what the plan names after
that is as it was.
-/

namespace Chart

namespace Machine

def Step.isActive (machine : Machine) : Step → Bool
  | .state visited => machine.isStateActive visited
  | .region visited => machine.isRegionActive visited

def Step.state? : Step → Option StateId
  | .state visited => some visited
  | .region _ => none

@[simp] theorem Step.state?_state (visited : StateId) :
    (Step.state visited).state? = some visited := rfl

@[simp] theorem Step.state?_region (region : RegionId) : (Step.region region).state? = none := rfl

theorem Step.mem_filterMap_state? {steps : List Step} {state : StateId} :
    state ∈ steps.filterMap Step.state? ↔ .state state ∈ steps := by
  rw [List.mem_filterMap]
  constructor
  · rintro ⟨step, named, visited⟩
    cases step with
    | state other =>
        rw [← Option.some.inj visited]
        exact named
    | region _ => cases visited
  · exact fun named => ⟨_, named, rfl⟩

private theorem Step.nodup_filterMap_state? {steps : List Step} (nodup : steps.Nodup) :
    (steps.filterMap Step.state?).Nodup := by
  refine nodup.filterMap fun one other state visitsOne visitsOther => ?_
  cases one with
  | region _ => cases visitsOne
  | state _ =>
      cases other with
      | region _ => cases visitsOther
      | state _ => rw [Option.some.inj visitsOne, Option.some.inj visitsOther]

open Classical in
/-- The part of the active states that lies at a state. -/
noncomputable def activePart (machine : Machine) (top : StateId) : List StateId :=
  machine.activeStates.filter fun state => machine.Below top state

/-! ### What a walk visits -/

section Walks

variable {machine : Machine} (wired : machine.Wired)
include wired

theorem inside_of_mem_branch {depth : Nat} {region : RegionId} :
    (∀ state, .state state ∈ Run.branch machine depth region → machine.Inside region state) ∧
      ∀ nested, .region nested ∈ Run.branch machine depth region →
        machine.Within region nested := by
  unfold Run.branch
  cases chosen : machine.activeChild? region with
  | none =>
      refine ⟨fun state named => ?_, fun nested named => ?_⟩
      · cases List.mem_singleton.mp named
      · exact Or.inl (Step.region.inj (List.mem_singleton.mp named))
  | some child =>
      have contained : machine.containerOf? child = some region :=
        (wired.listed child region).mpr (List.mem_of_find?_eq_some chosen)
      refine ⟨fun state named => ?_, fun nested named => ?_⟩
      · rcases List.mem_cons.mp named with impossible | named
        · cases impossible
        · exact Inside.of_below contained ((below_of_mem_activeSteps wired).1 state named)
      · rcases List.mem_cons.mp named with here | named
        · exact Or.inl (Step.region.inj here)
        · exact Within.of_beneath contained ((below_of_mem_activeSteps wired).2 nested named)

/-- No step is taken twice; by induction on the depth of the walk. -/
theorem nodup_activeSteps {depth : Nat} {top : StateId} :
    (machine.activeSteps depth top).Nodup := by
  induction depth generalizing top with
  | zero => exact List.nodup_nil
  | succ depth ih =>
      have isOwned {region : RegionId}
          (member : region ∈ (machine.regionsOf top).filter machine.isRegionActive) :
          machine.ownerOf? region = some top :=
        (wired.owned region top).mpr (List.mem_filter.mp member).1
      rw [Run.activeSteps_succ, List.nodup_cons, List.nodup_flatMap]
      refine ⟨fun named => ?_, fun region member => ?_, ?_⟩
      · obtain ⟨region, member, named⟩ := List.mem_flatMap.mp named
        exact wired.not_inside_own_region (isOwned member)
          ((inside_of_mem_branch wired).1 top named)
      · unfold Run.branch
        cases chosen : machine.activeChild? region with
        | none => exact List.nodup_singleton _
        | some child =>
            have contained : machine.containerOf? child = some region :=
              (wired.listed child region).mpr (List.mem_of_find?_eq_some chosen)
            refine List.nodup_cons.mpr ⟨fun named => ?_, ih⟩
            exact wired.not_beneath_container contained
              ((below_of_mem_activeSteps wired).2 region named)
      · refine List.Pairwise.imp_of_mem (fun {one other} memberOne memberOther different => ?_)
          ((wired.ownedOnce top).filter machine.isRegionActive)
        have apart := wired.siblings_apart (isOwned memberOne) (isOwned memberOther) different
        rintro (state | nested) namedOne namedOther
        · exact apart.not_inside ((inside_of_mem_branch wired).1 state namedOne)
            ((inside_of_mem_branch wired).1 state namedOther)
        · have withinOne := (inside_of_mem_branch wired).2 nested namedOne
          have withinOther := (inside_of_mem_branch wired).2 nested namedOther
          rcases withinOne.comparable withinOther with around | around
          · exact apart.1 around
          · exact apart.2 around

/-- A walk that is deep enough does not become longer by more depth; by induction on the depth. -/
theorem activeSteps_of_deep {depth more : Nat} {top : StateId}
    (deep : machine.nestingBound < machine.level top + depth)
    (deeper : machine.nestingBound < machine.level top + more) :
    machine.activeSteps depth top = machine.activeSteps more top := by
  induction depth generalizing more top with
  | zero =>
      have bound := wired.level_le_nestingBound top
      omega
  | succ depth ih =>
      cases more with
      | zero =>
          have bound := wired.level_le_nestingBound top
          omega
      | succ more =>
          rw [Run.activeSteps_succ, Run.activeSteps_succ]
          refine congrArg _ (List.flatMap_congr fun region member => ?_)
          unfold Run.branch
          cases chosen : machine.activeChild? region with
          | none => rfl
          | some child =>
              have level := wired.level_succ
                ((wired.listed child region).mpr (List.mem_of_find?_eq_some chosen))
                ((wired.owned region top).mpr (List.mem_filter.mp member).1)
              exact congrArg _ (ih (by omega) (by omega))

omit wired in
/-- From an active state a walk visits only what is active; by induction on the depth. -/
theorem active_of_mem_activeSteps {depth : Nat} {top : StateId} {step : Step}
    (active : machine.isStateActive top = true) (named : step ∈ machine.activeSteps depth top) :
    step.isActive machine = true := by
  induction depth generalizing top with
  | zero => cases named
  | succ depth ih =>
      rw [Run.activeSteps_succ] at named
      rcases List.mem_cons.mp named with rfl | named
      · exact active
      · obtain ⟨region, member, named⟩ := List.mem_flatMap.mp named
        rcases List.mem_cons.mp named with rfl | named
        · exact (List.mem_filter.mp member).2
        · cases chosen : machine.activeChild? region with
          | none =>
              rw [chosen] at named
              cases named
          | some child =>
              rw [chosen] at named
              exact ih (List.find?_some chosen) named

end Walks

/-! ### The plan of an exit -/

section Plan

variable {machine : Machine} (wired : machine.Wired) (coherent : machine.Coherent)
include wired coherent

private theorem activeChild?_eq {region : RegionId} {child : StateId}
    (contained : machine.containerOf? child = some region)
    (active : machine.isStateActive child = true) : machine.activeChild? region = some child := by
  unfold activeChild?
  cases found : (machine.statesOf region).find? machine.isStateActive with
  | none =>
      have none := List.find?_eq_none.mp found child ((wired.listed child region).mp contained)
      exact absurd active none
  | some other =>
      have listed := List.mem_of_find?_eq_some found
      have isActive := List.find?_some found
      rw [coherent.single region child other contained ((wired.listed other region).mpr listed)
        active isActive]

omit coherent in
private theorem branch_sublist_activeSteps {depth : Nat} {top : StateId} {region : RegionId}
    (owned : machine.ownerOf? region = some top) (active : machine.isRegionActive region = true) :
    (.state top :: Run.branch machine depth region).Sublist
      (machine.activeSteps (depth + 1) top) := by
  have member : region ∈ (machine.regionsOf top).filter machine.isRegionActive :=
    List.mem_filter.mpr ⟨(wired.owned region top).mp owned, active⟩
  rw [Run.activeSteps_succ, List.flatMap_def]
  exact (List.sublist_flatten_of_mem (List.mem_map_of_mem member)).cons_cons _

private theorem child_sublist_activeSteps {depth : Nat} {top child : StateId} {region : RegionId}
    (owned : machine.ownerOf? region = some top)
    (contained : machine.containerOf? child = some region)
    (active : machine.isStateActive child = true) :
    (.state top :: .region region :: machine.activeSteps depth child).Sublist
      (machine.activeSteps (depth + 1) top) := by
  have branches : Run.branch machine depth region =
      .region region :: machine.activeSteps depth child := by
    unfold Run.branch
    rw [activeChild?_eq wired coherent contained active]
  rw [← branches]
  exact branch_sublist_activeSteps wired owned (coherent.container_active wired active contained)

/-- The walk from an active state is part of the walk from every state around it; by induction on
the depth. -/
theorem activeSteps_sublist {depth less : Nat} {top state : StateId}
    (below : machine.Below top state) (active : machine.isStateActive state = true)
    (deep : machine.level state + less = machine.level top + depth) :
    (machine.activeSteps less state).Sublist (machine.activeSteps depth top) := by
  induction depth generalizing top with
  | zero =>
      have bound := wired.level_le_of_below below
      obtain rfl : less = 0 := by omega
      exact List.nil_sublist _
  | succ depth ih =>
      rcases below with rfl | ⟨region, owned, inside⟩
      · obtain rfl : less = depth + 1 := by omega
        exact List.Sublist.refl _
      · obtain ⟨child, contained, activeChild, belowChild⟩ :=
          coherent.below_child wired inside active
        have level := wired.level_succ contained owned
        refine (ih belowChild (by omega)).trans ?_
        exact ((List.sublist_cons_self ..).trans (List.sublist_cons_self ..)).trans
          (child_sublist_activeSteps wired coherent owned contained activeChild)

/-- Every active state lies at the root; by induction on its level. -/
theorem below_root {state : StateId} (active : machine.isStateActive state = true) :
    machine.Below root state := by
  induction level : machine.level state using Nat.strongRecOn generalizing state with
  | ind bound ih =>
      by_cases isRoot : state = root
      · exact Or.inl isRoot
      · obtain ⟨region, contained, opened⟩ := coherent.contained state active isRoot
        obtain ⟨owner, owned, activeOwner⟩ := coherent.owned region opened
        have step := wired.level_succ contained owned
        have around := ih (machine.level owner) (by omega) activeOwner rfl
        exact below_iff_parent.mpr
          (Or.inr ⟨owner, parentOf?_eq_some.mpr ⟨region, contained, owned⟩, around⟩)

private theorem isActive_of_isStateActive {state : StateId}
    (active : machine.isStateActive state = true) : machine.isActive = true := by
  rcases below_root wired coherent active with rfl | ⟨region, owned, inside⟩
  · exact active
  · exact coherent.owner_active (coherent.active_around wired inside active) owned

variable {top : StateId}

/-- At an active state the walk that an exit follows contains the walk from each active state. -/
theorem activeSteps_sublist_deep (less : Nat) {state : StateId}
    (below : machine.Below top state) (active : machine.isStateActive state = true)
    (deep : machine.nestingBound < machine.level state + less) :
    (machine.activeSteps less state).Sublist
      (machine.activeSteps (machine.nestingBound + 1) top) := by
  have bound := wired.level_le_of_below below
  have inner := wired.level_le_nestingBound state
  have same : machine.activeSteps less state =
      machine.activeSteps (machine.level top + machine.nestingBound + 1 - machine.level state)
        state := activeSteps_of_deep wired deep (by omega)
  rw [same]
  exact activeSteps_sublist wired coherent below active (by omega)

theorem state_mem_exitPlan (activeTop : machine.isStateActive top = true) {state : StateId} :
    .state state ∈ machine.exitPlan top ↔
      machine.isStateActive state = true ∧ machine.Below top state := by
  unfold exitPlan
  rw [List.mem_reverse]
  constructor
  · intro named
    exact ⟨active_of_mem_activeSteps activeTop named,
      (below_of_mem_activeSteps wired).1 state named⟩
  · rintro ⟨active, below⟩
    exact (activeSteps_sublist_deep wired coherent (machine.nestingBound + 1) below active
      (by omega)).subset (List.mem_cons_self ..)

theorem region_mem_exitPlan (activeTop : machine.isStateActive top = true) {region : RegionId} :
    .region region ∈ machine.exitPlan top ↔
      machine.isRegionActive region = true ∧ machine.Beneath top region := by
  unfold exitPlan
  rw [List.mem_reverse]
  constructor
  · intro named
    exact ⟨active_of_mem_activeSteps activeTop named,
      (below_of_mem_activeSteps wired).2 region named⟩
  · rintro ⟨active, owner, owned, below⟩
    have walk := activeSteps_sublist_deep wired coherent (machine.nestingBound + 1) below
      (coherent.owner_active active owned) (by omega)
    exact walk.subset (region_mem_activeSteps wired (List.mem_cons_self ..) owned active)

theorem state_mem_rootPlan {state : StateId} (active : machine.isStateActive state = true) :
    .state state ∈ machine.exitPlan root :=
  (state_mem_exitPlan wired coherent (isActive_of_isStateActive wired coherent active)).mpr
    ⟨active, below_root wired coherent active⟩

theorem region_mem_rootPlan {region : RegionId} (active : machine.isRegionActive region = true) :
    .region region ∈ machine.exitPlan root := by
  obtain ⟨owner, owned, activeOwner⟩ := coherent.owned region active
  exact (region_mem_exitPlan wired coherent
    (isActive_of_isStateActive wired coherent activeOwner)).mpr
    ⟨active, owner, owned, below_root wired coherent activeOwner⟩

theorem region_sublist_exitPlan {owner : StateId} {region : RegionId}
    (below : machine.Below top owner) (owned : machine.ownerOf? region = some owner)
    (active : machine.isRegionActive region = true) :
    [.region region, .state owner].Sublist (machine.exitPlan top) := by
  have walk := activeSteps_sublist_deep wired coherent (machine.nestingBound + 1) below
    (coherent.owner_active active owned) (by omega)
  unfold exitPlan
  rw [← List.reverse_sublist, List.reverse_reverse]
  refine List.Sublist.trans ?_ walk
  refine List.Sublist.trans ?_ (branch_sublist_activeSteps wired owned active)
  exact ((List.nil_sublist _).cons_cons _).cons_cons _

theorem child_sublist_exitPlan {child owner : StateId} {region : RegionId}
    (below : machine.Below top owner) (owned : machine.ownerOf? region = some owner)
    (contained : machine.containerOf? child = some region)
    (active : machine.isStateActive child = true) :
    [.state child, .region region, .state owner].Sublist (machine.exitPlan top) := by
  have around := coherent.container_active wired active contained
  have walk := activeSteps_sublist_deep wired coherent (machine.nestingBound + 2) below
    (coherent.owner_active around owned) (by omega)
  unfold exitPlan
  rw [← List.reverse_sublist, List.reverse_reverse]
  refine List.Sublist.trans ?_ walk
  refine List.Sublist.trans ?_ (child_sublist_activeSteps wired coherent owned contained active)
  exact (((List.nil_sublist _).cons_cons _).cons_cons _).cons_cons _

/-! ### The active states, listed -/

omit wired coherent in
private theorem flatMap_eq_of_alone {Entry Item : Type} {entries : List Entry}
    {contributes : Entry → List Item} {entry : Entry} (nodup : entries.Nodup)
    (member : entry ∈ entries)
    (others : ∀ other ∈ entries, other ≠ entry → contributes other = []) :
    entries.flatMap contributes = contributes entry := by
  obtain ⟨early, late, rfl⟩ := List.append_of_mem member
  have apart := List.nodup_middle.mp nodup
  have silent (part : List Entry) (within : part ⊆ early ++ late) :
      part.flatMap contributes = [] := by
    refine List.flatMap_eq_nil_iff.mpr fun other inPart => others other ?_ ?_
    · exact List.perm_middle.mem_iff.mpr (List.mem_cons_of_mem _ (within inPart))
    · rintro rfl
      exact (List.nodup_cons.mp apart).1 (within inPart)
  rw [List.flatMap_append, List.flatMap_cons, silent early (List.subset_append_left _ _),
    silent late (List.subset_append_right _ _), List.nil_append, List.append_nil]

/-- Both walks list the same states: the one through all children of the active regions, and the one
through their active children. By induction on the depth. -/
theorem activeFrom_eq {depth : Nat} {state : StateId}
    (active : machine.isStateActive state = true) :
    machine.activeFrom depth state =
      (machine.activeSteps depth state).filterMap Step.state? := by
  induction depth generalizing state with
  | zero => rfl
  | succ depth ih =>
      have inactive {other : StateId} (off : machine.isStateActive other = false) :
          machine.activeFrom depth other = [] := by
        cases depth with
        | zero => rfl
        | succ depth => rw [activeFrom, off, if_neg Bool.false_ne_true]
      rw [activeFrom, if_pos active, Run.activeSteps_succ,
        List.filterMap_cons_some (Step.state?_state state),
        List.filterMap_flatMap]
      refine congrArg _ (List.flatMap_congr fun region _ => ?_)
      unfold Run.branch
      rw [List.filterMap_cons_none (Step.state?_region region)]
      cases chosen : machine.activeChild? region with
      | none =>
          refine List.flatMap_eq_nil_iff.mpr fun child listed => inactive ?_
          simpa using List.find?_eq_none.mp chosen child listed
      | some child =>
          have listed := List.mem_of_find?_eq_some chosen
          have activeChild := List.find?_some chosen
          rw [← ih activeChild]
          refine flatMap_eq_of_alone (wired.listedOnce region) listed fun other listedOther
            different => inactive (Bool.eq_false_iff.mpr fun activeOther => different ?_)
          exact coherent.single region other child ((wired.listed other region).mpr listedOther)
            ((wired.listed child region).mpr listed) activeOther activeChild

open Classical in
theorem filterMap_exitPlan (activeTop : machine.isStateActive top = true) :
    (machine.exitPlan top).filterMap Step.state? = (machine.activePart top).reverse := by
  unfold exitPlan activePart activeStates
  rw [List.filterMap_reverse, activeFrom_eq wired coherent
    (isActive_of_isStateActive wired coherent activeTop)]
  refine congrArg List.reverse ?_
  have nodup := Step.nodup_filterMap_state?
    (nodup_activeSteps wired : (machine.activeSteps (machine.nestingBound + 1) root).Nodup)
  have part := (activeSteps_sublist_deep wired coherent (machine.nestingBound + 1)
    (below_root wired coherent activeTop) activeTop (by omega)).filterMap Step.state?
  -- Both lists keep the order of the walk from the root, and the filter keeps no state too many.
  have kept := part.filter fun state => machine.Below top state
  rw [List.filter_eq_self.mpr fun state listed => by
    simpa using (below_of_mem_activeSteps wired).1 state
      (Step.mem_filterMap_state?.mp listed)] at kept
  refine kept.eq_of_length_le ((nodup.filter _).subperm fun state listed => ?_).length_le
  obtain ⟨listed, below⟩ := List.mem_filter.mp listed
  have active := active_of_mem_activeSteps
    (isActive_of_isStateActive wired coherent activeTop) (Step.mem_filterMap_state?.mp listed)
  exact Step.mem_filterMap_state?.mpr (List.mem_reverse.mp
    ((state_mem_exitPlan wired coherent activeTop).mpr ⟨active, by simpa using below⟩))

theorem nodup_activePart (activeTop : machine.isStateActive top = true) :
    (machine.activePart top).Nodup := by
  rw [← List.nodup_reverse, ← filterMap_exitPlan wired coherent activeTop]
  exact Step.nodup_filterMap_state? (List.nodup_reverse.mpr (nodup_activeSteps wired))

theorem mem_activePart (activeTop : machine.isStateActive top = true) {state : StateId} :
    state ∈ machine.activePart top ↔
      machine.isStateActive state = true ∧ machine.Below top state := by
  rw [← List.mem_reverse, ← filterMap_exitPlan wired coherent activeTop,
    Step.mem_filterMap_state?, state_mem_exitPlan wired coherent activeTop]

end Plan
end Machine

def Event.departure? : Event → Option Machine.Step
  | .notice (.left state _) => some (.state state)
  | .notice (.regionDeactivated region _) => some (.region region)
  | _ => none

private theorem Event.departure?_of_still {event : Event} (still : event.moves = false) :
    event.departure? = none := by
  cases event with
  | notice notice => cases notice <;> first | rfl | cases still
  | _ => rfl

def departures (events : List Event) : List Machine.Step :=
  events.filterMap Event.departure?

private theorem departures_of_still {events : List Event}
    (still : ∀ event ∈ events, event.moves = false) :
    departures events = [] :=
  List.filterMap_eq_nil_iff.mpr fun event member => Event.departure?_of_still (still event member)

private theorem departures_append (early late : List Event) :
    departures (early ++ late) = departures early ++ departures late :=
  List.filterMap_append

namespace Run

open Machine (Changes Still Told)

variable {mayFail : Prop} {calls : Calls}

/-- The steps have been taken in this order, and there were no other departures. -/
structure Followed (steps : List Machine.Step) (before after : Machine) : Prop
    extends LeavesOnly steps before after where
  off : AllInactive steps after
  told : ∃ events, Told before after events ∧ departures events = steps

namespace Followed

variable {early late : List Machine.Step} {before middle after : Machine}

private theorem of_still (still : Still before after) : Followed [] before after where
  toLeavesOnly := LeavesOnly.of_still [] still
  off :=
    { states := fun _ named => by cases named
      regions := fun _ named => by cases named }
  told := by
    obtain ⟨events, told, quiet⟩ := still.told
    exact ⟨events, told, departures_of_still quiet⟩

private theorem append (first : Followed early before middle)
    (second : Followed late middle after) :
    Followed (early ++ late) before after where
  toLeavesOnly := first.toLeavesOnly.append second.toLeavesOnly
  off := second.toLeavesOnly.off first.off second.off
  told := by
    obtain ⟨begun, toldBegun, departedBegun⟩ := first.told
    obtain ⟨done, toldDone, departedDone⟩ := second.told
    exact ⟨begun ++ done, toldBegun.trans toldDone,
      by rw [departures_append, departedBegun, departedDone]⟩

end Followed

private theorem followed_left {machine : Machine} {state : StateId} {node : StateNode}
    (found : machine.state? state = some node) (active : node.status.isActive = true) :
    Followed [.state state] machine (machine.left state node) where
  toLeavesOnly := leavesOnly_left found active
  off :=
    { states := fun other named => by
        obtain rfl := Machine.Step.state.inj (List.mem_singleton.mp named)
        exact Bool.eq_false_iff.mpr fun stays =>
          ((Machine.isStateActive_left other).mp stays).1 rfl
      regions := fun _ named => by cases List.mem_singleton.mp named }
  told := ⟨_, Machine.told_left state node, rfl⟩

private theorem followed_closed {machine : Machine} {region : RegionId} {members : Region}
    (found : machine.region? region = some members) (active : members.status.isActive = true) :
    Followed [.region region] machine (machine.closed region members.name) where
  toLeavesOnly := leavesOnly_closed found active
  off :=
    { states := fun _ named => by cases List.mem_singleton.mp named
      regions := fun other named => by
        obtain rfl := Machine.Step.region.inj (List.mem_singleton.mp named)
        exact machine.isRegionActive_closed_self other members.name }
  told := ⟨_, Machine.told_closed machine region members.name, rfl⟩

private theorem LeavesOnly.isActive {steps : List Machine.Step} {before after : Machine}
    (leavesOnly : LeavesOnly steps before after) {step : Machine.Step} (unnamed : step ∉ steps) :
    step.isActive after = step.isActive before := by
  cases step with
  | state state => exact leavesOnly.states state unnamed
  | region region => exact leavesOnly.regions region unnamed

/-- On the way from the machine, the exit behaviour of the state has run and has ended like this. -/
def RanExit (calls : Calls) (before : Machine) (state : StateId)
    (result : EStateM.Result Halt Machine Unit) : Prop :=
  ∃ node behavior ready, before.state? state = some node ∧ node.exit = some behavior ∧
    Changes before ready ∧ behave calls state behavior ready = result

/-- What a normal state runs when it is left has run and has not failed. -/
def LeftWell (calls : Calls) (before : Machine) (state : StateId) : Prop :=
  ∀ node, before.state? state = some node → node.kind = .normal → node.exit.isSome = true →
    ∃ stop, RanExit calls before state (.ok () stop)

section Callbacks

variable {before middle : Machine} {state : StateId}

private theorem RanExit.of_changes {result : EStateM.Result Halt Machine Unit}
    (ran : RanExit calls middle state result) (changes : Changes before middle) :
    RanExit calls before state result := by
  obtain ⟨node, behavior, ready, found, isExit, later, ends⟩ := ran
  obtain ⟨node', found', fixed⟩ := changes.sameChart.state?_backward found
  have same : node'.exit = node.exit := StateNode.read_eq fixed StateNode.exit fun _ => rfl
  exact ⟨node', behavior, ready, found', same.trans isExit, changes.trans later, ends⟩

private theorem LeftWell.of_changes (well : LeftWell calls middle state)
    (changes : Changes before middle) : LeftWell calls before state := by
  intro node found normal hasExit
  obtain ⟨node', found', fixed⟩ := changes.sameChart.state?_forward found
  have exits : node'.exit = node.exit := StateNode.read_eq fixed StateNode.exit fun _ => rfl
  have kinds : node'.kind = node.kind := StateNode.read_eq fixed StateNode.kind fun _ => rfl
  rw [← exits] at hasExit
  obtain ⟨stop, ran⟩ := well node' found' (kinds.trans normal) hasExit
  exact ⟨stop, ran.of_changes changes⟩

end Callbacks

/-- One step of an exit: what it names is off afterwards, also when the exit behaviour fails. -/
theorem ends_exitStep_followed {machine : Machine} (quietStates : machine.QuietStates mayFail)
    {step : Machine.Step} (active : step.isActive machine = true) :
    Ends (exitStep calls step) machine
      (fun _ after => Followed [step] machine after ∧
        ∀ state, step = .state state → LeftWell calls machine state)
      (fun halt after => ∃ state error, step = .state state ∧ halt = .error error ∧
        Followed [step] machine after ∧ RanExit calls machine state (.error halt after)) := by
  cases step with
  | region region =>
      obtain ⟨members, found, isActive⟩ := Machine.isRegionActive_iff.mp active
      unfold exitStep deactivateRegion
      rw [ends_discard, ends_bind, ends_get, found]
      dsimp only
      rw [if_pos isActive, ends_bind, ends_modify, ends_bind, ends_report, ends_pure]
      exact ⟨followed_closed found isActive, fun _ impossible => by cases impossible⟩
  | state state =>
      obtain ⟨node, found, isActive⟩ := Machine.isStateActive_iff.mp active
      have leaves := followed_left found isActive
      unfold exitStep
      rw [ends_deactivate found isActive]
      split
      · unfold startBehavior
        cases isExit : node.exit with
        | none =>
            refine ⟨leaves, fun other same node' found' _ hasExit => ?_⟩
            obtain rfl := Machine.Step.state.inj same
            rw [found] at found'
            rw [← Option.some.inj found', isExit] at hasExit
            cases hasExit
        | some behavior =>
            dsimp only
            rw [ends_bind, ends_note]
            have started : Still (machine.left state node)
                ((machine.left state node).note (.started .exit state)) :=
              (Machine.TouchesOnly.note state _ rfl).toStill
            have ran {result : EStateM.Result Halt Machine Unit}
                (ends : behave calls state behavior
                  ((machine.left state node).note (.started .exit state)) = result) :
                RanExit calls machine state result :=
              ⟨node, behavior, _, found, isExit, leaves.changes.trans started.changes, ends⟩
            have followed {after : Machine} (still : Still _ after) :
                Followed [.state state] machine after :=
              leaves.append (Followed.of_still (started.trans still))
            have quiet := quietStates state node behavior found (Or.inr (Or.inl isExit))
            refine ((ends_behave_quiet quiet _).and (ends_intro (fun _ _ result => result)
              fun _ _ result => result)).mono (fun _ after finished => ?_)
              fun halt after failed => ?_
            · refine ⟨followed finished.1.toStill, fun other same _ _ _ _ => ?_⟩
              rw [← Machine.Step.state.inj same]
              exact ⟨after, ran finished.2⟩
            · cases halt with
              | exhausted => exact absurd rfl failed.1.2.1
              | error error =>
                  exact ⟨state, error, rfl, rfl, followed failed.1.1.toStill, ran failed.2⟩
      · rename_i special
        refine ⟨leaves, fun other same node' found' normal _ => absurd ?_ special⟩
        rw [← Machine.Step.state.inj same, found] at found'
        rw [Option.some.inj found']
        exact normal

private theorem ends_exitSteps_followed (steps : List Machine.Step) {machine : Machine}
    (quietStates : machine.QuietStates mayFail) (once : steps.Nodup)
    (active : ∀ step ∈ steps, step.isActive machine = true) :
    Ends (steps.forM (exitStep calls)) machine
      (fun _ after => Followed steps machine after ∧
        ∀ state, .state state ∈ steps → LeftWell calls machine state)
      (fun halt after => ∃ early state late error, steps = early ++ .state state :: late ∧
        halt = .error error ∧ Followed (early ++ [.state state]) machine after ∧
        RanExit calls machine state (.error halt after) ∧
        ∀ state, .state state ∈ early → LeftWell calls machine state) := by
  -- By induction on the steps: what is still to be taken stays active until its turn.
  induction steps generalizing machine with
  | nil => exact ⟨Followed.of_still (Still.refl machine), fun _ named => by cases named⟩
  | cons step rest ih =>
      obtain ⟨fresh, onceRest⟩ := List.nodup_cons.mp once
      rw [ends_forM_cons]
      refine (ends_exitStep_followed quietStates (active step (List.mem_cons_self ..))).mono
        (fun _ middle first => ?_) fun halt after failed => ?_
      · obtain ⟨followed, well⟩ := first
        refine (ih (quietStates.of_sameChart followed.changes.sameChart) onceRest
          fun other named => ?_).mono
          (fun _ after later => ?_) fun halt after failed => ?_
        · rw [followed.isActive fun same => fresh
            (by rw [← List.mem_singleton.mp same]; exact named)]
          exact active other (List.mem_cons_of_mem _ named)
        · refine ⟨followed.append later.1, fun state named => ?_⟩
          rcases List.mem_cons.mp named with here | named
          · exact well state here.symm
          · exact (later.2 state named).of_changes followed.changes
        · obtain ⟨early, state, late, error, split, isError, left, ran, earlier⟩ := failed
          refine ⟨step :: early, state, late, error, by rw [split]; rfl, isError,
            followed.append left, ran.of_changes followed.changes, fun other named => ?_⟩
          rcases List.mem_cons.mp named with here | named
          · exact well other here.symm
          · exact (earlier other named).of_changes followed.changes
      · obtain ⟨state, error, rfl, isError, followed, ran⟩ := failed
        exact ⟨[], state, rest, error, rfl, isError, followed, ran, fun _ named => by cases named⟩

theorem ends_exit_followed {machine : Machine} {top : StateId} (wired : machine.Wired)
    (quietStates : machine.QuietStates mayFail) (active : machine.isStateActive top = true) :
    Ends (exit calls top) machine
      (fun _ after => Followed (machine.exitPlan top) machine after ∧
        ∀ state, .state state ∈ machine.exitPlan top → LeftWell calls machine state)
      (fun halt after => ∃ early state late error,
        machine.exitPlan top = early ++ .state state :: late ∧ halt = .error error ∧
        Followed (early ++ [.state state]) machine after ∧
        RanExit calls machine state (.error halt after) ∧
        ∀ state, .state state ∈ early → LeftWell calls machine state) := by
  unfold exit
  rw [ends_bind, ends_get]
  exact ends_exitSteps_followed (machine.exitPlan top) quietStates
    (List.nodup_reverse.mpr (Machine.nodup_activeSteps wired))
    fun step named => Machine.active_of_mem_activeSteps active (List.mem_reverse.mp named)

end Run
end Chart
