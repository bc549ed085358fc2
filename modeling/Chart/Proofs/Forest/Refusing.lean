import Chart.Proofs.Forest.DeepInstallation

set_option autoImplicit false

/-!
Refused insertions. An insertion into a region checks everything before it changes anything, so that
a refusal leaves the chart as it was. Two calls work ahead of a check: one that asks for the first
region of a state makes the region before the insertion is checked, and the installation of a deep
history goes on from region to region until one of them refuses.
-/

namespace Chart

namespace Machine

/-- Every state, region and transition is as it was, and at most one state was stored, outside all
regions. -/
structure Unaltered (before after : Machine) : Prop where
  states : ∀ state node, before.state? state = some node → after.state? state = some node
  regions : after.regions = before.regions
  transitions : after.transitions = before.transitions
  stored : ∃ added, ∀ state node, before.state? state = none → after.state? state = some node →
    state = added ∧ node.container = none

theorem Unaltered.refl (machine : Machine) : machine.Unaltered machine where
  states := fun _ _ found => found
  regions := rfl
  transitions := rfl
  stored := ⟨root, fun state node absent found => by
    rw [absent] at found
    cases found⟩

theorem Unaltered.pushState (machine : Machine) {node : StateNode}
    (detached : node.container = none) : machine.Unaltered (machine.pushState node).2 where
  states := fun _ _ found => state?_pushState_of_some node found
  regions := rfl
  transitions := rfl
  stored := by
    refine ⟨(machine.pushState node).1, fun state found absent stored => ?_⟩
    rw [state?_pushState] at stored
    by_cases here : state = (machine.pushState node).1
    · rw [if_pos here] at stored
      rw [← Option.some.inj stored]
      exact ⟨here, detached⟩
    · rw [if_neg here, absent] at stored
      cases stored

/-- The first region of a state is there; it has been made if the state may own one and had none. -/
def withFirstRegion (machine : Machine) (owner : StateId) : Machine :=
  if (machine.kindOf? owner).any StateKind.mayOwnRegions = true ∧ machine.regionsOf owner = [] then
    (machine.pushRegion owner).2
  else machine

private theorem mayOwn_iff {machine : Machine} {owner : StateId} :
    (machine.kindOf? owner).any StateKind.mayOwnRegions = true ↔
      machine.kindOf? owner = some .normal ∨ machine.kindOf? owner = some .root := by
  cases machine.kindOf? owner with
  | none => simp
  | some kind => cases kind <;> simp [StateKind.mayOwnRegions]

theorem Formed.withFirstRegion {machine : Machine} (formed : machine.Formed) (owner : StateId) :
    (machine.withFirstRegion owner).Formed := by
  unfold Machine.withFirstRegion
  split
  · rename_i made
    exact (formed.pushRegion (mayOwn_iff.mp made.1)).1
  · exact formed

private theorem head?_regionsOf_pushRegion {machine : Machine} (wired : machine.Wired)
    {owner : StateId}
    (mayOwn : machine.kindOf? owner = some .normal ∨ machine.kindOf? owner = some .root)
    (bare : machine.regionsOf owner = []) :
    ((machine.pushRegion owner).2.regionsOf owner).head? = some machine.nextRegion := by
  have extended := extended_pushRegion wired mayOwn
  obtain ⟨initial, final, members, found, owned, _⟩ := extended.added
  have isOwned : (machine.pushRegion owner).2.ownerOf? machine.nextRegion = some owner :=
    ownerOf?_eq_some.mpr ⟨members, found, owned⟩
  cases listed : (machine.pushRegion owner).2.regionsOf owner with
  | nil =>
      have member := (extended.wired.owned _ _).mp isOwned
      rw [listed] at member
      cases member
  | cons first rest =>
      have ownedFirst : (machine.pushRegion owner).2.ownerOf? first = some owner :=
        (extended.wired.owned first owner).mpr (by rw [listed]; exact List.mem_cons_self ..)
      by_cases same : first = machine.nextRegion
      · rw [same]
        rfl
      · -- an older region of the state would have been there before
        rw [ownerOf?, extended.others first same] at ownedFirst
        have older := (wired.owned first owner).mp ownedFirst
        rw [bare] at older
        cases older

theorem contained_of_withFirstRegion {machine : Machine} (wired : machine.Wired)
    {owner state : StateId} {node : StateNode} (absent : machine.state? state = none)
    (found : (machine.withFirstRegion owner).state? state = some node) :
    node.container ≠ none := by
  unfold Machine.withFirstRegion at found
  split at found
  · rename_i made
    obtain ⟨initial, final, _, _, _, _, _, _, _, _, _, containers, kinds⟩ :=
      (extended_pushRegion wired (mayOwn_iff.mp made.1)).added
    by_cases marker : state = initial ∨ state = final
    · have contained := containers state
      rw [if_pos marker, containerOf?, found, Option.bind_some] at contained
      rw [contained]
      exact Option.some_ne_none _
    · have kind := kinds state
      rw [if_neg fun same => marker (Or.inl same), if_neg fun same => marker (Or.inr same)] at kind
      simp [kindOf?, found, absent] at kind
  · rw [absent] at found
    cases found

/-! ### Deep history -/

def Historied (before after : Machine) (region : RegionId) (members : Region) : Prop :=
  members.history = none ∧ ∃ history, before.state? history = none ∧
    after.region? region = some
      { members.listing (members.name ++ "-history-pseudo") history with history := some history }

/-- Histories within the region may have another depth, regions within it may have received one, and
nothing else is new. -/
structure Deepened (region : RegionId) (before after : Machine) : Prop where
  states : ∀ state node, before.state? state = some node →
    ∃ kind, after.state? state = some { node with kind := kind } ∧ node.kind.Redeepened kind ∧
      (kind ≠ node.kind → before.Inside region state)
  regions : ∀ other members, before.region? other = some members →
    after.region? other = some members ∨
      before.Within region other ∧ Historied before after other members
  regionCount : after.regions.size = before.regions.size
  transitions : after.transitions = before.transitions
  stored : ∀ state node, before.state? state = none → after.state? state = some node →
    ∃ nested, after.historyOf? nested = some state ∧ node.container = some nested

namespace Deepened

variable {region : RegionId} {before middle after : Machine}

theorem refl (region : RegionId) (machine : Machine) : Deepened region machine machine where
  states := fun _ node found => ⟨node.kind, found, Or.inl rfl, fun changed => absurd rfl changed⟩
  regions := fun _ _ found => Or.inl found
  regionCount := rfl
  transitions := rfl
  stored := fun _ _ absent found => by
    rw [absent] at found
    cases found

theorem trans {inner : RegionId} (first : Deepened region before middle)
    (second : Deepened inner middle after) (adds : AddsHistories before middle)
    (within : before.Within region inner) : Deepened region before after where
  states := by
    intro state node found
    obtain ⟨between, foundBetween, one, changedOne⟩ := first.states state node found
    obtain ⟨kind, foundAfter, two, changedTwo⟩ := second.states state _ foundBetween
    refine ⟨kind, foundAfter, one.trans two, fun changed => ?_⟩
    by_cases same : between = node.kind
    · obtain ⟨nested, contained, withinNested⟩ :=
        inside_iff.mp (changedTwo fun equal => changed (equal.trans same))
      refine inside_iff.mpr ⟨nested, ?_, within.trans (adds.within withinNested)⟩
      rw [containerOf?, foundBetween] at contained
      rw [containerOf?, found]
      exact contained
    · exact changedOne same
  regions := by
    intro other members found
    rcases first.regions other members found with kept | ⟨withinOther, free, history,
      absent, gained⟩
    · refine (second.regions other members kept).imp id ?_
      rintro ⟨withinOther, free, history, absent, gained⟩
      refine ⟨within.trans (adds.within withinOther), free, history, ?_, gained⟩
      by_contra present
      obtain ⟨node, stored⟩ := Option.ne_none_iff_exists'.mp present
      obtain ⟨kind, stored', _⟩ := first.states history node stored
      rw [absent] at stored'
      cases stored'
    · rcases second.regions other _ gained with kept | ⟨_, taken, _⟩
      · exact Or.inr ⟨withinOther, free, history, absent, kept⟩
      · cases taken
  regionCount := second.regionCount.trans first.regionCount
  transitions := second.transitions.trans first.transitions
  stored := by
    intro state node absent found
    cases between : middle.state? state with
    | none => exact second.stored state node between found
    | some earlier =>
        obtain ⟨nested, marked, contained⟩ := first.stored state earlier absent between
        obtain ⟨kind, found', _⟩ := second.states state earlier between
        rw [found] at found'
        obtain rfl := Option.some.inj found'
        obtain ⟨members, stored, marker⟩ := historyOf?_eq_some.mp marked
        refine ⟨nested, ?_, contained⟩
        rcases second.regions nested members stored with kept | ⟨_, taken, _⟩
        · exact historyOf?_eq_some.mpr ⟨members, kept, marker⟩
        · rw [marker] at taken
          cases taken

end Deepened

theorem Deepened.redeepened {machine : Machine} {region : RegionId} {history : StateId}
    {old : HistoryDepth} (contained : machine.containerOf? history = some region)
    (isHistory : machine.kindOf? history = some (.history old)) (depth : HistoryDepth) :
    Deepened region machine (machine.redeepened history depth) where
  states := by
    intro state node found
    by_cases here : state = history
    · subst here
      refine ⟨.history depth, ?_, ?_, fun _ => .member contained⟩
      · rw [state?_redeepened, if_pos rfl, found]
        rfl
      · rw [kindOf?, found] at isHistory
        exact Or.inr ⟨old, depth, Option.some.inj isHistory, rfl⟩
    · refine ⟨node.kind, ?_, Or.inl rfl, fun changed => absurd rfl changed⟩
      rw [state?_redeepened, if_neg here]
      exact found
  regions := fun _ _ found => Or.inl found
  regionCount := rfl
  transitions := rfl
  stored := by
    intro state node absent found
    rw [state?_redeepened, absent] at found
    split at found
    · cases found
    · cases found

private theorem stored_fst (machine : Machine) (name : String) (depth : HistoryDepth) :
    (machine.pushState (.bare name (.history depth))).1 = ⟨machine.states.size⟩ := rfl

theorem state?_installed (machine : Machine) (region : RegionId) (name : String)
    (depth : HistoryDepth) {state : StateId} (older : state ≠ ⟨machine.states.size⟩) :
    (machine.installed region name depth).state? state = machine.state? state := by
  have regionless : (machine.pushState (.bare name (.history depth))).2.regionsOf
      (machine.pushState (.bare name (.history depth))).1 = [] := by
    unfold regionsOf
    rw [state?_pushState, if_pos rfl]
    rfl
  unfold installed
  dsimp only
  rw [remembering, state?_modifyRegion, state?_attach_of_bare regionless older, state?_pushState,
    stored_fst, if_neg older]

theorem region?_installed (machine : Machine) (region : RegionId) (name : String)
    (depth : HistoryDepth) (other : RegionId) :
    (machine.installed region name depth).region? other =
      if other = region then (machine.region? other).map fun members =>
        { members.listing name ⟨machine.states.size⟩ with history := some ⟨machine.states.size⟩ }
      else machine.region? other := by
  have named : (machine.pushState (.bare name (.history depth))).2.stateName
      (machine.pushState (.bare name (.history depth))).1 = name := by
    unfold stateName
    rw [state?_pushState, if_pos rfl]
    rfl
  have same (nested : RegionId) :
    (machine.pushState (.bare name (.history depth))).2.region? nested =
      machine.region? nested := rfl
  unfold installed
  dsimp only
  rw [region?_remembering, region?_attach, named, same, stored_fst]
  by_cases here : other = region
  · rw [if_pos here, if_pos here, if_pos here, Option.map_map]
    rfl
  · rw [if_neg here, if_neg here, if_neg here]

private theorem regionCount_installed (machine : Machine) (region : RegionId) (name : String)
    (depth : HistoryDepth) :
    (machine.installed region name depth).regions.size = machine.regions.size := by
  unfold installed remembering
  dsimp only
  rw [modifyRegion, Array.size_modify, attach, assignLevels_eq]
  simp only [modifyState, modifyRegion, Array.size_modify]
  rfl

theorem Deepened.installed {machine : Machine} (formed : machine.Formed) {region : RegionId}
    {members : Region} (depth : HistoryDepth) (found : machine.region? region = some members)
    (fresh : Dictionary.find? members.stateIndex (members.name ++ "-history-pseudo") = none)
    (free : members.history = none) :
    Deepened region machine
      (machine.installed region (members.name ++ "-history-pseudo") depth) := by
  have formedAfter := (formed.installed depth found fresh free).1
  have absent : machine.state? ⟨machine.states.size⟩ = none :=
    state?_next machine (.bare "" .normal)
  have gained := region?_installed machine region (members.name ++ "-history-pseudo") depth region
  rw [if_pos rfl, found] at gained
  refine
    { states := fun state node stored => ?_, regions := fun other entry stored => ?_,
      regionCount := regionCount_installed machine region _ depth,
      transitions := transitions_installed machine region _ depth,
      stored := fun state node missing stored => ?_ }
  · refine ⟨node.kind, ?_, Or.inl rfl, fun changed => absurd rfl changed⟩
    rw [state?_installed machine region _ depth fun same => by
      rw [same, absent] at stored
      cases stored]
    exact stored
  · by_cases here : other = region
    · subst here
      rw [found] at stored
      obtain rfl := Option.some.inj stored
      exact Or.inr ⟨Within.refl machine other, free, _, absent, gained⟩
    · left
      rw [region?_installed, if_neg here]
      exact stored
  · by_cases here : state = ⟨machine.states.size⟩
    · subst here
      have marked := (formedAfter.history region _ _ gained).mpr rfl
      refine ⟨region, historyOf?_eq_some.mpr ⟨_, gained, rfl⟩, ?_⟩
      rw [containerOf?, stored] at marked
      exact marked.1
    · rw [state?_installed machine region _ depth here, missing] at stored
      cases stored

end Machine

namespace Construct

open Machine (Unaltered Deepened AddsHistories)

def Checked {Answer : Type} (construct : Construct Answer) : Prop :=
  ∀ machine : Machine, Ends construct machine (fun _ _ => True) fun _ after => after = machine

theorem checked_regionAddState (region : RegionId) (state : StateId) :
    Checked (regionAddState region state) := by
  intro machine
  unfold regionAddState
  rw [ends_bind]
  refine ends_requireRegion (fun members _ => ?_) fun _ => rfl
  rw [ends_bind]
  refine ends_requireState (fun node _ => ?_) fun _ => rfl
  rw [ends_bind, ends_get]
  dsimp only
  by_cases isRoot : node.kind = .root
  · rw [if_pos isRoot]
    rfl
  · rw [if_neg isRoot]
    cases node.container with
    | some existing => rfl
    | none =>
        by_cases around : machine.encloses state region = true
        · simp only [around]
          rfl
        · by_cases taken : Dictionary.contains members.stateIndex node.name = true
          · simp only [around, taken]
            rfl
          · simp only [around, taken]
            exact trivial

theorem checked_regionAddTransition (region : RegionId) (transition : TransitionId) :
    Checked (regionAddTransition region transition) := by
  intro machine
  unfold regionAddTransition
  rw [ends_bind]
  refine ends_requireRegion (fun members _ => ?_) fun _ => rfl
  rw [ends_bind]
  refine ends_requireTransition (fun found _ => ?_) fun _ => rfl
  rw [ends_bind, ends_get]
  dsimp only
  cases found.container with
  | some existing => rfl
  | none =>
      by_cases taken : Dictionary.contains members.transitionIndex found.name = true
      · simp only [taken]
        rfl
      · simp only [taken]
        exact trivial

theorem ends_installHistory_checked {machine : Machine} (formed : machine.Formed)
    (region : RegionId) (depth : HistoryDepth) :
    Ends (installHistory region depth) machine
      (fun _ after => AddsHistories machine after ∧ Deepened region machine after)
      (fun _ after => after = machine) := by
  have adds : Ends (installHistory region depth) machine
      (fun _ after => AddsHistories machine after) (fun _ _ => True) :=
    (ends_installHistory formed region depth).mono (fun _ _ installs => installs.1)
      fun _ _ _ => trivial
  have deepens : Ends (installHistory region depth) machine
      (fun _ after => Deepened region machine after) (fun _ after => after = machine) := by
    unfold installHistory
    rw [ends_bind]
    refine ends_requireRegion (fun members found => ?_) fun _ => rfl
    cases marker : members.history with
    | some existing =>
        obtain ⟨contained, old, isHistory⟩ :=
          (formed.history region members existing found).mpr marker
        dsimp only
        rw [ends_bind, ends_modify, ends_pure]
        exact Deepened.redeepened contained isHistory depth
    | none =>
        dsimp only
        by_cases taken :
            Dictionary.contains members.stateIndex (members.name ++ "-history-pseudo") = true
        · rw [if_pos taken]
          rfl
        · rw [if_neg taken, ends_modifyGet]
          refine Deepened.installed formed depth found ?_ marker
          simpa [Dictionary.contains] using taken
  exact (adds.and deepens).mono (fun _ _ both => both) fun _ _ both => both.2

/-- What is known of the call at each item, from every machine on the way, is known of the run over
the items; by induction on them. -/
theorem ends_forIn_deepen {region : RegionId} {before : Machine}
    {step : RegionId → PUnit → Construct (ForInStep PUnit)} {regions : List RegionId}
    (deepens : ∀ nested ∈ regions, ∀ machine, AddsHistories before machine →
      Deepened region before machine → Ends (step nested ⟨⟩) machine
        (fun _ after => AddsHistories before after ∧ Deepened region before after)
        (fun _ after => Deepened region before after))
    {machine : Machine} (adds : AddsHistories before machine)
    (deepened : Deepened region before machine) :
    Ends (forIn regions PUnit.unit step) machine
      (fun _ after => AddsHistories before after ∧ Deepened region before after)
      (fun _ after => Deepened region before after) := by
  induction regions generalizing machine with
  | nil => exact ⟨adds, deepened⟩
  | cons first rest ih =>
      rw [List.forIn_cons, ends_bind]
      refine (deepens first (List.mem_cons_self ..) machine adds deepened).mono
        (fun next middle both => ?_) fun _ _ failed => failed
      cases next with
      | done _ => exact both
      | yield _ =>
          exact ih (fun nested member => deepens nested
            (List.mem_cons_of_mem _ member)) both.1 both.2

theorem within_of_mem_regionsOfNormalStates {machine : Machine} (wired : machine.Wired)
    {region nested : RegionId} (member : nested ∈ regionsOfNormalStates machine region) :
    machine.Within region nested := by
  obtain ⟨child, isChild, listed⟩ := List.mem_flatMap.mp member
  have contained := (wired.listed child region).mpr (List.mem_filter.mp isChild).1
  exact Machine.Within.of_member ((wired.owned nested child).mpr listed) contained

theorem ends_installHistoryBelow_deepened {machine : Machine} (formed : machine.Formed)
    (steps : Nat) (region : RegionId) :
    Ends (installHistoryBelow steps region) machine
      (fun _ after => AddsHistories machine after ∧ Deepened region machine after)
      (fun _ after => Deepened region machine after) := by
  -- By induction on the bound of the walk.
  induction steps generalizing machine region with
  | zero => exact ⟨AddsHistories.refl formed, Deepened.refl region machine⟩
  | succ steps ih =>
      unfold installHistoryBelow
      rw [ends_bind, ends_get, ends_bind]
      refine (ends_forIn_deepen (fun nested member current adds deepened => ?_)
        (AddsHistories.refl formed) (Deepened.refl region machine)).mono
          (fun _ _ both => both) fun _ _ failed => failed
      have within := within_of_mem_regionsOfNormalStates formed.toWired member
      rw [ends_bind, ends_discard]
      refine (ends_installHistory_checked adds.formed nested .deep).mono
        (fun _ middle installs => ?_) fun _ after same => by rw [same]; exact deepened
      have addsOne := adds.trans installs.1
      have deepenedOne := deepened.trans installs.2 adds within
      rw [ends_bind]
      refine (ih addsOne.formed nested).mono (fun _ after both => ?_) fun _ after failed => ?_
      · exact ⟨addsOne.trans both.1, deepenedOne.trans both.2 addsOne within⟩
      · exact deepenedOne.trans failed addsOne within

/-- A refused installation of a shallow history changes nothing, one of a deep history may have
installed some. -/
theorem ends_regionAddHistory_refused {machine : Machine} (formed : machine.Formed)
    (region : RegionId) (depth : HistoryDepth) :
    Ends (regionAddHistory region depth) machine (fun _ _ => True)
      (fun _ after => after = machine ∨ depth = .deep ∧ Deepened region machine after) := by
  unfold regionAddHistory
  rw [ends_bind]
  refine (ends_installHistory_checked formed region depth).mono (fun _ middle installs => ?_)
    fun _ _ same => Or.inl same
  by_cases deep : depth = .deep
  · rw [if_pos deep, ends_bind, ends_get, ends_bind]
    refine (ends_installHistoryBelow_deepened installs.1.formed _ region).mono
      (fun _ _ _ => trivial) fun _ after failed => Or.inr ⟨deep, ?_⟩
    exact installs.2.trans failed installs.1 (Machine.Within.refl machine region)
  · rw [if_neg deep]
    exact trivial

theorem ends_firstRegion {machine : Machine} (wired : machine.Wired) (owner : StateId) :
    Ends (firstRegion owner) machine
      (fun region after => after = machine.withFirstRegion owner ∧
        (after.regionsOf owner).head? = some region)
      (fun _ after => after = machine.withFirstRegion owner) := by
  unfold firstRegion requireComposite
  rw [ends_bind, ends_bind]
  refine ends_requireState (fun node found => ?_) fun absent => ?_
  · have kind : machine.kindOf? owner = some node.kind :=
      Machine.kindOf?_eq_some.mpr ⟨node, found, rfl⟩
    have regions : machine.regionsOf owner = node.regions := by
      simp [Machine.regionsOf, found]
    unfold Machine.withFirstRegion
    rw [kind, regions]
    by_cases mayOwn : node.kind.mayOwnRegions = true
    · rw [if_pos mayOwn, ends_pure]
      cases listed : node.regions with
      | cons first rest =>
          rw [if_neg fun both => by cases both.2]
          refine ⟨rfl, ?_⟩
          rw [regions, listed]
          rfl
      | nil =>
          dsimp only
          rw [ends_modifyGet, if_pos ⟨mayOwn, rfl⟩]
          refine ⟨rfl, Machine.head?_regionsOf_pushRegion wired ?_ (regions.trans listed)⟩
          exact Machine.mayOwn_iff.mp (by rw [kind]; exact mayOwn)
    · rw [if_neg mayOwn, if_neg fun both => mayOwn both.1]
      rfl
  · have kind : machine.kindOf? owner = none := by
      simp [Machine.kindOf?, absent]
    unfold Machine.withFirstRegion
    rw [kind, if_neg fun both => by cases both.1]

end Construct
end Chart
