import Chart.Proofs.Run.Opening

set_option autoImplicit false

/-!
Following an entry plan. In an idle region everything is inactive, so a plan made there names all
regions of the states it enters, and whatever is kept from the plans of these regions to the plan of
the state holds of every plan made there. Default and explicit entries both settle the region they
enter, provided entering single states does.
-/

namespace Chart

namespace Machine

/-- The first state is a child of the region, each other state a child of a region of the one
before it. -/
inductive Path (machine : Machine) : RegionId → List StateId → Prop
  | one {region : RegionId} {state : StateId}
      (contained : machine.containerOf? state = some region) : Path machine region [state]
  | more {region nested : RegionId} {state next : StateId} {rest : List StateId}
      (contained : machine.containerOf? state = some region)
      (owned : machine.ownerOf? nested = some state)
      (inner : Path machine nested (next :: rest)) : Path machine region (state :: next :: rest)

theorem Path.head_contained {machine : Machine} {region : RegionId} {state : StateId}
    {rest : List StateId} (path : Path machine region (state :: rest)) :
    machine.containerOf? state = some region := by
  cases path with
  | one contained => exact contained
  | more contained _ _ => exact contained

theorem Path.inside {machine : Machine} {region : RegionId} {chain : List StateId}
    (path : Path machine region chain) : ∀ state ∈ chain, machine.Inside region state := by
  induction path with
  | one contained =>
      intro state member
      rw [List.mem_singleton.mp member]
      exact .member contained
  | more contained owned _ ih =>
      intro state member
      rcases List.mem_cons.mp member with here | later
      · rw [here]
        exact .member contained
      · exact (ih state later).of_within (Within.of_member owned contained)

private theorem path_inactiveChain {machine : Machine} (wired : machine.Wired)
    (coherent : machine.Coherent) {region : RegionId} (idle : machine.Idle region)
    {owner : StateId} (owned : machine.ownerOf? region = some owner) {depth : Nat}
    {nested : RegionId} {state : StateId} {rest : List StateId}
    (within : machine.Within region nested) (path : Path machine nested (state :: rest))
    (deep : machine.level state ≤ depth + machine.level owner) :
    Path machine region (machine.inactiveChain depth state (state :: rest)) := by
  induction depth generalizing nested state rest with
  | zero =>
      have inside : machine.Inside region state :=
        inside_iff.mpr ⟨nested, path.head_contained, within⟩
      have above := wired.level_lt_of_inside owned inside
      omega
  | succ depth ih =>
      have contained := path.head_contained
      obtain ⟨parent, ownedNested⟩ := wired.exists_owner contained
      have isParent : machine.parentOf? state = some parent :=
        parentOf?_eq_some.mpr ⟨nested, contained, ownedNested⟩
      unfold inactiveChain
      rw [isParent]
      dsimp only
      have step := wired.level_succ contained ownedNested
      rcases within.inside_owner ownedNested with same | inside
      · rw [same, owned] at ownedNested
        obtain rfl := Option.some.inj ownedNested
        rw [if_pos (coherent.owner_active idle.1 owned), ← same]
        exact path
      · have inactive := coherent.inside_inactive wired idle.2 inside
        rw [if_neg (by rw [inactive]; exact Bool.false_ne_true)]
        obtain ⟨container, containedParent, withinContainer⟩ := inside_iff.mp inside
        exact ih withinContainer (.more containedParent ownedNested path) (by omega)

private theorem explicitEntryPlan_of_path {machine : Machine} {region : RegionId} {target : StateId}
    (path : Path machine region (machine.inactiveChain machine.nestingBound target [target]))
    (active : machine.isRegionActive region = true) :
    machine.explicitEntryPlan target =
      machine.chainEntryPlan (machine.inactiveChain machine.nestingBound target [target]) := by
  unfold explicitEntryPlan
  generalize machine.inactiveChain machine.nestingBound target [target] = chain at path ⊢
  have head : (chain.head?.map machine.activateInactive).getD [] = [] := by
    cases path with
    | one contained => simp [activateInactive, contained, active]
    | more contained _ _ => simp [activateInactive, contained, active]
  dsimp only
  rw [head, List.nil_append]

theorem inactiveRegions_eq {machine : Machine} {state : StateId}
    (inactive : ∀ region ∈ machine.regionsOf state, machine.isRegionActive region = false) :
    machine.inactiveRegions state = machine.regionsOf state := by
  unfold inactiveRegions
  refine List.filter_eq_self.mpr fun region member => ?_
  rw [inactive region member]
  rfl

/-- From an idle region a target inside is entered along a path of states without active regions. -/
theorem exists_path_of_inside {machine : Machine} (wired : machine.Wired)
    (coherent : machine.Coherent) {region : RegionId} (idle : machine.Idle region)
    {target : StateId} (inside : machine.Inside region target) :
    ∃ chain, chain = machine.inactiveChain machine.nestingBound target [target] ∧
      machine.explicitEntryPlan target = machine.chainEntryPlan chain ∧ Path machine region chain ∧
      ∀ state ∈ chain, ∀ nested ∈ machine.regionsOf state,
        machine.isRegionActive nested = false := by
  obtain ⟨owner, owned, _⟩ := coherent.owned region idle.1
  obtain ⟨nested, contained, within⟩ := inside_iff.mp inside
  have deep : machine.level target ≤ machine.nestingBound + machine.level owner := by
    have bound := wired.level_le_nestingBound target
    omega
  have path := path_inactiveChain wired coherent idle owned within (Path.one contained) deep
  exact ⟨_, rfl, explicitEntryPlan_of_path path idle.1, path, fun state member other listed =>
    coherent.region_inactive ((wired.owned other state).mpr listed)
      (coherent.inside_inactive wired idle.2 (path.inside state member))⟩

private theorem regionsOf_entryMarker {machine : Machine} (formed : machine.Formed)
    {region : RegionId}
    {members : Region} (stored : machine.region? region = some members) :
    machine.regionsOf members.entryMarker = [] := by
  unfold Region.entryMarker
  cases marker : members.history with
  | none =>
      exact formed.bare_of_kind ((formed.initial region members members.initial stored).mpr rfl).2
        rfl
  | some history =>
      obtain ⟨_, depth, isHistory⟩ := (formed.history region members history stored).mpr marker
      exact formed.bare_of_kind isHistory rfl

end Machine

namespace Run

open Machine (Orderly Settled Path)

variable {mayFail : Prop} {related : Machine → Machine → Prop} {calls : Calls}

/-- Holds of the plan that enters a child of the region, opens its regions and goes on in each of
them with a plan, if it holds of all these plans. -/
def Composes (chart : Machine) (good : RegionId → List Machine.Step → Prop) : Prop :=
  ∀ (state : StateId) (region : RegionId) (plan : RegionId → List Machine.Step),
    chart.containerOf? state = some region →
    (∀ nested ∈ chart.regionsOf state, good nested (plan nested)) →
    good region (.state state :: (chart.regionsOf state).map Machine.Step.region ++
      (chart.regionsOf state).flatMap plan)

namespace Composes

variable {chart : Machine} {good : RegionId → List Machine.Step → Prop}
variable (composes : Composes chart good) (formed : chart.Formed)
include composes formed

theorem enterMarker {region : RegionId} {owner : StateId}
    (owned : chart.ownerOf? region = some owner) : good region (chart.enterMarker region) := by
  obtain ⟨members, found, _⟩ := Machine.ownerOf?_eq_some.mp owned
  have bare := Machine.regionsOf_entryMarker formed found
  have result := composes members.entryMarker region chart.enterMarker
    (Machine.containerOf?_entryMarker found formed) (by rw [bare]; exact List.forall_mem_nil _)
  rw [bare] at result
  have plan : chart.enterMarker region = [.state members.entryMarker] := by
    rw [Machine.enterMarker, Machine.entryMarker?, found]
    rfl
  rw [plan]
  exact result

theorem branch {nested region : RegionId} {owner next : StateId} {rest : List StateId}
    (inner : Path chart nested (next :: rest))
    (onward : good nested (chart.chainEntryPlan (next :: rest)))
    (owned : chart.ownerOf? region = some owner) :
    good region
      (if chart.containerOf? next = some region then chart.chainEntryPlan (next :: rest)
        else chart.enterMarker region) := by
  split
  · rename_i leads
    rw [inner.head_contained] at leads
    rw [← Option.some.inj leads]
    exact onward
  · exact composes.enterMarker formed owned

theorem chain {region : RegionId} {chain : List StateId} (path : Path chart region chain)
    (inactive : ∀ state ∈ chain, ∀ nested ∈ chart.regionsOf state,
      chart.isRegionActive nested = false) :
    good region (chart.chainEntryPlan chain) := by
  -- By induction on the path.
  induction path with
  | @one region state contained =>
      unfold Machine.chainEntryPlan Machine.defaultEntryPlan
      rw [Machine.inactiveRegions_eq (inactive state (List.mem_singleton_self state))]
      exact composes state region chart.enterMarker contained fun nested member =>
        composes.enterMarker formed ((formed.owned nested state).mpr member)
  | @more region nested state next rest contained owned inner ih =>
      have onward := ih fun other member => inactive other (List.mem_cons_of_mem _ member)
      unfold Machine.chainEntryPlan
      rw [Machine.inactiveRegions_eq (inactive state (List.mem_cons_self ..))]
      exact composes state region _ contained fun other member =>
        composes.branch formed inner onward ((formed.owned other state).mpr member)

end Composes

def Activating (mayFail : Prop) (related : Machine → Machine → Prop) (calls : Calls) : Prop :=
  ∀ (machine : Machine) (state : StateId), machine.Orderly mayFail → machine.Coherent →
    machine.Ready state → (machine.state? state).isSome →
    Ends (activate calls state) machine (fun _ after => Activates related state machine after)
      (Aborted mayFail)

theorem settles_composes (respects : Respects mayFail related)
    (activating : Activating mayFail related calls) (chart : Machine) :
    Composes chart (Settles mayFail related calls chart) := by
  intro state region plan contained settles machine same orderly coherent idle
  have containedNow : machine.containerOf? state = some region := by
    rw [same.containerOf?]
    exact contained
  have ready : machine.Ready state := Or.inr ⟨region, containedNow, idle⟩
  have result := ends_enterOpening respects same orderly coherent ready
    (activating machine state orderly coherent ready
      (Machine.isSome_of_contained containedNow)) settles
  rw [containedNow] at result
  exact result

theorem ends_enterDefault (respects : Respects mayFail related)
    (activating : Activating mayFail related calls) {machine : Machine} {state : StateId}
    (orderly : machine.Orderly mayFail) (coherent : machine.Coherent)
    (ready : machine.Ready state) (present : (machine.state? state).isSome) :
    Ends (enterDefault calls state) machine
      (fun _ after => Settled related (machine.containerOf? state) machine after)
      (Aborted mayFail) := by
  have inactiveState : machine.isStateActive state = false := by
    rcases ready with ⟨isRoot, inactive⟩ | ⟨region, contained, idle⟩
    · rw [isRoot]
      exact inactive
    · exact idle.2 state contained
  have inactive (region : RegionId) (member : region ∈ machine.regionsOf state) :
      machine.isRegionActive region = false :=
    coherent.region_inactive ((orderly.owned region state).mpr member) inactiveState
  unfold enterDefault
  rw [ends_bind, ends_get]
  unfold Machine.defaultEntryPlan
  rw [Machine.inactiveRegions_eq inactive]
  exact ends_enterOpening respects (Machine.SameChart.refl machine) orderly coherent ready
    (activating machine state orderly coherent ready present)
    fun region member => (settles_composes respects activating machine).enterMarker
      orderly.toFormed ((orderly.owned region state).mpr member)

theorem ends_enterExplicit (respects : Respects mayFail related)
    (activating : Activating mayFail related calls) {machine : Machine} {region : RegionId}
    {target : StateId} (orderly : machine.Orderly mayFail) (coherent : machine.Coherent)
    (idle : machine.Idle region) (inside : machine.Inside region target) :
    Ends (enterExplicit calls target) machine
      (fun _ after => Settled related (some region) machine after) (Aborted mayFail) := by
  obtain ⟨chain, _, plan, path, inactive⟩ :=
    Machine.exists_path_of_inside orderly.toWired coherent idle inside
  unfold enterExplicit
  rw [ends_bind, ends_get, plan]
  exact (settles_composes respects activating machine).chain orderly.toFormed path inactive machine
    (Machine.SameChart.refl machine) orderly coherent idle

end Run
end Chart
