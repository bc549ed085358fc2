import Chart.Proofs.Run.Change

set_option autoImplicit false

/-!
Where a run leads. The endpoints of a transition and the marker of a region lie inside the region,
and so does every state of an entry plan, up to the first one: only that may stand outside all
regions.
-/

namespace Chart.Machine

/-- What a name means as seen from a region lies inside the region; by induction on the depth of
the search. -/
theorem inside_of_resolveThrough {machine : Machine} (wired : machine.Wired) {name : String}
    {depth : Nat} {region : RegionId} {state : StateId}
    (resolved : machine.resolveThrough Region.stateIndex name depth region = some state) :
    machine.Inside region state := by
  induction depth generalizing region with
  | zero => cases resolved
  | succ depth ih =>
      unfold resolveThrough at resolved
      split at resolved
      · rename_i child indexed
        obtain rfl := Option.some.inj resolved
        obtain ⟨members, stored, found⟩ := Option.bind_eq_some_iff.mp indexed
        have listed := ((wired.indexed region members name child stored).mp found).1
        refine .member ((wired.listed child region).mpr ?_)
        rw [statesOf, stored]
        exact listed
      · obtain ⟨nested, member, deeper⟩ := List.exists_of_findSome?_eq_some resolved
        obtain ⟨owner, listed, owned⟩ := List.mem_flatMap.mp member
        exact (ih deeper).of_within (Within.of_member ((wired.owned nested owner).mpr owned)
          ((wired.listed owner region).mpr listed))

private theorem inside_of_resolveState? {machine : Machine} (wired : machine.Wired) {name : String}
    {region : RegionId} {state : StateId}
    (resolved : machine.resolveState? region name = some state) : machine.Inside region state :=
  inside_of_resolveThrough wired resolved

section Endpoints

variable {machine : Machine} {region : RegionId} {members : Region} {found : Transition}
variable (stored : machine.region? region = some members)
include stored

theorem containerOf?_sourceOf (formed : machine.Formed) {source : StateId}
    (resolved : sourceOf members found = .ok source) :
    machine.containerOf? source = some region := by
  unfold sourceOf at resolved
  split at resolved
  · obtain rfl := Except.ok.inj resolved
    exact ((formed.initial region members members.initial stored).mpr rfl).1
  · rename_i name _
    split at resolved
    · rename_i child indexed
      obtain rfl := Except.ok.inj resolved
      refine (formed.listed child region).mpr ?_
      rw [statesOf, stored]
      exact ((formed.indexed region members name child stored).mp indexed).1
    · cases resolved

theorem inside_targetOf (formed : machine.Formed) {target : StateId}
    (resolved : targetOf machine region members found = .ok target) :
    machine.Inside region target := by
  unfold targetOf at resolved
  split at resolved
  · obtain rfl := Except.ok.inj resolved
    exact .member ((formed.final region members members.final stored).mpr rfl).1
  · split at resolved
    · rename_i state reached
      obtain rfl := Except.ok.inj resolved
      exact inside_of_resolveState? formed.toWired reached
    · cases resolved

theorem containerOf?_entryMarker (formed : machine.Formed) :
    machine.containerOf? members.entryMarker = some region := by
  unfold Region.entryMarker
  cases marker : members.history with
  | none => exact ((formed.initial region members members.initial stored).mpr rfl).1
  | some history => exact ((formed.history region members history stored).mpr marker).1

omit stored in
theorem endpoints_note (machine : Machine) (event : Event) (id : TransitionId) :
    (machine.note event).endpoints id = machine.endpoints id := by
  have same : SameChart machine (machine.note event) := SameChart.of_stores rfl rfl rfl
  unfold endpoints Machine.targetOf
  simp only [transition?_note, region?_note, same.kindOf?, same.resolveState?]

omit stored in
theorem endpoints_eq_ok {id : TransitionId} {ends : Endpoints}
    (resolved : machine.endpoints id = .ok ends) :
    ∃ found region members, machine.transition? id = some found ∧
      found.container = some region ∧ machine.region? region = some members ∧
      members.status.isActive = true ∧ Machine.sourceOf members found = .ok ends.source ∧
      Machine.targetOf machine region members found = .ok ends.target := by
  unfold endpoints at resolved
  split at resolved
  · cases resolved
  · rename_i found known
    split at resolved
    · cases resolved
    · rename_i region inRegion
      split at resolved
      · cases resolved
      · rename_i members stored
        by_cases active : members.status.isActive = true
        · rw [if_pos active] at resolved
          cases isSource : Machine.sourceOf members found with
          | error error => simp [isSource, bind, Except.bind] at resolved
          | ok source =>
              cases isTarget : Machine.targetOf machine region members found with
              | error error => simp [isSource, isTarget, bind, Except.bind] at resolved
              | ok target =>
                  refine ⟨found, region, members, known, inRegion, stored, active, ?_⟩
                  rw [isSource, isTarget] at resolved
                  by_cases final : machine.kindOf? source = some .final
                  · simp [final, bind, Except.bind, throw, throwThe, MonadExceptOf.throw]
                      at resolved
                  · by_cases initial : machine.kindOf? target = some .initial
                    · simp [final, initial, bind, Except.bind, throw, throwThe,
                        MonadExceptOf.throw] at resolved
                    · simp [final, initial, bind, Except.bind, pure, Except.pure] at resolved
                      rw [← resolved]
                      exact ⟨isSource, isTarget⟩
        · rw [if_neg active] at resolved
          cases resolved

omit stored in
theorem endpoints_spec (formed : machine.Formed) {id : TransitionId} {ends : Endpoints}
    (known : machine.transition? id = some found) (inRegion : found.container = some region)
    (resolved : machine.endpoints id = .ok ends) :
    machine.isRegionActive region = true ∧ machine.containerOf? ends.source = some region ∧
      machine.Inside region ends.target := by
  obtain ⟨found', region', members, known', inRegion', stored, active, isSource, isTarget⟩ :=
    endpoints_eq_ok resolved
  rw [known] at known'
  obtain rfl := Option.some.inj known'
  rw [inRegion] at inRegion'
  obtain rfl := Option.some.inj inRegion'
  exact ⟨isRegionActive_iff.mpr ⟨members, stored, active⟩,
    containerOf?_sourceOf stored formed isSource, inside_targetOf stored formed isTarget⟩

end Endpoints

/-! ### Transitions that lead deeper -/

theorem sourceOf_eq_of_fixed {one other : Region} (fixed : one.fixed = other.fixed)
    (transition : Transition) : sourceOf one transition = sourceOf other transition := by
  have initial : one.initial = other.initial := Region.read_eq fixed Region.initial fun _ => rfl
  have index : one.stateIndex = other.stateIndex :=
    Region.read_eq fixed Region.stateIndex fun _ => rfl
  have name : one.name = other.name := Region.read_eq fixed Region.name fun _ => rfl
  unfold sourceOf
  rw [initial, index, name]

theorem SameChart.targetOf {before after : Machine} (same : SameChart before after)
    {one other : Region} (fixed : one.fixed = other.fixed) (region : RegionId)
    (transition : Transition) :
    Machine.targetOf after region one transition = Machine.targetOf before region other
    transition := by
  have final : one.final = other.final := Region.read_eq fixed Region.final fun _ => rfl
  have name : one.name = other.name := Region.read_eq fixed Region.name fun _ => rfl
  unfold Machine.targetOf
  rw [final, name]
  simp only [same.resolveState?]

section Connects

variable {machine before after : Machine} {id : TransitionId} {ends : Endpoints}

theorem connects_of_endpoints (resolved : machine.endpoints id = .ok ends) :
    machine.Connects id ends := by
  obtain ⟨transition, region, members, known, inRegion, stored, _, isSource, isTarget⟩ :=
    endpoints_eq_ok resolved
  exact ⟨transition, region, members, known, inRegion, stored, isSource, isTarget⟩

theorem Connects.of_sameChart (connects : before.Connects id ends) (same : SameChart before after) :
    after.Connects id ends := by
  obtain ⟨transition, region, members, known, inRegion, stored, isSource, isTarget⟩ := connects
  obtain ⟨members', stored', fixed⟩ := same.region?_forward stored
  refine ⟨transition, region, members', same.kept id transition known, inRegion, stored', ?_, ?_⟩
  · rw [sourceOf_eq_of_fixed fixed]
    exact isSource
  · rw [same.targetOf fixed]
    exact isTarget

theorem Connects.target_contained (connects : machine.Connects id ends) (formed : machine.Formed) :
    (machine.containerOf? ends.target).isSome := by
  obtain ⟨transition, region, members, _, _, stored, _, isTarget⟩ := connects
  obtain ⟨nested, contained, _⟩ := inside_iff.mp (inside_targetOf stored formed isTarget)
  rw [contained]
  rfl

theorem Deepens.of_sameChart (deepens : before.Deepens id) (same : SameChart before after) :
    after.Deepens id := by
  obtain ⟨ends, connects, deeper⟩ := deepens
  refine ⟨ends, connects.of_sameChart same, ?_⟩
  rw [same.level, same.level]
  exact deeper

end Connects

/-! ### The states of an entry plan -/

def Placing (machine : Machine) (steps : List Step) : Prop :=
  ∀ state, .state state ∈ steps → (machine.containerOf? state).isSome

section Plans

variable {machine : Machine} (formed : machine.Formed)
include formed

private theorem placing_enterMarker (region : RegionId) :
    machine.Placing (machine.enterMarker region) := by
  intro state member
  unfold enterMarker entryMarker? at member
  cases stored : machine.region? region with
  | none => simp [stored] at member
  | some members =>
      obtain rfl : state = members.entryMarker := by simpa [stored] using member
      rw [containerOf?_entryMarker stored formed]
      rfl

/-- Past its first step, a chain is entered inside regions if its states lie there; by induction on
the chain. -/
theorem chainEntryPlan_cons {top : StateId} {chain : List StateId}
    (contained : ∀ state ∈ chain, (machine.containerOf? state).isSome) :
    ∃ steps, machine.chainEntryPlan (top :: chain) = .state top :: steps ∧
      machine.Placing steps := by
  induction chain generalizing top with
  | nil =>
      refine ⟨_, rfl, fun state member => ?_⟩
      rcases List.mem_append.mp member with opened | marked
      · obtain ⟨region, _, impossible⟩ := List.mem_map.mp opened
        cases impossible
      · obtain ⟨region, _, member⟩ := List.mem_flatMap.mp marked
        exact placing_enterMarker formed region state member
  | cons next rest ih =>
      obtain ⟨steps, plan, placing⟩ :=
        @ih next fun state member => contained state (List.mem_cons_of_mem _ member)
      refine ⟨_, rfl, fun state member => ?_⟩
      rcases List.mem_append.mp member with opened | branched
      · obtain ⟨region, _, impossible⟩ := List.mem_map.mp opened
        cases impossible
      · obtain ⟨region, _, member⟩ := List.mem_flatMap.mp branched
        split at member
        · rw [plan] at member
          rcases List.mem_cons.mp member with first | later
          · obtain rfl := Step.state.inj first
            exact contained state (List.mem_cons_self ..)
          · exact placing state later
        · exact placing_enterMarker formed region state member

theorem defaultEntryPlan_eq (state : StateId) :
    ∃ steps, machine.defaultEntryPlan state = .state state :: steps ∧ machine.Placing steps :=
  @chainEntryPlan_cons machine formed state [] (List.forall_mem_nil _)

omit formed in
/-- Behind its first state the chain runs through regions; by induction on the depth. -/
theorem exists_inactiveChain {depth : Nat} {state : StateId} {chain : List StateId}
    (contained : ∀ other ∈ chain, (machine.containerOf? other).isSome) :
    ∃ top rest, machine.inactiveChain depth state (state :: chain) = top :: rest ∧
      ∀ other ∈ rest, (machine.containerOf? other).isSome := by
  induction depth generalizing state chain with
  | zero => exact ⟨state, chain, rfl, contained⟩
  | succ depth ih =>
      unfold inactiveChain
      cases found : machine.parentOf? state with
      | none => exact ⟨state, chain, rfl, contained⟩
      | some parent =>
          dsimp only
          split
          · exact ⟨state, chain, rfl, contained⟩
          · obtain ⟨region, inRegion, _⟩ := parentOf?_eq_some.mp found
            refine ih fun other member => ?_
            rcases List.mem_cons.mp member with rfl | later
            · rw [inRegion]
              rfl
            · exact contained other later

omit formed in
/-- What holds of a state and of the chain around it holds of the whole chain, if it holds of the
parent of each state that it holds of. -/
theorem forall_mem_inactiveChain {holds : StateId → Prop}
    (climbs : ∀ state parent, machine.parentOf? state = some parent → holds state → holds parent)
    {depth : Nat} {state : StateId} {chain : List StateId} (here : holds state)
    (above : ∀ one ∈ chain, holds one) :
    ∀ other ∈ machine.inactiveChain depth state chain, holds other := by
  -- By induction on the depth.
  induction depth generalizing state chain with
  | zero => exact above
  | succ depth ih =>
      unfold inactiveChain
      split
      · exact above
      · rename_i parent isParent
        split
        · exact above
        · have holdsParent := climbs state parent isParent here
          exact ih holdsParent (List.forall_mem_cons.mpr ⟨holdsParent, above⟩)

omit formed in
private theorem not_mem_activateInactive (top state : StateId) :
    .state state ∉ machine.activateInactive top := by
  unfold activateInactive
  split
  · simp
  · split <;> simp

omit formed in
theorem mem_explicitEntryPlan {target state : StateId}
    (named : .state state ∈ machine.explicitEntryPlan target) :
    .state state ∈ machine.chainEntryPlan
      (machine.inactiveChain machine.nestingBound target [target]) := by
  refine (List.mem_append.mp named).resolve_left fun opens => ?_
  cases first : (machine.inactiveChain machine.nestingBound target [target]).head? with
  | none =>
      rw [first] at opens
      cases opens
  | some top =>
      rw [first] at opens
      exact not_mem_activateInactive top state opens

theorem explicitEntryPlan_cases (target : StateId) :
    machine.Placing (machine.explicitEntryPlan target) ∨
      ∃ top steps, machine.explicitEntryPlan target = .state top :: steps ∧
        machine.Placing steps := by
  obtain ⟨top, rest, chain, contained⟩ :=
    @exists_inactiveChain machine machine.nestingBound target [] (List.forall_mem_nil _)
  obtain ⟨steps, plan, placing⟩ := @chainEntryPlan_cons machine formed top rest contained
  cases free : machine.containerOf? top with
  | none =>
      right
      unfold explicitEntryPlan activateInactive
      simp only [chain, List.head?_cons, Option.map_some, Option.getD_some, plan, free]
      exact ⟨top, steps, rfl, placing⟩
  | some region =>
      left
      intro state member
      have inside := mem_explicitEntryPlan member
      rw [chain, plan] at inside
      rcases List.mem_cons.mp inside with first | later
      · obtain rfl := Step.state.inj first
        rw [free]
        rfl
      · exact placing state later

end Plans

end Chart.Machine
