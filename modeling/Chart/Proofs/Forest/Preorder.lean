import Chart.Proofs.Forest.Registration

set_option autoImplicit false

/-!
The order of resolution. Below a region come its own members, and then, child by child and region
by region, what is below the regions of its children. The walk is bounded by the number of regions,
which is never reached before everything below has been listed, and asking the indexes on the way is
searching this list.
-/

namespace Chart.Machine

section Preorder

variable {Item : Type}

/-- What the region itself has, then what the regions of its states have, in order and at most so
many regions deep. -/
def preorder (machine : Machine) (own : RegionId → List Item) : Nat → RegionId → List Item
  | 0, _ => []
  | steps + 1, region =>
      own region ++ (machine.regionsWithin region).flatMap (machine.preorder own steps)

/-- The states below a region, in the order in which their names are tried. -/
def statesBelow (machine : Machine) (region : RegionId) : List StateId :=
  machine.preorder machine.statesOf machine.nestingBound region

/-- The registered transitions below a region, in the order in which their names are tried. -/
def transitionsBelow (machine : Machine) (region : RegionId) : List TransitionId :=
  machine.preorder machine.transitionsOf machine.nestingBound region

/-! ### The bound -/

section Bound

variable {machine : Machine} {own : RegionId → List Item}

theorem Formed.level_owner_lt (formed : machine.Formed) {region : RegionId} {owner : StateId}
    (owned : machine.ownerOf? region = some owner) :
    machine.level owner < machine.nestingBound := by
  obtain ⟨members, found, _⟩ := ownerOf?_eq_some.mp owned
  have contained := ((formed.initial region members members.initial found).mpr rfl).1
  have step := formed.toWired.level_succ contained owned
  have bound := formed.toWired.level_le_nestingBound members.initial
  omega

theorem Wired.mem_regionsWithin (wired : machine.Wired) {region nested : RegionId} :
    nested ∈ machine.regionsWithin region ↔
      ∃ child, machine.containerOf? child = some region ∧ machine.ownerOf? nested = some child := by
  unfold regionsWithin
  rw [List.mem_flatMap]
  constructor
  · rintro ⟨child, member, listed⟩
    exact ⟨child, (wired.listed child region).mpr member, (wired.owned nested child).mpr listed⟩
  · rintro ⟨child, contained, owned⟩
    exact ⟨child, (wired.listed child region).mp contained, (wired.owned nested child).mp owned⟩

def StepsSuffice (machine : Machine) (steps : Nat) (region : RegionId) : Prop :=
  ∀ owner, machine.ownerOf? region = some owner →
    machine.nestingBound ≤ machine.level owner + steps

theorem stepsSuffice_nestingBound (machine : Machine) (region : RegionId) :
    machine.StepsSuffice machine.nestingBound region := by
  intro owner _
  omega

theorem Wired.stepsSuffice_within (wired : machine.Wired) {steps : Nat} {region nested : RegionId}
    (stepsSuffice : machine.StepsSuffice (steps + 1) region)
    (member : nested ∈ machine.regionsWithin region) :
    machine.StepsSuffice steps nested := by
  obtain ⟨child, contained, owned⟩ := wired.mem_regionsWithin.mp member
  obtain ⟨owner, ownedAround⟩ := wired.exists_owner contained
  intro child' owned'
  rw [owned] at owned'
  obtain rfl := Option.some.inj owned'
  have step := wired.level_succ contained ownedAround
  have enough := stepsSuffice owner ownedAround
  omega

private theorem Wired.preorder_of_unknown (wired : machine.Wired) {region : RegionId}
    (bare : machine.ownerOf? region = none → own region = [])
    (unknown : machine.ownerOf? region = none) (steps : Nat) :
    machine.preorder own steps region = [] := by
  cases steps with
  | zero => rfl
  | succ steps =>
      have childless : machine.regionsWithin region = [] := by
        apply List.eq_nil_iff_forall_not_mem.mpr
        intro nested member
        obtain ⟨child, contained, _⟩ := wired.mem_regionsWithin.mp member
        obtain ⟨owner, owned⟩ := wired.exists_owner contained
        rw [unknown] at owned
        cases owned
      rw [preorder, bare unknown, childless]
      rfl

private theorem Formed.preorder_stable (formed : machine.Formed)
    (bare : ∀ region, machine.ownerOf? region = none → own region = []) {region : RegionId}
    {steps more : Nat} (stepsSuffice : machine.StepsSuffice steps region)
    (ampleMore : machine.StepsSuffice more region) :
    machine.preorder own steps region = machine.preorder own more region := by
  -- By induction on the steps: as long as they are enough, their number does not matter.
  induction steps generalizing region more with
  | zero =>
      cases known : machine.ownerOf? region with
      | none =>
          rw [formed.toWired.preorder_of_unknown (bare region) known,
            formed.toWired.preorder_of_unknown (bare region) known]
      | some owner =>
          have within := formed.level_owner_lt known
          have enough := stepsSuffice owner known
          omega
  | succ steps ih =>
      cases more with
      | zero =>
          cases known : machine.ownerOf? region with
          | none =>
              rw [formed.toWired.preorder_of_unknown (bare region) known,
                formed.toWired.preorder_of_unknown (bare region) known]
          | some owner =>
              have within := formed.level_owner_lt known
              have enough := ampleMore owner known
              omega
      | succ more =>
          rw [preorder, preorder]
          congr 1
          apply List.flatMap_congr
          intro nested member
          exact ih (formed.toWired.stepsSuffice_within stepsSuffice member)
            (formed.toWired.stepsSuffice_within ampleMore member)

/-- The list below a region is made of its own items and the lists below the regions of its
children. -/
theorem Formed.preorder_eq (formed : machine.Formed)
    (bare : ∀ region, machine.ownerOf? region = none → own region = []) (region : RegionId) :
    machine.preorder own machine.nestingBound region =
      own region ++ (machine.statesOf region).flatMap fun child =>
        (machine.regionsOf child).flatMap (machine.preorder own machine.nestingBound) := by
  have wider : machine.StepsSuffice (machine.nestingBound + 1) region := by
    intro owner _
    omega
  rw [formed.preorder_stable bare (machine.stepsSuffice_nestingBound region) wider,
    preorder, regionsWithin,
    List.flatMap_assoc]

private theorem within_of_mem_preorder (wired : machine.Wired) {steps : Nat}
    {region : RegionId} {item : Item}
    (member : item ∈ machine.preorder own steps region) :
    ∃ nested, machine.Within region nested ∧ item ∈ own nested := by
  -- By induction on the steps.
  induction steps generalizing region with
  | zero => cases member
  | succ steps ih =>
      rcases List.mem_append.mp member with here | deeper
      · exact ⟨region, Within.refl machine region, here⟩
      · obtain ⟨inner, isWithin, below⟩ := List.mem_flatMap.mp deeper
        obtain ⟨child, contained, owned⟩ := wired.mem_regionsWithin.mp isWithin
        obtain ⟨nested, within, listed⟩ := ih below
        exact ⟨nested, (Within.of_member owned contained).trans within, listed⟩

private theorem Formed.preorder_of_inside (formed : machine.Formed)
    (bare : ∀ region, machine.ownerOf? region = none → own region = []) {region nested : RegionId}
    {owner : StateId} {item : Item} (inside : machine.Inside region owner)
    (owned : machine.ownerOf? nested = some owner)
    (member : item ∈ machine.preorder own machine.nestingBound nested) :
    item ∈ machine.preorder own machine.nestingBound region := by
  -- By induction on the way from the state up to the region: what is below a region of a state
  -- that is below is below as well.
  have lift {outer inner : RegionId} {child : StateId}
      (contained : machine.containerOf? child = some outer)
      (isOwner : machine.ownerOf? inner = some child)
      (below : item ∈ machine.preorder own machine.nestingBound inner) :
      item ∈ machine.preorder own machine.nestingBound outer := by
    rw [formed.preorder_eq bare outer]
    apply List.mem_append_right
    apply List.mem_flatMap.mpr
    refine ⟨child, (formed.listed child outer).mp contained, ?_⟩
    exact List.mem_flatMap.mpr ⟨inner, (formed.owned inner child).mp isOwner, below⟩
  induction inside generalizing nested with
  | member contained => exact lift contained owned member
  | deeper contained ownedAround _ ih => exact ih ownedAround (lift contained owned member)

private theorem Formed.mem_preorder (formed : machine.Formed)
    (bare : ∀ region, machine.ownerOf? region = none → own region = []) {region : RegionId}
    {item : Item} :
    item ∈ machine.preorder own machine.nestingBound region ↔
      ∃ nested, machine.Within region nested ∧ item ∈ own nested := by
  constructor
  · exact within_of_mem_preorder formed.toWired
  · rintro ⟨nested, within, listed⟩
    have here : item ∈ machine.preorder own machine.nestingBound nested := by
      rw [formed.preorder_eq bare nested]
      exact List.mem_append_left _ listed
    rcases within with rfl | ⟨owner, owned, inside⟩
    · exact here
    · exact formed.preorder_of_inside bare inside owned here

end Bound

/-! ### Searching -/

private theorem find?_of_indexed {items : List Item} {index : Dictionary Item} {key : Item → String}
    {name : String}
    (indexed : ∀ item, Dictionary.find? index name = some item ↔ item ∈ items ∧ key item = name) :
    Dictionary.find? index name = items.find? fun item => key item = name := by
  cases first : items.find? fun item => key item = name with
  | some item =>
      have named : key item = name := by simpa using List.find?_some first
      exact (indexed item).mpr ⟨List.mem_of_find?_eq_some first, named⟩
  | none =>
      cases known : Dictionary.find? index name with
      | none => rfl
      | some item =>
          obtain ⟨listed, named⟩ := (indexed item).mp known
          have other := List.find?_eq_none.mp first item listed
          exact absurd named (by simpa using other)

/-- Asking the indexes one after the other is searching the list; by induction on the steps. -/
theorem resolveThrough_eq_find? {machine : Machine} {own : RegionId → List Item}
    {index : Region → Dictionary Item} {key : Item → String} {name : String}
    (asked : ∀ region, ((machine.region? region).bind fun members =>
      Dictionary.find? (index members) name) = (own region).find? fun item => key item = name)
    (steps : Nat) (region : RegionId) :
    machine.resolveThrough index name steps region =
      (machine.preorder own steps region).find? fun item => key item = name := by
  induction steps generalizing region with
  | zero => rfl
  | succ steps ih =>
      have below : machine.resolveThrough index name steps = fun nested =>
          (machine.preorder own steps nested).find? fun item => key item = name := funext ih
      rw [resolveThrough, preorder, List.find?_append, List.find?_flatMap, asked, below]
      cases (own region).find? fun item => key item = name <;> rfl

end Preorder

section Resolved

variable {machine : Machine}

theorem statesOf_of_unknown {region : RegionId} (unknown : machine.ownerOf? region = none) :
    machine.statesOf region = [] := by
  have absent : machine.region? region = none := Option.map_eq_none_iff.mp unknown
  rw [statesOf, absent]
  rfl

theorem transitionsOf_of_unknown {region : RegionId} (unknown : machine.ownerOf? region = none) :
    machine.transitionsOf region = [] := by
  have absent : machine.region? region = none := Option.map_eq_none_iff.mp unknown
  rw [transitionsOf, absent]
  rfl

theorem Formed.mem_statesBelow (formed : machine.Formed) {region : RegionId} {state : StateId} :
    state ∈ machine.statesBelow region ↔ machine.Inside region state := by
  unfold statesBelow
  rw [formed.mem_preorder fun _ => statesOf_of_unknown, inside_iff]
  simp only [← formed.listed, and_comm]

theorem Formed.mem_transitionsBelow (formed : machine.Formed) {region : RegionId}
    {id : TransitionId} :
    id ∈ machine.transitionsBelow region ↔
      ∃ nested, machine.Within region nested ∧ id ∈ machine.transitionsOf nested :=
  formed.mem_preorder fun _ => transitionsOf_of_unknown

theorem Wired.resolveState?_eq_find? (wired : machine.Wired) (region : RegionId) (name : String) :
    machine.resolveState? region name =
      (machine.statesBelow region).find? fun state => machine.stateName state = name := by
  apply resolveThrough_eq_find?
  intro other
  unfold statesOf
  cases found : machine.region? other with
  | none => rfl
  | some members =>
      exact find?_of_indexed fun state => wired.indexed other members name state found

theorem Registry.resolveTransition?_eq_find? (registry : machine.Registry) (region : RegionId)
    (name : String) :
    machine.resolveTransition? region name =
      (machine.transitionsBelow region).find? fun id => machine.transitionName id = name := by
  apply resolveThrough_eq_find?
  intro other
  have named := registry.named other name
  unfold transitionsOf
  unfold rosterOf at named
  cases found : machine.region? other with
  | none => rfl
  | some members =>
      rw [found] at named
      exact find?_of_indexed named

end Resolved

end Chart.Machine
