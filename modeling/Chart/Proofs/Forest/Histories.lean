import Chart.Proofs.Forest.Building

set_option autoImplicit false

/-!
Histories of regions, and the check that a region is not added below itself. A region gets at most
one history; asking for one again changes its depth. Both keep the forest formed.
-/

namespace Chart.Machine

/-! ### Standing around a region -/

private theorem enclosesFrom_iff {machine : Machine} (wired : machine.Wired) {state : StateId}
    {depth : Nat} {current : StateId} (bound : machine.level current ≤ depth) :
    machine.enclosesFrom state depth current = true ↔ machine.Below state current := by
  induction depth generalizing current with
  | zero =>
      rw [enclosesFrom, beq_iff_eq, below_iff_parent]
      constructor
      · exact Or.inl
      · rintro (same | ⟨parent, isParent, _⟩)
        · exact same
        · obtain ⟨region, contained, owned⟩ := parentOf?_eq_some.mp isParent
          have step := wired.level_succ contained owned
          omega
  | succ depth ih =>
      rw [enclosesFrom, Bool.or_eq_true, beq_iff_eq, Option.any_eq_true, below_iff_parent]
      refine or_congr Iff.rfl ⟨?_, ?_⟩
      · rintro ⟨parent, isParent, encloses⟩
        obtain ⟨region, contained, owned⟩ := parentOf?_eq_some.mp isParent
        have step := wired.level_succ contained owned
        exact ⟨parent, isParent, (ih (by omega)).mp encloses⟩
      · rintro ⟨parent, isParent, below⟩
        obtain ⟨region, contained, owned⟩ := parentOf?_eq_some.mp isParent
        have step := wired.level_succ contained owned
        exact ⟨parent, isParent, (ih (by omega)).mpr below⟩

private theorem encloses_iff {machine : Machine} (wired : machine.Wired) {state : StateId}
    {region : RegionId} {members : Region} (found : machine.region? region = some members) :
    machine.encloses state region = true ↔ machine.Below state members.owner := by
  rw [encloses, found, Option.any_some]
  exact enclosesFrom_iff wired (wired.level_le_nestingBound members.owner)

/-- A state of a chart that stands outside all regions and is not the root may be placed in a
region that it is not around, under a name that is new there. -/
theorem Formed.attach {machine : Machine} (formed : machine.Formed) {region : RegionId}
    {state : StateId} {members : Region} {node : StateNode}
    (foundRegion : machine.region? region = some members)
    (foundState : machine.state? state = some node) (notRoot : node.kind ≠ .root)
    (detached : node.container = none) (open' : machine.encloses state region = false)
    (fresh : Dictionary.find? members.stateIndex node.name = none) :
    (machine.attach region state).Formed ∧ Grown machine (machine.attach region state) ∧
      Placed region state machine (machine.attach region state) := by
  have free : machine.containerOf? state = none := by
    rw [containerOf?, foundState]
    exact detached
  have around : ¬machine.Below state members.owner := by
    rw [← encloses_iff formed.toWired foundRegion, open']
    simp
  have placed := placed_attach formed.toWired (ownerOf?_eq_some.mpr ⟨members, foundRegion, rfl⟩)
    (by rw [foundState]; rfl) free around
  have named : machine.stateName state = node.name := by
    rw [stateName, foundState]
    rfl
  have different : state ≠ root := by
    rintro rfl
    obtain ⟨rootNode, found, kind⟩ := kindOf?_eq_some.mp formed.rootKind
    rw [foundState] at found
    obtain rfl := Option.some.inj found
    exact notRoot kind
  exact ⟨{ toWired := formed.toWired.of_placed placed foundRegion free different
             (by rw [named]; exact fresh)
           toMarked := formed.toMarked.of_placed placed (formed.contained state free) },
    placed.grown free, placed⟩

/-! ### A region's own history -/

def remembering (machine : Machine) (region : RegionId) (history : StateId) : Machine :=
  machine.modifyRegion region fun entry => { entry with history := some history }

def redeepened (machine : Machine) (history : StateId) (depth : HistoryDepth) : Machine :=
  machine.modifyState history fun node => { node with kind := .history depth }

section Histories

variable {machine : Machine} {region : RegionId} {history : StateId} {depth : HistoryDepth}

theorem region?_remembering (other : RegionId) :
    (machine.remembering region history).region? other =
      if other = region then
        (machine.region? other).map fun entry => { entry with history := some history }
      else machine.region? other := by
  rw [remembering, region?_modifyRegion]
  by_cases here : region = other
  · rw [if_pos here, if_pos here.symm]
  · rw [if_neg here, if_neg fun equal => here equal.symm]

theorem readRegion_remembering {Reading : Type} (read : Region → Reading)
    (blind : ∀ members marker, read { members with history := marker } = read members)
    (other : RegionId) :
    ((machine.remembering region history).region? other).map read =
      (machine.region? other).map read := by
  rw [region?_remembering]
  split
  · cases machine.region? other with
    | none => rfl
    | some members => exact congrArg some (blind members _)
  · rfl

private theorem Wired.remembering (wired : machine.Wired) :
    (machine.remembering region history).Wired := by
  set after := machine.remembering region history
  have owners (other : RegionId) : after.ownerOf? other = machine.ownerOf? other :=
    readRegion_remembering Region.owner (fun _ _ => rfl) other
  have members (other : RegionId) : after.statesOf other = machine.statesOf other :=
    congrArg (Option.getD · []) (readRegion_remembering Region.states (fun _ _ => rfl) other)
  have listed (other : RegionId) : after.transitionsOf other = machine.transitionsOf other :=
    congrArg (Option.getD · []) (readRegion_remembering Region.transitions (fun _ _ => rfl) other)
  refine
    { rootKind := wired.rootKind, rootOnly := wired.rootOnly, rootFree := wired.rootFree
      listed := ?_, listedOnce := ?_, owned := ?_, ownedOnce := wired.ownedOnce
      leveled := wired.leveled_of_same (fun _ => rfl) (parentOf?_congr (fun _ => rfl) owners)
      owners := wired.owners, indexed := ?_, registered := ?_, decided := wired.decided }
  · intro state other
    rw [members]
    exact wired.listed state other
  · intro other
    rw [members]
    exact wired.listedOnce other
  · intro other state
    rw [owners]
    exact wired.owned other state
  · intro other current key state stored
    have same := @readRegion_remembering machine region history _
      (fun entry => (entry.stateIndex, entry.states)) (fun _ _ => rfl) other
    rw [show (machine.remembering region history).region? other = some current from
      stored] at same
    obtain ⟨current', stored', equal⟩ := Option.map_eq_some_iff.mp same.symm
    obtain ⟨sameIndex, sameStates⟩ := Prod.mk.inj equal
    rw [← sameIndex, ← sameStates]
    exact wired.indexed other current' key state stored'
  · intro other transition isListed
    rw [listed] at isListed
    exact wired.registered other transition isListed

private theorem Grown.remembering {members : Region} (found : machine.region? region = some members)
    (free : members.history = none) : Grown machine (machine.remembering region history) := by
  refine
    { Grown.refl machine with
      regions := ?_, newRegions := ?_, registrations := fun _ _ _ present _ => Or.inl present }
  · intro other current stored
    rw [region?_remembering, stored]
    split
    · rename_i here
      rw [here, found] at stored
      obtain rfl := Option.some.inj stored
      refine ⟨_, rfl, rfl, fun state marked => ?_, fun _ listed => listed⟩
      rw [free] at marked
      cases marked
    · exact ⟨current, rfl, Region.Grown.refl current⟩
  · intro other current absent stored
    rw [region?_remembering, absent] at stored
    split at stored <;> cases stored

theorem state?_redeepened (other : StateId) :
    (machine.redeepened history depth).state? other =
      if other = history then
        (machine.state? other).map fun node => { node with kind := .history depth }
      else machine.state? other := by
  rw [redeepened, state?_modifyState]
  by_cases here : history = other
  · rw [if_pos here, if_pos here.symm]
  · rw [if_neg here, if_neg fun equal => here equal.symm]

private theorem readState_redeepened {Reading : Type} (read : StateNode → Reading)
    (blind : ∀ node kind, read { node with kind := kind } = read node) (other : StateId) :
    ((machine.redeepened history depth).state? other).map read =
      (machine.state? other).map read := by
  rw [state?_redeepened]
  split
  · cases machine.state? other with
    | none => rfl
    | some node => exact congrArg some (blind node _)
  · rfl

theorem kindOf?_redeepened {old : HistoryDepth}
    (isHistory : machine.kindOf? history = some (.history old)) (other : StateId) :
    (machine.redeepened history depth).kindOf? other =
      if other = history then some (.history depth) else machine.kindOf? other := by
  unfold kindOf?
  rw [state?_redeepened]
  split
  · rename_i here
    obtain ⟨node, found, _⟩ := kindOf?_eq_some.mp isHistory
    rw [here, found]
    rfl
  · rfl

private theorem kindOf?_redeepened_iff {old : HistoryDepth} {kind : StateKind}
    (isHistory : machine.kindOf? history = some (.history old))
    (notHistory : ∀ depth, kind ≠ .history depth) (other : StateId) :
    (machine.redeepened history depth).kindOf? other = some kind ↔
      machine.kindOf? other = some kind := by
  rw [kindOf?_redeepened isHistory]
  split
  · rename_i here
    rw [here, isHistory]
    constructor
    · intro equal
      exact absurd (Option.some.inj equal).symm (notHistory depth)
    · intro equal
      exact absurd (Option.some.inj equal).symm (notHistory old)
  · exact Iff.rfl

theorem containerOf?_redeepened (state : StateId) :
    (machine.redeepened history depth).containerOf? state = machine.containerOf? state := by
  have equal := @readState_redeepened machine history depth _
    StateNode.container (fun _ _ => rfl) state
  have joined (found : Option StateNode) :
      found.bind StateNode.container = (found.map StateNode.container).join := by
    cases found <;> rfl
  unfold containerOf?
  rw [joined, joined]
  exact congrArg Option.join equal

theorem Formed.redeepened {old : HistoryDepth} (formed : machine.Formed)
    (isHistory : machine.kindOf? history = some (.history old)) :
    (machine.redeepened history depth).Formed := by
  set after := machine.redeepened history depth
  have containers (state : StateId) : after.containerOf? state = machine.containerOf? state :=
    containerOf?_redeepened state
  have regions (state : StateId) : after.regionsOf state = machine.regionsOf state :=
    congrArg (Option.getD · []) (readState_redeepened StateNode.regions (fun _ _ => rfl) state)
  have names (state : StateId) : after.stateName state = machine.stateName state :=
    congrArg (Option.getD · "") (readState_redeepened StateNode.name (fun _ _ => rfl) state)
  have levels (state : StateId) : after.level state = machine.level state :=
    congrArg (Option.getD · 0) (readState_redeepened StateNode.level (fun _ _ => rfl) state)
  have kinds {kind : StateKind} (notHistory : ∀ depth, kind ≠ .history depth) (state : StateId) :
      after.kindOf? state = some kind ↔ machine.kindOf? state = some kind :=
    kindOf?_redeepened_iff isHistory notHistory state
  have histories (state : StateId) : (∃ depth, after.kindOf? state = some (.history depth)) ↔
      ∃ depth, machine.kindOf? state = some (.history depth) := by
    rw [kindOf?_redeepened isHistory]
    split
    · rename_i here
      rw [here]
      exact ⟨fun _ => ⟨old, isHistory⟩, fun _ => ⟨depth, rfl⟩⟩
    · exact Iff.rfl
  refine
    { rootKind := (kinds (by simp) root).mpr formed.rootKind
      rootOnly := fun state isRoot => formed.rootOnly state ((kinds (by simp) state).mp isRoot)
      rootFree := by rw [containers]; exact formed.rootFree
      listed := ?_, listedOnce := formed.listedOnce, owned := ?_, ownedOnce := ?_
      leveled := formed.leveled_of_same levels (parentOf?_congr containers fun _ => rfl)
      owners := ?_, indexed := ?_, registered := formed.registered, decided := ?_
      initial := ?_, final := ?_, history := ?_, contained := ?_ }
  · intro state other
    rw [containers]
    exact formed.listed state other
  · intro other state
    rw [regions]
    exact formed.owned other state
  · intro state
    rw [regions]
    exact formed.ownedOnce state
  · intro state owning
    rw [regions] at owning
    exact (formed.owners state owning).imp (kinds (by simp) state).mpr (kinds (by simp) state).mpr
  · intro other members key state stored
    rw [names]
    exact formed.indexed other members key state stored
  · intro state node found choice
    have same := @readState_redeepened machine history depth _
      StateNode.decision (fun _ _ => rfl) state
    have isChoice := (kinds (by simp) state).mp (kindOf?_eq_some.mpr ⟨node, found, choice⟩)
    obtain ⟨node', found', kind⟩ := kindOf?_eq_some.mp isChoice
    rw [show (machine.redeepened history depth).state? state = some node from found,
      found'] at same
    rw [Option.some.inj same]
    exact formed.decided state node' found' kind
  · intro other members state stored
    rw [containers, kinds (by simp)]
    exact formed.initial other members state stored
  · intro other members state stored
    rw [containers, kinds (by simp)]
    exact formed.final other members state stored
  · intro other members state stored
    rw [containers, histories]
    exact formed.history other members state stored
  · intro state free
    rw [containers] at free
    obtain ⟨notInitial, notFinal, notHistory⟩ := formed.contained state free
    refine ⟨fun equal => notInitial ((kinds (by simp) state).mp equal), fun equal =>
      notFinal ((kinds (by simp) state).mp equal), fun depth equal => ?_⟩
    obtain ⟨depth', equal'⟩ := (histories state).mp ⟨depth, equal⟩
    exact notHistory depth' equal'

theorem Grown.redeepened {old : HistoryDepth}
    (isHistory : machine.kindOf? history = some (.history old)) :
    Grown machine (machine.redeepened history depth) := by
  refine { Grown.refl machine with states := ?_, newStates := ?_ }
  · intro state node found
    rw [state?_redeepened, found]
    split
    · rename_i here
      obtain ⟨node', found', kind⟩ := kindOf?_eq_some.mp isHistory
      rw [← here, found] at found'
      obtain rfl := Option.some.inj found'
      exact ⟨_, rfl, rfl, Or.inr ⟨old, depth, kind, rfl⟩, fun _ contained => contained,
        fun _ known => known⟩
    · exact ⟨node, rfl, StateNode.Grown.refl node⟩
  · intro state node absent found
    rw [state?_redeepened, absent] at found
    split at found <;> cases found

end Histories

/-- The machine in which a region without history has received one. -/
def installed (machine : Machine) (region : RegionId) (name : String) (depth : HistoryDepth) :
    Machine :=
  let stored := machine.pushState (.bare name (.history depth))
  (stored.2.attach region stored.1).remembering region stored.1

section Installed

variable {machine pushed : Machine} {region : RegionId} {members : Region} {name : String}
variable {history : StateId} {depth : HistoryDepth}

private theorem state?_stored
    (stored : machine.pushState (.bare name (.history depth)) = (history, pushed))
    (state : StateId) : pushed.state? state =
      if state = history then some (.bare name (.history depth)) else machine.state? state := by
  have lookUp := state?_pushState machine (.bare name (.history depth)) state
  rw [stored] at lookUp
  exact lookUp

private theorem absent_stored
    (stored : machine.pushState (.bare name (.history depth)) = (history, pushed)) :
    machine.state? history = none := by
  have absent := state?_next machine (.bare name (.history depth))
  rw [stored] at absent
  exact absent

private theorem region?_stored
    (stored : machine.pushState (.bare name (.history depth)) = (history, pushed))
    (other : RegionId) : pushed.region? other = machine.region? other := by
  rw [show pushed = (machine.pushState (.bare name (.history depth))).2 by rw [stored]]
  rfl

private theorem placed_stored (formed : machine.Formed)
    (stored : machine.pushState (.bare name (.history depth)) = (history, pushed))
    (found : machine.region? region = some members)
    (fresh : Dictionary.find? members.stateIndex name = none) :
    Grown machine pushed ∧ (pushed.attach region history).Wired ∧
      Placed region history pushed (pushed.attach region history) := by
  have wired : pushed.Wired ∧ Grown machine pushed := by
    have both (node : StateNode) (same : node = .bare name (.history depth)) :
        (machine.pushState node).2.Wired ∧ Grown machine (machine.pushState node).2 := by
      subst same
      exact ⟨formed.toWired.pushState rfl rfl rfl (by simp [StateNode.bare])
        (by simp [StateNode.bare]), Grown.pushState machine rfl rfl rfl rfl⟩
    have result := both _ rfl
    rw [stored] at result
    exact result
  have absent := absent_stored stored
  have present : pushed.state? history = some (.bare name (.history depth)) := by
    rw [state?_stored stored, if_pos rfl]
  have notRoot : history ≠ root := (ne_of_absent formed.rootKind absent).symm
  have notOwner : members.owner ≠ history := by
    intro same
    have owned := (formed.owned region history).mp (ownerOf?_eq_some.mpr ⟨members, found, same⟩)
    rw [regionsOf, absent] at owned
    cases owned
  have placed := wired.1.attach_bare (by rw [region?_stored stored]; exact found)
    (by rw [present]; rfl) (by rw [containerOf?, present]; rfl)
    (by rw [regionsOf, present]; rfl) notRoot notOwner (by rw [stateName, present]; exact fresh)
  exact ⟨wired.2, placed⟩

private theorem read_installed {attached : Machine}
    (stored : machine.pushState (.bare name (.history depth)) = (history, pushed))
    (placed : Placed region history pushed attached) :
    (∀ state, (attached.remembering region history).containerOf? state =
      if state = history then some region else machine.containerOf? state) ∧
    (∀ state, (attached.remembering region history).kindOf? state =
      if state = history then some (.history depth) else machine.kindOf? state) ∧
    ∀ other current, (attached.remembering region history).region? other = some current →
      ∃ current', machine.region? other = some current' ∧ current'.initial = current.initial ∧
        current'.final = current.final ∧
        current.history = if other = region then some history else current'.history := by
  refine ⟨fun state => ?_, fun state => ?_, fun other current found => ?_⟩
  · have same := placed.containers state
    by_cases here : state = history
    · rw [if_pos here] at same ⊢
      exact same
    · rw [if_neg here] at same ⊢
      have before : pushed.containerOf? state = machine.containerOf? state := by
        unfold containerOf?
        rw [state?_stored stored, if_neg here]
      exact same.trans before
  · have same := placed.kindOf? state
    have before : pushed.kindOf? state =
        if state = history then some (.history depth) else machine.kindOf? state := by
      unfold kindOf?
      rw [state?_stored stored]
      split <;> rfl
    exact same.trans before
  · have same := (@readRegion_remembering attached region history _
      (fun entry => (entry.initial, entry.final)) (fun _ _ => rfl) other).trans
      (placed.readRegion (fun entry => (entry.initial, entry.final)) (fun _ _ => rfl) other)
    rw [found, region?_stored stored] at same
    obtain ⟨current', found', equal⟩ := Option.map_eq_some_iff.mp same.symm
    obtain ⟨sameInitial, sameFinal⟩ := Prod.mk.inj equal
    refine ⟨current', found', sameInitial, sameFinal, ?_⟩
    have marker := placed.readRegion Region.history (fun _ _ => rfl) other
    rw [region?_stored stored, found'] at marker
    obtain ⟨middle, foundMiddle, sameMarker⟩ := Option.map_eq_some_iff.mp marker
    rw [region?_remembering, foundMiddle] at found
    split at found
    · rename_i here
      rw [if_pos here, ← Option.some.inj found]
    · rename_i elsewhere
      rw [if_neg elsewhere, ← sameMarker, Option.some.inj found]

private theorem formed_stored (formed : machine.Formed) {attached : Machine}
    (stored : machine.pushState (.bare name (.history depth)) = (history, pushed))
    (found : machine.region? region = some members) (free : members.history = none)
    (attachedWired : attached.Wired) (placed : Placed region history pushed attached) :
    (attached.remembering region history).Formed := by
  obtain ⟨containers, kinds, earlier⟩ := read_installed stored placed
  have absent := absent_stored stored
  have notHistory {state : StateId} {nested : RegionId}
      (contained : machine.containerOf? state = some nested) : state ≠ history := by
    rintro rfl
    obtain ⟨node, known, _⟩ := containerOf?_eq_some.mp contained
    rw [absent] at known
    cases known
  have sameMarker {state : StateId} {other : RegionId} {kind : StateKind}
      (notKind : kind ≠ .history depth) :
      (attached.remembering region history).containerOf? state = some other ∧
          (attached.remembering region history).kindOf? state = some kind ↔
        machine.containerOf? state = some other ∧ machine.kindOf? state = some kind := by
    rw [containers, kinds]
    by_cases here : state = history
    · rw [if_pos here, if_pos here]
      constructor
      · rintro ⟨_, equal⟩
        exact absurd (Option.some.inj equal).symm notKind
      · rintro ⟨contained, _⟩
        exact absurd here (notHistory contained)
    · rw [if_neg here, if_neg here]
  refine { toWired := attachedWired.remembering, initial := ?_, final := ?_, history := ?_,
           contained := ?_ }
  · intro other current state known
    obtain ⟨current', known', initial, _, _⟩ := earlier other current known
    rw [sameMarker (by simp), ← initial]
    exact formed.initial other current' state known'
  · intro other current state known
    obtain ⟨current', known', _, final, _⟩ := earlier other current known
    rw [sameMarker (by simp), ← final]
    exact formed.final other current' state known'
  · intro other current state known
    obtain ⟨current', known', _, _, marker⟩ := earlier other current known
    have before := formed.history other current' state known'
    rw [containers, kinds, marker]
    by_cases here : state = history
    · subst here
      rw [if_pos rfl, if_pos rfl]
      by_cases same : other = region
      · rw [same, if_pos rfl]
        exact ⟨fun _ => rfl, fun _ => ⟨rfl, depth, rfl⟩⟩
      · rw [if_neg same]
        constructor
        · rintro ⟨equal, _⟩
          exact absurd (Option.some.inj equal).symm same
        · intro isMarker
          exact absurd rfl (notHistory (before.mpr isMarker).1)
    · rw [if_neg here, if_neg here, before]
      by_cases same : other = region
      · rw [same, found] at known'
        obtain rfl := Option.some.inj known'
        rw [free, if_pos same]
        constructor
        · intro impossible
          cases impossible
        · intro equal
          exact absurd (Option.some.inj equal).symm here
      · rw [if_neg same]
  · intro state free'
    rw [containers] at free'
    split at free'
    · cases free'
    · rename_i here
      rw [kinds, if_neg here]
      exact formed.contained state free'

theorem Formed.installed (formed : machine.Formed) (depth : HistoryDepth)
    (found : machine.region? region = some members)
    (fresh : Dictionary.find? members.stateIndex name = none) (free : members.history = none) :
    (machine.installed region name depth).Formed ∧
      Grown machine (machine.installed region name depth) := by
  unfold Machine.installed
  cases stored : machine.pushState (.bare name (.history depth)) with
  | mk history pushed =>
      dsimp only
      obtain ⟨pushes, wired, placed⟩ := placed_stored formed stored found fresh
      refine ⟨formed_stored formed stored found free wired placed, ?_⟩
      have detached : pushed.containerOf? history = none := by
        rw [containerOf?, state?_stored stored, if_pos rfl]
        rfl
      have attachedRegion : (pushed.attach region history).region? region =
          some (members.listing (pushed.stateName history) history) := by
        rw [placed.regions, if_pos rfl, region?_stored stored, found]
        rfl
      exact (pushes.trans (placed.grown detached)).trans
        (Grown.remembering attachedRegion (by simpa [Region.listing] using free))

theorem Formed.installed_history (formed : machine.Formed) (depth : HistoryDepth)
    (found : machine.region? region = some members)
    (fresh : Dictionary.find? members.stateIndex name = none) :
    ∃ history, (machine.installed region name depth).historyOf? region = some history ∧
      (machine.installed region name depth).kindOf? history = some (.history depth) ∧
      (∀ state, (machine.installed region name depth).containerOf? state =
        if state = history then some region else machine.containerOf? state) ∧
      ∀ other, (machine.installed region name depth).ownerOf? other = machine.ownerOf? other := by
  unfold Machine.installed
  cases stored : machine.pushState (.bare name (.history depth)) with
  | mk history pushed =>
      dsimp only
      obtain ⟨_, _, placed⟩ := placed_stored formed stored found fresh
      obtain ⟨containers, kinds, _⟩ := read_installed stored placed
      refine ⟨history, ?_, ?_, containers, fun other => ?_⟩
      · unfold historyOf?
        rw [region?_remembering, if_pos rfl, placed.regions, if_pos rfl,
          region?_stored stored, found]
        rfl
      · rw [kinds, if_pos rfl]
      · unfold ownerOf?
        rw [readRegion_remembering Region.owner fun _ _ => rfl,
          placed.readRegion Region.owner fun _ _ => rfl, region?_stored stored]

end Installed

/-! ### The machine without anything -/

private def bareMachine (name : String) (names : NameSource) : Machine :=
  { states := #[.bare name .root]
    regions := #[]
    transitions := #[]
    frames := .empty
    names
    log := #[]
    journal := #[] }

private theorem state?_bareMachine {name : String} {names : NameSource} {state : StateId}
    {node : StateNode} (found : (bareMachine name names).state? state = some node) :
    state = root ∧ node = .bare name .root := by
  obtain ⟨bounded, at_⟩ := Array.getElem?_eq_some_iff.mp found
  have zero : state.index = 0 := by
    have small : state.index < 1 := bounded
    omega
  obtain ⟨index⟩ := state
  subst zero
  exact ⟨rfl, at_.symm⟩

private theorem formed_bareMachine (name : String) (names : NameSource) :
    (bareMachine name names).Formed := by
  have noRegion (region : RegionId) : (bareMachine name names).region? region = none := rfl
  have noContainer (state : StateId) : (bareMachine name names).containerOf? state = none := by
    unfold containerOf?
    cases found : (bareMachine name names).state? state with
    | none => rfl
    | some node =>
        rw [(state?_bareMachine found).2]
        rfl
  have noRegions (state : StateId) : (bareMachine name names).regionsOf state = [] := by
    unfold regionsOf
    cases found : (bareMachine name names).state? state with
    | none => rfl
    | some node =>
        rw [(state?_bareMachine found).2]
        rfl
  have onlyRoot {state : StateId} {kind : StateKind}
      (isKind : (bareMachine name names).kindOf? state = some kind) :
      state = root ∧ kind = .root := by
    obtain ⟨node, found, same⟩ := kindOf?_eq_some.mp isKind
    obtain ⟨isRoot, isBare⟩ := state?_bareMachine found
    rw [isBare] at same
    exact ⟨isRoot, same.symm⟩
  refine
    { rootKind := rfl, rootOnly := fun state isRoot => (onlyRoot isRoot).1
      rootFree := noContainer root, listed := ?_, listedOnce := ?_, owned := ?_, ownedOnce := ?_
      leveled := ?_, owners := ?_, indexed := ?_, registered := ?_, decided := ?_
      initial := ?_, final := ?_, history := ?_, contained := ?_ }
  · intro state region
    rw [noContainer, statesOf, noRegion]
    simp
  · intro region
    rw [statesOf, noRegion]
    exact List.nodup_nil
  · intro region state
    rw [noRegions, ownerOf?, noRegion]
    simp
  · intro state
    rw [noRegions]
    exact List.nodup_nil
  · intro state
    rw [levelFromParent, parentOf?_eq, noContainer]
    unfold level
    cases found : (bareMachine name names).state? state with
    | none => rfl
    | some node =>
        rw [(state?_bareMachine found).2]
        rfl
  · intro state owning
    exact absurd (noRegions state) owning
  · intro region members key state found
    rw [noRegion] at found
    cases found
  · intro region transition listed
    rw [transitionsOf, noRegion] at listed
    cases listed
  · intro state node found choice
    rw [(state?_bareMachine found).2] at choice
    cases choice
  · intro region members state found
    rw [noRegion] at found
    cases found
  · intro region members state found
    rw [noRegion] at found
    cases found
  · intro region members state found
    rw [noRegion] at found
    cases found
  · intro state _
    refine ⟨fun kind => ?_, fun kind => ?_, fun depth kind => ?_⟩ <;>
    · cases (onlyRoot kind).2

theorem formed_new (name : String) (names : NameSource) : (Machine.new name names).Formed :=
  ((formed_bareMachine name names).pushRegion (Or.inr rfl)).1

theorem grown_new (name : String) (names : NameSource) :
    ∃ bare : Machine, Grown bare (Machine.new name names) ∧ bare.regions = #[] ∧
      bare.transitions = #[] ∧ bare.frames = .empty ∧ bare.journal = #[] ∧
      ∀ state node, bare.state? state = some node → node = .bare name .root :=
  ⟨bareMachine name names, ((formed_bareMachine name names).pushRegion (Or.inr rfl)).2, rfl, rfl,
    rfl, rfl, fun _ _ found => (state?_bareMachine found).2⟩

end Chart.Machine
