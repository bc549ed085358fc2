import Chart.Machine.Resolution
import Chart.Machine.Configuration
import Chart.Machine.Construction
import Mathlib.Data.Fintype.Card

set_option autoImplicit false

/-!
The forest of states and regions. A state lies inside a region when a chain of containers and
owners leads from it up to the region. `Formed` collects what holds of the chart of every machine:
lists, containers, owners, indexes and levels agree. Levels grow strictly from the outside to the
inside, so chains are never longer than the number of regions, and walks with that bound see
everything.
-/

namespace Chart

/-- The kinds of the states a region has of its own accord. -/
def StateKind.isMarker : StateKind → Bool
  | .initial | .final | .history _ => true
  | .normal | .choice | .root => false

def Region.markers (members : Region) : StateId × StateId × Option StateId :=
  (members.initial, members.final, members.history)

namespace Machine

def ownerOf? (machine : Machine) (region : RegionId) : Option StateId :=
  (machine.region? region).map Region.owner

def historyOf? (machine : Machine) (region : RegionId) : Option StateId :=
  (machine.region? region).bind Region.history

inductive Inside (machine : Machine) (region : RegionId) : StateId → Prop
  | member {state : StateId} (contained : machine.containerOf? state = some region) :
      Inside machine region state
  | deeper {state owner : StateId} {nested : RegionId}
      (contained : machine.containerOf? state = some nested)
      (owned : machine.ownerOf? nested = some owner) (inside : Inside machine region owner) :
      Inside machine region state

/-- A region lies within itself, and within every region its owner lies inside. -/
def Within (machine : Machine) (outer inner : RegionId) : Prop :=
  inner = outer ∨ ∃ owner, machine.ownerOf? inner = some owner ∧ machine.Inside outer owner

/-- Neither of two regions lies within the other. -/
def Apart (machine : Machine) (one other : RegionId) : Prop :=
  ¬machine.Within one other ∧ ¬machine.Within other one

/-- Everything at a state: the state itself and what lies inside its regions. -/
def Below (machine : Machine) (top state : StateId) : Prop :=
  state = top ∨ ∃ region, machine.ownerOf? region = some top ∧ machine.Inside region state

/-- Lists, containers, owners, indexes and levels agree. -/
structure Wired (machine : Machine) : Prop where
  rootKind : machine.kindOf? root = some .root
  rootOnly : ∀ state, machine.kindOf? state = some .root → state = root
  rootFree : machine.containerOf? root = none
  listed : ∀ state region,
    machine.containerOf? state = some region ↔ state ∈ machine.statesOf region
  listedOnce : ∀ region, (machine.statesOf region).Nodup
  owned : ∀ region state,
    machine.ownerOf? region = some state ↔ region ∈ machine.regionsOf state
  ownedOnce : ∀ state, (machine.regionsOf state).Nodup
  leveled : ∀ state, machine.level state = machine.levelFromParent state
  owners : ∀ state, machine.regionsOf state ≠ [] →
    machine.kindOf? state = some .normal ∨ machine.kindOf? state = some .root
  indexed : ∀ region members name state, machine.region? region = some members →
    (Dictionary.find? members.stateIndex name = some state ↔
      state ∈ members.states ∧ machine.stateName state = name)
  registered : ∀ region transition, transition ∈ machine.transitionsOf region →
    ∃ found, machine.transition? transition = some found ∧ found.container = some region
  decided : ∀ state node, machine.state? state = some node → node.kind = .choice →
    node.decision.isSome

/-- Every region has its initial, its final and at most one history state, and there are no
others. -/
structure Marked (machine : Machine) : Prop where
  initial : ∀ region members state, machine.region? region = some members →
    (machine.containerOf? state = some region ∧ machine.kindOf? state = some .initial ↔
      state = members.initial)
  final : ∀ region members state, machine.region? region = some members →
    (machine.containerOf? state = some region ∧ machine.kindOf? state = some .final ↔
      state = members.final)
  history : ∀ region members state, machine.region? region = some members →
    ((machine.containerOf? state = some region ∧
        ∃ depth, machine.kindOf? state = some (.history depth)) ↔
      members.history = some state)
  contained : ∀ state, machine.containerOf? state = none →
    machine.kindOf? state ≠ some .initial ∧ machine.kindOf? state ≠ some .final ∧
      ∀ depth, machine.kindOf? state ≠ some (.history depth)

structure Formed (machine : Machine) : Prop extends Wired machine, Marked machine

/-- Neither an initial nor a final nor a history state. -/
def Unmarked (machine : Machine) (state : StateId) : Prop :=
  machine.kindOf? state ≠ some .initial ∧ machine.kindOf? state ≠ some .final ∧
    ∀ depth, machine.kindOf? state ≠ some (.history depth)

structure Marks (machine : Machine) (region : RegionId) (members : Region) : Prop where
  initial : ∀ state,
    (machine.containerOf? state = some region ∧ machine.kindOf? state = some .initial ↔
      state = members.initial)
  final : ∀ state,
    (machine.containerOf? state = some region ∧ machine.kindOf? state = some .final ↔
      state = members.final)
  history : ∀ state,
    ((machine.containerOf? state = some region ∧
        ∃ depth, machine.kindOf? state = some (.history depth)) ↔
      members.history = some state)

/-! ### Looking up single fields -/

theorem containerOf?_eq_some {machine : Machine} {state : StateId} {region : RegionId} :
    machine.containerOf? state = some region ↔
      ∃ node, machine.state? state = some node ∧ node.container = some region := by
  simp [containerOf?, Option.bind_eq_some_iff]

theorem isSome_of_contained {machine : Machine} {state : StateId} {region : RegionId}
    (contained : machine.containerOf? state = some region) : (machine.state? state).isSome := by
  obtain ⟨node, found, _⟩ := containerOf?_eq_some.mp contained
  rw [found]
  rfl

theorem kindOf?_eq_some {machine : Machine} {state : StateId} {kind : StateKind} :
    machine.kindOf? state = some kind ↔
      ∃ node, machine.state? state = some node ∧ node.kind = kind := by
  simp [kindOf?]

theorem ne_of_absent {machine : Machine} {state absent : StateId} {kind : StateKind}
    (isKind : machine.kindOf? state = some kind) (missing : machine.state? absent = none) :
    state ≠ absent := by
  rintro rfl
  rw [kindOf?, missing] at isKind
  cases isKind

theorem ownerOf?_eq_some {machine : Machine} {region : RegionId} {owner : StateId} :
    machine.ownerOf? region = some owner ↔
      ∃ members, machine.region? region = some members ∧ members.owner = owner := by
  simp [ownerOf?]

theorem historyOf?_eq_some {machine : Machine} {region : RegionId} {history : StateId} :
    machine.historyOf? region = some history ↔
      ∃ members, machine.region? region = some members ∧ members.history = some history := by
  unfold historyOf?
  rw [Option.bind_eq_some_iff]

theorem isStateActive_iff {machine : Machine} {state : StateId} :
    machine.isStateActive state = true ↔
      ∃ node, machine.state? state = some node ∧ node.status.isActive = true := by
  simp [isStateActive, Option.any_eq_true]

theorem isRegionActive_iff {machine : Machine} {region : RegionId} :
    machine.isRegionActive region = true ↔
      ∃ members, machine.region? region = some members ∧ members.status.isActive = true := by
  simp [isRegionActive, Option.any_eq_true]

theorem isStateActive_eq {machine : Machine} {state : StateId} {node : StateNode}
    (found : machine.state? state = some node) :
    machine.isStateActive state = node.status.isActive := by
  rw [isStateActive, found]
  rfl

theorem isRegionActive_eq {machine : Machine} {region : RegionId} {members : Region}
    (found : machine.region? region = some members) :
    machine.isRegionActive region = members.status.isActive := by
  rw [isRegionActive, found]
  rfl

theorem parentOf?_eq (machine : Machine) (state : StateId) :
    machine.parentOf? state = (machine.containerOf? state).bind machine.ownerOf? := by
  unfold parentOf?
  cases machine.containerOf? state with
  | none => rfl
  | some region =>
      simp only [Option.bind_eq_bind, Option.bind_some, ownerOf?]
      cases machine.region? region <;> rfl

theorem parentOf?_eq_some {machine : Machine} {state parent : StateId} :
    machine.parentOf? state = some parent ↔
      ∃ region, machine.containerOf? state = some region ∧
        machine.ownerOf? region = some parent := by
  rw [parentOf?_eq, Option.bind_eq_some_iff]

theorem parentOf?_congr {before after : Machine}
    (containers : ∀ state, after.containerOf? state = before.containerOf? state)
    (owners : ∀ region, after.ownerOf? region = before.ownerOf? region) (state : StateId) :
    after.parentOf? state = before.parentOf? state := by
  rw [parentOf?_eq, parentOf?_eq, containers]
  exact congrArg (Option.bind _) (funext owners)

/-! ### Markers -/

theorem Unmarked.ne {machine : Machine} {state : StateId} (unmarked : machine.Unmarked state)
    {kind : StateKind} (marker : kind.isMarker = true) : machine.kindOf? state ≠ some kind := by
  cases kind with
  | initial => exact unmarked.1
  | final => exact unmarked.2.1
  | history depth => exact unmarked.2.2 depth
  | normal | choice | root => cases marker

theorem Marks.congr {before after : Machine} {region : RegionId} {members members' : Region}
    (marks : before.Marks region members) (recorded : members'.markers = members.markers)
    (same : ∀ state kind, kind.isMarker = true →
      (after.containerOf? state = some region ∧ after.kindOf? state = some kind ↔
        before.containerOf? state = some region ∧ before.kindOf? state = some kind)) :
    after.Marks region members' := by
  simp only [Region.markers, Prod.mk.injEq] at recorded
  obtain ⟨initial, final, history⟩ := recorded
  refine { initial := fun state => ?_, final := fun state => ?_, history := fun state => ?_ }
  · rw [same state .initial rfl, initial]
    exact marks.initial state
  · rw [same state .final rfl, final]
    exact marks.final state
  · rw [history, ← marks.history state]
    constructor
    · rintro ⟨contained, depth, kind⟩
      obtain ⟨contained', kind'⟩ := (same state (.history depth) rfl).mp ⟨contained, kind⟩
      exact ⟨contained', depth, kind'⟩
    · rintro ⟨contained, depth, kind⟩
      obtain ⟨contained', kind'⟩ := (same state (.history depth) rfl).mpr ⟨contained, kind⟩
      exact ⟨contained', depth, kind'⟩

theorem Marked.marks {machine : Machine} (marked : machine.Marked) {region : RegionId}
    {members : Region} (stored : machine.region? region = some members) :
    machine.Marks region members where
  initial := fun state => marked.initial region members state stored
  final := fun state => marked.final region members state stored
  history := fun state => marked.history region members state stored

theorem Marked.of_marks {machine : Machine}
    (marks : ∀ region members, machine.region? region = some members →
      machine.Marks region members)
    (free : ∀ state, machine.containerOf? state = none → machine.Unmarked state) :
    machine.Marked where
  initial := fun region members state stored => (marks region members stored).initial state
  final := fun region members state stored => (marks region members stored).final state
  history := fun region members state stored => (marks region members stored).history state
  contained := free

theorem Marked.of_same {before after : Machine} (marked : before.Marked)
    (recorded : ∀ region,
      (after.region? region).map Region.markers = (before.region? region).map Region.markers)
    (same : ∀ region state kind, kind.isMarker = true →
      (after.containerOf? state = some region ∧ after.kindOf? state = some kind ↔
        before.containerOf? state = some region ∧ before.kindOf? state = some kind))
    (free : ∀ state, after.containerOf? state = none → after.Unmarked state) : after.Marked := by
  refine .of_marks (fun region members stored => ?_) free
  have equal := recorded region
  rw [stored] at equal
  obtain ⟨members', stored', markers⟩ := Option.map_eq_some_iff.mp equal.symm
  exact (marked.marks stored').congr markers.symm (same region)

/-! ### Inside and within -/

section Inside

variable {machine : Machine} {region outer inner : RegionId} {state owner : StateId}

theorem Within.refl (machine : Machine) (region : RegionId) : machine.Within region region :=
  Or.inl rfl

theorem inside_iff :
    machine.Inside region state ↔
      ∃ nested, machine.containerOf? state = some nested ∧ machine.Within region nested := by
  constructor
  · intro inside
    cases inside with
    | member contained => exact ⟨region, contained, Within.refl machine region⟩
    | deeper contained owned inside => exact ⟨_, contained, Or.inr ⟨_, owned, inside⟩⟩
  · rintro ⟨nested, contained, within⟩
    rcases within with same | ⟨owner, owned, inside⟩
    · subst same
      exact .member contained
    · exact .deeper contained owned inside

theorem Inside.within_container (inside : machine.Inside region state)
    (contained : machine.containerOf? state = some inner) : machine.Within region inner := by
  obtain ⟨nested, contained', within⟩ := inside_iff.mp inside
  rw [contained] at contained'
  rw [Option.some.inj contained']
  exact within

theorem Within.inside_owner (within : machine.Within outer inner)
    (owned : machine.ownerOf? inner = some owner) :
    inner = outer ∨ machine.Inside outer owner := by
  rcases within with same | ⟨owner', owned', inside⟩
  · exact Or.inl same
  · rw [owned] at owned'
    rw [Option.some.inj owned']
    exact Or.inr inside

theorem Inside.of_within (within : machine.Within outer inner)
    (inside : machine.Inside inner state) : machine.Inside outer state := by
  induction inside with
  | member contained => exact inside_iff.mpr ⟨inner, contained, within⟩
  | deeper contained owned _ ih => exact .deeper contained owned ih

theorem Within.trans {middle : RegionId} (first : machine.Within outer middle)
    (second : machine.Within middle inner) : machine.Within outer inner := by
  rcases second with same | ⟨owner, owned, inside⟩
  · rw [same]
    exact first
  · exact Or.inr ⟨owner, owned, inside.of_within first⟩

theorem Within.of_owner (owned : machine.ownerOf? inner = some owner)
    (inside : machine.Inside outer owner) : machine.Within outer inner :=
  Or.inr ⟨owner, owned, inside⟩

theorem Within.of_member (owned : machine.ownerOf? inner = some owner)
    (contained : machine.containerOf? owner = some outer) : machine.Within outer inner :=
  Within.of_owner owned (.member contained)

theorem Below.refl (machine : Machine) (top : StateId) : machine.Below top top := Or.inl rfl

theorem below_iff {top : StateId} :
    machine.Below top state ↔ state = top ∨
      ∃ child, machine.parentOf? child = some top ∧ machine.Below child state := by
  constructor
  · rintro (same | ⟨region, owned, inside⟩)
    · exact Or.inl same
    · right
      induction inside with
      | @member state contained =>
          exact ⟨state, parentOf?_eq_some.mpr ⟨region, contained, owned⟩, Below.refl _ _⟩
      | deeper contained owned' _ ih =>
          obtain ⟨child, parent, below⟩ := ih
          refine ⟨child, parent, Or.inr ?_⟩
          rcases below with same | ⟨nested, ownedNested, inside⟩
          · rw [same] at owned'
            exact ⟨_, owned', .member contained⟩
          · exact ⟨nested, ownedNested, .deeper contained owned' inside⟩
  · rintro (same | ⟨child, parent, below⟩)
    · exact Or.inl same
    · obtain ⟨region, contained, owned⟩ := parentOf?_eq_some.mp parent
      refine Or.inr ⟨region, owned, ?_⟩
      rcases below with same | ⟨nested, ownedNested, inside⟩
      · rw [same]
        exact .member contained
      · exact inside.of_within (Within.of_member ownedNested contained)

theorem below_iff_parent {top : StateId} :
    machine.Below top state ↔ state = top ∨
      ∃ parent, machine.parentOf? state = some parent ∧ machine.Below top parent := by
  constructor
  · rintro (same | ⟨region, owned, inside⟩)
    · exact Or.inl same
    · right
      cases inside with
      | member contained =>
          exact ⟨top, parentOf?_eq_some.mpr ⟨region, contained, owned⟩, Below.refl machine top⟩
      | deeper contained owned' inside =>
          exact ⟨_, parentOf?_eq_some.mpr ⟨_, contained, owned'⟩, Or.inr ⟨region, owned, inside⟩⟩
  · rintro (same | ⟨parent, isParent, below⟩)
    · exact Or.inl same
    · obtain ⟨nested, contained, ownedNested⟩ := parentOf?_eq_some.mp isParent
      rcases below with same | ⟨region, owned, inside⟩
      · subst same
        exact Or.inr ⟨nested, ownedNested, .member contained⟩
      · exact Or.inr ⟨region, owned, .deeper contained ownedNested inside⟩

theorem Apart.symm (apart : machine.Apart outer inner) : machine.Apart inner outer :=
  ⟨apart.2, apart.1⟩

end Inside

/-! ### Levels -/

namespace Wired

variable {machine : Machine} (wired : machine.Wired)
include wired

theorem exists_owner {state : StateId} {region : RegionId}
    (contained : machine.containerOf? state = some region) :
    ∃ owner, machine.ownerOf? region = some owner := by
  have member := (wired.listed state region).mp contained
  unfold statesOf at member
  cases found : machine.region? region with
  | none => simp [found] at member
  | some members => exact ⟨members.owner, by simp [ownerOf?, found]⟩

theorem level_succ {state owner : StateId} {region : RegionId}
    (contained : machine.containerOf? state = some region)
    (owned : machine.ownerOf? region = some owner) :
    machine.level state = machine.level owner + 1 := by
  have parent : machine.parentOf? state = some owner :=
    parentOf?_eq_some.mpr ⟨region, contained, owned⟩
  rw [wired.leveled state, levelFromParent, parent]

theorem leveled_of_same {after : Machine}
    (levels : ∀ state, after.level state = machine.level state)
    (parents : ∀ state, after.parentOf? state = machine.parentOf? state) (state : StateId) :
    after.level state = after.levelFromParent state := by
  rw [levels, wired.leveled, levelFromParent, levelFromParent, parents]
  cases machine.parentOf? state with
  | none => rfl
  | some parent => simp only [levels]

theorem level_eq_zero {state : StateId} (free : machine.containerOf? state = none) :
    machine.level state = 0 := by
  rw [wired.leveled state, levelFromParent, parentOf?_eq, free]
  rfl

theorem level_lt_of_inside {region : RegionId} {state owner : StateId}
    (owned : machine.ownerOf? region = some owner) (inside : machine.Inside region state) :
    machine.level owner < machine.level state := by
  induction inside with
  | member contained =>
      have step := wired.level_succ contained owned
      omega
  | deeper contained owned' _ ih =>
      have step := wired.level_succ contained owned'
      omega

theorem not_inside_root {region : RegionId} {state : StateId}
    (inside : machine.Inside region state) : state ≠ root := by
  rintro rfl
  obtain ⟨nested, contained, _⟩ := inside_iff.mp inside
  rw [wired.rootFree] at contained
  cases contained

theorem not_inside_own_region {region : RegionId} {owner : StateId}
    (owned : machine.ownerOf? region = some owner) : ¬machine.Inside region owner :=
  fun inside => Nat.lt_irrefl _ (wired.level_lt_of_inside owned inside)

theorem siblings_apart {one other : RegionId} {owner : StateId}
    (ownedOne : machine.ownerOf? one = some owner)
    (ownedOther : machine.ownerOf? other = some owner) (different : one ≠ other) :
    machine.Apart one other := by
  constructor
  · rintro (same | ⟨owner', owned', inside⟩)
    · exact different same.symm
    · rw [ownedOther] at owned'
      obtain rfl := Option.some.inj owned'
      exact wired.not_inside_own_region ownedOne inside
  · rintro (same | ⟨owner', owned', inside⟩)
    · exact different same
    · rw [ownedOne] at owned'
      obtain rfl := Option.some.inj owned'
      exact wired.not_inside_own_region ownedOther inside

theorem exists_region_of_level_lt {level : Nat} :
    ∀ (state : StateId), level < machine.level state →
      ∃ region owner, machine.ownerOf? region = some owner ∧ machine.level owner = level := by
  intro state
  induction tall : machine.level state generalizing state with
  | zero =>
      intro impossible
      omega
  | succ height ih =>
      intro below
      cases contained : machine.containerOf? state with
      | none =>
          have zero := wired.level_eq_zero contained
          omega
      | some region =>
          obtain ⟨owner, owned⟩ := wired.exists_owner contained
          have step := wired.level_succ contained owned
          by_cases here : level = height
          · exact ⟨region, owner, owned, by omega⟩
          · exact ih owner (by omega) (by omega)

theorem level_le_nestingBound (state : StateId) :
    machine.level state ≤ machine.nestingBound := by
  have regionAt (level : Fin (machine.level state)) :
      ∃ index : Fin machine.regions.size, ∃ owner,
        machine.ownerOf? ⟨index⟩ = some owner ∧ machine.level owner = level := by
    obtain ⟨region, owner, owned, same⟩ := wired.exists_region_of_level_lt state level.isLt
    obtain ⟨members, found, _⟩ := ownerOf?_eq_some.mp owned
    have bounded : region.index < machine.regions.size :=
      (Array.getElem?_eq_some_iff.mp found).1
    exact ⟨⟨region.index, bounded⟩, owner, owned, same⟩
  choose index owner owned same using regionAt
  have injective : Function.Injective index := by
    intro one other equal
    have ownedOne := owned one
    rw [equal, owned other] at ownedOne
    obtain equalOwners := Option.some.inj ownedOne
    apply Fin.ext
    rw [← same one, ← same other, equalOwners]
  have bounded := Fintype.card_le_of_injective index injective
  simpa [nestingBound] using bounded

end Wired

end Machine
end Chart
