import Chart.Proofs.Forest.Growing

set_option autoImplicit false

/-!
Deep histories. The installation of a deep history walks down from its region, through the regions
of normal states, and gives each region it comes to a history of its own. The walk is bounded by
the number of regions, and nesting never goes deeper than that, so that afterwards every region
within the first one has a history.
-/

namespace Chart

namespace Machine

/-- The regions belong to the same states as before, and whatever is new in one of them is a
history. -/
structure AddsHistories (before after : Machine) : Prop where
  formed : after.Formed
  grown : Grown before after
  owners : ∀ region, after.ownerOf? region = before.ownerOf? region
  members : ∀ state region, after.containerOf? state = some region →
    before.containerOf? state = some region ∨
      ∃ depth, after.kindOf? state = some (.history depth)

namespace AddsHistories

variable {before middle after : Machine}

theorem refl {machine : Machine} (formed : machine.Formed) : AddsHistories machine machine where
  formed := formed
  grown := Grown.refl machine
  owners := fun _ => rfl
  members := fun _ _ contained => Or.inl contained

theorem trans (first : AddsHistories before middle) (second : AddsHistories middle after) :
    AddsHistories before after where
  formed := second.formed
  grown := first.grown.trans second.grown
  owners := fun region => (second.owners region).trans (first.owners region)
  members := by
    intro state region contained
    rcases second.members state region contained with earlier | history
    · refine (first.members state region earlier).imp id fun ⟨depth, history⟩ => ?_
      obtain ⟨kind, isKind, same | ⟨old, new, _, same⟩⟩ := second.grown.kindOf? history
      · exact ⟨depth, by rw [isKind, same]⟩
      · exact ⟨new, by rw [isKind, same]⟩
    · exact Or.inr history

/-- A state that owns a region is not a history, so it is not new; by induction on its way up. -/
theorem inside_of_owner (adds : AddsHistories before after) {region nested : RegionId}
    {state : StateId} (owned : after.ownerOf? nested = some state)
    (inside : after.Inside region state) : before.Inside region state := by
  have old {owner : StateId} {inner container : RegionId}
      (ownedInner : after.ownerOf? inner = some owner)
      (contained : after.containerOf? owner = some container) :
      before.containerOf? owner = some container := by
    refine (adds.members owner container contained).resolve_right fun ⟨depth, history⟩ => ?_
    have owns := List.ne_nil_of_mem ((adds.formed.owned inner owner).mp ownedInner)
    rcases adds.formed.owners owner owns with normal | isRoot
    · rw [history] at normal
      cases normal
    · rw [history] at isRoot
      cases isRoot
  induction inside generalizing nested with
  | member contained => exact .member (old owned contained)
  | deeper contained ownedAround _ ih =>
      exact .deeper (old owned contained) (by rw [← adds.owners]; exact ownedAround)
        (ih ownedAround)

theorem within (adds : AddsHistories before after) {outer inner : RegionId}
    (within : after.Within outer inner) : before.Within outer inner := by
  rcases within with same | ⟨owner, owned, inside⟩
  · exact Or.inl same
  · exact Or.inr ⟨owner, by rw [← adds.owners]; exact owned, adds.inside_of_owner owned inside⟩

theorem redeepened {machine : Machine} (formed : machine.Formed) {history : StateId}
    {old : HistoryDepth} (isHistory : machine.kindOf? history = some (.history old))
    (depth : HistoryDepth) : AddsHistories machine (machine.redeepened history depth) where
  formed := formed.redeepened isHistory
  grown := Grown.redeepened isHistory
  owners := fun _ => rfl
  members := fun state region contained => by
    rw [containerOf?_redeepened] at contained
    exact Or.inl contained

end AddsHistories

/-! ### Walks of bounded length -/

/-- The region is reached from the first one in at most so many steps from a region to a region of
one of its states. -/
inductive WithinBy (machine : Machine) : Nat → RegionId → RegionId → Prop
  | here {steps : Nat} {region : RegionId} : WithinBy machine steps region region
  | inner {steps : Nat} {region nested last : RegionId} {child : StateId}
      (contained : machine.containerOf? child = some region)
      (owned : machine.ownerOf? nested = some child) (rest : WithinBy machine steps nested last) :
      WithinBy machine (steps + 1) region last

private theorem WithinBy.snoc {machine : Machine} {steps : Nat} {outer middle inner : RegionId}
    {owner : StateId} (walk : machine.WithinBy steps outer middle)
    (contained : machine.containerOf? owner = some middle)
    (owned : machine.ownerOf? inner = some owner) : machine.WithinBy (steps + 1) outer inner := by
  induction walk with
  | here => exact .inner contained owned .here
  | inner containedFirst ownedFirst _ ih => exact .inner containedFirst ownedFirst (ih contained)

private theorem WithinBy.of_grown {before after : Machine}
    (grown : Grown before after) {steps : Nat}
    {outer inner : RegionId} (walk : before.WithinBy steps outer inner) :
    after.WithinBy steps outer inner := by
  induction walk with
  | here => exact .here
  | inner contained owned _ ih =>
      exact .inner (grown.containerOf? contained) (grown.ownerOf? owned) ih

/-- Each step takes one level; by induction on the way up. -/
theorem Wired.withinBy_of_inside {machine : Machine} (wired : machine.Wired)
    {outer inner : RegionId} {top owner : StateId} {steps : Nat}
    (ownedOuter : machine.ownerOf? outer = some top) (owned : machine.ownerOf? inner = some owner)
    (inside : machine.Inside outer owner) (low : machine.level owner ≤ machine.level top + steps) :
    machine.WithinBy steps outer inner := by
  induction inside generalizing inner steps with
  | @member state contained =>
      have step := wired.level_succ contained ownedOuter
      obtain ⟨steps, rfl⟩ : ∃ fewer, steps = fewer + 1 := ⟨steps - 1, by omega⟩
      exact .inner contained owned .here
  | @deeper state above nested contained ownedNested inside ih =>
      have step := wired.level_succ contained ownedNested
      have around := wired.level_lt_of_inside ownedOuter inside
      obtain ⟨steps, rfl⟩ : ∃ fewer, steps = fewer + 1 := ⟨steps - 1, by omega⟩
      exact (ih ownedNested (by omega)).snoc contained owned

private theorem Wired.withinBy_nestingBound {machine : Machine} (wired : machine.Wired)
    {outer inner : RegionId} {top : StateId} (ownedOuter : machine.ownerOf? outer = some top)
    (within : machine.Within outer inner) :
    machine.WithinBy machine.nestingBound outer inner := by
  rcases within with rfl | ⟨owner, owned, inside⟩
  · exact .here
  · refine wired.withinBy_of_inside ownedOuter owned inside ?_
    have bound := wired.level_le_nestingBound owner
    omega

theorem mem_regionsOfNormalStates {machine : Machine} (wired : machine.Wired)
    {region nested : RegionId} {child : StateId}
    (contained : machine.containerOf? child = some region)
    (owned : machine.ownerOf? nested = some child) :
    nested ∈ Construct.regionsOfNormalStates machine region := by
  have listed := (wired.owned nested child).mp owned
  have normal : machine.kindOf? child = some .normal := by
    refine (wired.owners child (List.ne_nil_of_mem listed)).resolve_right fun isRoot => ?_
    rw [wired.rootOnly child isRoot, wired.rootFree] at contained
    cases contained
  obtain ⟨node, found, kind⟩ := kindOf?_eq_some.mp normal
  refine List.mem_flatMap.mpr ⟨child, List.mem_filter.mpr
    ⟨(wired.listed child region).mp contained, ?_⟩, listed⟩
  rw [found, Option.any_some, kind]
  rfl

end Machine

namespace Construct

open Machine (AddsHistories)

/-- The regions that so many steps lead to from the first one have histories afterwards. -/
def GivesHistories (steps : Nat) (region : RegionId) (before after : Machine) : Prop :=
  AddsHistories before after ∧
    ∀ nested, before.WithinBy steps region nested →
    ∃ history, after.historyOf? nested = some history

theorem ends_installHistory {machine : Machine} (formed : machine.Formed) (region : RegionId)
    (depth : HistoryDepth) :
    Ends (installHistory region depth) machine
      (fun _ after => AddsHistories machine after ∧
        ∃ history, after.historyOf? region = some history)
      (fun _ _ => True) := by
  unfold installHistory
  rw [ends_bind]
  refine ends_requireRegion (fun members found => ?_) (fun _ => trivial)
  cases marker : members.history with
  | some existing =>
      obtain ⟨_, old, isHistory⟩ := (formed.history region members existing found).mpr marker
      dsimp only
      rw [ends_bind, ends_modify, ends_pure]
      exact ⟨AddsHistories.redeepened formed isHistory depth, existing,
        Machine.historyOf?_eq_some.mpr ⟨members, found, marker⟩⟩
  | none =>
      dsimp only
      by_cases taken :
          Dictionary.contains members.stateIndex (members.name ++ "-history-pseudo") = true
      · rw [if_pos taken]
        trivial
      · have fresh :
            Dictionary.find? members.stateIndex (members.name ++ "-history-pseudo") = none := by
          simpa [Dictionary.contains] using taken
        rw [if_neg taken, ends_modifyGet]
        obtain ⟨after, grown⟩ := formed.installed depth found fresh marker
        obtain ⟨history, marked, isHistory, containers, owners⟩ :=
          formed.installed_history depth found fresh
        refine ⟨⟨after, grown, owners, fun state other contained => ?_⟩, history, marked⟩
        change (machine.installed region _ depth).containerOf? state = some other at contained
        by_cases here : state = history
        · exact Or.inr ⟨depth, by rw [here]; exact isHistory⟩
        · rw [containers, if_neg here] at contained
          exact Or.inl contained

/-- What the installation in one region does, it does in each region of a list; by induction on the
list. -/
theorem ends_forIn_install {steps : Nat} {step : RegionId → PUnit → Construct (ForInStep PUnit)}
    (givesHistories : ∀ region machine, machine.Formed → Ends (step region ⟨⟩) machine
      (fun next after => next = .yield ⟨⟩ ∧ GivesHistories steps region machine after)
      (fun _ _ => True))
    (regions : List RegionId) {machine : Machine} (formed : machine.Formed) :
    Ends (forIn regions PUnit.unit step) machine
      (fun _ after => AddsHistories machine after ∧
        ∀ region ∈ regions, GivesHistories steps region machine after) (fun _ _ => True) := by
  induction regions generalizing machine with
  | nil => exact ⟨AddsHistories.refl formed, List.forall_mem_nil _⟩
  | cons first rest ih =>
      rw [List.forIn_cons, ends_bind]
      refine (givesHistories first machine formed).mono (fun next middle fullyInstalled => ?_)
        fun _ _ _ => trivial
      obtain ⟨rfl, adds, marked⟩ := fullyInstalled
      refine (ih adds.formed).mono (fun _ after later => ?_) fun _ _ _ => trivial
      obtain ⟨addsLater, markedLater⟩ := later
      have all := adds.trans addsLater
      refine ⟨all, fun region member => ⟨all, fun nested walk => ?_⟩⟩
      rcases List.mem_cons.mp member with rfl | inRest
      · obtain ⟨history, isMarked⟩ := marked nested walk
        exact ⟨history, addsLater.grown.historyOf? isMarked⟩
      · exact (markedLater region inRest).2 nested (walk.of_grown adds.grown)

private theorem ends_installHistoryBelow {machine : Machine} (formed : machine.Formed) (steps : Nat)
    {region : RegionId} (marked : ∃ history, machine.historyOf? region = some history) :
    Ends (installHistoryBelow steps region) machine
      (fun _ after => GivesHistories steps region machine after) (fun _ _ => True) := by
  -- By induction on the bound of the walk.
  induction steps generalizing machine region with
  | zero =>
      refine ⟨AddsHistories.refl formed, fun nested walk => ?_⟩
      cases walk with
      | here => exact marked
  | succ steps ih =>
      unfold installHistoryBelow
      rw [ends_bind, ends_get, ends_bind]
      refine (@ends_forIn_install steps _ (fun nested current formedCurrent => ?_) _ _ formed).mono
        (fun _ after fullyInstalled => ?_) fun _ _ _ => trivial
      · rw [ends_bind, ends_discard]
        refine (ends_installHistory formedCurrent nested .deep).mono (fun _ middle installs => ?_)
          fun _ _ _ => trivial
        obtain ⟨adds, markedNested⟩ := installs
        rw [ends_bind]
        refine (ih adds.formed markedNested).mono
          (fun _ after fullyInstalled => ?_) fun _ _ _ => trivial
        exact ⟨rfl, adds.trans fullyInstalled.1, fun last walk =>
          fullyInstalled.2 last (walk.of_grown adds.grown)⟩
      · obtain ⟨adds, each⟩ := fullyInstalled
        refine ⟨adds, fun last walk => ?_⟩
        cases walk with
        | here =>
            obtain ⟨history, isMarked⟩ := marked
            exact ⟨history, adds.grown.historyOf? isMarked⟩
        | inner contained owned rest =>
            exact (each _ (Machine.mem_regionsOfNormalStates formed.toWired contained owned)).2
              last rest

theorem ends_regionAddHistory_deep {machine : Machine} (formed : machine.Formed)
    {region : RegionId} :
    Ends (regionAddHistory region .deep) machine
      (fun _ after => ∀ nested, after.Within region nested →
        ∃ history, after.historyOf? nested = some history) (fun _ _ => True) := by
  unfold regionAddHistory
  rw [ends_bind]
  refine (ends_installHistory formed region .deep).mono (fun _ middle installs => ?_)
    fun _ _ _ => trivial
  obtain ⟨adds, history, marked⟩ := installs
  obtain ⟨members, found, _⟩ := Machine.historyOf?_eq_some.mp marked
  have owned : middle.ownerOf? region = some members.owner :=
    Machine.ownerOf?_eq_some.mpr ⟨members, found, rfl⟩
  rw [if_pos rfl, ends_bind, ends_get, ends_bind]
  refine (ends_installHistoryBelow adds.formed _ ⟨history, marked⟩).mono
    (fun _ after fullyInstalled nested within => ?_) fun _ _ _ => trivial
  exact fullyInstalled.2 nested
    (adds.formed.toWired.withinBy_nestingBound owned (fullyInstalled.1.within within))

end Construct
end Chart
