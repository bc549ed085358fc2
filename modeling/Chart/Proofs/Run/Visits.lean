import Chart.Proofs.Run.Emptying

set_option autoImplicit false

/-!
Visits of states. A visit begins when the state is entered and ends when it is left; a normal state
starts its entry behaviour in the one case and its exit behaviour in the other. Only states at the
root are ever visited, so what the journal tells of a region is all about states that will stay in
it, and the region remembers the normal child that was left last.
-/

namespace Chart

inductive Visit
  | entered
  | entryStarted
  | left
  | exitStarted
deriving DecidableEq, Repr

namespace Event

def visit? (state : StateId) : Event → Option Visit
  | .notice (.entered other _) => if other = state then some .entered else none
  | .notice (.left other _) => if other = state then some .left else none
  | .started .entry other => if other = state then some .entryStarted else none
  | .started .exit other => if other = state then some .exitStarted else none
  | _ => none

def tellsVisit : Event → Bool
  | .notice (.entered _ _) | .notice (.left _ _) | .notice (.regionActivated _ _) => true
  | .started .entry _ | .started .exit _ => true
  | _ => false

private theorem visit?_of_calm {event : Event} (calm : event.tellsVisit = false) (state : StateId) :
    event.visit? state = none := by
  cases event with
  | notice notice => cases notice <;> first | rfl | cases calm
  | started phase other => cases phase <;> first | rfl | cases calm
  | _ => rfl

theorem sets_of_calm {event : Event} (calm : event.tellsVisit = false) (state : StateId) :
    event.sets state = none := by
  cases event with
  | notice notice => cases notice <;> first | rfl | cases calm
  | _ => rfl

end Event

/-- What is told when the state is entered, and what when it is left. -/
def StateNode.script (node : StateNode) : Bool → List Visit
  | true => .entered :: if node.kind = .normal ∧ node.entry.isSome then [.entryStarted] else []
  | false => .left :: if node.kind = .normal ∧ node.exit.isSome then [.exitStarted] else []

namespace Machine

def script (machine : Machine) (state : StateId) (entering : Bool) : List Visit :=
  ((machine.state? state).map fun node => node.script entering).getD []

def Scripted (machine : Machine) (events : List Event) : Prop :=
  ∀ state, events.filterMap (Event.visit? state) =
    (events.filterMap (Event.sets state)).flatMap (machine.script state)

/-- The normal child of the region that was left, if the event tells of one. -/
def leftChild? (machine : Machine) (region : RegionId) : Event → Option StateId
  | .notice (.left state _) =>
      if machine.containerOf? state = some region ∧ machine.kindOf? state = some .normal then
        some state
      else none
  | _ => none

/-- The normal child of the region that was left last. -/
def lastLeft? (machine : Machine) (region : RegionId) (events : List Event) : Option StateId :=
  (events.filterMap (machine.leftChild? region)).getLast?

/-- Only what lies at the root has been active, and each region remembers the normal child that was
left last. -/
structure Rooted (machine : Machine) : Prop where
  regions : ∀ region, machine.isRegionActive region = true → machine.Beneath root region
  states : ∀ event ∈ machine.journal.toList, ∀ state, event.sets state ≠ none →
    machine.Below root state
  remembers : ∀ region,
    machine.lastActive? region = machine.lastLeft? region machine.journal.toList

/-! ### Scripts -/

section Scripts

variable {machine before after : Machine}

private theorem SameChart.script (same : SameChart before after) (state : StateId)
    (entering : Bool) :
    after.script state entering = before.script state entering := by
  have equal := same.readState (fun node => node.script entering)
    (fun _ => by cases entering <;> rfl) state
  unfold Machine.script
  rw [equal]

theorem SameChart.scripted (same : SameChart before after) {events : List Event} :
    after.Scripted events ↔ before.Scripted events := by
  have equal : after.script = before.script := funext fun state => funext (same.script state)
  unfold Scripted
  rw [equal]

theorem Scripted.append {early late : List Event} (first : machine.Scripted early)
    (second : machine.Scripted late) : machine.Scripted (early ++ late) := by
  intro state
  rw [List.filterMap_append, List.filterMap_append, List.flatMap_append, first state, second state]

theorem scripted_of_calm {events : List Event} (calm : ∀ event ∈ events, event.tellsVisit = false) :
    machine.Scripted events := by
  intro state
  rw [List.filterMap_eq_nil_iff.mpr fun event member => Event.visit?_of_calm (calm event member) _,
    List.filterMap_eq_nil_iff.mpr fun event member => Event.sets_of_calm (calm event member) _]
  rfl

theorem scripted_of_script {state : StateId} {node : StateNode} {entering : Bool}
    {events : List Event} (found : machine.state? state = some node)
    (sets : events.filterMap (Event.sets state) = [entering])
    (visits : events.filterMap (Event.visit? state) = node.script entering)
    (others : ∀ other, other ≠ state → ∀ event ∈ events,
      event.sets other = none ∧ event.visit? other = none) : machine.Scripted events := by
  intro other
  by_cases here : other = state
  · subst here
    rw [sets, visits, List.flatMap_singleton, Machine.script, found]
    rfl
  · rw [List.filterMap_eq_nil_iff.mpr fun event member => (others other here event member).1,
      List.filterMap_eq_nil_iff.mpr fun event member => (others other here event member).2]
    rfl

end Scripts

/-! ### What was left last -/

section Memory

variable {machine before after : Machine} {region : RegionId}

private theorem lastLeft?_append (machine : Machine) (region : RegionId) (early late : List Event) :
    machine.lastLeft? region (early ++ late) =
      (machine.lastLeft? region late).or (machine.lastLeft? region early) := by
  unfold lastLeft?
  rw [List.filterMap_append, List.getLast?_append]

theorem leftChild?_left (state : StateId) (name : String) :
    machine.leftChild? region (.notice (.left state name)) =
      if machine.containerOf? state = some region ∧ machine.kindOf? state = some .normal then
        some state
      else none := rfl

private theorem leftChild?_of_unset {event : Event} (unset : ∀ state, event.sets state = none) :
    machine.leftChild? region event = none := by
  cases event with
  | notice notice =>
      cases notice with
      | left state name =>
          have impossible := unset state
          rw [Event.sets_left, if_pos rfl] at impossible
          cases impossible
      | _ => rfl
  | _ => rfl

private theorem lastLeft?_of_unset {events : List Event}
    (unset : ∀ event ∈ events, ∀ state, event.sets state = none) :
    machine.lastLeft? region events = none := by
  unfold lastLeft?
  rw [List.filterMap_eq_nil_iff.mpr fun event member => leftChild?_of_unset (unset event member)]
  rfl

theorem SameChart.lastLeft? (same : SameChart before after) (region : RegionId)
    (events : List Event) : after.lastLeft? region events = before.lastLeft? region events := by
  have equal : after.leftChild? region = before.leftChild? region := by
    funext event
    unfold Machine.leftChild?
    simp only [same.containerOf?, same.kindOf?]
  unfold Machine.lastLeft?
  rw [equal]

end Memory

/-! ### Changes and visits -/

/-- No state is entered or left, no region is opened, and nothing is remembered anew. -/
structure Aloof (before after : Machine) : Prop where
  same : SameChart before after
  told : ∃ events, Told before after events ∧ ∀ event ∈ events, ∀ state, event.sets state = none
  states : ∀ state, after.isStateActive state = before.isStateActive state
  regions : ∀ region, after.isRegionActive region = true → before.isRegionActive region = true
  memory : ∀ region, after.lastActive? region = before.lastActive? region

section Change

variable {outer : Prop} {before after machine : Machine}

theorem aloof_note {event : Event} (plain : event.isPlain = true) :
    Aloof machine (machine.note event) where
  same := sameChart_note machine event
  told := by
    refine ⟨_, told_note machine event, ?_⟩
    simpa using Event.sets_of_still (Event.moves_of_isPlain plain)
  states := fun _ => rfl
  regions := fun _ active => active
  memory := fun _ => rfl

private theorem Aloof.modifyState {current : Machine} {place : StateId}
    {change : StateNode → StateNode} {events : List Event}
    (same : SameChart before (current.modifyState place change))
    (sameStates : current.states = before.states) (sameRegions : current.regions = before.regions)
    (told : Told before current events)
    (unset : ∀ event ∈ events, ∀ state, event.sets state = none)
    (keeps : ∀ node, (change node).status = node.status) :
    Aloof before (current.modifyState place change) where
  same := same
  told := ⟨events, told, unset⟩
  states := by
    intro state
    rw [isStateActive_modifyState change keeps]
    simp only [isStateActive, state?, sameStates]
  regions := by
    intro region active
    have sameHere : (current.modifyState place change).regions = before.regions := sameRegions
    simp only [isRegionActive, region?, sameHere] at active ⊢
    exact active
  memory := by
    intro region
    have sameHere : (current.modifyState place change).regions = before.regions := sameRegions
    simp only [lastActive?, region?, sameHere]

theorem Change.visiting (change : Change outer before after) :
    (∃ state node, before.state? state = some node ∧ node.status.isActive = false ∧
      after = before.entered state node.name) ∨
    (∃ state node, before.state? state = some node ∧ node.status.isActive = true ∧
      after = before.left state node) ∨
    (∃ region members, before.region? region = some members ∧
      after = before.opened region members.name) ∨
    Aloof before after := by
  have same := change.sameChart
  cases change with
  | @enter state node found inactive _ => exact Or.inl ⟨state, node, found, inactive, rfl⟩
  | @leave state node found active => exact Or.inr (Or.inl ⟨state, node, found, active, rfl⟩)
  | @openRegion region members found _ =>
      exact Or.inr (Or.inr (Or.inl ⟨region, members, found, rfl⟩))
  | note event plain => exact Or.inr (Or.inr (Or.inr (aloof_note plain)))
  | @closeRegion region members _ _ =>
      refine Or.inr (Or.inr (Or.inr ?_))
      exact {
        same := same
        told := ⟨_, told_closed before region members.name, by simp [Event.sets]⟩
        states := fun _ => rfl
        regions := fun other active => ((isRegionActive_closed _ _ other).mp active).2
        memory := fun other => lastActive?_closed region other members.name }
  | @join owner _ =>
      refine Or.inr (Or.inr (Or.inr ?_))
      exact {
        same := same
        told := ⟨_, told_note before _, by simp [Event.sets]⟩
        states := fun _ => rfl
        regions := fun _ active => active
        memory := fun _ => rfl }
  | record id firing =>
      refine Or.inr (Or.inr (Or.inr ?_))
      exact {
        same := same
        told := ⟨_, told_note _ (.recorded id firing), by simp [Event.sets]⟩
        states := fun _ => rfl
        regions := fun _ active => active
        memory := fun _ => rfl }
  | foldFrame _ _ _ _ =>
      exact Or.inr (Or.inr (Or.inr (.modifyState same rfl rfl (told_note before _)
        (by simp [Event.sets]) fun _ => rfl)))
  | cancelFrame _ _ | takeFrames _ =>
      refine Or.inr (Or.inr (Or.inr ?_))
      exact {
        same := same
        told := ⟨[], Told.refl before, by simp⟩
        states := fun _ => rfl
        regions := fun _ active => active
        memory := fun _ => rfl }
  | write _ _ | armTimer _ _ _ _ | resetTimer _ _ | requestFrame _ _ | choose _ _ _ =>
      exact Or.inr (Or.inr (Or.inr (.modifyState same rfl rfl (Told.refl before)
        (by simp) fun _ => rfl)))

end Change

/-! ### Turns -/

/-- Entries and departures in turn, beginning with an entry. -/
def turns (count : Nat) : List Bool := (List.range count).map fun index => index % 2 == 0

private theorem turns_succ (count : Nat) : turns (count + 1) = turns count ++ [count % 2 == 0] := by
  unfold turns
  rw [List.range_succ, List.map_append]
  rfl

theorem getLast?_turns {count : Nat} : (turns count).getLast? = some true ↔ count % 2 = 1 := by
  cases count with
  | zero => simp [turns]
  | succ count =>
      rw [turns_succ, List.getLast?_append, List.getLast?_singleton, Option.some_or]
      simp only [Option.some.injEq, beq_iff_eq]
      omega

/-- Entries and departures of each state take turns, and an active state has been entered last. -/
def Alternates (machine : Machine) : Prop :=
  ∀ state, ∃ count, machine.journal.toList.filterMap (Event.sets state) = turns count ∧
    (machine.isStateActive state = true ↔ count % 2 = 1)

section Turns

variable {outer : Prop} {before after : Machine}

private theorem Aloof.alternates (aloof : Aloof before after) (alternates : before.Alternates) :
    after.Alternates := by
  intro state
  obtain ⟨count, sets, active⟩ := alternates state
  obtain ⟨events, told, unset⟩ := aloof.told
  refine ⟨count, ?_, by rw [aloof.states]; exact active⟩
  rw [told, List.filterMap_append, sets,
    List.filterMap_eq_nil_iff.mpr fun event member => unset event member state, List.append_nil]

private theorem Alternates.turn {state : StateId} {entering : Bool} {event : Event}
    (alternates : before.Alternates) (told : Told before after [event])
    (sets : ∀ other, event.sets other = if state = other then some entering else none)
    (was : before.isStateActive state = !entering)
    (statuses : ∀ other, after.isStateActive other =
      if state = other then entering else before.isStateActive other) : after.Alternates := by
  intro other
  obtain ⟨count, earlier, active⟩ := alternates other
  rw [told, List.filterMap_append, earlier, statuses]
  by_cases here : state = other
  · subst here
    rw [was] at active
    refine ⟨count + 1, ?_, ?_⟩
    · rw [turns_succ]
      have turn : (count % 2 == 0) = entering := by
        cases entering with
        | true => simpa using active
        | false => simpa using active
      simp [sets, turn]
    · rw [if_pos rfl]
      cases entering with
      | true =>
          simp only [Bool.not_true, Bool.false_eq_true, false_iff] at active
          simp only [true_iff]
          omega
      | false =>
          simp only [Bool.not_false, true_iff] at active
          simp only [Bool.false_eq_true, false_iff]
          omega
  · refine ⟨count, by simp [sets, here], ?_⟩
    rw [if_neg here]
    exact active

private theorem Change.alternates (change : Change outer before after)
    (alternates : before.Alternates) :
    after.Alternates := by
  rcases change.visiting with ⟨state, node, found, inactive, rfl⟩ |
    ⟨state, node, found, active, rfl⟩ | ⟨region, members, _, rfl⟩ | aloof
  · apply alternates.turn (told_entered before state node.name)
      (fun other => Event.sets_entered other state node.name)
      ((isStateActive_eq found).trans inactive)
    intro other
    rw [Bool.eq_iff_iff, isStateActive_entered found]
    by_cases here : state = other
    · simp [here]
    · simp [here, Ne.symm here]
  · apply alternates.turn (told_left state node)
      (fun other => Event.sets_left other state node.name)
      ((isStateActive_eq found).trans active)
    intro other
    rw [Bool.eq_iff_iff, isStateActive_left]
    by_cases here : state = other
    · simp [here]
    · simp [here, Ne.symm here]
  · intro state
    obtain ⟨count, sets, active⟩ := alternates state
    refine ⟨count, ?_, active⟩
    rw [told_opened before region members.name, List.filterMap_append, sets]
    simp [Event.sets]
  · exact aloof.alternates alternates

theorem Changes.alternates (changes : Changes before after) (alternates : before.Alternates) :
    after.Alternates := by
  induction changes with
  | refl => exact alternates
  | tail _ change ih => exact change.alternates ih

end Turns

/-! ### What lies at the root -/

section Rooting

variable {before after machine : Machine}

private theorem SameChart.beneath (same : SameChart before after) {top : StateId}
    {region : RegionId} :
    after.Beneath top region ↔ before.Beneath top region := by
  unfold Beneath
  simp only [same.ownerOf?, same.below]

theorem Beneath.below {top state : StateId} {region : RegionId}
    (beneath : machine.Beneath top region) (contained : machine.containerOf? state = some region) :
    machine.Below top state := by
  obtain ⟨owner, owned, below⟩ := beneath
  exact below_iff_parent.mpr
    (Or.inr ⟨owner, parentOf?_eq_some.mpr ⟨region, contained, owned⟩, below⟩)

theorem Wired.beneath_of_below (wired : machine.Wired) {state : StateId} {region : RegionId}
    (below : machine.Below root state) (contained : machine.containerOf? state = some region) :
    machine.Beneath root region := by
  rcases below with rfl | ⟨outer, owned, inside⟩
  · rw [wired.rootFree] at contained
    cases contained
  · exact beneath_iff.mpr ⟨outer, owned, inside.within_container contained⟩

theorem Wired.below_parent (wired : machine.Wired) {state parent : StateId}
    (below : machine.Below root state) (isParent : machine.parentOf? state = some parent) :
    machine.Below root parent := by
  obtain ⟨region, contained, owned⟩ := parentOf?_eq_some.mp isParent
  obtain ⟨owner, ownedBy, belowOwner⟩ := wired.beneath_of_below below contained
  rw [owned] at ownedBy
  rw [Option.some.inj ownedBy]
  exact belowOwner

theorem Wired.isSome_of_below (wired : machine.Wired) {state : StateId}
    (below : machine.Below root state) : (machine.state? state).isSome := by
  rcases below with rfl | ⟨_, _, inside⟩
  · obtain ⟨node, found, _⟩ := kindOf?_eq_some.mp wired.rootKind
    rw [found]
    rfl
  · obtain ⟨nested, contained, _⟩ := inside_iff.mp inside
    exact isSome_of_contained contained

namespace Rooted

variable (rooted : before.Rooted)
include rooted

theorem below_of_entered {early late : List Event} {state : StateId} {name : String}
    (split : before.journal.toList = early ++ .notice (.entered state name) :: late) :
    before.Below root state := by
  apply rooted.states (.notice (.entered state name))
  · rw [split]
    exact List.mem_append_right _ (List.mem_cons_self ..)
  · rw [Event.sets_entered, if_pos rfl]
    simp

theorem below_of_active (retold : before.Retold) {state : StateId}
    (active : before.isStateActive state = true) : before.Below root state := by
  rw [← retold.states state] at active
  obtain ⟨early, late, name, split, _⟩ := exists_entry_of_replay active
  exact rooted.below_of_entered split

private theorem told_states (same : SameChart before after) {events : List Event}
    (told : Told before after events)
    (later : ∀ event ∈ events, ∀ state, event.sets state ≠ none → before.Below root state) :
    ∀ event ∈ after.journal.toList, ∀ state, event.sets state ≠ none → after.Below root state := by
  intro event member state sets
  rw [same.below]
  rw [told] at member
  rcases List.mem_append.mp member with earlier | now
  · exact rooted.states event earlier state sets
  · exact later event now state sets

private theorem told_state (same : SameChart before after) {event : Event} {state : StateId}
    {entering : Bool} (told : Told before after [event])
    (sets : ∀ other, event.sets other = if state = other then some entering else none)
    (below : before.Below root state) :
    ∀ event ∈ after.journal.toList, ∀ state, event.sets state ≠ none → after.Below root state := by
  apply rooted.told_states same told
  intro only member other isSet
  rw [List.mem_singleton.mp member, sets] at isSet
  have here : state = other := by
    by_contra different
    exact isSet (if_neg different)
  rw [← here]
  exact below

private theorem told_memory (same : SameChart before after) {events : List Event}
    (told : Told before after events) {region : RegionId}
    (memory : after.lastActive? region = before.lastActive? region)
    (none' : before.lastLeft? region events = none) :
    after.lastActive? region = after.lastLeft? region after.journal.toList := by
  rw [memory, same.lastLeft?, told, lastLeft?_append, none', Option.none_or]
  exact rooted.remembers region

theorem of_aloof (aloof : Aloof before after) : after.Rooted := by
  obtain ⟨events, told, unset⟩ := aloof.told
  constructor
  · intro region active
    rw [aloof.same.beneath]
    exact rooted.regions region (aloof.regions region active)
  · exact rooted.told_states aloof.same told fun event member state sets =>
      absurd (unset event member state) sets
  · exact fun region => rooted.told_memory aloof.same told (aloof.memory region)
      (lastLeft?_of_unset unset)

theorem entered {state : StateId} (below : before.Below root state) (name : String) :
    (before.entered state name).Rooted := by
  have same := sameChart_entered before state name
  have told := told_entered before state name
  constructor
  · intro region active
    rw [same.beneath]
    exact rooted.regions region active
  · exact rooted.told_state same told (fun other => Event.sets_entered other state name) below
  · exact fun region => rooted.told_memory same told rfl rfl

theorem opened {region : RegionId} {members : Region} (found : before.region? region = some members)
    (beneath : before.Beneath root region) : (before.opened region members.name).Rooted := by
  have same : SameChart before (before.opened region members.name) :=
    (sameChart_setRegionStatus before region _).trans (sameChart_note _ _)
  have told := told_opened before region members.name
  constructor
  · intro other active
    rw [same.beneath]
    rcases (isRegionActive_opened found members.name other).mp active with here | earlier
    · rw [here]
      exact beneath
    · exact rooted.regions other earlier
  · apply rooted.told_states same told
    intro event member other sets
    rw [List.mem_singleton.mp member] at sets
    exact absurd rfl sets
  · intro other
    apply rooted.told_memory same told _ rfl
    rw [lastActive?, lastActive?, Machine.opened, region?_note, setRegionStatus,
      region?_modifyRegion]
    split
    · cases before.region? other <;> rfl
    · rfl

theorem left (wired : before.Wired) (retold : before.Retold) {state : StateId} {node : StateNode}
    (found : before.state? state = some node) (active : node.status.isActive = true) :
    (before.left state node).Rooted := by
  have same := sameChart_left before state node
  have told := @told_left before state node
  have below := rooted.below_of_active retold ((isStateActive_eq found).trans active)
  constructor
  · intro region isActive
    rw [isRegionActive_left] at isActive
    rw [same.beneath]
    exact rooted.regions region isActive
  · exact rooted.told_state same told (fun other => Event.sets_left other state node.name) below
  · intro region
    have leaves : before.leftChild? region (.notice (.left state node.name)) =
        if node.kind = .normal ∧ node.container = some region then some state else none := by
      rw [leftChild?_left, containerOf?, kindOf?, found]
      simp [and_comm]
    by_cases here : node.kind = .normal ∧ node.container = some region
    · rw [if_pos here] at leaves
      rw [same.lastLeft?, told, lastLeft?_append]
      obtain ⟨owner, owned⟩ :=
        wired.exists_owner (containerOf?_eq_some.mpr ⟨node, found, here.2⟩)
      obtain ⟨members, present, _⟩ := ownerOf?_eq_some.mp owned
      have last : before.lastLeft? region [.notice (.left state node.name)] = some state := by
        simp [lastLeft?, leaves]
      rw [last, Option.some_or, lastActive?, region?_left, if_pos here, present]
      rfl
    · rw [if_neg here] at leaves
      apply rooted.told_memory same told
      · rw [lastActive?, lastActive?, region?_left, if_neg here]
      · simp [lastLeft?, leaves]

end Rooted

end Rooting

end Machine
end Chart
