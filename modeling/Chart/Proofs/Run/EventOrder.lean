import Chart.Proofs.Run.Consulting
import Chart.Proofs.Run.Disciplined
import Chart.Proofs.Run.Visits

set_option autoImplicit false

/-!
What a run tells in one piece. Whatever the callbacks do, nothing comes between the entry of a state
and the start of its entry behaviour, nor between the departure and the exit behaviour. A history
that is entered is left at once, and then the child its region remembers is to be entered, or the
initial state if there is none. `InOrder` says this of everything told between two machines; it is
closed under composition, since none of these pieces is cut by the end of a run.
-/

namespace Chart

namespace Machine

def EntersFirst (state : StateId) (events : List Event) : Prop :=
  ∃ name rest, events = .notice (.entered state name) :: rest

/-- What is told after the entry of a history, given what its region remembers. -/
inductive Resumption (machine : Machine) (history : StateId) (region : RegionId) :
    Option StateId → List Event → Prop
  | recalled {child : StateId} {name childName : String} {rest : List Event}
      (entersFirst : EntersFirst child rest) :
      Resumption machine history region (some child)
        (.notice (.left history name) :: .notice (.historyResumes child childName) :: rest)
  | fresh {initial : StateId} {name : String} {rest : List Event}
      (stored : (machine.region? region).map Region.initial = some initial)
      (entersFirst : EntersFirst initial rest) :
      Resumption machine history region none (.notice (.left history name) :: rest)

/-- Each history that is entered after what has been told earlier hands over. Where entries may be
missed, it may be that the state that was to be entered was not. -/
def Resuming (machine : Machine) (noMissedEntry : Prop) (earlier events : List Event) : Prop :=
  ∀ early late history name region depth,
    events = early ++ .notice (.entered history name) :: late →
    machine.kindOf? history = some (.history depth) →
    machine.containerOf? history = some region →
    (¬noMissedEntry ∧ ∃ event ∈ late, event.isMissedEntry = true) ∨
      machine.Resumption history region (machine.lastLeft? region (earlier ++ early)) late

structure InOrder (before after : Machine) : Prop where
  changes : Changes before after
  rooted : after.Rooted
  told : ∃ events, Told before after events ∧ before.Scripted events ∧
    before.Resuming False before.journal.toList events

/-- In order, and beginning with the entry of the state, unless that was not entered. -/
structure InOrderFrom (state : StateId) (before after : Machine) :
    Prop extends InOrder before after where
  entersFirst : ∃ events, Told before after events ∧
    ((∃ event ∈ events, event.isMissedEntry = true) ∨ EntersFirst state events)

structure Fit (machine : Machine) : Prop extends Formed machine where
  linked : machine.Linked
  rooted : machine.Rooted

section Resuming

variable {before middle after machine : Machine}

private theorem EntersFirst.append {state : StateId} {events : List Event}
    (entersFirst : EntersFirst state events)
    (later : List Event) : EntersFirst state (events ++ later) := by
  obtain ⟨name, rest, rfl⟩ := entersFirst
  exact ⟨name, rest ++ later, rfl⟩

private theorem Resumption.append {history : StateId} {region : RegionId} {memory : Option StateId}
    {events : List Event} (resumption : machine.Resumption history region memory events)
    (later : List Event) : machine.Resumption history region memory (events ++ later) := by
  cases resumption with
  | recalled entersFirst => exact .recalled (entersFirst.append later)
  | fresh stored entersFirst => exact .fresh stored (entersFirst.append later)

theorem Resumption.begins {history : StateId} {region : RegionId} {memory : Option StateId}
    {events : List Event} (resumption : machine.Resumption history region memory events) :
    ∃ name rest, events = .notice (.left history name) :: rest := by
  cases resumption with
  | recalled _ => exact ⟨_, _, rfl⟩
  | fresh _ _ => exact ⟨_, _, rfl⟩

private theorem SameChart.resumption (same : SameChart before after) {history : StateId}
    {region : RegionId} {memory : Option StateId} {events : List Event} :
    after.Resumption history region memory events ↔
      before.Resumption history region memory events := by
  have initials := same.readRegion Region.initial (fun _ => rfl) region
  constructor
  · intro resumption
    cases resumption with
    | recalled entersFirst => exact .recalled entersFirst
    | fresh stored entersFirst => exact .fresh (initials.symm.trans stored) entersFirst
  · intro resumption
    cases resumption with
    | recalled entersFirst => exact .recalled entersFirst
    | fresh stored entersFirst => exact .fresh (initials.trans stored) entersFirst

variable {noMissedEntry : Prop} {earlier early late events : List Event}

theorem SameChart.resuming (same : SameChart before after) :
    after.Resuming noMissedEntry earlier events ↔ before.Resuming noMissedEntry earlier events := by
  unfold Resuming
  simp only [same.kindOf?, same.containerOf?, same.lastLeft?, same.resumption]

theorem Resuming.append (first : machine.Resuming noMissedEntry earlier early)
    (second : machine.Resuming noMissedEntry (earlier ++ early) late) :
    machine.Resuming noMissedEntry earlier (early ++ late) := by
  intro front back history name region depth split isHistory contained
  rcases List.append_eq_append_iff.mp split with ⟨between, isFront, isLate⟩ | ⟨between,
    isEarly, isBack⟩
  · have resumes := second between back history name region depth isLate isHistory contained
    rw [List.append_assoc, ← isFront] at resumes
    exact resumes
  · cases between with
    | nil =>
        have resumes := second [] back history name region depth isBack.symm isHistory contained
        rw [List.append_nil] at isEarly
        rw [List.append_nil, isEarly] at resumes
        exact resumes
    | cons event rest =>
        obtain ⟨rfl, rfl⟩ := List.cons.inj isBack
        rcases first front rest history name region depth isEarly isHistory contained with
          ⟨slow, other, member, isMissedEntry⟩ | resumption
        · exact Or.inl ⟨slow, other, List.mem_append_left _ member, isMissedEntry⟩
        · exact Or.inr (resumption.append late)

private theorem Resuming.cons {event : Event}
    (later : machine.Resuming noMissedEntry (earlier ++ [event]) late)
    (head : ∀ history name region depth, event = .notice (.entered history name) →
      machine.kindOf? history = some (.history depth) →
      machine.containerOf? history = some region →
      (¬noMissedEntry ∧ ∃ other ∈ late, other.isMissedEntry = true) ∨
        machine.Resumption history region (machine.lastLeft? region earlier) late) :
    machine.Resuming noMissedEntry earlier (event :: late) := by
  intro front back history name region depth split isHistory contained
  cases front with
  | nil =>
      obtain ⟨isEvent, isLate⟩ := List.cons.inj split
      rw [List.append_nil, ← isLate]
      exact head history name region depth isEvent isHistory contained
  | cons first rest =>
      obtain ⟨rfl, isLate⟩ := List.cons.inj split
      have resumes := later rest back history name region depth isLate isHistory contained
      rw [List.append_assoc, List.singleton_append] at resumes
      exact resumes

theorem Resuming.of_noMissedEntry (resuming : machine.Resuming False earlier events)
    (unmissed : ∀ event ∈ events, event.isMissedEntry = false) :
    machine.Resuming True earlier events := by
  intro front back history name region depth split isHistory contained
  rcases resuming front back history name region depth split isHistory contained with
    ⟨_, event, member, isMissedEntry⟩ | resumption
  · rw [unmissed event] at isMissedEntry
    · cases isMissedEntry
    · rw [split]
      exact List.mem_append_right _ (List.mem_cons_of_mem _ member)
  · exact Or.inr resumption

theorem resuming_of_unentered
    (unentered : ∀ event ∈ events, ∀ state depth, event.sets state = some true →
      machine.kindOf? state ≠ some (.history depth)) :
    machine.Resuming noMissedEntry earlier events := by
  intro front back history name region depth split isHistory
  apply absurd isHistory
  apply unentered (.notice (.entered history name))
  · rw [split]
    exact List.mem_append_right _ (List.mem_cons_self ..)
  · rw [Event.sets_entered, if_pos rfl]

end Resuming

namespace InOrder

variable {before middle after machine : Machine}

theorem trans (first : InOrder before middle) (second : InOrder middle after) :
    InOrder before after where
  changes := first.changes.trans second.changes
  rooted := second.rooted
  told := by
    obtain ⟨early, toldEarly, scriptedEarly, resumingEarly⟩ := first.told
    obtain ⟨late, toldLate, scriptedLate, resumingLate⟩ := second.told
    have same := first.changes.sameChart
    rw [toldEarly] at resumingLate
    exact ⟨early ++ late, toldEarly.trans toldLate,
      scriptedEarly.append (same.scripted.mp scriptedLate),
      resumingEarly.append (same.resuming.mp resumingLate)⟩

private theorem of_calm {events : List Event} (changes : Changes before after)
    (rooted : after.Rooted)
    (told : Told before after events) (calm : ∀ event ∈ events, event.tellsVisit = false) :
    InOrder before after where
  changes := changes
  rooted := rooted
  told := by
    refine ⟨events, told, scripted_of_calm calm, resuming_of_unentered ?_⟩
    intro event member state _ sets
    rw [Event.sets_of_calm (calm event member)] at sets
    cases sets

theorem refl (rooted : machine.Rooted) : InOrder machine machine :=
  .of_calm Relation.ReflTransGen.refl rooted (Told.refl machine) (by simp)

theorem of_change {events : List Event} (rooted : before.Rooted) (change : Change True before after)
    (told : Told before after events) (calm : ∀ event ∈ events, event.tellsVisit = false) :
    InOrder before after := by
  apply InOrder.of_calm change.one _ told calm
  have tellsVisit {event : Event} (also : Told before after [event])
    (tellsVisit : event.tellsVisit = true) :
      False := by
    have same := told.unique also
    rw [same] at calm
    rw [calm event (List.mem_singleton_self event)] at tellsVisit
    cases tellsVisit
  rcases change.visiting with ⟨state, node, _, _, rfl⟩ | ⟨state, node, _, _, rfl⟩ |
    ⟨region, members, _, rfl⟩ | aloof
  · exact (tellsVisit (told_entered before state node.name) rfl).elim
  · exact (tellsVisit (told_left state node) rfl).elim
  · exact (tellsVisit (told_opened before region members.name) rfl).elim
  · exact rooted.of_aloof aloof

theorem note (rooted : machine.Rooted) {event : Event} (plain : event.isPlain = true)
    (calm : event.tellsVisit = false) : InOrder machine (machine.note event) :=
  .of_change rooted (.note event plain) (told_note machine event) (by simpa using calm)

theorem opened (rooted : machine.Rooted) {region : RegionId} {members : Region}
    (found : machine.region? region = some members) (inactive : members.status.isActive = false)
    (beneath : machine.Beneath root region) :
    InOrder machine (machine.opened region members.name) where
  changes := (Change.openRegion found inactive).one
  rooted := rooted.opened found beneath
  told := by
    have told := told_opened machine region members.name
    refine ⟨_, told, ?_, resuming_of_unentered (by simp [Event.sets])⟩
    intro state
    rfl

end InOrder

namespace InOrderFrom

variable {state : StateId} {before middle after : Machine}

theorem trans (inOrderFrom : InOrderFrom state before middle) (inOrder : InOrder middle after) :
    InOrderFrom state before after where
  toInOrder := inOrderFrom.toInOrder.trans inOrder
  entersFirst := by
    obtain ⟨early, toldEarly, entersFirst⟩ := inOrderFrom.entersFirst
    obtain ⟨late, toldLate, _⟩ := inOrder.told
    refine ⟨early ++ late, toldEarly.trans toldLate, ?_⟩
    apply entersFirst.imp
    · exact fun ⟨event, member, isMissedEntry⟩ =>
        ⟨event, List.mem_append_left _ member, isMissedEntry⟩
    · exact fun begins => begins.append late

theorem of_missed (rooted : before.Rooted) {event : Event} (plain : event.isPlain = true)
    (calm : event.tellsVisit = false) (isMissedEntry : event.isMissedEntry = true) :
    InOrderFrom state before (before.note event) where
  toInOrder := .note rooted plain calm
  entersFirst :=
    ⟨_, told_note before event, Or.inl ⟨event, List.mem_singleton_self event, isMissedEntry⟩⟩

end InOrderFrom

namespace Fit

variable {before after : Machine} (fit : before.Fit)
include fit

theorem of_inOrder (inOrder : InOrder before after) : after.Fit where
  toFormed := fit.toFormed.of_sameChart inOrder.changes.sameChart
  linked := inOrder.changes.linked fit.linked
  rooted := inOrder.rooted

theorem entered {state : StateId} {node : StateNode} (found : before.state? state = some node)
    (inactive : node.status.isActive = false) (below : before.Below root state) :
    (before.entered state node.name).Fit where
  toFormed := fit.toFormed.of_sameChart (sameChart_entered before state node.name)
  linked := (@Change.enter True _ _ _ found inactive (Or.inr (Or.inr trivial))).linked fit.linked
  rooted := fit.rooted.entered below node.name

private theorem left {state : StateId} {node : StateNode} (found : before.state? state = some node)
    (active : node.status.isActive = true) : (before.left state node).Fit where
  toFormed := fit.toFormed.of_sameChart (sameChart_left before state node)
  linked := (@Change.leave True _ _ _ found active).linked fit.linked
  rooted := fit.rooted.left fit.toWired fit.linked.retold found active

end Fit

/-! ### Entering and leaving one state -/

end Machine

private theorem StateNode.script_entering (node : StateNode) :
    node.script true = .entered :: if node.opening.isSome then [.entryStarted] else [] := by
  unfold script opening
  by_cases normal : node.kind = .normal <;> simp [normal]

private theorem StateNode.script_leaving (node : StateNode) :
    node.script false = .left :: if node.closing.isSome then [.exitStarted] else [] := by
  unfold script closing
  by_cases normal : node.kind = .normal <;> simp [normal]

namespace Machine

section Pieces

variable {machine after : Machine} {state : StateId} {node : StateNode}

private theorem told_starting {before : Machine} {events : List Event}
    (told : Told before machine events)
    (phase : Phase) (state : StateId) (behavior : Option Behavior) :
    Told before (machine.starting phase state behavior)
      (events ++ if behavior.isSome then [.started phase state] else []) := by
  cases behavior with
  | none => exact told.trans (Told.refl machine)
  | some present => exact told.trans (told_note machine (.started phase state))

private theorem changes_starting (machine : Machine) (phase : Phase) (state : StateId)
    (behavior : Option Behavior) : Changes machine (machine.starting phase state behavior) := by
  cases behavior with
  | none => exact Relation.ReflTransGen.refl
  | some present => exact (Change.note (.started phase state) rfl).one

private theorem rooted_starting (rooted : machine.Rooted) (phase : Phase) (state : StateId)
    (behavior : Option Behavior) : (machine.starting phase state behavior).Rooted := by
  cases behavior with
  | none => exact rooted
  | some present => exact rooted.of_aloof (aloof_note rfl)

/-- A state is entered and starts what it opens with; histories in regions are treated as a
whole. -/
theorem InOrder.entered (fit : machine.Fit) (found : machine.state? state = some node)
    (inactive : node.status.isActive = false) (below : machine.Below root state)
    (other : ∀ depth, node.kind = .history depth → node.container = none) :
    InOrder machine ((machine.entered state node.name).starting .entry state node.opening) where
  changes := ((Change.enter found inactive (Or.inr (Or.inr trivial))).one).trans
    (changes_starting _ _ _ _)
  rooted := rooted_starting (fit.entered found inactive below).rooted _ _ _
  told := by
    refine ⟨_, told_starting (told_entered machine state node.name) _ _ _, ?_, ?_⟩
    · apply @scripted_of_script _ _ _ true _ found
      · cases node.opening <;> simp [Event.sets]
      · rw [StateNode.script_entering]
        cases node.opening <;> simp [Event.visit?]
      · intro other different
        cases node.opening <;> simp [Event.visit?, Event.sets, Ne.symm different]
    · rw [List.singleton_append]
      apply Resuming.cons
      · apply resuming_of_unentered
        cases node.opening <;> simp [Event.sets]
      · intro history name region depth isEntry isHistory contained
        obtain ⟨rfl, _⟩ : state = history ∧ node.name = name := by simpa using isEntry
        rw [kindOf?, found] at isHistory
        rw [containerOf?, found, Option.bind_some,
          other depth (Option.some.inj isHistory)] at contained
        cases contained

theorem InOrderFrom.entered (inOrder : InOrder machine
      ((machine.entered state node.name).starting .entry state node.opening)) :
    InOrderFrom state machine
    ((machine.entered state node.name).starting .entry state node.opening) where
  toInOrder := inOrder
  entersFirst := ⟨_, told_starting (told_entered machine state node.name) _ _ _, Or.inr ⟨_, _, rfl⟩⟩

theorem InOrder.left (fit : machine.Fit) (found : machine.state? state = some node)
    (active : node.status.isActive = true) :
    InOrder machine ((machine.left state node).starting .exit state node.closing) where
  changes := ((Change.leave found active).one).trans (changes_starting _ _ _ _)
  rooted := rooted_starting (fit.left found active).rooted _ _ _
  told := by
    refine ⟨_, told_starting (told_left state node) _ _ _, ?_, ?_⟩
    · apply @scripted_of_script _ _ _ false _ found
      · cases node.closing <;> simp [Event.sets]
      · rw [StateNode.script_leaving]
        cases node.closing <;> simp [Event.visit?]
      · intro other different
        cases node.closing <;> simp [Event.visit?, Event.sets, Ne.symm different]
    · apply resuming_of_unentered
      cases node.closing <;> simp [Event.sets]

theorem InOrderFrom.resumed {region : RegionId} {depth : HistoryDepth} (fit : machine.Fit)
    (found : machine.state? state = some node) (inactive : node.status.isActive = false)
    (history : node.kind = .history depth) (contained : node.container = some region)
    (inOrder : InOrder (machine.entered state node.name) after)
    (resumes : ∃ events, Told (machine.entered state node.name) after events ∧
      ((∃ event ∈ events, event.isMissedEntry = true) ∨
        machine.Resumption state region (machine.lastActive? region) events)) :
    InOrderFrom state machine after where
  changes := ((Change.enter found inactive (Or.inr (Or.inr trivial))).one).trans inOrder.changes
  rooted := inOrder.rooted
  entersFirst := by
    obtain ⟨events, toldLater, _⟩ := inOrder.told
    exact ⟨_ :: events, (told_entered machine state node.name).trans toldLater,
      Or.inr ⟨node.name, events, rfl⟩⟩
  told := by
    have same := sameChart_entered machine state node.name
    have told := told_entered machine state node.name
    obtain ⟨events, toldLater, scripted, resuming⟩ := inOrder.told
    rw [told] at resuming
    refine ⟨_ :: events, told.trans toldLater, ?_, (same.resuming.mp resuming).cons ?_⟩
    · rw [← List.singleton_append]
      apply Scripted.append _ (same.scripted.mp scripted)
      apply @scripted_of_script _ _ _ true _ found
      · simp [Event.sets]
      · simp [Event.visit?, StateNode.script, history]
      · intro other different
        simp [Event.visit?, Event.sets, Ne.symm different]
    · intro other name around depth' isEntry _ within
      obtain ⟨rfl, _⟩ : state = other ∧ node.name = name := by simpa using isEntry
      rw [containerOf?, found, Option.bind_some, contained] at within
      obtain rfl := Option.some.inj within
      obtain ⟨others, toldOthers, resumption⟩ := resumes
      obtain rfl := toldLater.unique toldOthers
      rw [fit.rooted.remembers region] at resumption
      exact resumption.imp_left fun missed => ⟨not_false, missed⟩

theorem resumption_recalled {left noted : Machine} {child : StateId} {region : RegionId}
    {name childName : String} (toldLeft : Told machine left [.notice (.left state name)])
    (toldNoted : Told left noted [.notice (.historyResumes child childName)])
    (inOrderFrom : InOrderFrom child noted after) (chart : Machine) :
    ∃ events, Told machine after events ∧ ((∃ event ∈ events, event.isMissedEntry = true) ∨
      chart.Resumption state region (some child) events) := by
  obtain ⟨events, told, entersFirst⟩ := inOrderFrom.entersFirst
  refine ⟨_, (toldLeft.trans toldNoted).trans told, ?_⟩
  apply entersFirst.imp
  · exact fun ⟨event, member, isMissedEntry⟩ =>
      ⟨event, List.mem_append_right _ member, isMissedEntry⟩
  · exact fun begins => .recalled begins

theorem resumption_fresh {left chart : Machine} {region : RegionId} {members : Region}
    {name : String} (stored : chart.region? region = some members)
    (toldLeft : Told machine left [.notice (.left state name)])
    (inOrderFrom : InOrderFrom members.initial left after) :
    ∃ events, Told machine after events ∧ ((∃ event ∈ events, event.isMissedEntry = true) ∨
      chart.Resumption state region none events) := by
  obtain ⟨events, told, entersFirst⟩ := inOrderFrom.entersFirst
  refine ⟨_, toldLeft.trans told, ?_⟩
  apply entersFirst.imp
  · exact fun ⟨event, member, isMissedEntry⟩ =>
      ⟨event, List.mem_append_right _ member, isMissedEntry⟩
  · exact fun begins => .fresh (by rw [stored]; rfl) begins

end Pieces

end Machine
end Chart
