import Chart.Proofs.Run.Triggering

set_option autoImplicit false

/-!
Joining regions. While a call runs, the journal shows which regions of which states have been
opened since the state was entered, and which have received a child since they were opened. A state
that was entered opens all its regions at once, an open region is closed only after it has received
a child, and when the last region of a state is closed the regions of the state join. Together this
makes sure that no region joins too early, twice, or not at all.
-/

namespace Chart

/-! ### What happened since a state was entered -/

/-- The region has been opened since the state was last entered. -/
def OpenedSince (journal : List Event) (state : StateId) (region : RegionId) : Prop :=
  ∃ event ∈ since (Event.enters state) journal, event.opens region = true

/-- The regions of the state have joined since it was last entered. -/
def JoinedSince (journal : List Event) (owner : StateId) : Prop :=
  ∃ event ∈ since (Event.enters owner) journal, event.joins owner = true

/-- A child of the region has been entered since the region was last opened. -/
def Machine.Received (machine : Machine) (journal : List Event) (region : RegionId) : Prop :=
  ∃ child, machine.containerOf? child = some region ∧
    ∃ event ∈ since (Event.opens region) journal, event.enters child = true

theorem exists_split_of_append {events early late rest : List Event} {event : Event}
    (absent : event ∉ late) (split : events ++ late = early ++ event :: rest) :
    ∃ rest', events = early ++ event :: rest' := by
  rcases List.append_eq_append_iff.mp split with ⟨between, _, isLate⟩ | ⟨between, isEvents, isRest⟩
  · exact absurd (by rw [isLate]; simp) absent
  · cases between with
    | nil =>
        rw [List.nil_append] at isRest
        exact absurd (by rw [← isRest]; simp) absent
    | cons first between =>
        obtain ⟨rfl, _⟩ := List.cons.inj isRest
        exact ⟨between, isEvents⟩

private theorem exists_mem_of_silent {early late : List Event} {tells : Event → Bool}
    (silent : ∀ event ∈ late, tells event = false)
    (told : ∃ event ∈ early ++ late, tells event = true) :
    ∃ event ∈ early, tells event = true := by
  obtain ⟨event, member, isTold⟩ := told
  rcases List.mem_append.mp member with earlier | later
  · exact ⟨event, earlier, isTold⟩
  · rw [silent event later] at isTold
    cases isTold

section Append

variable {early late : List Event} {state : StateId} {region : RegionId}

private theorem openedSince_append (stays : ∀ event ∈ late, event.enters state = false) :
    OpenedSince (early ++ late) state region ↔
      OpenedSince early state region ∨ ∃ event ∈ late, event.opens region = true := by
  unfold OpenedSince
  rw [since_append_unmarked stays]
  simp only [List.mem_append, or_and_right, exists_or]

private theorem joinedSince_append (stays : ∀ event ∈ late, event.enters state = false) :
    JoinedSince (early ++ late) state ↔
      JoinedSince early state ∨ ∃ event ∈ late, event.joins state = true := by
  unfold JoinedSince
  rw [since_append_unmarked stays]
  simp only [List.mem_append, or_and_right, exists_or]

private theorem received_append {machine : Machine}
    (stays : ∀ event ∈ late, event.opens region = false)
    (received : machine.Received early region) : machine.Received (early ++ late) region := by
  obtain ⟨child, contained, event, member, enters⟩ := received
  refine ⟨child, contained, event, ?_, enters⟩
  rw [since_append_unmarked stays]
  exact List.mem_append_left _ member

private theorem not_openedSince_entered (name : String) :
    ¬OpenedSince (early ++ [.notice (.entered state name)]) state region := by
  rintro ⟨event, member, _⟩
  rw [since_append_singleton, Event.enters_entered, if_pos (beq_self_eq_true state)] at member
  cases member

private theorem not_joinedSince_entered (name : String) :
    ¬JoinedSince (early ++ [.notice (.entered state name)]) state := by
  rintro ⟨event, member, _⟩
  rw [since_append_singleton, Event.enters_entered, if_pos (beq_self_eq_true state)] at member
  cases member

variable (ends : ∀ event ∈ late, event.begins = false)
include ends

private theorem openedSince_append_ends :
    OpenedSince (early ++ late) state region ↔ OpenedSince early state region := by
  rw [openedSince_append fun event member => Event.enters_of_begins (ends event member) state,
    or_iff_left]
  rintro ⟨event, member, opens⟩
  rw [Event.opens_of_begins (ends event member)] at opens
  cases opens

private theorem joinedSince_append_ends : JoinedSince (early ++ late) state ↔
    JoinedSince early state := by
  rw [joinedSince_append fun event member => Event.enters_of_begins (ends event member) state,
    or_iff_left]
  rintro ⟨event, member, joins⟩
  rw [Event.joins_of_begins (ends event member)] at joins
  cases joins

private theorem received_append_ends {machine : Machine}
    (received : machine.Received early region) :
    machine.Received (early ++ late) region :=
  received_append (fun event member => Event.opens_of_begins (ends event member) region) received

end Append

namespace Machine

variable {start before after : Machine} {events late : List Event}

private theorem Received.of_sameChart {journal : List Event} {region : RegionId}
    (received : before.Received journal region) (same : SameChart before after) :
    after.Received journal region := by
  obtain ⟨child, contained, entered⟩ := received
  exact ⟨child, by rw [same.containerOf?]; exact contained, entered⟩

private theorem Vacated.of_ends {region : RegionId} (vacated : after.Vacated region)
    (same : SameChart before after) (told : Told before after late)
    (ends : ∀ event ∈ late, event.begins = false) : before.Vacated region := by
  obtain ⟨child, early, rest, contained, split, active, quiet⟩ := vacated
  rw [same.containerOf?] at contained
  rw [told] at split
  rcases List.append_eq_append_iff.mp split with ⟨between, isEarly, isLate⟩ |
    ⟨between, isJournal, isRest⟩
  · refine ⟨child, before.journal.toList, [], contained, (List.append_nil _).symm, ?_, by simp⟩
    rw [isEarly] at active
    refine replay_of_append_unset active fun event member => ?_
    exact Event.sets_of_begins (ends event (by rw [isLate]; exact List.mem_append_left _ member)) _
  · refine ⟨child, early, between, contained, isJournal, active, fun event member => ?_⟩
    exact quiet event (by rw [isRest]; exact List.mem_append_left _ member)

private theorem Vacated.of_begun {region : RegionId} (vacated : after.Vacated region)
    (retold : after.Retold) {journal : List Event} {event : Event}
    (told : after.journal.toList = journal ++ [event]) (begins : event.begins = true) :
    ∃ child, after.containerOf? child = some region ∧ after.isStateActive child = true := by
  obtain ⟨child, early, rest, contained, split, active, quiet⟩ := vacated
  refine ⟨child, contained, ?_⟩
  have noRest : rest = [] := by
    rcases List.eq_nil_or_concat' rest with isNil | ⟨first, last, isLast⟩
    · exact isNil
    · rw [isLast, told, ← List.append_assoc] at split
      have isEvent := List.singleton_inj.mp (List.append_inj' split rfl).2
      have ended := quiet last (by
        rw [isLast]
        exact List.mem_append_right _ (List.mem_singleton_self last))
      rw [← isEvent, begins] at ended
      cases ended
  rw [noRest, List.append_nil] at split
  rw [← retold.states, split]
  exact active

private theorem vacated_of_active {machine : Machine} (retold : machine.Retold) {child : StateId}
    {region : RegionId} (contained : machine.containerOf? child = some region)
    (active : machine.isStateActive child = true) : machine.Vacated region :=
  ⟨child, machine.journal.toList, [], contained, (List.append_nil _).symm,
    by rw [retold.states]; exact active, by simp⟩

/-! ### At every moment of a call -/

/-- A state whose regions have joined since it was entered has none that is active, and only
regions that exist have ever been opened. -/
structure JoinedIdle (machine : Machine) : Prop where
  idle : ∀ owner, machine.isStateActive owner = true →
    JoinedSince machine.journal.toList owner →
    ∀ region ∈ machine.regionsOf owner, machine.isRegionActive region = false
  known : ∀ event ∈ machine.journal.toList, ∀ region, event.opens region = true →
    (machine.region? region).isSome = true

/-- If the state is active, and its regions have been opened since it was entered and are all
inactive again, then they have joined. -/
def Due (machine : Machine) (owner : StateId) : Prop :=
  machine.isStateActive owner = true →
    (∃ region ∈ machine.regionsOf owner,
      OpenedSince machine.journal.toList owner region) →
    (∀ region ∈ machine.regionsOf owner, machine.isRegionActive region = false) →
    JoinedSince machine.journal.toList owner

/-- The state has gone on since it was entered: it has been left, or its regions have been
opened. -/
def Underway (machine : Machine) (state : StateId) : Prop :=
  machine.isStateActive state = false ∨ JoinedSince machine.journal.toList state ∨
    ∃ region ∈ machine.regionsOf state, machine.isRegionActive region = true ∨
      OpenedSince machine.journal.toList state region

/-- A state that has gone on after a step had done so before, if the step did not take it on. -/
theorem Underway.before_step {state : StateId} (underway : after.Underway state)
    (same : SameChart before after)
    (patternStored : after.isStateActive state = false → before.Underway state)
    (joined : JoinedSince after.journal.toList state → JoinedSince before.journal.toList state)
    (active : ∀ region ∈ before.regionsOf state, after.isRegionActive region = true →
      before.isRegionActive region = true)
    (opened : ∀ region ∈ before.regionsOf state, OpenedSince after.journal.toList state region →
      OpenedSince before.journal.toList state region) : before.Underway state := by
  rcases underway with inactive | hasJoined | ⟨region, listed, going⟩
  · exact patternStored inactive
  · exact Or.inr (Or.inl (joined hasJoined))
  · rw [same.regionsOf] at listed
    exact Or.inr (Or.inr ⟨region, listed, going.imp (active region listed) (opened region listed)⟩)

private theorem JoinedIdle.known_after (joinedIdle : before.JoinedIdle)
    (same : SameChart before after)
    (told : Told before after late)
    (fresh : ∀ event ∈ late, ∀ region, event.opens region = true →
      (before.region? region).isSome = true) :
    ∀ event ∈ after.journal.toList, ∀ region, event.opens region = true →
      (after.region? region).isSome = true := by
  intro event member region opens
  have known : (before.region? region).isSome = true := by
    rw [told] at member
    rcases List.mem_append.mp member with earlier | later
    · exact joinedIdle.known event earlier region opens
    · exact fresh event later region opens
  obtain ⟨members, found⟩ := Option.isSome_iff_exists.mp known
  obtain ⟨members', found', _⟩ := same.region?_forward found
  rw [found']
  rfl

/-- What held when the regions of a state joined: they were inactive for the first time since the
state was entered, and no entry begun in the same call at the state or below it was unfinished. -/
structure Completed (machine : Machine) (earlier told : List Event) (owner : StateId) : Prop where
  active : replay (Event.sets owner) (earlier ++ told) = true
  inactive : ∀ region ∈ machine.regionsOf owner,
    replay (Event.setsRegion region) (earlier ++ told) = false
  first : ¬JoinedSince (earlier ++ told) owner
  executed : ∀ state, machine.Below owner state → (∃ event ∈ told, event.enters state = true) →
    ∀ region ∈ machine.regionsOf state,
      OpenedSince (earlier ++ told) state region ∧ machine.Received (earlier ++ told) region

private theorem Completed.of_sameChart {earlier told : List Event} {owner : StateId}
    (completed : before.Completed earlier told owner) (same : SameChart before after) :
    after.Completed earlier told owner where
  active := completed.active
  inactive := by
    rw [same.regionsOf]
    exact completed.inactive
  first := completed.first
  executed := by
    intro state below entered region listed
    rw [same.regionsOf] at listed
    obtain ⟨opened, received⟩ :=
      completed.executed state (same.below.mp below) entered region listed
    exact ⟨opened, received.of_sameChart same⟩

/-- The joins told during a call were completions, and everything begun during the call goes on
towards one. -/
structure Joining (start machine : Machine) (events : List Event) : Prop extends
    JoinedIdle machine where
  told : Told start machine events
  received : ∀ region, (∃ event ∈ events, event.opens region = true) →
    machine.isRegionActive region = false ∨ machine.Vacated region →
    machine.Received machine.journal.toList region
  opened : ∀ state, (∃ event ∈ events, event.enters state = true) → machine.Underway state →
    ∀ region ∈ machine.regionsOf state, OpenedSince machine.journal.toList state region
  completed : ∀ early late owner name, events = early ++ .notice (.joined owner name) :: late →
    machine.Completed start.journal.toList early owner


/-! ### Steps that begin nothing -/

/-- Nothing has become active, and nothing was told that begins anything. -/
structure NoneBegun (late : List Event) (before after : Machine) : Prop where
  same : SameChart before after
  told : Told before after late
  ends : ∀ event ∈ late, event.begins = false
  states : ∀ state, after.isStateActive state = true → before.isStateActive state = true
  regions : ∀ region, after.isRegionActive region = true → before.isRegionActive region = true

theorem Still.noneBegun (still : Still before after) : ∃ late, NoneBegun late before after := by
  obtain ⟨late, told, quiet⟩ := still.told
  exact ⟨late,
    { same := still.sameChart
      told := told
      ends := fun event member => Event.begins_of_moves (quiet event member)
      states := fun state active => by rw [← still.states]; exact active
      regions := fun region active => by rw [← still.isRegionActive]; exact active }⟩

theorem Emptied.noneBegun {gone : StateId → Prop} {shut : RegionId → Prop}
    (emptied : Emptied gone shut before after) : ∃ late, NoneBegun late before after := by
  obtain ⟨late, told, ends, _⟩ := emptied.told
  refine ⟨late,
    { same := emptied.changes.sameChart
      told := told
      ends := ends
      states := fun state active => ?_
      regions := fun region active => ?_ }⟩
  · by_cases isGone : gone state
    · rw [emptied.left state isGone] at active
      cases active
    · rw [← emptied.statuses state isGone]
      exact active
  · by_cases isShut : shut region
    · rw [emptied.closed region isShut] at active
      cases active
    · rw [← emptied.regionStatuses region isShut]
      exact active

theorem noneBegun_closed {machine : Machine} {region : RegionId} {members : Region}
    (found : machine.region? region = some members)
    (active : machine.isRegionActive region = true) :
    NoneBegun [.notice (.regionDeactivated region members.name)] machine
      (machine.closed region members.name) where
  same := by
    obtain ⟨members', found', isActive⟩ := isRegionActive_iff.mp active
    rw [found] at found'
    obtain rfl := Option.some.inj found'
    exact Changes.sameChart (Change.closeRegion found isActive).one
  told := told_closed machine region members.name
  ends := by simp [Event.begins]
  states := fun _ stays => stays
  regions := fun other stays => ((isRegionActive_closed region members.name other).mp stays).2

namespace NoneBegun

variable (noneBegun : NoneBegun late before after)
include noneBegun

private theorem openedSince {state : StateId} {region : RegionId} :
    OpenedSince after.journal.toList state region ↔
      OpenedSince before.journal.toList state region := by
  rw [noneBegun.told, openedSince_append_ends noneBegun.ends]

private theorem joinedSince {state : StateId} :
    JoinedSince after.journal.toList state ↔ JoinedSince before.journal.toList state := by
  rw [noneBegun.told, joinedSince_append_ends noneBegun.ends]

theorem joinedIdle (joinedIdle : before.JoinedIdle) : after.JoinedIdle where
  idle := by
    intro owner active joined region listed
    rw [noneBegun.same.regionsOf] at listed
    have inactive := joinedIdle.idle owner (noneBegun.states owner active)
      (noneBegun.joinedSince.mp joined)
      region listed
    refine Bool.eq_false_iff.mpr fun isActive => ?_
    rw [noneBegun.regions region isActive] at inactive
    cases inactive
  known := by
    refine joinedIdle.known_after noneBegun.same noneBegun.told fun event member region opens => ?_
    rw [Event.opens_of_begins (noneBegun.ends event member)] at opens
    cases opens

theorem due {owner : StateId} (due : before.Due owner)
    (stayOpen : after.isStateActive owner = true →
      ∀ region ∈ before.regionsOf owner, before.isRegionActive region = true →
        after.isRegionActive region = true) : after.Due owner := by
  intro active opened inactive
  simp only [noneBegun.same.regionsOf, noneBegun.openedSince] at opened inactive
  refine noneBegun.joinedSince.mpr
    (due (noneBegun.states owner active) opened fun region listed => ?_)
  refine Bool.eq_false_iff.mpr fun isActive => ?_
  have stays := stayOpen active region listed isActive
  rw [inactive region listed] at stays
  cases stays

theorem joining (joinedIdle : after.JoinedIdle) : Joining before after late where
  toJoinedIdle := joinedIdle
  told := noneBegun.told
  received := by
    rintro region ⟨event, member, opens⟩
    rw [Event.opens_of_begins (noneBegun.ends event member)] at opens
    cases opens
  opened := by
    rintro state ⟨event, member, enters⟩
    rw [Event.enters_of_begins (noneBegun.ends event member)] at enters
    cases enters
  completed := by
    rintro early rest owner name isSplit
    have ended := noneBegun.ends (.notice (.joined owner name)) (by rw [isSplit]; simp)
    cases ended

/-- A state is left only when it has gone on, and a region closed only when its child has been
left. -/
theorem joining_after (joining : Joining start before events)
    (leaves : ∀ state, before.isStateActive state = true → after.isStateActive state = false →
      before.Underway state ∨ before.regionsOf state = [])
    (shuts : ∀ region, before.isRegionActive region = true →
      after.isRegionActive region = false → before.Vacated region) :
    Joining start after (events ++ late) where
  toJoinedIdle := noneBegun.joinedIdle joining.toJoinedIdle
  told := joining.told.trans noneBegun.told
  received := by
    intro region opened quietNow
    have openedBefore := exists_mem_of_silent
      (fun event member => Event.opens_of_begins (noneBegun.ends event member) region) opened
    have quietBefore : before.isRegionActive region = false ∨ before.Vacated region := by
      rcases quietNow with inactive | vacated
      · cases isActive : before.isRegionActive region with
        | false => exact Or.inl rfl
        | true => exact Or.inr (shuts region isActive inactive)
      · exact Or.inr (vacated.of_ends noneBegun.same noneBegun.told noneBegun.ends)
    rw [noneBegun.told]
    exact received_append_ends noneBegun.ends
      ((joining.received region openedBefore quietBefore).of_sameChart noneBegun.same)
  opened := by
    intro state entered underway region listed
    have enteredBefore := exists_mem_of_silent
      (fun event member => Event.enters_of_begins (noneBegun.ends event member) state) entered
    rw [noneBegun.same.regionsOf] at listed
    refine noneBegun.openedSince.mpr (joining.opened state enteredBefore ?_ region listed)
    refine underway.before_step noneBegun.same (fun inactive => ?_) noneBegun.joinedSince.mp
      (fun other _ => noneBegun.regions other) fun _ _ => noneBegun.openedSince.mp
    cases isActive : before.isStateActive state with
    | false => exact Or.inl isActive
    | true =>
        refine (leaves state isActive inactive).resolve_right fun noRegions => ?_
        rw [noRegions] at listed
        cases listed
  completed := by
    intro early rest owner name isSplit
    obtain ⟨rest', earlier⟩ := exists_split_of_append (fun member => by
      have ended := noneBegun.ends _ member
      cases ended) isSplit
    exact (joining.completed early rest' owner name earlier).of_sameChart noneBegun.same

end NoneBegun

/-! ### What is told of steps that begin something -/

section Told

variable {machine : Machine} {state other owner : StateId} {region : RegionId} {name : String}

private theorem openedSince_entered (different : other ≠ state) :
    OpenedSince (machine.entered state name).journal.toList other region ↔
      OpenedSince machine.journal.toList other region := by
  rw [told_entered, openedSince_append (by simpa using different.symm)]
  simp [Event.opens, Event.setsRegion]

private theorem joinedSince_entered (different : other ≠ state) :
    JoinedSince (machine.entered state name).journal.toList other ↔
      JoinedSince machine.journal.toList other := by
  rw [told_entered, joinedSince_append (by simpa using different.symm)]
  simp [Event.joins]

private theorem not_underway_entered {node : StateNode} (coherent : machine.Coherent)
    (wired : machine.Wired) (found : machine.state? state = some node)
    (inactive : machine.isStateActive state = false) :
    ¬(machine.entered state name).Underway state := by
  rintro (patternStored | joined | ⟨nested, listed, active | opened⟩)
  · rw [(isStateActive_entered found name state).mpr (Or.inl rfl)] at patternStored
    cases patternStored
  · rw [told_entered] at joined
    exact not_joinedSince_entered name joined
  · rw [(sameChart_entered machine state name).regionsOf] at listed
    rw [isRegionActive_entered,
      coherent.region_inactive ((wired.owned nested state).mpr listed) inactive] at active
    cases active
  · rw [told_entered] at opened
    exact not_openedSince_entered name opened

private theorem openedSince_joined :
    OpenedSince (machine.joined owner).journal.toList state region ↔
      OpenedSince machine.journal.toList state region := by
  rw [joined, told_note, openedSince_append (by simp [Event.enters, Event.sets])]
  simp [Event.opens, Event.setsRegion]

private theorem joinedSince_joined :
    JoinedSince (machine.joined owner).journal.toList state ↔
      JoinedSince machine.journal.toList state ∨ state = owner := by
  rw [joined, told_note, joinedSince_append (by simp [Event.enters, Event.sets]),
    @eq_comm _ state owner]
  simp [Event.joins]

private theorem Opened.openedSince {regions : List RegionId}
    (opens : Opened regions machine after) :
    OpenedSince after.journal.toList state region ↔
      OpenedSince machine.journal.toList state region ∨ region ∈ regions := by
  rw [opens.told, openedSince_append (by simp [Event.enters, Event.sets])]
  simp

private theorem Opened.joinedSince {regions : List RegionId}
    (opens : Opened regions machine after) :
    JoinedSince after.journal.toList state ↔ JoinedSince machine.journal.toList state := by
  rw [opens.told, joinedSince_append (by simp [Event.enters, Event.sets])]
  simp [Event.joins]

private theorem JustEntered.not_joinedSince (fresh : machine.JustEntered owner) :
    ¬JoinedSince machine.journal.toList owner := by
  obtain ⟨earlier, name, touches⟩ := fresh
  obtain ⟨late, noneBegun⟩ := touches.toStill.noneBegun
  rw [noneBegun.joinedSince, told_entered]
  exact not_joinedSince_entered name

private theorem JustJoined.joinedSince (justJoined : machine.JustJoined owner) :
    JoinedSince machine.journal.toList owner := by
  obtain ⟨earlier, _, touches⟩ := justJoined
  obtain ⟨late, noneBegun⟩ := touches.toStill.noneBegun
  exact noneBegun.joinedSince.mpr (joinedSince_joined.mpr (Or.inr rfl))

private theorem Wired.not_listed_twice (wired : machine.Wired) (different : state ≠ owner)
    (listed : region ∈ machine.regionsOf state) : region ∉ machine.regionsOf owner := by
  intro also
  have one := (wired.owned region state).mpr listed
  rw [(wired.owned region owner).mpr also] at one
  exact different (Option.some.inj one).symm

end Told

/-! ### What is due after them -/

section Due

variable {machine : Machine} {state owner : StateId}

private theorem due_entered {node : StateNode} {name : String}
    (found : machine.state? state = some node)
    (due : machine.Due owner) : (machine.entered state name).Due owner := by
  intro active opened inactive
  by_cases here : owner = state
  · obtain ⟨region, _, opened⟩ := opened
    rw [here, told_entered] at opened
    exact absurd opened (not_openedSince_entered name)
  · simp only [(sameChart_entered machine state name).regionsOf, openedSince_entered here]
      at opened inactive
    exact (joinedSince_entered here).mpr
      (due (((isStateActive_entered found name owner).mp active).resolve_left here) opened inactive)

private theorem due_opened (wired : machine.Wired)
    (opens : Opened (machine.regionsOf state) machine after)
    (due : machine.Due owner) : after.Due owner := by
  intro active opened inactive
  obtain ⟨region, listed, openedRegion⟩ := opened
  simp only [opens.changes.sameChart.regionsOf] at listed inactive
  by_cases here : owner = state
  · rw [here] at listed inactive
    have nowActive := (opens.opened region).mpr (Or.inl listed)
    rw [inactive region listed] at nowActive
    cases nowActive
  · rw [opens.isStateActive] at active
    refine opens.joinedSince.mpr (due active ⟨region, listed, ?_⟩ fun other isListed => ?_)
    · exact (opens.openedSince.mp openedRegion).resolve_right (wired.not_listed_twice here listed)
    · refine Bool.eq_false_iff.mpr fun isActive => ?_
      have stays := (opens.opened other).mpr (Or.inr isActive)
      rw [inactive other isListed] at stays
      cases stays

private theorem due_joined (due : owner ≠ state → machine.Due owner) :
    (machine.joined state).Due owner := by
  intro active opened allInactive
  by_cases here : owner = state
  · exact joinedSince_joined.mpr (Or.inr here)
  · simp only [openedSince_joined] at opened allInactive
    exact joinedSince_joined.mpr (Or.inl (due here active opened allInactive))

end Due

/-! ### Steps that begin something -/

namespace Joining

variable {machine : Machine} (joining : Joining start machine events)
include joining

private theorem after_entered {state : StateId} {node : StateNode} (retold : machine.Retold)
    (coherent : machine.Coherent) (wired : machine.Wired)
    (found : machine.state? state = some node) (inactive : machine.isStateActive state = false) :
    Joining start (machine.entered state node.name)
      (events ++ [.notice (.entered state node.name)]) := by
  have enters : Change True machine (machine.entered state node.name) :=
    Change.enter found ((isStateActive_eq found).symm.trans inactive) (Or.inr (Or.inr trivial))
  have same := enters.sameChart
  have retoldAfter := enters.retold retold
  have told : Told machine (machine.entered state node.name)
      [.notice (.entered state node.name)] := told_entered machine state node.name
  have statuses (other : StateId) := isStateActive_entered found node.name other
  exact
    { idle := by
        intro owner active joined region listed
        by_cases here : owner = state
        · rw [here, told] at joined
          exact absurd joined (not_joinedSince_entered node.name)
        · rw [same.regionsOf] at listed
          exact joining.idle owner (((statuses owner).mp active).resolve_left here)
            ((joinedSince_entered here).mp joined) region listed
      known := joining.known_after same told (by simp [Event.opens, Event.setsRegion])
      told := joining.told.trans told
      received := by
        intro region opened quietNow
        have openedBefore :=
          exists_mem_of_silent (by simp [Event.opens, Event.setsRegion]) opened
        have known (quietBefore : machine.isRegionActive region = false ∨ machine.Vacated region) :
            (machine.entered state node.name).Received
              (machine.entered state node.name).journal.toList region := by
          rw [told]
          exact (received_append (by simp [Event.opens, Event.setsRegion])
            (joining.received region openedBefore quietBefore)).of_sameChart same
        rcases quietNow with inactive | vacated
        · exact known (Or.inl inactive)
        · obtain ⟨child, contained, active⟩ := vacated.of_begun retoldAfter told rfl
          rcases (statuses child).mp active with here | activeBefore
          · refine ⟨child, contained, .notice (.entered state node.name), ?_, by simp [here]⟩
            rw [told, since_append_unmarked (by simp [Event.opens, Event.setsRegion])]
            simp
          · rw [same.containerOf?] at contained
            exact known (Or.inr (vacated_of_active retold contained activeBefore))
      opened := by
        intro other entered underway region listed
        rw [same.regionsOf] at listed
        by_cases here : other = state
        · rw [here] at underway
          exact absurd underway (not_underway_entered coherent wired found inactive)
        · have enteredBefore := exists_mem_of_silent (by simpa using Ne.symm here) entered
          refine (openedSince_entered here).mpr
            (joining.opened other enteredBefore ?_ region listed)
          refine underway.before_step same (fun patternStored => Or.inl ?_)
            (joinedSince_entered here).mp
            (fun _ _ active => active) fun _ _ => (openedSince_entered here).mp
          refine Bool.eq_false_iff.mpr fun active => ?_
          rw [(statuses other).mpr (Or.inr active)] at patternStored
          cases patternStored
      completed := by
        intro early rest owner name isSplit
        obtain ⟨rest', earlier⟩ := exists_split_of_append (by simp) isSplit
        exact (joining.completed early rest' owner name earlier).of_sameChart same }

omit joining in
/-- A region whose child was active lately when the regions of a state have been opened is none of
these, and its child was active lately before. -/
theorem vacated_before_opened {owner : StateId} {region : RegionId} (retold : machine.Retold)
    (coherent : machine.Coherent) (wired : machine.Wired)
    (inactive : ∀ region ∈ machine.regionsOf owner, machine.isRegionActive region = false)
    (opens : Opened (machine.regionsOf owner) machine after) (vacated : after.Vacated region) :
    machine.Vacated region ∧ region ∉ machine.regionsOf owner := by
  have same := opens.changes.sameChart
  have told := opens.told
  rcases List.eq_nil_or_concat' (machine.regionsOf owner) with isNil | ⟨first, last, isLast⟩
  · rw [isNil] at told ⊢
    exact ⟨vacated.of_ends same told (by simp), List.not_mem_nil⟩
  · have lastTold : after.journal.toList =
        (machine.journal.toList ++ first.map fun region =>
          .notice (.regionActivated region (machine.regionName region))) ++
        [.notice (.regionActivated last (machine.regionName last))] := by
      rw [told, isLast]
      simp
    obtain ⟨child, contained, active⟩ :=
      vacated.of_begun (opens.changes.retold retold) lastTold rfl
    rw [same.containerOf?] at contained
    rw [opens.isStateActive] at active
    refine ⟨vacated_of_active retold contained active, fun listed => ?_⟩
    have around := coherent.container_active wired active contained
    rw [inactive region listed] at around
    cases around

private theorem after_opened {owner : StateId} (retold : machine.Retold)
    (coherent : machine.Coherent)
    (wired : machine.Wired)
    (inactive : ∀ region ∈ machine.regionsOf owner, machine.isRegionActive region = false)
    (fresh : machine.JustEntered owner) (opens : Opened (machine.regionsOf owner) machine after) :
    Joining start after (events ++ (machine.regionsOf owner).map fun region =>
      .notice (.regionActivated region (machine.regionName region))) := by
  set late := (machine.regionsOf owner).map fun region =>
    Event.notice (.regionActivated region (machine.regionName region)) with lateIs
  have same := opens.changes.sameChart
  have told : Told machine after late := opens.told
  have opensListed (region : RegionId) :
      (∃ event ∈ late, event.opens region = true) ↔ region ∈ machine.regionsOf owner := by
    simp [lateIs]
  have different {state : StateId} {region : RegionId} (notOwner : state ≠ owner)
      (listed : region ∈ machine.regionsOf state) : region ∉ machine.regionsOf owner :=
    wired.not_listed_twice notOwner listed
  exact
    { idle := by
        intro state active joined region listed
        rw [opens.isStateActive] at active
        rw [opens.joinedSince] at joined
        rw [same.regionsOf] at listed
        have notOwner : state ≠ owner := by
          rintro rfl
          exact fresh.not_joinedSince joined
        refine Bool.eq_false_iff.mpr fun isActive => ?_
        rcases (opens.opened region).mp isActive with isListed | activeBefore
        · exact different notOwner listed isListed
        · rw [joining.idle state active joined region listed] at activeBefore
          cases activeBefore
      known := by
        refine joining.known_after same told fun event member region isOpened => ?_
        have listed := (opensListed region).mp ⟨event, member, isOpened⟩
        obtain ⟨members, found, _⟩ := ownerOf?_eq_some.mp ((wired.owned region owner).mpr listed)
        rw [found]
        rfl
      told := joining.told.trans told
      received := by
        intro region opened quietNow
        have past : (machine.isRegionActive region = false ∨ machine.Vacated region) ∧
            region ∉ machine.regionsOf owner := by
          rcases quietNow with patternStored | vacated
          · have notActive := mt (opens.opened region).mpr (Bool.eq_false_iff.mp patternStored)
            obtain ⟨notListed, notBefore⟩ := not_or.mp notActive
            exact ⟨Or.inl (Bool.eq_false_iff.mpr notBefore), notListed⟩
          · obtain ⟨before, notListed⟩ :=
              vacated_before_opened retold coherent wired inactive opens vacated
            exact ⟨Or.inr before, notListed⟩
        have unopened : ∀ event ∈ late, event.opens region = false := by
          intro event member
          refine Bool.eq_false_iff.mpr fun isOpened => ?_
          exact past.2 ((opensListed region).mp ⟨event, member, isOpened⟩)
        rw [told]
        exact (received_append unopened (joining.received region
          (exists_mem_of_silent unopened opened) past.1)).of_sameChart same
      opened := by
        intro state entered underway region listed
        have enteredBefore := exists_mem_of_silent
          (by simp [lateIs, Event.enters, Event.sets]) entered
        rw [same.regionsOf] at listed
        rw [opens.openedSince]
        by_cases isOwner : state = owner
        · rw [isOwner] at listed
          exact Or.inr listed
        · refine Or.inl (joining.opened state enteredBefore ?_ region listed)
          refine underway.before_step same (fun patternStored => Or.inl ?_) opens.joinedSince.mp
            (fun nested isListed active => ?_) fun nested isListed isOpened => ?_
          · rw [opens.isStateActive] at patternStored
            exact patternStored
          · exact ((opens.opened nested).mp active).resolve_left (different isOwner isListed)
          · exact (opens.openedSince.mp isOpened).resolve_right (different isOwner isListed)
      completed := by
        intro early rest state name isSplit
        obtain ⟨rest', earlier⟩ := exists_split_of_append (by simp [lateIs]) isSplit
        exact (joining.completed early rest' state name earlier).of_sameChart same }

/-- While all regions of a state that has gone on are inactive, every entry that was begun at the
state or below it has been finished. -/
theorem executed {owner : StateId} (coherent : machine.Coherent) (wired : machine.Wired)
    (inactive : ∀ region ∈ machine.regionsOf owner, machine.isRegionActive region = false)
    (underway : (∃ event ∈ events, event.enters owner = true) → machine.Underway owner)
    {state : StateId} (below : machine.Below owner state)
    (entered : ∃ event ∈ events, event.enters state = true) {region : RegionId}
    (listed : region ∈ machine.regionsOf state) :
    OpenedSince machine.journal.toList state region ∧
      machine.Received machine.journal.toList region := by
  have goesOn : machine.Underway state ∧ machine.isRegionActive region = false := by
    rcases below with rfl | ⟨outer, owned, inside⟩
    · exact ⟨underway entered, inactive region listed⟩
    · have patternStored : machine.isStateActive state = false := by
        refine Bool.eq_false_iff.mpr fun active => ?_
        have around := coherent.active_around wired inside active
        rw [inactive outer ((wired.owned outer owner).mp owned)] at around
        cases around
      exact ⟨Or.inl patternStored,
        coherent.region_inactive ((wired.owned region state).mpr listed) patternStored⟩
  have opened := joining.opened state entered goesOn.1 region listed
  refine ⟨opened, joining.received region ?_ (Or.inl goesOn.2)⟩
  obtain ⟨entry, isEntry, enters⟩ := entered
  obtain ⟨event, member, opens⟩ := opened
  rw [joining.told, since_append_marked isEntry enters] at member
  exact ⟨event, mem_of_mem_since member, opens⟩

private theorem completed_now {owner : StateId} (retold : machine.Retold)
    (coherent : machine.Coherent)
    (wired : machine.Wired) (ownerActive : machine.isStateActive owner = true)
    (inactive : ∀ region ∈ machine.regionsOf owner, machine.isRegionActive region = false)
    (first : ¬JoinedSince machine.journal.toList owner)
    (underway : (∃ event ∈ events, event.enters owner = true) → machine.Underway owner) :
    machine.Completed start.journal.toList events owner := by
  have journal : start.journal.toList ++ events = machine.journal.toList := joining.told.symm
  refine { active := ?_, inactive := ?_, first := ?_, executed := ?_ }
  · rw [journal, retold.states]
    exact ownerActive
  · intro region listed
    rw [journal, retold.regions]
    exact inactive region listed
  · rw [journal]
    exact first
  · intro other below entered region listed
    rw [journal]
    exact joining.executed coherent wired inactive underway below entered listed

private theorem after_joined {owner : StateId} (retold : machine.Retold)
    (coherent : machine.Coherent)
    (wired : machine.Wired) (ownerActive : machine.isStateActive owner = true)
    (inactive : ∀ region ∈ machine.regionsOf owner, machine.isRegionActive region = false)
    (first : ¬JoinedSince machine.journal.toList owner)
    (underway : (∃ event ∈ events, event.enters owner = true) → machine.Underway owner) :
    Joining start (machine.joined owner)
      (events ++ [.notice (.joined owner (machine.stateName owner))]) := by
  have joins : Change True machine (machine.joined owner) := Change.join inactive
  have same := joins.sameChart
  have retoldAfter := joins.retold retold
  have told : Told machine (machine.joined owner)
      [.notice (.joined owner (machine.stateName owner))] := told_note machine _
  set after := machine.joined owner with afterIs
  set event : Event := .notice (.joined owner (machine.stateName owner)) with eventIs
  have enters (state : StateId) : event.enters state = false := rfl
  have opens (region : RegionId) : event.opens region = false := rfl
  have opened (state : StateId) (entered : ∃ event ∈ events, event.enters state = true)
      (goesOn : state = owner ∨ machine.Underway state) :
      ∀ region ∈ machine.regionsOf state, OpenedSince machine.journal.toList state region := by
    rcases goesOn with rfl | goesOn
    · exact joining.opened state entered (underway entered)
    · exact joining.opened state entered goesOn
  exact
    { idle := by
        intro state active joined region listed
        rw [same.regionsOf] at listed
        by_cases isOwner : state = owner
        · rw [isOwner] at listed
          exact inactive region listed
        · exact joining.idle state active
            ((joinedSince_joined.mp joined).resolve_right isOwner) region listed
      known := joining.known_after same told (by simp [opens])
      told := joining.told.trans told
      received := by
        intro region isOpened quietNow
        have past : machine.isRegionActive region = false ∨ machine.Vacated region := by
          refine quietNow.imp_right fun vacated => ?_
          obtain ⟨child, contained, active⟩ := vacated.of_begun retoldAfter told rfl
          rw [same.containerOf?] at contained
          exact vacated_of_active retold contained active
        rw [told]
        exact (received_append (by simp [opens]) (joining.received region
          (exists_mem_of_silent (by simp [opens]) isOpened) past)).of_sameChart same
      opened := by
        intro state entered goesOn region listed
        rw [same.regionsOf] at listed
        rw [afterIs, openedSince_joined]
        refine opened state (exists_mem_of_silent (by simp [enters]) entered) ?_ region listed
        by_cases isOwner : state = owner
        · exact Or.inl isOwner
        · right
          refine goesOn.before_step same Or.inl (fun joined => ?_) (fun _ _ active => active)
            fun _ _ => openedSince_joined.mp
          exact (joinedSince_joined.mp joined).resolve_right isOwner
      completed := by
        intro early rest state name isSplit
        rcases List.eq_nil_or_concat' rest with rfl | ⟨rest', last, rfl⟩
        · obtain ⟨isEarly, isLast⟩ := List.append_inj' isSplit rfl
          have isOwner : state = owner := by
            have equal : Event.notice (.joined owner (machine.stateName owner)) =
                .notice (.joined state name) := List.singleton_inj.mp isLast
            cases equal
            rfl
          rw [← isEarly, isOwner]
          exact (joining.completed_now retold coherent wired ownerActive inactive first
            underway).of_sameChart same
        · rw [← List.cons_append, ← List.append_assoc] at isSplit
          obtain ⟨earlier, _⟩ := List.append_inj' isSplit rfl
          exact (joining.completed early rest' state name earlier).of_sameChart same }

end Joining

end Machine

namespace Run

open Machine (Joining Emptied)

/-- What the operations of a machine keep, as seen from the start of a call. -/
def KeepsJoins (start before after : Machine) : Prop :=
  ((∃ events, Joining start before events) ∧ ∀ owner, before.Due owner) →
    (∃ events, Joining start after events) ∧ ∀ owner, after.Due owner

section KeepsJoins

variable {mayFail : Prop} {start before after machine : Machine}

theorem keepsJoins_still (still : Machine.Still before after) :
    KeepsJoins start before after := by
  rintro ⟨⟨events, joining⟩, due⟩
  obtain ⟨late, noneBegun⟩ := still.noneBegun
  refine ⟨⟨_, noneBegun.joining_after joining (fun state active inactive => ?_)
    fun region active inactive => ?_⟩, fun owner =>
      noneBegun.due (due owner) fun _ region _ active => ?_⟩
  · rw [still.states, active] at inactive
    cases inactive
  · rw [still.isRegionActive, active] at inactive
    cases inactive
  · rw [still.isRegionActive]
    exact active

theorem keepsJoins_emptied {state : StateId} (orderly : before.Orderly mayFail)
    (coherent : before.Coherent)
    (bare : ∀ region, before.ownerOf? region = some state → before.isRegionActive region = false)
    (passing : ∀ node, before.state? state = some node →
      node.kind = .normal ∨ node.kind = .root →
      node.config.autoTransition = true ∨ before.JustJoined state)
    (emptied : Emptied (before.Below state) (before.Beneath state) before after) :
    KeepsJoins start before after := by
  rintro ⟨⟨events, joining⟩, due⟩
  obtain ⟨late, noneBegun⟩ := emptied.noneBegun
  have stays (region : RegionId) (active : before.isRegionActive region = true) :
      after.isRegionActive region = true := by
    rw [emptied.regionStatuses region ?_]
    · exact active
    · intro beneath
      obtain ⟨outer, owned, within⟩ := Machine.beneath_iff.mp beneath
      have around := coherent.active_outside orderly.toWired within active
      rw [bare outer owned] at around
      cases around
  refine ⟨⟨_, noneBegun.joining_after joining (fun other active inactive => ?_)
    fun region active inactive => ?_⟩, fun owner =>
      noneBegun.due (due owner) fun _ region _ => stays region⟩
  · -- Only the state itself was active at it.
    have here : other = state := by
      by_contra different
      have below : before.Below state other := by
        by_contra notBelow
        rw [emptied.statuses other notBelow, active] at inactive
        cases inactive
      obtain ⟨region, owned, inside⟩ := below.resolve_left different
      have around := coherent.active_around orderly.toWired inside active
      rw [bare region owned] at around
      cases around
    subst here
    by_cases noRegions : before.regionsOf other = []
    · exact Or.inr noRegions
    · left
      obtain ⟨node, found, _⟩ := Machine.isStateActive_iff.mp active
      have kind : node.kind = .normal ∨ node.kind = .root := by
        have owns := orderly.owners other noRegions
        rw [Machine.kindOf?, found] at owns
        simpa using owns
      rcases passing node found kind with automatic | justJoined
      · have none' := orderly.calm.leaves other node found automatic
        rw [Machine.regionsOf, found] at noRegions
        exact absurd none' noRegions
      · exact Or.inr (Or.inl justJoined.joinedSince)
  · rw [stays region active] at inactive
    cases inactive

theorem keepsJoins_entered {state : StateId} {node : StateNode} (orderly : machine.Orderly mayFail)
    (coherent : machine.Coherent) (found : machine.state? state = some node)
    (ready : machine.Ready state) : KeepsJoins start machine (machine.entered state node.name) := by
  rintro ⟨⟨events, joining⟩, due⟩
  exact ⟨⟨_, joining.after_entered orderly.linked.retold coherent orderly.toWired found
    (ready_inactive ready)⟩, fun owner => Machine.due_entered found (due owner)⟩

/-- Closing a region keeps what the operations keep, apart from what then is due to its owner. -/
theorem joining_closed {events : List Event} (joining : Joining start machine events)
    (orderly : machine.Orderly mayFail) {region : RegionId} {members : Region}
    (found : machine.region? region = some members) (idle : machine.Idle region)
    (vacated : machine.Vacated region) (due : ∀ owner, machine.Due owner) :
    Joining start (machine.closed region members.name)
        (events ++ [.notice (.regionDeactivated region members.name)]) ∧
      ∀ owner, owner ≠ members.owner → (machine.closed region members.name).Due owner := by
  have noneBegun := Machine.noneBegun_closed found idle.1
  refine ⟨noneBegun.joining_after joining (fun state isActive inactive => ?_)
    fun other isActive inactive => ?_, fun owner different => noneBegun.due (due owner)
      fun _ other listed isActive => ?_⟩
  · rw [Machine.isStateActive_closed, isActive] at inactive
    cases inactive
  · have here : other = region := by
      by_contra different
      rw [Machine.isRegionActive_closed_of_ne members.name different, isActive] at inactive
      cases inactive
    rw [here]
    exact vacated
  · refine (Machine.isRegionActive_closed region members.name other).mpr ⟨?_, isActive⟩
    rintro rfl
    have owned : machine.ownerOf? other = some members.owner :=
      Machine.ownerOf?_eq_some.mpr ⟨members, found, rfl⟩
    rw [(orderly.owned other owner).mpr listed] at owned
    exact different (Option.some.inj owned)

theorem keepsJoins_closed {region : RegionId} {members : Region} (orderly : machine.Orderly mayFail)
    (found : machine.region? region = some members) (idle : machine.Idle region)
    (vacated : machine.Vacated region)
    (sibling : ∃ sibling ∈ machine.regionsOf members.owner, sibling ≠ region ∧
      machine.isRegionActive sibling = true) :
    KeepsJoins start machine (machine.closed region members.name) := by
  rintro ⟨⟨events, joining⟩, due⟩
  obtain ⟨joiningClosed, dueOthers⟩ := joining_closed joining orderly found idle vacated due
  refine ⟨⟨_, joiningClosed⟩, fun owner => ?_⟩
  by_cases isOwner : owner = members.owner
  · rintro _ _ inactive
    obtain ⟨other, listed, different, active⟩ := sibling
    have same := Machine.sameChart_setRegionStatus machine region .inactive
    have shut := inactive other (by rw [isOwner]; exact (same.regionsOf _).symm ▸ listed)
    rw [Machine.isRegionActive_closed_of_ne members.name different, active] at shut
    cases shut
  · exact dueOthers owner isOwner

theorem keepsJoins_joined {region : RegionId} {members : Region} (orderly : machine.Orderly mayFail)
    (coherent : machine.Coherent) (found : machine.region? region = some members)
    (idle : machine.Idle region) (vacated : machine.Vacated region)
    (inactive : ∀ sibling ∈ machine.regionsOf members.owner, sibling ≠ region →
      machine.isRegionActive sibling = false) :
    KeepsJoins start machine ((machine.closed region members.name).joined members.owner) := by
  rintro ⟨⟨events, joining⟩, due⟩
  obtain ⟨joiningClosed, dueOthers⟩ := joining_closed joining orderly found idle vacated due
  have owned : machine.ownerOf? region = some members.owner :=
    Machine.ownerOf?_eq_some.mpr ⟨members, found, rfl⟩
  have listed := (orderly.owned region members.owner).mp owned
  have ownerActive := coherent.owner_active idle.1 owned
  have moved := Machine.Moved.of_closed coherent found idle
  have orderlyClosed := orderly.of_changes moved.changes
  have allInactive : ∀ other ∈ (machine.closed region members.name).regionsOf members.owner,
      (machine.closed region members.name).isRegionActive other = false := by
    intro other isListed
    rw [moved.sameChart.regionsOf] at isListed
    refine Bool.eq_false_iff.mpr fun isActive => ?_
    obtain ⟨different, active⟩ :=
      (Machine.isRegionActive_closed region members.name other).mp isActive
    rw [inactive other isListed different] at active
    cases active
  have noneBegun := Machine.noneBegun_closed found idle.1
  refine ⟨⟨_, joiningClosed.after_joined orderlyClosed.linked.retold moved.coherent
    orderlyClosed.toWired ownerActive allInactive (fun joined => ?_) fun entered => ?_⟩,
    fun owner => Machine.due_joined (dueOthers owner)⟩
  · have patternStored :=
      joining.idle members.owner ownerActive (noneBegun.joinedSince.mp joined) region listed
    rw [idle.1] at patternStored
    cases patternStored
  · obtain ⟨event, member, enters⟩ := entered
    have earlier : ∃ event ∈ events, event.enters members.owner = true := by
      rcases List.mem_append.mp member with earlier | later
      · exact ⟨event, earlier, enters⟩
      · rw [Event.enters_of_begins (noneBegun.ends event later)] at enters
        cases enters
    have opened := joining.opened members.owner earlier
      (Or.inr (Or.inr ⟨region, listed, Or.inl idle.1⟩)) region listed
    rw [← moved.sameChart.regionsOf] at listed
    exact Or.inr (Or.inr ⟨region, listed, Or.inr (noneBegun.openedSince.mpr opened)⟩)

theorem respects_keepsJoins (mayFail : Prop) (start : Machine) :
    Respects mayFail (KeepsJoins start) where
  refl := fun _ holds => holds
  trans := fun first second holds => second (first holds)
  still := fun uneventful => keepsJoins_still uneventful.toStill
  emptied := fun orderly coherent _ bare passing emptied =>
    keepsJoins_emptied orderly coherent bare passing emptied
  opened := fun orderly coherent _ inactive fresh opens ⟨⟨_, joining⟩, due⟩ =>
    ⟨⟨_, joining.after_opened orderly.linked.retold coherent orderly.toWired inactive fresh
      opens⟩, fun owner => Machine.due_opened orderly.toWired opens (due owner)⟩
  closed := fun orderly _ found idle reachedTerminal sibling =>
    keepsJoins_closed orderly found idle reachedTerminal.vacated sibling
  joined := fun orderly coherent found idle reachedTerminal inactive =>
    keepsJoins_joined orderly coherent found idle reachedTerminal.vacated inactive
  entered := fun orderly coherent found ready _ =>
    keepsJoins_entered orderly coherent found ready
  resumed := fun orderly coherent found ready _ _ relates holds =>
    relates (keepsJoins_entered orderly coherent found ready holds)

end KeepsJoins

end Run

end Chart
