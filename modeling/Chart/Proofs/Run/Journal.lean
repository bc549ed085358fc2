import Chart.Proofs.Forest.Occupancy

set_option autoImplicit false

/-!
What the journal tells. Every change of a status comes with a notice about it, so the statuses of
all states and regions can be replayed from the journal, at the present and at every earlier
moment.
-/

namespace Chart

namespace Event

/-- Tells of a status that has changed, or of regions that have joined. -/
def moves : Event → Bool
  | .notice (.entered _ _) | .notice (.left _ _) => true
  | .notice (.regionActivated _ _) | .notice (.regionDeactivated _ _) => true
  | .notice (.joined _ _) => true
  | _ => false

/-- Tells that a state was entered, that a region was opened, or that regions have joined. -/
def begins : Event → Bool
  | .notice (.entered _ _) | .notice (.regionActivated _ _) | .notice (.joined _ _) => true
  | _ => false

/-- What the event tells about whether the state is active. -/
def sets (state : StateId) : Event → Option Bool
  | .notice (.entered other _) => if other = state then some true else none
  | .notice (.left other _) => if other = state then some false else none
  | _ => none

/-- What the event tells about whether the region is active. -/
def setsRegion (region : RegionId) : Event → Option Bool
  | .notice (.regionActivated other _) => if other = region then some true else none
  | .notice (.regionDeactivated other _) => if other = region then some false else none
  | _ => none

def enters (state : StateId) (event : Event) : Bool :=
  event.sets state == some true

def opens (region : RegionId) (event : Event) : Bool :=
  event.setsRegion region == some true

def joins (owner : StateId) : Event → Bool
  | .notice (.joined other _) => other == owner
  | _ => false

def mistake? : Event → Option ConfigurationError
  | .notice (.misconfiguration error) => some error
  | _ => none

theorem moves_of_isPlain {event : Event} (plain : event.isPlain = true) :
    event.moves = false := by
  cases event with
  | notice notice => cases notice <;> first | rfl | cases plain
  | _ => rfl

theorem begins_of_moves {event : Event} (still : event.moves = false) :
    event.begins = false := by
  cases event with
  | notice notice => cases notice <;> first | rfl | cases still
  | _ => rfl

@[simp] theorem sets_entered (state other : StateId) (name : String) :
    Event.sets state (.notice (.entered other name)) = if other = state then some true else none :=
  rfl

@[simp] theorem sets_left (state other : StateId) (name : String) :
    Event.sets state (.notice (.left other name)) = if other = state then some false else none :=
  rfl

@[simp] theorem setsRegion_activated (region other : RegionId) (name : String) :
    Event.setsRegion region (.notice (.regionActivated other name)) =
      if other = region then some true else none := rfl

@[simp] theorem setsRegion_deactivated (region other : RegionId) (name : String) :
    Event.setsRegion region (.notice (.regionDeactivated other name)) =
      if other = region then some false else none := rfl

theorem sets_of_still {event : Event} (still : event.moves = false) (state : StateId) :
    event.sets state = none := by
  cases event with
  | notice notice => cases notice <;> first | rfl | cases still
  | _ => rfl

theorem setsRegion_of_still {event : Event} (still : event.moves = false) (region : RegionId) :
    event.setsRegion region = none := by
  cases event with
  | notice notice => cases notice <;> first | rfl | cases still
  | _ => rfl

theorem sets_of_begins {event : Event} (ends : event.begins = false) (state : StateId) :
    event.sets state ≠ some true := by
  cases event with
  | notice notice =>
      cases notice with
      | entered other name => cases ends
      | left other name =>
          rw [sets_left]
          split <;> simp
      | _ => simp [sets]
  | _ => simp [sets]

theorem setsRegion_of_begins {event : Event} (ends : event.begins = false) (region : RegionId) :
    event.setsRegion region ≠ some true := by
  cases event with
  | notice notice =>
      cases notice with
      | regionActivated other name => cases ends
      | regionDeactivated other name =>
          rw [setsRegion_deactivated]
          split <;> simp
      | _ => simp [setsRegion]
  | _ => simp [setsRegion]

theorem eq_entered_of_sets {event : Event} {state : StateId} (sets : event.sets state = some true) :
    ∃ name, event = .notice (.entered state name) := by
  cases event with
  | notice notice =>
      cases notice with
      | entered other name =>
          by_cases same : other = state
          · exact ⟨name, by rw [same]⟩
          · rw [sets_entered, if_neg same] at sets
            cases sets
      | left other name =>
          rw [sets_left] at sets
          split at sets <;> cases sets
      | _ => cases sets
  | _ => cases sets

theorem eq_left_of_sets {event : Event} {state : StateId} (sets : event.sets state = some false) :
    ∃ name, event = .notice (.left state name) := by
  cases event with
  | notice notice =>
      cases notice with
      | entered other name =>
          rw [sets_entered] at sets
          split at sets <;> cases sets
      | left other name =>
          by_cases same : other = state
          · exact ⟨name, by rw [same]⟩
          · rw [sets_left, if_neg same] at sets
            cases sets
      | _ => cases sets
  | _ => cases sets

theorem eq_deactivated_of_setsRegion {event : Event} {region : RegionId}
    (sets : event.setsRegion region = some false) :
    ∃ name, event = .notice (.regionDeactivated region name) := by
  cases event with
  | notice notice =>
      cases notice with
      | regionActivated other name =>
          rw [setsRegion_activated] at sets
          split at sets <;> cases sets
      | regionDeactivated other name =>
          by_cases same : other = region
          · exact ⟨name, by rw [same]⟩
          · rw [setsRegion_deactivated, if_neg same] at sets
            cases sets
      | _ => cases sets
  | _ => cases sets

@[simp] theorem enters_entered (state other : StateId) (name : String) :
    Event.enters state (.notice (.entered other name)) = (other == state) := by
  by_cases same : other = state <;> simp [enters, same]

@[simp] theorem opens_activated (region other : RegionId) (name : String) :
    Event.opens region (.notice (.regionActivated other name)) = (other == region) := by
  by_cases same : other = region <;> simp [opens, same]

theorem enters_of_begins {event : Event} (ends : event.begins = false) (state : StateId) :
    event.enters state = false := by
  simpa [enters] using sets_of_begins ends state

theorem opens_of_begins {event : Event} (ends : event.begins = false) (region : RegionId) :
    event.opens region = false := by
  simpa [opens] using setsRegion_of_begins ends region

theorem joins_of_begins {event : Event} (ends : event.begins = false) (owner : StateId) :
    event.joins owner = false := by
  cases event with
  | notice notice => cases notice <;> first | rfl | cases ends
  | _ => rfl

end Event

/-! ### Replaying -/

/-- What the last event that told anything told, and `false` before. -/
def replay (tells : Event → Option Bool) (events : List Event) : Bool :=
  events.foldl (fun value event => (tells event).getD value) false

section Replay

variable {tells : Event → Option Bool} {early late events : List Event}

theorem replay_append_singleton (tells : Event → Option Bool) (events : List Event)
    (event : Event) :
    replay tells (events ++ [event]) = (tells event).getD (replay tells events) := by
  unfold replay
  rw [List.foldl_append]
  rfl

theorem replay_append_silent (silent : ∀ event ∈ late, tells event = none) :
    replay tells (early ++ late) = replay tells early := by
  induction late using List.reverseRecOn with
  | nil => rw [List.append_nil]
  | append_singleton late event ih =>
      rw [← List.append_assoc, replay_append_singleton,
        silent event (List.mem_append_right _ (List.mem_singleton_self event))]
      exact ih fun other member => silent other (List.mem_append_left _ member)

theorem replay_append_of_true (holds : replay tells early = true)
    (unset : ∀ event ∈ late, tells event ≠ some false) : replay tells (early ++ late) = true := by
  induction late using List.reverseRecOn with
  | nil =>
      rw [List.append_nil]
      exact holds
  | append_singleton late event ih =>
      rw [← List.append_assoc, replay_append_singleton,
        ih fun other member => unset other (List.mem_append_left _ member)]
      cases told : tells event with
      | none => rfl
      | some value =>
          cases value with
          | true => rfl
          | false =>
              exact absurd told (unset event
                (List.mem_append_right _ (List.mem_singleton_self event)))

theorem replay_of_append_unset (holds : replay tells (early ++ late) = true)
    (unset : ∀ event ∈ late, tells event ≠ some true) : replay tells early = true := by
  induction late using List.reverseRecOn with
  | nil =>
      rw [List.append_nil] at holds
      exact holds
  | append_singleton late event ih =>
      refine ih ?_ fun other member => unset other (List.mem_append_left _ member)
      rw [← List.append_assoc, replay_append_singleton] at holds
      cases told : tells event with
      | none =>
          rw [told] at holds
          exact holds
      | some value =>
          rw [told] at holds
          obtain rfl : value = true := holds
          exact absurd told (unset event (List.mem_append_right _ (List.mem_singleton_self event)))

theorem exists_of_replay (holds : replay tells events = true) :
    ∃ early late event, events = early ++ event :: late ∧ tells event = some true ∧
      ∀ other ∈ late, tells other = none := by
  induction events using List.reverseRecOn with
  | nil => cases holds
  | append_singleton events event ih =>
      rw [replay_append_singleton] at holds
      cases told : tells event with
      | none =>
          rw [told] at holds
          obtain ⟨early, late, first, split, isTrue, silent⟩ := ih holds
          refine ⟨early, late ++ [event], first, by rw [split]; simp, isTrue,
            fun other member => ?_⟩
          rcases List.mem_append.mp member with inLate | here
          · exact silent other inLate
          · rw [List.mem_singleton.mp here]
            exact told
      | some value =>
          rw [told] at holds
          obtain rfl : value = true := holds
          exact ⟨events, [], event, rfl, told, fun _ impossible =>
            absurd impossible List.not_mem_nil⟩

theorem replay_append_of_late (holds : replay tells late = true) :
    replay tells (early ++ late) = true := by
  obtain ⟨first, last, event, rfl, told, silent⟩ := exists_of_replay holds
  rw [← List.append_assoc, ← List.singleton_append, ← List.append_assoc,
    replay_append_silent silent, replay_append_singleton, told]
  rfl

theorem replay_append_of_told (told : ∃ event ∈ late, tells event ≠ none) :
    replay tells (early ++ late) = replay tells late := by
  induction late using List.reverseRecOn with
  | nil => simp at told
  | append_singleton late event ih =>
      rw [← List.append_assoc, replay_append_singleton, replay_append_singleton]
      cases tellsLast : tells event with
      | some value => rfl
      | none =>
          obtain ⟨other, member, tellsOther⟩ := told
          rcases List.mem_append.mp member with earlier | last
          · exact ih ⟨other, earlier, tellsOther⟩
          · rw [List.mem_singleton.mp last, tellsLast] at tellsOther
            exact absurd rfl tellsOther

theorem replay_append_of_off {middle : List Event} (off : replay tells (early ++ middle) = false) :
    replay tells (early ++ middle ++ late) = replay tells (middle ++ late) := by
  have offSince : replay tells middle = false := by
    refine Bool.eq_false_iff.mpr fun holds => ?_
    rw [replay_append_of_late holds] at off
    cases off
  unfold replay at off offSince ⊢
  rw [List.foldl_append, off, List.foldl_append, offSince]

theorem exists_entry_of_replay {state : StateId}
    (active : replay (Event.sets state) events = true) :
    ∃ early late name, events = early ++ .notice (.entered state name) :: late ∧
      ∀ event ∈ late, event.sets state = none := by
  obtain ⟨early, late, event, split, entered, silent⟩ := exists_of_replay active
  obtain ⟨name, rfl⟩ := Event.eq_entered_of_sets entered
  exact ⟨early, late, name, split, silent⟩

end Replay

/-! ### Since the last event of a kind -/

/-- The events after the last marked one, and all of them when none is marked. -/
def since (marks : Event → Bool) (events : List Event) : List Event :=
  events.foldl (fun kept event => if marks event then [] else kept ++ [event]) []

section Since

variable {marks : Event → Bool} {early late events : List Event}

theorem since_append_singleton (marks : Event → Bool) (events : List Event) (event : Event) :
    since marks (events ++ [event]) =
      if marks event then [] else since marks events ++ [event] := by
  unfold since
  rw [List.foldl_append]
  rfl

theorem since_append_unmarked (unmarked : ∀ event ∈ late, marks event = false) :
    since marks (early ++ late) = since marks early ++ late := by
  induction late using List.reverseRecOn with
  | nil => rw [List.append_nil, List.append_nil]
  | append_singleton late event ih =>
      rw [← List.append_assoc, since_append_singleton,
        if_neg (by simp [unmarked event (List.mem_append_right _ (List.mem_singleton_self event))]),
        ih fun other member => unmarked other (List.mem_append_left _ member), List.append_assoc]

theorem since_append_marked {event : Event} (member : event ∈ late) (marked : marks event = true) :
    since marks (early ++ late) = since marks late := by
  induction late using List.reverseRecOn with
  | nil => exact absurd member List.not_mem_nil
  | append_singleton late last ih =>
      rw [← List.append_assoc, since_append_singleton, since_append_singleton]
      by_cases isMarked : marks last = true
      · rw [if_pos isMarked, if_pos isMarked]
      · rw [if_neg isMarked, if_neg isMarked]
        rcases List.mem_append.mp member with earlier | here
        · rw [ih earlier]
        · rw [List.mem_singleton.mp here] at marked
          exact absurd marked isMarked

theorem mem_of_mem_since {event : Event} (member : event ∈ since marks events) :
    event ∈ events := by
  induction events using List.reverseRecOn with
  | nil => cases member
  | append_singleton events last ih =>
      rw [since_append_singleton] at member
      split at member
      · cases member
      · rcases List.mem_append.mp member with earlier | here
        · exact List.mem_append_left _ (ih earlier)
        · exact List.mem_append_right _ here

end Since

namespace Machine

/-! ### What was told on the way -/

/-- What was told on the way from one machine to another. -/
def Told (before after : Machine) (events : List Event) : Prop :=
  after.journal.toList = before.journal.toList ++ events

theorem Told.refl (machine : Machine) : Told machine machine [] :=
  (List.append_nil _).symm

theorem Told.trans {before middle after : Machine} {early late : List Event}
    (first : Told before middle early) (second : Told middle after late) :
    Told before after (early ++ late) := by
  unfold Told at *
  rw [second, first, List.append_assoc]

theorem Told.unique {before after : Machine} {events others : List Event}
    (told : Told before after events) (also : Told before after others) : events = others :=
  List.append_cancel_left (told.symm.trans also)

theorem told_note (machine : Machine) (event : Event) : Told machine (machine.note event) [event] :=
  Array.toList_push

theorem told_entered (machine : Machine) (state : StateId) (name : String) :
    Told machine (machine.entered state name) [.notice (.entered state name)] :=
  told_note (machine.setStateStatus state .active) _

theorem told_left {machine : Machine} (state : StateId) (node : StateNode) :
    Told machine (machine.left state node) [.notice (.left state node.name)] := by
  have departs : Told machine (machine.departed state node.name)
      [.notice (.left state node.name)] := told_note _ _
  unfold left
  split
  · have remembers (current : Machine) :
        (current.remembered state node.container).journal = current.journal := by
      cases node.container <;> rfl
    unfold Told
    rw [remembers]
    exact departs
  · exact departs

theorem told_opened (machine : Machine) (region : RegionId) (name : String) :
    Told machine (machine.opened region name) [.notice (.regionActivated region name)] :=
  told_note (machine.setRegionStatus region .active) _

theorem told_closed (machine : Machine) (region : RegionId) (name : String) :
    Told machine (machine.closed region name) [.notice (.regionDeactivated region name)] :=
  told_note (machine.setRegionStatus region .inactive) _

/-! ### The journal and the statuses agree -/

structure Retold (machine : Machine) : Prop where
  states : ∀ state, replay (Event.sets state) machine.journal.toList = machine.isStateActive state
  regions : ∀ region,
    replay (Event.setsRegion region) machine.journal.toList = machine.isRegionActive region

theorem Retold.of_still {before after : Machine} {events : List Event} (retold : before.Retold)
    (told : Told before after events) (still : ∀ event ∈ events, event.moves = false)
    (states : ∀ state, after.isStateActive state = before.isStateActive state)
    (regions : ∀ region, after.isRegionActive region = before.isRegionActive region) :
    after.Retold where
  states := by
    intro state
    rw [told, replay_append_silent fun event member =>
      Event.sets_of_still (still event member) state, states]
    exact retold.states state
  regions := by
    intro region
    rw [told, replay_append_silent fun event member =>
      Event.setsRegion_of_still (still event member) region, regions]
    exact retold.regions region

private theorem Retold.modifyState {before current : Machine} {place : StateId}
    {change : StateNode → StateNode} {events : List Event} (retold : before.Retold)
    (sameStates : current.states = before.states) (sameRegions : current.regions = before.regions)
    (told : Told before current events) (still : ∀ event ∈ events, event.moves = false)
    (same : ∀ node, (change node).status = node.status) :
    (current.modifyState place change).Retold := by
  have stays : Told before (current.modifyState place change) events := told
  refine retold.of_still stays still ?_ ?_
  · intro state
    rw [isStateActive_modifyState change same]
    simp only [isStateActive, state?, sameStates]
  · intro region
    change current.isRegionActive region = _
    simp only [isRegionActive, region?, sameRegions]

theorem Change.retold {outer : Prop} {before after : Machine} (change : Change outer before after)
    (retold : before.Retold) : after.Retold := by
  cases change with
  | note event plain =>
      exact retold.of_still (told_note before event)
        (by simpa using Event.moves_of_isPlain plain) (fun _ => rfl) fun _ => rfl
  | write key value =>
      exact retold.modifyState rfl rfl (Told.refl before) (by simp) fun _ => rfl
  | @enter state node found _ _ =>
      constructor
      · intro other
        rw [told_entered before state node.name, replay_append_singleton, Event.sets_entered,
          Bool.eq_iff_iff, isStateActive_entered found node.name other, ← retold.states other]
        by_cases here : state = other
        · simp [here]
        · simp [here, Ne.symm here]
      · intro region
        rw [told_entered before state node.name, replay_append_singleton]
        exact retold.regions region
  | @leave state node found _ =>
      constructor
      · intro other
        rw [told_left state node, replay_append_singleton, Event.sets_left, Bool.eq_iff_iff,
          isStateActive_left other, ← retold.states other]
        by_cases here : state = other
        · simp [here]
        · simp [here, Ne.symm here]
      · intro region
        rw [told_left state node, replay_append_singleton, isRegionActive_left]
        exact retold.regions region
  | @openRegion region members found _ =>
      constructor
      · intro other
        rw [told_opened before region members.name, replay_append_singleton]
        exact retold.states other
      · intro other
        rw [told_opened before region members.name, replay_append_singleton,
          Event.setsRegion_activated, Bool.eq_iff_iff, isRegionActive_opened found,
          ← retold.regions other]
        by_cases here : region = other
        · simp [here]
        · simp [here, Ne.symm here]
  | @closeRegion region members _ _ =>
      constructor
      · intro other
        rw [told_closed before region members.name, replay_append_singleton]
        exact retold.states other
      · intro other
        rw [told_closed before region members.name, replay_append_singleton,
          Event.setsRegion_deactivated, Bool.eq_iff_iff, isRegionActive_closed,
          ← retold.regions other]
        by_cases here : region = other
        · simp [here]
        · simp [here, Ne.symm here]
  | @join owner _ =>
      constructor
      · intro other
        rw [joined, told_note before _, replay_append_singleton]
        exact retold.states other
      · intro other
        rw [joined, told_note before _, replay_append_singleton]
        exact retold.regions other
  | armTimer _ _ _ _ =>
      exact retold.modifyState rfl rfl (Told.refl before) (by simp) fun _ => rfl
  | @foldFrame handle _ _ _ _ _ =>
      exact retold.modifyState rfl rfl (told_note before (.delivered handle))
        (by simp [Event.moves]) fun _ => rfl
  | resetTimer _ _ => exact retold.modifyState rfl rfl (Told.refl before) (by simp) fun _ => rfl
  | requestFrame _ _ => exact retold.modifyState rfl rfl (Told.refl before) (by simp) fun _ => rfl
  | cancelFrame handle _ =>
      exact retold.of_still (Told.refl before) (by simp) (fun _ => rfl) fun _ => rfl
  | takeFrames _ => exact retold.of_still (Told.refl before) (by simp) (fun _ => rfl) fun _ => rfl
  | choose _ _ _ => exact retold.modifyState rfl rfl (Told.refl before) (by simp) fun _ => rfl
  | record id firing =>
      exact retold.of_still (told_note _ (.recorded id firing)) (by simp [Event.moves])
        (fun _ => rfl) fun _ => rfl

theorem Change.told {outer : Prop} {before after : Machine} (change : Change outer before after) :
    ∃ events, Told before after events := by
  cases change with
  | note event _ => exact ⟨_, told_note before event⟩
  | @enter state node _ _ _ => exact ⟨_, told_entered before state node.name⟩
  | @leave state node _ _ => exact ⟨_, told_left state node⟩
  | @openRegion region members _ _ => exact ⟨_, told_opened before region members.name⟩
  | @closeRegion region members _ _ => exact ⟨_, told_closed before region members.name⟩
  | @join owner _ => exact ⟨_, told_note before _⟩
  | @foldFrame handle _ _ _ _ _ => exact ⟨_, told_note before (.delivered handle)⟩
  | record id firing => exact ⟨_, told_note _ (.recorded id firing)⟩
  | write _ _ => exact ⟨[], Told.refl before⟩
  | armTimer _ _ _ _ => exact ⟨[], Told.refl before⟩
  | resetTimer _ _ => exact ⟨[], Told.refl before⟩
  | requestFrame _ _ => exact ⟨[], Told.refl before⟩
  | cancelFrame _ _ => exact ⟨[], Told.refl before⟩
  | takeFrames _ => exact ⟨[], Told.refl before⟩
  | choose _ _ _ => exact ⟨[], Told.refl before⟩

theorem Changes.told {before after : Machine} (changes : Changes before after) :
    ∃ events, Told before after events := by
  induction changes with
  | refl => exact ⟨[], Told.refl before⟩
  | tail _ change ih =>
      obtain ⟨early, toldEarly⟩ := ih
      obtain ⟨late, toldLate⟩ := change.told
      exact ⟨early ++ late, toldEarly.trans toldLate⟩

theorem Changes.retold {before after : Machine} (changes : Changes before after)
    (retold : before.Retold) : after.Retold := by
  induction changes with
  | refl => exact retold
  | tail _ change ih => exact change.retold ih

end Machine

end Chart
