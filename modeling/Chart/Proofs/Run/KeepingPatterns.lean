import Chart.Proofs.Run.ResumingHistories

set_option autoImplicit false

/-!
Patterns that are kept. A pattern that is stored stays stored until a state inside its region is
entered; if the first such state is the history of the region, the pattern is active afterwards. And
a pattern that is active stays active through everything a cascade does: its states do not complete
by themselves, and no region inside is idle, so that nothing is left or entered there.
-/

namespace Chart

def Event.entry? : Event → Option StateId
  | .notice (.entered state _) => some state
  | _ => none

private theorem Event.entry?_of_begins {event : Event} (ends : event.begins = false) :
    event.entry? = none := by
  cases event with
  | notice notice => cases notice <;> first | rfl | cases ends
  | _ => rfl

def entries (events : List Event) : List StateId :=
  events.filterMap Event.entry?

private theorem entries_append (early late : List Event) :
    entries (early ++ late) = entries early ++ entries late :=
  List.filterMap_append

private theorem entries_eq_nil {events : List Event}
    (quiet : ∀ event ∈ events, event.entry? = none) :
    entries events = [] :=
  List.filterMap_eq_nil_iff.mpr quiet

namespace Machine

/-! ### The first entry inside a region -/

def NotEntered (machine : Machine) (region : RegionId) (events : List Event) : Prop :=
  ∀ state ∈ entries events, ¬machine.Inside region state

/-- The state is the first one inside the region that was entered. -/
def FirstEntered (machine : Machine) (region : RegionId) (events : List Event) (first : StateId) :
    Prop :=
  machine.Inside region first ∧ ∃ early late, entries events = early ++ first :: late ∧
    ∀ state ∈ early, ¬machine.Inside region state

section Entries

variable {machine before after : Machine} {region : RegionId} {events early late : List Event}
variable {first other : StateId}

private theorem notEntered_append :
    machine.NotEntered region (early ++ late) ↔
      machine.NotEntered region early ∧ machine.NotEntered region late := by
  unfold NotEntered
  rw [entries_append, List.forall_mem_append]

private theorem notEntered_of_quiet (quiet : ∀ event ∈ events, event.entry? = none) :
    machine.NotEntered region events := by
  unfold NotEntered
  rw [entries_eq_nil quiet]
  exact List.forall_mem_nil _

private theorem SameChart.notEntered (same : SameChart before after) :
    after.NotEntered region events ↔ before.NotEntered region events := by
  unfold NotEntered
  simp only [same.inside]

private theorem SameChart.firstEntered (same : SameChart before after) :
    after.FirstEntered region events first ↔ before.FirstEntered region events first := by
  unfold FirstEntered
  simp only [same.inside]

private theorem FirstEntered.after_quiet (entered : machine.FirstEntered region late first)
    (quiet : machine.NotEntered region early) :
    machine.FirstEntered region (early ++ late) first := by
  obtain ⟨inside, start, rest, split, silent⟩ := entered
  refine ⟨inside, entries early ++ start, rest, ?_, List.forall_mem_append.mpr ⟨quiet, silent⟩⟩
  rw [entries_append, split, List.append_assoc]

private theorem FirstEntered.append (entered : machine.FirstEntered region early first)
    (late : List Event) : machine.FirstEntered region (early ++ late) first := by
  obtain ⟨inside, start, rest, split, silent⟩ := entered
  refine ⟨inside, start, rest ++ entries late, ?_, silent⟩
  rw [entries_append, split, List.append_assoc, List.cons_append]

theorem FirstEntered.not_notEntered (entered : machine.FirstEntered region events first) :
    ¬machine.NotEntered region events := by
  obtain ⟨inside, start, rest, split, _⟩ := entered
  intro quiet
  refine quiet first ?_ inside
  rw [split]
  exact List.mem_append_right _ (List.mem_cons_self ..)

theorem FirstEntered.unique (one : machine.FirstEntered region events first)
    (two : machine.FirstEntered region events other) : first = other := by
  obtain ⟨insideOne, earlyOne, lateOne, splitOne, quietOne⟩ := one
  obtain ⟨insideTwo, earlyTwo, lateTwo, splitTwo, quietTwo⟩ := two
  rw [splitOne] at splitTwo
  rcases List.append_eq_append_iff.mp splitTwo with ⟨between, rest, same⟩ | ⟨between, rest, same⟩
  · cases between with
    | nil => exact (List.cons.inj same).1
    | cons state between =>
        obtain ⟨rfl, _⟩ := List.cons.inj same
        exact absurd insideOne (quietTwo first (by rw [rest]; simp))
  · cases between with
    | nil => exact (List.cons.inj same).1.symm
    | cons state between =>
        obtain ⟨rfl, _⟩ := List.cons.inj same
        exact absurd insideTwo (quietOne other (by rw [rest]; simp))

end Entries

/-! ### Active patterns -/

namespace PatternActive

variable {machine : Machine} {region : RegionId} {chosen : StateId → Prop}
variable (patternActive : machine.PatternActive region chosen) (wired : machine.Wired)
  (coherent : machine.Coherent)
include patternActive wired coherent

private theorem region_active : machine.isRegionActive region = true := by
  obtain ⟨child, contained, childChosen⟩ := patternActive.top
  exact patternActive.container_active wired coherent childChosen contained

omit wired in
private theorem not_idle {nested : RegionId} (within : machine.Within region nested) :
    ¬machine.Idle nested := by
  intro idle
  have child : ∃ child, machine.containerOf? child = some nested ∧ chosen child := by
    rcases within with rfl | ⟨owner, owned, inside⟩
    · exact patternActive.top
    · have active := coherent.owner_active idle.1 owned
      exact patternActive.filled owner nested
        ((patternActive.patternActive owner inside).mp active) owned
  obtain ⟨child, contained, childChosen⟩ := child
  have active :=
    (patternActive.patternActive child (patternActive.inside child childChosen)).mpr childChosen
  rw [idle.2 child contained] at active
  cases active

private theorem not_ready_inside {state : StateId} (ready : machine.Ready state) :
    ¬machine.Inside region state := by
  intro inside
  rcases ready with ⟨rfl, _⟩ | ⟨container, contained, idle⟩
  · exact wired.not_inside_root inside rfl
  · exact patternActive.not_idle coherent (inside.within_container contained) idle

/-- A state without active regions, which is not a chosen one without regions, has nothing to do
with what lies inside the region. -/
theorem not_below {top : StateId} (active : machine.isStateActive top = true)
    (bare : ∀ nested, machine.ownerOf? nested = some top → machine.isRegionActive nested = false)
    (owns : chosen top → ∃ nested, machine.ownerOf? nested = some top) {state : StateId}
    (inside : machine.Inside region state) : ¬machine.Below top state := by
  have outside : ¬machine.Inside region top := by
    intro insideTop
    have isChosen := (patternActive.patternActive top insideTop).mp active
    obtain ⟨nested, owned⟩ := owns isChosen
    obtain ⟨child, contained, childChosen⟩ := patternActive.filled top nested isChosen owned
    have nestedActive := patternActive.container_active wired coherent childChosen contained
    rw [bare nested owned] at nestedActive
    cases nestedActive
  rintro (rfl | ⟨outer, owned, insideOuter⟩)
  · exact outside inside
  · have outerActive : machine.isRegionActive outer = true := by
      rcases insideOuter.comparable inside with within | rfl | ⟨owner, owned', insideOwner⟩
      · exact coherent.active_outside wired within (patternActive.region_active wired coherent)
      · exact patternActive.region_active wired coherent
      · rw [owned] at owned'
        obtain rfl := Option.some.inj owned'
        exact absurd insideOwner outside
    rw [bare outer owned] at outerActive
    cases outerActive

end PatternActive

private theorem JustJoined.owns {machine : Machine} {owner : StateId}
    (justJoined : machine.JustJoined owner)
    (wired : machine.Wired) : ∃ region, machine.ownerOf? region = some owner := by
  obtain ⟨earlier, owns, touches⟩ := justJoined
  obtain ⟨region, listed⟩ := List.exists_mem_of_ne_nil _ owns
  have same : SameChart earlier machine := (sameChart_note earlier _).trans touches.sameChart
  rw [← same.regionsOf] at listed
  exact ⟨region, (wired.owned region owner).mpr listed⟩

/-! ### What a run does to a pattern -/

/-- A pattern that was stored when the events began: it still is if nothing inside the region was
entered, and it is active if the history of the region was entered first. -/
def PatternAfter (machine : Machine) (region : RegionId) (chosen : StateId → Prop)
    (events : List Event) : Prop :=
  (machine.NotEntered region events ∧ machine.PatternStored region chosen) ∨
    ∃ first, machine.FirstEntered region events first ∧
      (machine.historyOf? region = some first → machine.PatternActive region chosen)

private theorem PatternAfter.after_quiet {machine : Machine} {region : RegionId}
    {chosen : StateId → Prop}
    {early late : List Event} (patternAfter : machine.PatternAfter region chosen late)
    (quiet : machine.NotEntered region early) :
    machine.PatternAfter region chosen (early ++ late) := by
  rcases patternAfter with ⟨quietLate, patternStored⟩ | ⟨first, entered, resumesPatterns⟩
  · exact Or.inl ⟨notEntered_append.mpr ⟨quiet, quietLate⟩, patternStored⟩
  · exact Or.inr ⟨first, entered.after_quiet quiet, resumesPatterns⟩

end Machine

namespace Run

open Machine (SameChart Told Orderly)

structure PatternKept (region : RegionId) (chosen : StateId → Prop)
    (before after : Machine) : Prop where
  same : SameChart before after
  fromStored : ∃ events, Told before after events ∧
    (before.PatternStored region chosen → after.PatternAfter region chosen events)
  keeps : before.PatternActive region chosen → after.PatternActive region chosen

namespace PatternKept

variable {region : RegionId} {chosen : StateId → Prop} {before middle after : Machine}

private theorem of_quiet {events : List Event} (same : SameChart before after)
    (told : Told before after events)
    (quiet : ∀ event ∈ events, event.entry? = none)
    (patternStored : before.PatternStored region chosen → after.PatternStored region chosen)
    (keeps : before.PatternActive region chosen → after.PatternActive region chosen) :
    PatternKept region chosen before after where
  same := same
  fromStored := ⟨events, told, fun sleeps =>
    Or.inl ⟨Machine.notEntered_of_quiet quiet, patternStored sleeps⟩⟩
  keeps := keeps

theorem refl (machine : Machine) : PatternKept region chosen machine machine :=
  of_quiet (SameChart.refl machine) (Told.refl machine) (List.forall_mem_nil _) id id

theorem trans (first : PatternKept region chosen before middle)
    (second : PatternKept region chosen middle after) : PatternKept region chosen before after where
  same := first.same.trans second.same
  fromStored := by
    obtain ⟨early, toldEarly, afterEarly⟩ := first.fromStored
    obtain ⟨late, toldLate, afterLate⟩ := second.fromStored
    refine ⟨early ++ late, toldEarly.trans toldLate, fun patternStored => ?_⟩
    rcases afterEarly patternStored with ⟨quiet, storedMiddle⟩ | ⟨state, entered, resumesPatterns⟩
    · exact (afterLate storedMiddle).after_quiet (second.same.notEntered.mpr quiet)
    · refine Or.inr ⟨state, (second.same.firstEntered.mpr entered).append late, fun marked => ?_⟩
      rw [second.same.historyOf?] at marked
      exact second.keeps (resumesPatterns marked)
  keeps := fun patternActive => second.keeps (first.keeps patternActive)

theorem still (still : Machine.Still before after) : PatternKept region chosen before after := by
  obtain ⟨events, told, quiet⟩ := still.told
  exact of_quiet still.sameChart told
    (fun event member => Event.entry?_of_begins (Event.begins_of_moves (quiet event member)))
    (fun patternStored => patternStored.of_still still)
    fun patternActive => patternActive.of_kept still.sameChart fun state _ => still.states state

private theorem closed (machine : Machine) (closing : RegionId) (name : String) :
    PatternKept region chosen machine (machine.closed closing name) := by
  have same : SameChart machine (machine.closed closing name) :=
    (Machine.sameChart_setRegionStatus machine closing .inactive).trans (Machine.sameChart_note _ _)
  exact of_quiet same (Machine.told_closed machine closing name)
    (List.forall_mem_singleton.mpr rfl)
    (fun patternStored => patternStored.of_kept same
      (fun state _ => Machine.isStateActive_closed closing name state)
      fun inner _ => Machine.lastActive?_closed closing inner name)
    fun patternActive => patternActive.of_kept same fun state _ =>
      Machine.isStateActive_closed closing name state

private theorem joined (machine : Machine) (owner : StateId) :
    PatternKept region chosen machine (machine.joined owner) := by
  have same : SameChart machine (machine.joined owner) := Machine.sameChart_note machine _
  exact of_quiet same (Machine.told_note machine _) (List.forall_mem_singleton.mpr rfl)
    (fun patternStored => patternStored.of_kept same (fun _ _ => rfl) fun _ _ => rfl)
    fun patternActive => patternActive.of_kept same fun _ _ => rfl

/-- Entering a state decides about the pattern if the state is the first one inside the region, and
later on nothing does. -/
theorem entered {state : StateId} {node : StateNode} (orderly : before.Orderly True)
    (coherent : before.Coherent) (found : before.state? state = some node)
    (ready : before.Ready state)
    (later : PatternKept region chosen (before.entered state node.name) after)
    (resumesPatterns : before.PatternStored region chosen → before.historyOf? region = some state →
      after.PatternActive region chosen) : PatternKept region chosen before after where
  same := (Machine.sameChart_entered before state node.name).trans later.same
  fromStored := by
    obtain ⟨events, told, fromStored⟩ := later.fromStored
    have same := (Machine.sameChart_entered before state node.name).trans later.same
    refine ⟨_, (Machine.told_entered before state node.name).trans told, fun patternStored => ?_⟩
    by_cases inside : before.Inside region state
    · refine Or.inr ⟨state, ⟨same.inside.mpr inside, [], entries events, rfl,
        List.forall_mem_nil _⟩, fun marked => ?_⟩
      rw [same.historyOf?] at marked
      exact resumesPatterns patternStored marked
    · have outside : after.NotEntered region [.notice (.entered state node.name)] :=
        List.forall_mem_singleton.mpr fun isInside => inside (same.inside.mp isInside)
      exact (fromStored (patternStored.of_entered found inside)).after_quiet outside
  keeps := fun patternActive => later.keeps (patternActive.of_kept
    (Machine.sameChart_entered before state node.name) fun other inside => by
      rw [Bool.eq_iff_iff, Machine.isStateActive_entered found]
      refine or_iff_right ?_
      rintro rfl
      exact patternActive.not_ready_inside orderly.toWired coherent ready inside)

end PatternKept

theorem respects_patternKept (region : RegionId) (chosen : StateId → Prop) :
    Respects True (PatternKept region chosen) where
  refl := PatternKept.refl
  trans := PatternKept.trans
  still := fun uneventful => PatternKept.still uneventful.toStill
  emptied := by
    intro before after state orderly coherent active bare passing emptied
    obtain ⟨events, told, quiet, _⟩ := emptied.told
    refine PatternKept.of_quiet emptied.changes.sameChart told
      (fun event member => Event.entry?_of_begins (quiet event member))
      (fun patternStored => patternStored.of_emptied emptied)
      fun patternActive => patternActive.of_kept emptied.changes.sameChart fun other inside => ?_
    refine emptied.statuses other
      (patternActive.not_below orderly.toWired coherent active bare ?_ inside)
    intro isChosen
    obtain ⟨node, found, normal, lasting⟩ := patternActive.plain state isChosen
    rcases passing node found (Or.inl normal) with automatic | justJoined
    · rw [lasting] at automatic
      cases automatic
    · exact justJoined.owns orderly.toWired
  opened := by
    intro machine after owner _ _ _ _ _ opened
    exact PatternKept.of_quiet opened.changes.sameChart opened.told
      (List.forall_mem_map.mpr fun _ _ => rfl)
      (fun patternStored => patternStored.of_opened opened)
      fun patternActive => patternActive.of_kept opened.changes.sameChart fun state _ =>
        opened.isStateActive state
  closed := by
    intro machine closing members _ _ _ _ _ _
    exact PatternKept.closed machine closing members.name
  joined := by
    intro machine closing members _ _ _ _ _ _
    exact (PatternKept.closed machine closing members.name).trans
      (PatternKept.joined _ members.owner)
  entered := by
    intro machine state node orderly coherent found ready notHistory
    refine PatternKept.entered orderly coherent found ready (PatternKept.refl _) fun _ marked => ?_
    obtain ⟨_, depth, isHistory⟩ := contained_of_history orderly.toFormed marked
    obtain ⟨node', found', kind⟩ := Machine.kindOf?_eq_some.mp isHistory
    rw [found] at found'
    obtain rfl := Option.some.inj found'
    exact absurd kind (notHistory depth)
  resumed := by
    intro machine after state node history depth orderly coherent found ready _ result patternKept
    refine PatternKept.entered orderly coherent found ready patternKept
      fun patternStored marked => ?_
    have contained := (contained_of_history orderly.toFormed marked).1
    have active : machine.isRegionActive region = true := by
      rcases ready with ⟨isRoot, _⟩ | ⟨container, contained', idle⟩
      · rw [isRoot, orderly.rootFree] at contained
        cases contained
      · rw [contained] at contained'
        rw [Option.some.inj contained']
        exact idle.1
    exact ends_of_finished
      (resumesPatterns_calls depth machine region chosen state orderly coherent patternStored
        active marked) result

theorem Departed.fromStored {region : RegionId} {chosen : StateId → Prop} {top : StateId}
    {before after : Machine} (departed : Departed (PatternKept region chosen) top before after)
    (sleeps : ∀ ready empty : Machine, Machine.TouchesOnly top before ready →
      Machine.Emptied (ready.Below top) (ready.Beneath top) ready empty →
      empty.PatternStored region chosen) :
    ∃ events, Told before after events ∧ after.PatternAfter region chosen events := by
  obtain ⟨ready, empty, touches, emptied, settled⟩ := departed
  obtain ⟨early, toldEarly, quietEarly⟩ := touches.told
  obtain ⟨middle, toldMiddle, quietMiddle, _⟩ := emptied.told
  obtain ⟨late, toldLate, fromStored⟩ := settled.relates.fromStored
  have quietReady : after.NotEntered region early :=
    Machine.notEntered_of_quiet fun event member =>
      Event.entry?_of_begins (Event.begins_of_moves (quietEarly event member))
  have quietEmpty : after.NotEntered region middle :=
    Machine.notEntered_of_quiet fun event member =>
      Event.entry?_of_begins (quietMiddle event member)
  exact ⟨_, (toldEarly.trans toldMiddle).trans toldLate,
    (fromStored (sleeps ready empty touches emptied)).after_quiet
      (Machine.notEntered_append.mpr ⟨quietReady, quietEmpty⟩)⟩

end Run
end Chart
