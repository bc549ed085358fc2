import Chart.Proofs.Session.Configuration

set_option autoImplicit false

/-!
Entries of the root. Only the first state of an explicit entry may stand outside all regions, and
the entry follows directly on the record of the firing. So a machine that was left is entered again,
other than by starting it, only by a transition whose callbacks completed the machine and whose
target lies deeper than its source.
-/

namespace Chart

namespace Machine

/-- A change of a cascade tells at most one event, and enters the root only where a firing led
deeper. -/
theorem Change.told_root {before after : Machine} (change : Change False before after)
    (rootFree : before.containerOf? root = none) :
    (∃ events, Told before after events ∧ ∀ event ∈ events, event.enters root = false) ∨
      ∃ name, Told before after [.notice (.entered root name)] ∧ before.LeadsDeeper := by
  have silent (same : after.journal = before.journal) :
      ∃ events, Told before after events ∧ ∀ event ∈ events, event.enters root = false :=
    ⟨[], by rw [Told, same, List.append_nil], List.forall_mem_nil _⟩
  have once {event : Event} (told : Told before after [event])
      (other : event.enters root = false) :
      ∃ events, Told before after events ∧ ∀ event ∈ events, event.enters root = false :=
    ⟨[event], told, List.forall_mem_singleton.mpr other⟩
  cases change with
  | note event plain =>
      exact Or.inl (once (told_note before event) (Event.enters_of_begins
        (Event.begins_of_moves (Event.moves_of_isPlain plain)) root))
  | @enter state node found inactive placed =>
      by_cases isRoot : state = root
      · subst isRoot
        rw [rootFree] at placed
        rcases placed with impossible | deeper | impossible
        · cases impossible
        · exact Or.inr ⟨node.name, told_entered before root node.name, deeper⟩
        · exact impossible.elim
      · exact Or.inl (once (told_entered before state node.name) (by
          rw [Event.enters_entered, beq_eq_false_iff_ne]
          exact isRoot))
  | @leave state node _ _ =>
      exact Or.inl (once (told_left state node) (Event.enters_of_begins rfl root))
  | @openRegion region members _ _ =>
      exact Or.inl (once (told_opened before region members.name) rfl)
  | @closeRegion region members _ _ =>
      exact Or.inl (once (told_closed before region members.name) rfl)
  | @join owner _ => exact Or.inl (once (told_note before _) rfl)
  | @foldFrame handle _ _ _ _ _ => exact Or.inl (once (told_note before (.delivered handle)) rfl)
  | record id firing => exact Or.inl (once (told_note _ (.recorded id firing)) rfl)
  | write key value => exact Or.inl (silent rfl)
  | armTimer _ _ _ _ => exact Or.inl (silent rfl)
  | resetTimer _ _ => exact Or.inl (silent rfl)
  | requestFrame _ _ => exact Or.inl (silent rfl)
  | cancelFrame _ _ => exact Or.inl (silent rfl)
  | takeFrames impossible => exact impossible.elim
  | choose _ _ _ => exact Or.inl (silent rfl)

/-- From a moment of the journal on, every entry of the root follows directly on the firing of an
external transition that leads deeper. -/
def ReenteredSince (moment : Nat) (machine : Machine) : Prop :=
  ∀ early late name, machine.journal.toList = early ++ .notice (.entered root name) :: late →
    moment ≤ early.length → ∃ earlier id firing, early = earlier ++ [.recorded id firing] ∧
      firing.internal = false ∧ machine.Deepens id

private theorem exists_split_of_told {before after : Machine} {events early late : List Event}
    {event : Event} (told : Told before after events)
    (split : after.journal.toList = early ++ event :: late) (other : event ∉ events) :
    ∃ between, before.journal.toList = early ++ event :: between := by
  rw [told] at split
  rcases List.append_eq_append_iff.mp split with ⟨between, _, rest⟩ | ⟨between, earlier, rest⟩
  · rw [rest] at other
    exact absurd (List.mem_append_right _ (List.mem_cons_self ..)) other
  · cases between with
    | nil =>
        rw [← List.nil_append events, ← rest] at other
        exact absurd (List.mem_cons_self ..) other
    | cons first between =>
        obtain ⟨rfl, _⟩ := List.cons.inj rest
        exact ⟨between, earlier⟩

namespace ReenteredSince

variable {moment : Nat} {before after : Machine}

private theorem of_told {events : List Event} (reentered : ReenteredSince moment before)
    (told : Told before after events) (same : SameChart before after)
    (silent : ∀ event ∈ events, event.enters root = false) : ReenteredSince moment after := by
  intro early late name split since
  obtain ⟨between, earlier⟩ := exists_split_of_told told split fun member => by
    have impossible := silent _ member
    rw [Event.enters_entered, beq_self_eq_true] at impossible
    cases impossible
  obtain ⟨start, id, firing, isEarly, external, deepens⟩ :=
    reentered early between name earlier since
  exact ⟨start, id, firing, isEarly, external, deepens.of_sameChart same⟩

private theorem step (reentered : ReenteredSince moment before) (change : Change False before after)
    (rootFree : before.containerOf? root = none) : ReenteredSince moment after := by
  have same := change.sameChart
  rcases change.told_root rootFree with ⟨events, told, silent⟩ | ⟨name, told, deeper⟩
  · exact reentered.of_told told same silent
  · intro early late other split since
    obtain ⟨id, firing, last, external, deepens⟩ := deeper
    rcases List.eq_nil_or_concat late with rfl | ⟨between, event, rfl⟩
    · -- The root has been entered just now.
      rw [told] at split
      obtain ⟨isEarly, _⟩ := List.append_inj' split rfl
      obtain ⟨journal, isJournal⟩ := Array.back?_eq_some_iff.mp last
      refine ⟨journal.toList, id, firing, ?_, external, deepens.of_sameChart same⟩
      rw [← isEarly, isJournal, Array.toList_push]
    · rw [told, List.concat_eq_append, ← List.cons_append, ← List.append_assoc] at split
      obtain ⟨earlier, _⟩ := List.append_inj' split rfl
      obtain ⟨start, id, firing, isEarly, external, deepens⟩ :=
        reentered early between other earlier since
      exact ⟨start, id, firing, isEarly, external, deepens.of_sameChart same⟩

private theorem cascade (reentered : ReenteredSince moment before) (formed : before.Formed)
    (cascade : Cascade before after) : ReenteredSince moment after := by
  -- By induction on the cascade.
  induction cascade with
  | refl => exact reentered
  | tail earlier change ih =>
      refine ih.step change ?_
      rw [(changes_of_steps earlier).sameChart.containerOf?]
      exact formed.rootFree

private theorem now (machine : Machine) : ReenteredSince machine.journal.size machine := by
  intro early late name split since
  have lengths := congrArg List.length split
  rw [Array.length_toList, List.length_append, List.length_cons] at lengths
  omega

end ReenteredSince

/-- Whatever the callbacks do, a call other than start enters the root only directly after an
external transition has fired whose target lies deeper than its source. -/
theorem Reached.root_entered {terms : Terms} {machine after : Machine} {request : Request}
    {answer : Except MachineError Unit} (reached : machine.Reached terms)
    (returns : request.Returns machine answer after) {early late : List Event} {name : String}
    (split : after.journal.toList = early ++ .notice (.entered root name) :: late)
    (since : machine.journal.size ≤ early.length) :
    (request = .start ∧ early.length = machine.journal.size) ∨
      ∃ earlier id firing, early = earlier ++ [.recorded id firing] ∧ firing.internal = false ∧
        after.Deepens id := by
  have formed := reached.formed
  rcases returns.develops formed reached.linked with grown | ⟨opened, opens, cascade⟩
  · have reentered := ReenteredSince.now after
    rw [grown.journal] at reentered
    exact Or.inr (reentered early late name split since)
  · have reentered := (ReenteredSince.now opened).cascade
      (formed.of_sameChart opens.changes.sameChart) cascade
    cases opens with
    | nothing => exact Or.inr (reentered early late name split since)
    | frames => exact Or.inr (reentered early late name split since)
    | @root _ node found inactive =>
        by_cases first : early.length = machine.journal.size
        · exact Or.inl ⟨rfl, first⟩
        · refine Or.inr (reentered early late name split ?_)
          have entered : (machine.entered root node.name).journal.size =
              machine.journal.size + 1 := Array.size_push _
          omega

/-- A state that is left on the way to a nested target completes the machine from its exit
behaviour. -/
def dozerRequests : List Request :=
  [.construct (.createState (.plain "outer")), .construct (.addState ⟨3⟩),
    .construct (.appendRegion ⟨3⟩),
    .construct (.createState
      { StateDefinition.plain "last" with exit := some (firing "done" .null) }),
    .construct (.regionAddState ⟨1⟩ ⟨6⟩),
    .construct (.createState (.plain "middle")), .construct (.regionAddState ⟨1⟩ ⟨7⟩),
    .construct (.appendRegion ⟨7⟩),
    .construct (.createState (.plain "inner")), .construct (.regionAddState ⟨2⟩ ⟨10⟩),
    .construct (.createTransition (.initial "outer")), .construct (.addTransition ⟨0⟩),
    .construct (.createTransition (.initial "last")),
    .construct (.regionAddTransition ⟨1⟩ ⟨1⟩),
    .construct (.createTransition
      { TransitionDefinition.anonymous with name := some "done", source := some "outer" }),
    .construct (.addTransition ⟨2⟩),
    .construct (.createTransition (.simple "go" "last" "inner")),
    .construct (.regionAddTransition ⟨1⟩ ⟨3⟩), .start]

def dozer : Machine :=
  Request.outcome 12 dozerRequests (Machine.new "dozer" (.ofStem "auto"))

def dozerReentered : Machine :=
  Request.outcome 12 [.trigger ⟨3⟩ .null] dozer

private theorem dozer_plays :
    (Request.play 12 dozerRequests (Machine.new "dozer" (.ofStem "auto"))).isSome = true ∧
      (Request.play 12 [.trigger ⟨3⟩ .null] dozer).isSome = true ∧
      (dozerReentered.journal.toList.drop dozer.journal.size).filterMap (Event.sets root) =
        [false, true] ∧
      dozerReentered.journal.toList = dozerReentered.journal.toList.take 34 ++
        .notice (.entered root "dozer") :: dozerReentered.journal.toList.drop 35 ∧
      dozer.journal.size ≤ (dozerReentered.journal.toList.take 34).length := by
  decide +kernel

private theorem reached_dozer : dozer.Reached answered :=
  ⟨"dozer", .ofStem "auto",
    (session_outcome dozer_plays.1).weaken fun _ _ _ _ call => call.2⟩

private theorem returns_dozerReentered : (Request.trigger ⟨3⟩ .null).Returns dozer
    (.ok ()) dozerReentered :=
  returns_outcome dozer_plays.2.1

/-- One trigger, which is answered, leaves the root and enters it again. -/
theorem dozer_reentered : dozer.Reached answered ∧
    (Request.trigger ⟨3⟩ .null).Returns dozer (.ok ()) dozerReentered ∧
    (dozerReentered.journal.toList.drop dozer.journal.size).filterMap (Event.sets root) =
      [false, true] :=
  ⟨reached_dozer, returns_dozerReentered, dozer_plays.2.2.1⟩

/-- The root is entered again right after the transition has fired. -/
theorem dozer_root_entered :
    dozer.Reached answered ∧ (Request.trigger ⟨3⟩ .null).Returns dozer (.ok ()) dozerReentered ∧
      ∃ earlier id firing,
        dozerReentered.journal.toList.take 34 = earlier ++ [.recorded id firing] ∧
          firing.internal = false ∧ dozerReentered.Deepens id := by
  obtain ⟨_, _, _, split, since⟩ := dozer_plays
  refine ⟨reached_dozer, returns_dozerReentered, ?_⟩
  rcases Reached.root_entered reached_dozer returns_dozerReentered split since with
    ⟨impossible, _⟩ | reentered
  · cases impossible
  · exact reentered

end Machine

end Chart
