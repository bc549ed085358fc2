import Chart.Proofs.Run.KeepingOrder
import Chart.Proofs.Session.Configuration

set_option autoImplicit false

/-!
Visits in a session. A machine that is built and run in any order, with callbacks that do anything,
enters and leaves each state in turn, and with each visit it starts the behaviours of the state
once. Building does not touch this: the states that have been visited lie at the root, where they
keep their containers and their behaviours.
-/

namespace Chart

/-- Tells that a behaviour of the visit starts: that of the entry or that of the exit. -/
def Visit.starts? : Visit → Option Bool
  | .entryStarted => some true
  | .exitStarted => some false
  | .entered | .left => none

/-- A state with an entry and an exit behaviour starts the one when it is entered and the other when
it is left. -/
theorem StateNode.starts_script (node : StateNode) (normal : node.kind = .normal)
    (entry : node.entry.isSome) (exit : node.exit.isSome) (entering : Bool) :
    (node.script entering).filterMap Visit.starts? = [entering] := by
  cases entering <;> simp [StateNode.script, normal, entry, exit] <;> rfl

private theorem StateNode.Grown.script {before after : StateNode} (grown : before.Grown after) :
    after.script = before.script := by
  have normal := grown.kind.normal_iff
  have entry := StateNode.read_lasting grown.lasting StateNode.entry fun _ => rfl
  have exit := StateNode.read_lasting grown.lasting StateNode.exit fun _ => rfl
  funext entering
  cases entering <;> simp only [StateNode.script, normal, entry, exit]

namespace Machine

/-! ### Building -/

section Growth

variable {before after : Machine} (grown : Grown before after)
include grown

private theorem Grown.below {top state : StateId} (below : before.Below top state) :
    after.Below top state :=
  below.imp_right fun ⟨region, owned, inside⟩ =>
    ⟨region, grown.ownerOf? owned, grown.inside inside⟩

private theorem Grown.beneath {top : StateId} {region : RegionId}
    (beneath : before.Beneath top region) :
    after.Beneath top region := by
  obtain ⟨owner, owned, below⟩ := beneath
  exact ⟨owner, grown.ownerOf? owned, grown.below below⟩

private theorem Grown.script {state : StateId} (known : (before.state? state).isSome) :
    after.script state = before.script state := by
  obtain ⟨node, found⟩ := Option.isSome_iff_exists.mp known
  obtain ⟨node', found', grownNode⟩ := grown.states state node found
  funext entering
  rw [Machine.script, Machine.script, found, found']
  simp only [Option.map_some, grownNode.script]

private theorem Grown.lastActive? (region : RegionId) :
    after.lastActive? region = before.lastActive? region := by
  unfold Machine.lastActive?
  cases found : before.region? region with
  | none =>
      cases found' : after.region? region with
      | none => rfl
      | some members => exact (grown.newRegions region members found found').2
  | some members =>
      obtain ⟨members', found', grownRegion⟩ := grown.regions region members found
      rw [found']
      exact Region.read_lasting grownRegion.lasting Region.lastActive fun _ => rfl

private theorem Grown.alternates (alternates : before.Alternates) : after.Alternates := by
  intro state
  rw [grown.journal, grown.isStateActive]
  exact alternates state

variable (wired : before.Wired) (earlier : before.Rooted)
include wired

theorem Grown.containerOf?_of_below (wiredAfter : after.Wired) {state : StateId}
    (below : before.Below root state) : after.containerOf? state = before.containerOf? state := by
  rcases below with rfl | ⟨_, _, inside⟩
  · rw [wired.rootFree, wiredAfter.rootFree]
  · obtain ⟨nested, contained, _⟩ := inside_iff.mp inside
    rw [contained, grown.containerOf? contained]

include earlier

/-- A state that was never told of has no part in what is told; the others keep their scripts. -/
theorem Grown.scripted (scripted : before.Scripted before.journal.toList) :
    after.Scripted after.journal.toList := by
  intro state
  rw [grown.journal, scripted state]
  by_cases visited : ∃ event ∈ before.journal.toList, event.sets state ≠ none
  · obtain ⟨event, member, sets⟩ := visited
    rw [grown.script (wired.isSome_of_below (earlier.states event member state sets))]
  · have silent : before.journal.toList.filterMap (Event.sets state) = [] := by
      apply List.filterMap_eq_nil_iff.mpr
      intro event member
      by_contra sets
      exact visited ⟨event, member, sets⟩
    rw [silent, List.flatMap_nil, List.flatMap_nil]

variable (wiredAfter : after.Wired)
include wiredAfter

private theorem Grown.leftChild? {event : Event} (member : event ∈ before.journal.toList)
    (region : RegionId) : after.leftChild? region event = before.leftChild? region event := by
  cases event with
  | notice notice =>
      cases notice with
      | left state name =>
          have below : before.Below root state :=
            earlier.states _ member state (by rw [Event.sets_left, if_pos rfl]; simp)
          rw [leftChild?_left, leftChild?_left, grown.containerOf?_of_below wired wiredAfter below]
          simp only [grown.normal_iff (wired.isSome_of_below below)]
      | _ => rfl
  | _ => rfl

theorem Grown.lastLeft? {events : List Event} (told : events ⊆ before.journal.toList)
    (region : RegionId) : after.lastLeft? region events = before.lastLeft? region events := by
  unfold Machine.lastLeft?
  rw [List.filterMap_congr fun event member =>
    grown.leftChild? wired earlier wiredAfter (told member) region]

theorem Grown.rooted : after.Rooted := by
  constructor
  · intro region active
    rw [grown.isRegionActive] at active
    exact grown.beneath (earlier.regions region active)
  · intro event member state sets
    rw [grown.journal] at member
    exact grown.below (earlier.states event member state sets)
  · intro region
    rw [grown.lastActive?, grown.journal,
      grown.lastLeft? wired earlier wiredAfter (List.Subset.refl _)]
    exact earlier.remembers region

end Growth

/-! ### Sessions -/

/-- What is told of visits, and that nothing else has been active. -/
structure Chronicled (machine : Machine) : Prop where
  rooted : machine.Rooted
  alternates : machine.Alternates
  scripted : machine.Scripted machine.journal.toList

section Calls

variable {before after : Machine}

private theorem InOrder.chronicled (inOrder : InOrder before after)
    (chronicled : before.Chronicled) :
    after.Chronicled where
  rooted := inOrder.rooted
  alternates := inOrder.changes.alternates chronicled.alternates
  scripted := by
    obtain ⟨events, told, scripted, _⟩ := inOrder.told
    rw [told]
    exact inOrder.changes.sameChart.scripted.mpr (chronicled.scripted.append scripted)

private theorem Grown.chronicled (grown : Grown before after) (wired : before.Wired)
    (wiredAfter : after.Wired) (chronicled : before.Chronicled) : after.Chronicled where
  rooted := grown.rooted wired chronicled.rooted wiredAfter
  alternates := grown.alternates chronicled.alternates
  scripted := grown.scripted wired chronicled.rooted chronicled.scripted

theorem journal_new (name : String) (names : NameSource) :
    (Machine.new name names).journal = #[] := by
  obtain ⟨bare, grown, _, _, _, noJournal, _⟩ := grown_new name names
  exact grown.journal.trans noJournal

theorem chronicled_new (name : String) (names : NameSource) :
    (Machine.new name names).Chronicled := by
  obtain ⟨bare, grown, noRegions, _⟩ := grown_new name names
  obtain ⟨noStates, noneActive⟩ := inactive_new name names
  have silent := journal_new name names
  constructor
  · constructor
    · intro region active
      rw [noneActive] at active
      cases active
    · intro event member
      rw [silent] at member
      cases member
    · intro region
      rw [grown.lastActive?, silent, Machine.lastActive?, region?, noRegions]
      rfl
  · intro state
    rw [silent, noStates]
    exact ⟨0, rfl, by simp⟩
  · intro state
    rw [silent]
    rfl

end Calls

end Machine

namespace Request

private theorem keepingOrder_run {request : Request}
    (built : ∀ construction, request ≠ .construct construction)
    (depth : Nat) : Run.keepingOrder.Kept (request.run depth) := by
  cases runs : request.runs with
  | true =>
      exact kept_run Run.sound_keepingOrder Run.refuses_keepingOrder Run.ticks_keepingOrder
        (fun depth => (Run.calls_keepingOrder depth).toKeptBy) Run.inOrder_framesTaken runs
        (fun _ depth machine fit => ((Run.calls_keepingOrder depth).enter machine _ fit
          (Machine.Below.refl machine _)).kept) depth
  | false =>
      cases request with
      | construct construction => exact absurd rfl (built construction)
      | setData key value =>
          intro machine fit
          unfold run
          apply Run.Discipline.KeptFrom.discard
          exact Run.inOrder_write fit key value
      | _ => cases runs

theorem Returns.grown_or_inOrder {request : Request} {before after : Machine}
    {answer : Except MachineError Unit} (returns : request.Returns before answer after)
    (fit : before.Fit) :
    (Machine.Grown before after ∧ after.Wired) ∨ Machine.InOrder before after := by
  by_cases built : ∃ construction, request = .construct construction
  · obtain ⟨construction, rfl⟩ := built
    have becomes := returns.becomes fit.toFormed
    exact Or.inl ⟨becomes.grown, becomes.formed.toWired⟩
  · have other (construction : Construction) : request ≠ .construct construction :=
      fun same => built ⟨construction, same⟩
    rcases returns.ends fun depth => keepingOrder_run other depth before fit with
      ⟨_, inOrder⟩ | ⟨_, _, impossible | inOrder⟩
    · exact Or.inr inOrder
    · cases impossible
    · exact Or.inr inOrder

end Request

namespace Machine

theorem Reached.chronicled {terms : Terms} {machine : Machine} (reached : machine.Reached terms) :
    machine.Chronicled := by
  obtain ⟨name, names, session⟩ := reached
  apply @Session.keeps_under _ _ _ session (formed_new name names) (linked_new name names)
    (fun _ => True) (fun _ _ _ _ known => known) trivial Chronicled (chronicled_new name names)
  intro first request answer last formed linked _ returns _ chronicled
  rcases returns.grown_or_inOrder
    { toFormed := formed, linked := linked, rooted := chronicled.rooted } with
    ⟨grown, wiredLast⟩ | inOrder
  · exact grown.chronicled formed.toWired wiredLast chronicled
  · exact inOrder.chronicled chronicled

/-- However a machine is built and run, each of its states is entered and left in turn, beginning
with an entry. With each entry of a normal state its entry behaviour starts once, and its exit
behaviour with each departure; nothing else starts them. The state is active if it was entered
last. -/
theorem Reached.visits_alternate {machine : Machine} (reached : machine.Reached anyTerms)
    {state : StateId} {node : StateNode} (found : machine.state? state = some node) :
    ∃ count, machine.journal.toList.filterMap (Event.sets state) = turns count ∧
      machine.journal.toList.filterMap (Event.visit? state) = (turns count).flatMap node.script ∧
      (node.kind = .normal → node.entry.isSome → node.exit.isSome →
        (machine.journal.toList.filterMap (Event.visit? state)).filterMap Visit.starts? =
          turns count) ∧
      (machine.isStateActive state = true ↔ (turns count).getLast? = some true) := by
  have chronicled := reached.chronicled
  obtain ⟨count, sets, active⟩ := chronicled.alternates state
  have visits : machine.journal.toList.filterMap (Event.visit? state) =
      (turns count).flatMap node.script := by
    have script : machine.script state = node.script := by
      funext entering
      rw [Machine.script, found]
      rfl
    rw [chronicled.scripted state, sets, script]
  refine ⟨count, sets, visits, ?_, active.trans getLast?_turns.symm⟩
  intro normal entry exit
  rw [visits, List.filterMap_flatMap]
  simp only [node.starts_script normal entry exit, List.flatMap_singleton']

/-- A chart with one state that runs something when it is entered and when it is left; the machine
is started, finished and started again. -/
def beaconRequests : List Request :=
  [.construct (.createState
      { StateDefinition.plain "lit" with
          entry := some (.note "lights up" .done), exit := some (.note "goes out" .done) }),
    .construct (.addState ⟨3⟩), .construct (.createTransition (.initial "lit")),
    .construct (.addTransition ⟨0⟩), .start, .finish, .start]

def beacon : Machine :=
  Request.outcome 4 beaconRequests (Machine.new "beacon" (.ofStem "auto"))

private theorem beacon_plays :
    (Request.play 4 beaconRequests (Machine.new "beacon" (.ofStem "auto"))).isSome = true ∧
      (beacon.state? ⟨3⟩).isSome = true ∧
      (beacon.journal.toList.filterMap (Event.visit? ⟨3⟩)) =
        [.entered, .entryStarted, .left, .exitStarted, .entered, .entryStarted] := by
  decide +kernel

theorem beacon_visits :
    beacon.Reached anyTerms ∧
      beacon.journal.toList.filterMap (Event.visit? ⟨3⟩) =
        [.entered, .entryStarted, .left, .exitStarted, .entered, .entryStarted] ∧
      ∃ node, beacon.state? ⟨3⟩ = some node ∧
        ∃ count, beacon.journal.toList.filterMap (Event.sets ⟨3⟩) = turns count ∧
          (beacon.isStateActive ⟨3⟩ = true ↔ (turns count).getLast? = some true) := by
  obtain ⟨plays, known, visits⟩ := beacon_plays
  obtain ⟨node, found⟩ := Option.isSome_iff_exists.mp known
  have reached : beacon.Reached anyTerms :=
    ⟨"beacon", .ofStem "auto", (session_outcome plays).weaken fun _ _ _ _ _ => trivial⟩
  obtain ⟨count, sets, _, _, active⟩ := Reached.visits_alternate reached found
  exact ⟨reached, visits, node, found, count, sets, active⟩

end Machine
end Chart
