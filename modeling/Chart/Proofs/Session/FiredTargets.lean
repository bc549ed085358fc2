import Chart.Proofs.Run.FiredTargets
import Chart.Proofs.Session.Joins

set_option autoImplicit false

/-!
Transitions that fire. In a calm machine a fired transition whose target stays ends with the target
active, together with all that is around it, and with the regions on the way entered. Its region
stays active, and nothing outside of it is disturbed.
-/

namespace Chart.Machine

theorem Coherent.root_active {machine : Machine} (coherent : machine.Coherent)
    (wired : machine.Wired) {region : RegionId} (active : machine.isRegionActive region = true) :
    machine.isStateActive root = true := by
  obtain ⟨top, owned, within⟩ := coherent.attached wired active
  exact coherent.owner_active (coherent.active_outside wired within active) owned

private theorem Clocked.root_eq {before after : Machine} (clocked : before.Clocked)
    (clockedAfter : after.Clocked) (same : SameChart before after) (wired : before.Wired)
    (active : before.isStateActive root = true) (activeAfter : after.isStateActive root = true)
    {node : StateNode} (found : before.state? root = some node) :
    ∃ node', after.state? root = some node' ∧ node'.status = node.status ∧
      node'.timer = node.timer ∧ node'.frame = node.frame := by
  obtain ⟨node', found', fixed⟩ := same.state?_forward found
  have kind : node.kind = .root := by
    have known := wired.rootKind
    rw [kindOf?, found] at known
    exact Option.some.inj known
  have kind' : node'.kind = .root :=
    (StateNode.read_eq fixed StateNode.kind fun _ => rfl).trans kind
  obtain ⟨timer, frame⟩ := (clocked root node found).untimed (by rw [kind]; simp)
  obtain ⟨timer', frame'⟩ := (clockedAfter root node' found').untimed (by rw [kind']; simp)
  have status (current : StateNode) (isActive : current.status.isActive = true) :
      current.status = .active := by
    cases known : current.status with
    | active => rfl
    | inactive =>
        rw [known] at isActive
        cases isActive
  rw [isStateActive, found] at active
  rw [isStateActive, found'] at activeAfter
  exact ⟨node', found', (status node' activeAfter).trans (status node active).symm,
    timer'.trans timer.symm, frame'.trans frame.symm⟩

section Fired

variable {machine after : Machine} {depth : Nat} {id : TransitionId} {memo : Value}

theorem returns_of_fired (fires : Run.triggerHandle depth id memo machine = .ok .fired after) :
    (Request.trigger id memo).Returns machine (.ok ()) after := by
  refine ⟨depth, ?_⟩
  have finished : (Request.trigger id memo).run depth machine = .ok () after := by
    unfold Request.run
    simp only [discard, Functor.discard, Functor.mapConst, Function.comp, EStateM.map, fires]
  unfold Run.attempt
  rw [finished]

theorem Reached.after_fired (reached : machine.Reached answeredRuns)
    (fires : Run.triggerHandle depth id memo machine = .ok .fired after) :
    after.Reached answeredRuns := by
  obtain ⟨name, names, session⟩ := reached
  exact ⟨name, names, session.tail ⟨_, _, returns_of_fired fires, fun _ => rfl⟩⟩

/-- A transition fires whose target is a normal state without regions that does not complete by
itself. Then the target and every state around it are active; every region on the way from the
region of the transition to the target is active or has completed in the course of the call; the
region of the transition is active; and no state and no region outside of it has another status,
timer, frame or last active child than before. -/
theorem Reached.target_attained (reached : machine.Reached answeredRuns) (calm : machine.Calm True)
    {found : Transition} {region : RegionId} {ends : Endpoints} {node : StateNode}
    (known : machine.transition? id = some found) (registered : found.container = some region)
    (resolved : machine.endpoints id = .ok ends) (target : machine.state? ends.target = some node)
    (normal : node.kind = .normal) (bare : node.regions = [])
    (enduring : node.config.autoTransition = false)
    (fires : Run.triggerHandle depth id memo machine = .ok .fired after) :
    (∀ state, machine.Below state ends.target → after.isStateActive state = true) ∧
    (∀ nested owner, machine.ownerOf? nested = some owner → machine.Below owner ends.target →
      machine.Within region nested → nested ≠ region →
      after.isRegionActive nested = true ∨
        ∃ events, Told machine after events ∧ machine.Completes nested events) ∧
    after.isRegionActive region = true ∧
    (∀ state current, ¬machine.Inside region state → machine.state? state = some current →
      ∃ later, after.state? state = some later ∧ later.status = current.status ∧
        later.timer = current.timer ∧ later.frame = current.frame) ∧
    ∀ other members, ¬machine.Within region other → machine.region? other = some members →
      after.region? other = some members := by
  have formed := reached.formed
  have wired := formed.toWired
  have coherent := reached.coherent calm
  have returns := returns_of_fired fires
  have changes := returns.changes rfl
  have same := changes.sameChart
  have reachedAfter := reached.after_fired fires
  have wiredAfter := reachedAfter.formed.toWired
  have coherentAfter := reachedAfter.coherent (calm.of_sameChart same)
  have attained : Attained region ends.target machine after :=
    Run.attained_of_fired (formed.orderly reached.linked calm) coherent known registered resolved
      (Or.inr ⟨node, target, normal, enduring⟩) (by rw [regionsOf, target]; exact bare) fires
  obtain ⟨activeBefore, _, inside⟩ := endpoints_spec formed known registered resolved
  have active : after.isRegionActive region = true :=
    coherentAfter.active_around wiredAfter (same.inside.mpr inside) attained.active
  refine ⟨fun state below => ?_, fun nested owner owned below within different => ?_, active,
    fun state current outside stored => ?_, fun other members outside stored => ?_⟩
  · rcases below with here | ⟨nested, owned, insideNested⟩
    · rw [← here]
      exact attained.active
    · exact coherentAfter.owner_active (coherentAfter.active_around wiredAfter
        (same.inside.mpr insideNested) attained.active) ((same.ownerOf? nested).trans owned)
  · refine attained.passed nested ⟨owner, owned, ?_, below⟩
    rcases within.inside_owner owned with here | insideOwner
    · exact absurd here different
    · exact insideOwner
  · by_cases isRoot : state = root
    · subst isRoot
      exact reached.clocked.root_eq reachedAfter.clocked same wired
        (coherent.root_active wired activeBefore)
        (coherentAfter.root_active wiredAfter active) stored
    · exact ⟨current, (attained.confined.states state outside isRoot).trans stored, rfl, rfl, rfl⟩
  · exact (attained.confined.regions other outside).trans stored

end Fired

/-- A composite state, one region of which completes as soon as it is entered, and beside it a
timed state. -/
def officeRequests : List Request :=
  [.construct (.createState (.plain "idle")), .construct (.addState ⟨3⟩),
    .construct (.createState (.plain "work")), .construct (.addState ⟨4⟩),
    .construct (.appendRegion ⟨4⟩), .construct (.appendRegion ⟨4⟩),
    .construct (.createState (.plain "desk")), .construct (.regionAddState ⟨1⟩ ⟨9⟩),
    .construct (.appendRegion ⟨0⟩),
    .construct (.createState ((StateDefinition.plain "clock").withTimer oneSecond)),
    .construct (.regionAddState ⟨3⟩ ⟨12⟩),
    .construct (.createTransition (.initial "idle")), .construct (.addTransition ⟨0⟩),
    .construct (.createTransition (.initial "clock")), .construct (.regionAddTransition ⟨3⟩ ⟨1⟩),
    .construct (.createTransition .anonymous), .construct (.regionAddTransition ⟨2⟩ ⟨2⟩),
    .construct (.createTransition (.simple "begin" "idle" "desk")), .construct (.addTransition ⟨3⟩),
    .start, .advance .zero]

def office : Machine :=
  Request.outcome 8 officeRequests (Machine.new "office" (.ofStem "auto"))

/-- Whether the transition fires when it is triggered. -/
def fires (machine : Machine) (depth : Nat) (id : TransitionId) : Bool :=
  match Run.triggerHandle depth id .null machine with
  | .ok .fired _ => true
  | _ => false

theorem fired_aftermath {machine : Machine} {depth : Nat} {id : TransitionId}
    (fired : machine.fires depth id = true) :
    Run.triggerHandle depth id .null machine =
      .ok .fired ((Request.trigger id .null).aftermath depth machine) := by
  unfold fires at fired
  split at fired
  · rename_i after result
    have finished : (Request.trigger id .null).run depth machine = .ok () after := by
      unfold Request.run
      simp only [discard, Functor.discard, Functor.mapConst, Function.comp, EStateM.map, result]
    unfold Request.aftermath
    rw [finished, result]
  · cases fired

def officeBusy : Machine :=
  (Request.trigger ⟨3⟩ .null).aftermath 8 office

/-- The other region of the composite state has completed, and the clock has not been stopped. -/
theorem office_target_attained :
    office.Reached answeredRuns ∧ office.Calm True ∧
      Run.triggerHandle 8 ⟨3⟩ .null office = .ok .fired officeBusy ∧
      officeBusy.isStateActive ⟨9⟩ = true ∧ officeBusy.isStateActive ⟨4⟩ = true ∧
      (∃ events, Told office officeBusy events ∧ office.Completes ⟨2⟩ events) ∧
      ∃ current later, office.state? ⟨12⟩ = some current ∧ current.timer.running = true ∧
        officeBusy.state? ⟨12⟩ = some later ∧ later.timer = current.timer := by
  have reached : office.Reached answeredRuns :=
    ⟨"office", .ofStem "auto", (session_outcome (by decide +kernel)).weaken
      fun _ _ _ _ call _ => call.2⟩
  have fired : Run.triggerHandle 8 ⟨3⟩ .null office = .ok .fired officeBusy :=
    fired_aftermath (by decide +kernel)
  obtain ⟨plain, transition, resolved, target, clock, owners, containers⟩ :
      office.isPlain = true ∧
      (office.transition? ⟨3⟩).any (fun found => found.container == some defaultRegion) = true ∧
      office.endpoints ⟨3⟩ = .ok ⟨⟨3⟩, ⟨9⟩⟩ ∧
      (office.state? ⟨9⟩).any (fun node => node.kind == .normal && node.regions == [] &&
        !node.config.autoTransition) = true ∧
      (office.state? ⟨12⟩).any (fun node => node.timer.running) = true ∧
      (office.ownerOf? defaultRegion = some root ∧ office.ownerOf? ⟨3⟩ = some root ∧
        office.ownerOf? ⟨1⟩ = some ⟨4⟩ ∧ office.ownerOf? ⟨2⟩ = some ⟨4⟩) ∧
      office.containerOf? ⟨4⟩ = some defaultRegion ∧ office.containerOf? ⟨9⟩ = some ⟨1⟩ ∧
        office.containerOf? ⟨12⟩ = some ⟨3⟩ := by
    decide +kernel
  have calm : office.Calm True := calm_of_isPlain plain
  obtain ⟨found, known, inRoot⟩ := (Option.any_eq_true _ _).mp transition
  obtain ⟨node, stored, isPlain⟩ := (Option.any_eq_true _ _).mp target
  obtain ⟨current, storedClock, running⟩ := (Option.any_eq_true _ _).mp clock
  obtain ⟨ownedRoot, ownedClock, owned, ownedOther⟩ := owners
  obtain ⟨contained, containedDesk, containedClock⟩ := containers
  simp only [Bool.and_eq_true, beq_iff_eq, Bool.not_eq_true'] at isPlain
  have below : office.Below ⟨4⟩ ⟨9⟩ := Or.inr ⟨⟨1⟩, owned, .member containedDesk⟩
  have apart : office.Apart defaultRegion ⟨3⟩ :=
    reached.formed.toWired.siblings_apart ownedRoot ownedClock (by decide)
  obtain ⟨around, onWay, _, outside, _⟩ := Reached.target_attained reached calm known
    (beq_iff_eq.mp inRoot) resolved stored isPlain.1.1 isPlain.1.2 isPlain.2 fired
  have completed := onWay ⟨2⟩ ⟨4⟩ ownedOther below (.of_member ownedOther contained) (by decide)
  obtain ⟨later, foundLater, _, timer, _⟩ := outside ⟨12⟩ current
    (fun inside => apart.not_inside inside (.member containedClock)) storedClock
  exact ⟨reached, calm, fired, around ⟨9⟩ (Below.refl office ⟨9⟩), around ⟨4⟩ below,
    completed.resolve_left (by decide +kernel), current, later, storedClock, running, foundLater,
    timer⟩

end Chart.Machine
