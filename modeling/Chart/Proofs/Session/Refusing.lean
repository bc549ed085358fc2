import Chart.Proofs.Forest.Refusing
import Chart.Proofs.Session.Request

set_option autoImplicit false

/-!
What a refused insertion leaves behind. Nothing, as long as the region it asks for is there and no
deep history is asked for. The first region of a state without regions stays when the insertion into
it is refused, and a refused deep history stays in the regions that received it before the refusal.
-/

namespace Chart

namespace Construction

def inserts : Construction → Bool
  | .addState _ | .addTransition _ | .addChildState _ _ | .addChildTransition _ _
  | .regionAddState _ _ | .regionAddTransition _ _ | .regionAddHistory _ _ | .addHistory _ _
  | .addChoice _ _ _ => true
  | .createState _ | .createTransition _ | .appendRegion _ | .setStateData _ _ _ => false

/-- The machine with the region that the call asks for, if it asks for the first one of a state. -/
def grounded (construction : Construction) (machine : Machine) : Machine :=
  match construction with
  | .addChildState parent _ | .addChildTransition parent _ | .addHistory parent _
  | .addChoice parent _ _ => machine.withFirstRegion parent
  | _ => machine

/-- The region below which the call installs deep histories. -/
def deepens? (construction : Construction) (machine : Machine) : Option RegionId :=
  match construction with
  | .regionAddHistory region .deep => some region
  | .addHistory parent .deep => (machine.regionsOf parent).head?
  | _ => none

/-- What a refused insertion may have changed, seen from the machine with the region it asks for. -/
def Refused (construction : Construction) (grounded after : Machine) : Prop :=
  grounded.Unaltered after ∨
    ∃ region, construction.deepens? grounded = some region ∧ Machine.Deepened region grounded after

private theorem refused_of_same {construction : Construction} {grounded after : Machine}
    (same : after = grounded) : construction.Refused grounded after := by
  rw [same]
  exact Or.inl (Machine.Unaltered.refl grounded)

private theorem ends_inFirstRegion {Answer : Type} {construction : Construction}
    {machine : Machine} (formed : machine.Formed) {parent : StateId}
    {next : RegionId → Construct Answer}
    (ends : ∀ region, ((machine.withFirstRegion parent).regionsOf parent).head? = some region →
      Ends (next region) (machine.withFirstRegion parent) (fun _ _ => True)
        fun _ after => construction.Refused (machine.withFirstRegion parent) after) :
    Ends (Construct.firstRegion parent >>= next) machine (fun _ _ => True)
      fun _ after => construction.Refused (machine.withFirstRegion parent) after := by
  rw [ends_bind]
  refine (Construct.ends_firstRegion formed.toWired parent).mono (fun region after found => ?_)
    fun _ _ same => refused_of_same same
  obtain ⟨rfl, first⟩ := found
  exact ends region first

private theorem ends_call_refused {construction : Construction}
    (inserts : construction.inserts = true)
    {machine : Machine} (formed : machine.Formed) :
    Ends construction.call machine (fun _ _ => True)
      fun _ after => construction.Refused (construction.grounded machine) after := by
  have checked {Answer : Type} {call : Construct Answer} (isChecked : Construct.Checked call)
      (current : Machine) : Ends call current (fun _ _ => True)
        fun _ after => construction.Refused current after :=
    (isChecked current).mono (fun _ _ done => done) fun _ _ same => refused_of_same same
  unfold call
  cases construction with
  | createState _ | createTransition _ | appendRegion _ | setStateData _ _ _ => cases inserts
  | addState state | regionAddState region state =>
      rw [ends_discard]
      exact checked (Construct.checked_regionAddState _ state) machine
  | addTransition transition | regionAddTransition region transition =>
      rw [ends_discard]
      exact checked (Construct.checked_regionAddTransition _ transition) machine
  | addChildState parent child =>
      rw [ends_discard]
      exact ends_inFirstRegion formed fun region _ =>
        checked (Construct.checked_regionAddState region child) _
  | addChildTransition parent transition =>
      rw [ends_discard]
      exact ends_inFirstRegion formed fun region _ =>
        checked (Construct.checked_regionAddTransition region transition) _
  | addChoice parent name decision =>
      rw [ends_discard]
      refine ends_inFirstRegion formed fun region _ => ?_
      -- the choice is stored before the region refuses it
      rw [ends_bind, ends_modifyGet]
      refine (Construct.checked_regionAddState region _ _).mono (fun _ _ done => done)
        fun _ after same => Or.inl ?_
      rw [same]
      exact Machine.Unaltered.pushState _ rfl
  | regionAddHistory region depth =>
      rw [ends_discard]
      refine (Construct.ends_regionAddHistory_refused formed region depth).mono
        (fun _ _ done => done) fun _ after refused => ?_
      rcases refused with same | ⟨rfl, deepened⟩
      · exact refused_of_same same
      · exact Or.inr ⟨region, rfl, deepened⟩
  | addHistory parent depth =>
      rw [ends_discard]
      refine ends_inFirstRegion formed fun region first => ?_
      refine (Construct.ends_regionAddHistory_refused (formed.withFirstRegion parent) region
        depth).mono (fun _ _ done => done) fun _ after refused => ?_
      rcases refused with same | ⟨rfl, deepened⟩
      · exact refused_of_same same
      · exact Or.inr ⟨region, first, deepened⟩

private theorem grounded_eq (construction : Construction) (machine : Machine) :
    construction.grounded machine = machine ∨
      ∃ owner, construction.grounded machine = machine.withFirstRegion owner := by
  cases construction with
  | addChildState parent _ | addChildTransition parent _ | addHistory parent _
  | addChoice parent _ _ => exact Or.inr ⟨parent, rfl⟩
  | createState _ | createTransition _ | appendRegion _ | setStateData _ _ _ | addState _
  | addTransition _ | regionAddState _ _ | regionAddTransition _ _ | regionAddHistory _ _ =>
      exact Or.inl rfl

private theorem Refused.stored {construction : Construction} {machine after : Machine}
    (refused : construction.Refused (construction.grounded machine) after)
    (wired : machine.Wired) :
    ∃ added, ∀ state node, machine.state? state = none → after.state? state = some node →
      node.container = none → state = added := by
  -- what came with the region on the way is contained
  have made {state : StateId} {node : StateNode} (absent : machine.state? state = none)
      (found : (construction.grounded machine).state? state = some node) :
      node.container ≠ none := by
    rcases construction.grounded_eq machine with same | ⟨owner, same⟩
    · rw [same, absent] at found
      cases found
    · rw [same] at found
      exact Machine.contained_of_withFirstRegion wired absent found
  rcases refused with unaltered | ⟨region, _, deepened⟩
  · obtain ⟨added, stored⟩ := unaltered.stored
    refine ⟨added, fun state node absent found detached => ?_⟩
    cases between : (construction.grounded machine).state? state with
    | none => exact (stored state node between found).1
    | some earlier =>
        have same := unaltered.states state earlier between
        rw [found] at same
        obtain rfl := Option.some.inj same
        exact (made absent between detached).elim
  · refine ⟨Machine.root, fun state node absent found detached => ?_⟩
    cases between : (construction.grounded machine).state? state with
    | none =>
        obtain ⟨nested, _, contained⟩ := deepened.stored state node between found
        rw [detached] at contained
        cases contained
    | some earlier =>
        obtain ⟨kind, same, _⟩ := deepened.states state earlier between
        rw [found] at same
        obtain rfl := Option.some.inj same
        exact (made absent between detached).elim

end Construction

namespace Machine

/-- A refused insertion leaves the chart as it was, but for a first region that it has made, and for
deep histories that it has installed before one region refused; no more than one new state stands
outside all regions. -/
theorem Reached.refused_insertion {terms : Terms} {machine after : Machine}
    (reached : machine.Reached terms)
    {construction : Construction} (inserts : construction.inserts = true) {error : MachineError}
    (returns : (Request.construct construction).Returns machine (.error error) after) :
    construction.Refused (construction.grounded machine) after ∧
      ∃ added, ∀ state node, machine.state? state = none → after.state? state = some node →
        node.container = none → state = added := by
  have formed := reached.formed
  have ends (depth : Nat) : Ends ((Request.construct construction).run depth) machine
      (fun _ _ => True) fun _ after => construction.Refused (construction.grounded machine) after :=
    Request.ends_adaptExcept.mpr (construction.ends_call_refused inserts formed)
  rcases returns.ends ends with ⟨impossible, _⟩ | ⟨_, _, refused⟩
  · cases impossible
  · exact ⟨refused, refused.stored formed.toWired⟩

/-- The shed and the yard stand side by side, and the machine begins in the shed. -/
def farmRequests : List Request :=
  [.construct (.createState (.plain "shed")), .construct (.addState ⟨3⟩),
    .construct (.createState (.plain "yard")), .construct (.addState ⟨4⟩),
    .construct (.createTransition (.initial "shed")), .construct (.addTransition ⟨0⟩)]

def farm : Machine :=
  Request.outcome 12 farmRequests (Machine.new "farm" (.ofStem "auto"))

def farmRefused : Machine :=
  (Request.construct (.addChildState ⟨3⟩ ⟨4⟩)).aftermath 1 farm

private theorem farm_plays :
    (Request.play 12 farmRequests (Machine.new "farm" (.ofStem "auto"))).isSome = true ∧
      (Request.construct (.addChildState ⟨3⟩ ⟨4⟩)).refusal 1 farm =
        some (.configuration (.alreadyContained "yard" "farm-region-0")) ∧
      farm.regions.size = 1 ∧ farmRefused.regions.size = 2 ∧
      (Request.play 12 [.start] farm).isSome = true ∧
      Request.start.refusal 12 farmRefused =
        some (.configuration (.missingInitialTransition "shed-region-0")) := by
  decide +kernel

private theorem reached_farm : farm.Reached anyTerms :=
  ⟨"farm", .ofStem "auto", (session_outcome farm_plays.1).weaken fun _ _ _ _ _ => trivial⟩

/-- The refused call leaves a region in the shed, and the machine does not start any more. -/
theorem farm_altered :
    farm.Reached anyTerms ∧
      (Request.construct (.addChildState ⟨3⟩ ⟨4⟩)).Returns farm
        (.error (.configuration (.alreadyContained "yard" "farm-region-0"))) farmRefused ∧
      ¬farm.Unaltered farmRefused ∧ (Request.play 12 [.start] farm).isSome = true ∧
      Request.start.refusal 12 farmRefused =
        some (.configuration (.missingInitialTransition "shed-region-0")) := by
  obtain ⟨_, refused, one, two, starts, fails⟩ := farm_plays
  refine ⟨reached_farm, returns_aftermath refused, fun unaltered => ?_, starts, fails⟩
  rw [unaltered.regions, one] at two
  cases two

theorem farm_refused :
    (Construction.addChildState ⟨3⟩ ⟨4⟩).Refused (farm.withFirstRegion ⟨3⟩) farmRefused :=
  (Reached.refused_insertion reached_farm rfl (returns_aftermath farm_plays.2.1)).1

end Machine

end Chart
