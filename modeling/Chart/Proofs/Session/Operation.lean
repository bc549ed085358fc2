import Chart.Proofs.Session.Request

set_option autoImplicit false

/-!
What a request that runs a calm machine comes to. An answered one was still, entered the root, or
departed from an active state; a refused one ends with one of the errors its refusal names and at
most reports it; otherwise a callback failed or the chart led nowhere.
-/

namespace Chart

namespace Run

open Machine (Changes Uneventful Settled Moved)

/-- What an answered operation has done that may leave certain states as a whole; one that enters
the root may leave none. -/
def Served (related : Machine → Machine → Prop) (leaves : StateId → Prop)
    (before after : Machine) : Prop :=
  Uneventful before after ∨ ((∀ state, ¬leaves state) ∧ Settled related none before after) ∨
    ∃ state, leaves state ∧ before.isStateActive state = true ∧
      Departed related state before after

namespace Served

variable {mayFail : Prop} {related : Machine → Machine → Prop} {leaves : StateId → Prop}
variable {before after : Machine}

theorem coherent (served : Served related leaves before after) (coherent : before.Coherent) :
    after.Coherent := by
  rcases served with uneventful | ⟨_, settled⟩ | ⟨state, _, _, ready, empty, _, _, settled⟩
  · exact uneventful.coherent coherent
  · exact settled.coherent
  · exact settled.coherent

theorem childless (served : Served related leaves before after) (wired : before.Wired)
    {region : RegionId} (childless : after.Childless region) :
    before.Childless region := by
  rcases served with uneventful | ⟨_, settled⟩ | ⟨state, _, _, ready, empty, touches,
    emptied, settled⟩
  · exact uneventful.childless childless
  · exact (settled.childless region childless).resolve_right fun impossible => by cases impossible
  · have notSpot := settled.fed region
    have same := touches.sameChart
    have leaves : Moved (before.containerOf? state) ready empty :=
      Moved.of_emptied emptied (wired.of_sameChart same) (same.containerOf? state)
    have childlessEmpty :=
      (settled.childless region childless).resolve_right fun spot => notSpot spot childless
    have childlessReady :=
      (leaves.childless region childlessEmpty).resolve_right fun spot => notSpot spot childless
    exact touches.childless childlessReady

end Served

end Run

namespace Request

open Run (Served Refused Aborted Respects)

/-- The errors with which a request may be refused before it does anything. -/
def Refusal (machine : Machine) : Request → MachineError → Prop
  | .start, error => machine.isActive = true ∧ error = .usage (.stateAlreadyActive machine.name)
  | .finish, error =>
      machine.isActive = false ∧ error = .usage (.stateAlreadyInactive machine.name)
  | .trigger transition _, error =>
      ∃ cause, machine.endpoints transition = .error cause ∧ error = .configuration cause
  | .triggerNamed name _, error =>
      (machine.findTransition? name = none ∧
          error = .configuration (.unknownTransitionName name)) ∨
        ∃ transition cause, machine.findTransition? name = some transition ∧
          machine.endpoints transition = .error cause ∧ error = .configuration cause
  | .completion state, error =>
      (machine.state? state = none ∧ error = .configuration (.unknownState state)) ∨
        ∃ node, machine.state? state = some node ∧ node.status.isActive = false ∧
          error = .usage (.stateAlreadyInactive node.name)
  | .frame handle _, error =>
      machine.state? handle.state = none ∧ error = .configuration (.unknownState handle.state)
  | .advance _, _ | .construct _, _ | .setData _ _, _ => False

/-- The state that an answered request leaves as a whole, if it leaves one. -/
def Leaves (machine : Machine) : Request → StateId → Prop
  | .finish, state => state = Machine.root
  | .completion completed, state => state = completed
  | .trigger transition _, state =>
      ∃ ends, machine.endpoints transition = .ok ends ∧ state = ends.source
  | .triggerNamed name _, state =>
      ∃ transition ends, machine.findTransition? name = some transition ∧
        machine.endpoints transition = .ok ends ∧ state = ends.source
  | .start, _ | .frame _ _, _ | .advance _, _ | .construct _, _ | .setData _ _, _ => False

variable {mayFail : Prop} {related : Machine → Machine → Prop}

private theorem served_of_triggered {machine after : Machine} {outcome : Outcome}
    {transition : TransitionId} {leaves : StateId → Prop}
    (triggered : ∃ ends, machine.endpoints transition = .ok ends ∧
      (outcome = .fired → machine.isStateActive ends.source = true ∧
        Run.Departed related ends.source machine after) ∧
      (outcome ≠ .fired → Machine.TouchesOnly ends.source machine after))
    (source : ∀ ends, machine.endpoints transition = .ok ends → leaves ends.source) :
    Served related leaves machine after := by
  obtain ⟨ends, resolved, whenFired, otherwise⟩ := triggered
  by_cases fired : outcome = .fired
  · exact Or.inr (Or.inr ⟨ends.source, source ends resolved, whenFired fired⟩)
  · exact Or.inl (otherwise fired).toUneventful

theorem ends_served (respects : Respects mayFail related) {request : Request}
    (runs : request.runs = true) {machine : Machine} (orderly : machine.Orderly mayFail)
    (coherent : machine.Coherent) (depth : Nat) :
    Ends (request.run depth) machine
      (fun _ after => Served related (request.Leaves machine) machine after)
      (fun halt after => Aborted mayFail halt after ∨
        Refused (request.Refusal machine) machine halt after) := by
  cases request with
  | construct _ | setData _ _ => cases runs
  | start =>
      exact (Run.ends_start respects orderly coherent).mono
        (fun _ _ settled => Or.inr (Or.inl ⟨fun _ => id, settled⟩)) fun _ _ failure => failure
  | finish =>
      exact (Run.ends_finish respects orderly coherent).mono
        (fun _ _ departed => Or.inr (Or.inr ⟨_, rfl, departed⟩)) fun _ _ failure => failure
  | trigger transition memo =>
      unfold run
      rw [ends_discard]
      exact (Run.ends_triggerHandle respects orderly coherent).mono
        (fun _ _ triggered => served_of_triggered triggered fun ends resolved =>
          ⟨ends, resolved, rfl⟩) fun _ _ failure => failure
  | triggerNamed name memo =>
      unfold run
      rw [ends_discard]
      unfold Run.triggerNamed Run.Calls.triggerNamed
      rw [ends_bind, ends_get]
      cases known : machine.findTransition? name with
      | none =>
          rw [Run.ends_fail]
          exact Or.inr ⟨Run.reported_note machine _, _, rfl, Or.inl ⟨known, rfl⟩⟩
      | some transition =>
          refine (Run.ends_triggerHandle respects orderly coherent).mono
            (fun _ _ triggered => served_of_triggered triggered fun ends resolved =>
              ⟨transition, ends, known, resolved, rfl⟩) fun _ _ failure => ?_
          rcases failure with aborted | ⟨reported, error, isError, cause, wrong, same⟩
          · exact Or.inl aborted
          · exact Or.inr ⟨reported, error, isError,
              Or.inr ⟨transition, cause, known, wrong, same⟩⟩
  | completion state =>
      refine (Run.ends_completion respects orderly coherent).mono
        (fun _ _ completed => ?_) fun _ _ failure => failure
      obtain ⟨active, touches | departed⟩ := completed
      · exact Or.inl touches.toUneventful
      · exact Or.inr (Or.inr ⟨state, rfl, active, departed⟩)
  | frame handle now =>
      refine (Run.ends_deliverFrame orderly.calm.behaviors).mono (fun _ _ still => Or.inl still)
        fun _ _ failure => ?_
      rcases failure with ⟨still, _, permitted⟩ | refused
      · exact Or.inl ⟨still.coherent coherent, fun _ => permitted⟩
      · exact Or.inr refused
  | advance now =>
      unfold run
      rw [ends_discard]
      exact (Run.ends_advance orderly.calm.behaviors orderly.linked).mono
        (fun _ _ still => Or.inl still) fun _ _ failure =>
          Or.inl ⟨failure.1.coherent coherent, fun _ => failure.2.2⟩

end Request

end Chart
