import Chart.Proofs.Run.Arriving

set_option autoImplicit false

/-!
Entering single states. Whatever its kind, a ready state that is entered settles the region around
it, over calls that are steady one level further down.
-/

namespace Chart.Run

open Machine (Orderly Settled Moved TouchesOnly Emptied)

variable {mayFail : Prop} {related : Machine → Machine → Prop} {calls : Calls}

/-- What follows the entry of a state: normal states and the root stay, unless they are automatic;
all others depart. -/
def Follows (related : Machine → Machine → Prop) (state : StateId) (node : StateNode)
    (entered after : Machine) : Prop :=
  ((node.kind = .normal ∨ node.kind = .root) ∧ TouchesOnly state entered after) ∨
    (node.kind ≠ .root ∧ (node.kind = .normal → node.config.autoTransition = true) ∧
      Departed related state entered after)

theorem container_of_ready {machine : Machine} {state : StateId} {node : StateNode}
    (wired : machine.Wired) (found : machine.state? state = some node)
    (ready : machine.Ready state) (notRoot : node.kind ≠ .root) :
    ∃ region, node.container = some region ∧ machine.containerOf? state = some region := by
  rcases ready with ⟨isRoot, _⟩ | ⟨region, contained, _⟩
  · obtain ⟨node', found', kind⟩ := Machine.kindOf?_eq_some.mp wired.rootKind
    rw [isRoot, found'] at found
    obtain rfl := Option.some.inj found
    exact absurd kind notRoot
  · obtain ⟨node', found', inRegion⟩ := Machine.containerOf?_eq_some.mp contained
    rw [found] at found'
    obtain rfl := Option.some.inj found'
    exact ⟨region, inRegion, contained⟩

theorem ready_inactive {machine : Machine} {state : StateId} (ready : machine.Ready state) :
    machine.isStateActive state = false := by
  rcases ready with ⟨isRoot, inactive⟩ | ⟨region, contained, idle⟩
  · rw [isRoot]
    exact inactive
  · exact idle.2 state contained

variable (respects : Respects mayFail related) (steady : Steady mayFail related calls)
include respects steady

theorem ends_activate_follows {machine : Machine} {state : StateId} {node : StateNode}
    (orderly : machine.Orderly mayFail) (coherent : machine.Coherent)
    (ready : machine.Ready state) (found : machine.state? state = some node) :
    Ends (activate calls state) machine
      (fun _ after => Follows related state node (machine.entered state node.name) after)
      (Aborted mayFail) := by
  have inactive := ready_inactive ready
  have inactiveNode := (Machine.isStateActive_eq found).symm.trans inactive
  have arrived := Arrived.of_entered orderly coherent found ready inactive
  have same := Machine.sameChart_entered machine state node.name
  have foundNow := Machine.state?_entered found node.name
  rw [ends_activate found inactiveNode]
  -- Every kind but the normal one and the root departs from a region.
  have departs {run : Run Unit} (notRoot : node.kind ≠ .root) (notNormal : node.kind ≠ .normal)
      (ends : Ends run (machine.entered state node.name)
        (fun _ after => Departed related state (machine.entered state node.name) after)
        (Aborted mayFail)) :
      Ends run (machine.entered state node.name)
        (fun _ after => Follows related state node (machine.entered state node.name) after)
        (Aborted mayFail) :=
    ends.mono (fun _ _ departed =>
      Or.inr ⟨notRoot, fun normal => absurd normal notNormal, departed⟩) fun _ _ failure => failure
  have placed (notRoot : node.kind ≠ .root) :=
    container_of_ready orderly.toWired found ready notRoot
  have kindNow : (machine.entered state node.name).kindOf? state = some node.kind := by
    rw [same.kindOf?]
    exact Machine.kindOf?_eq_some.mpr ⟨node, found, rfl⟩
  cases kind : node.kind with
  | normal =>
      refine ends_enterNormal foundNow rfl kind
        (fun present runs => orderly.calm.behaviors state node present found runs)
        (fun _ touches => Or.inl ⟨Or.inl kind, touches⟩)
        (fun _ _ touches permitted => ⟨touches.coherent arrived.coherent, fun _ => permitted⟩)
        fun auto middle touches _ => ?_
      have arrivedMiddle := arrived.of_touches touches
      refine (ends_completeState respects steady arrivedMiddle.orderly arrivedMiddle.coherent
        arrivedMiddle.active).mono (fun _ after completed => ?_) fun _ _ failure => failure
      rcases completed with more | departed
      · exact Or.inl ⟨Or.inl kind, touches.trans more⟩
      · exact Or.inr ⟨by rw [kind]; simp, fun _ => auto, departed.after_touches touches⟩
  | root => exact Or.inl ⟨Or.inr kind, TouchesOnly.refl state _⟩
  | initial =>
      obtain ⟨region, inRegion, contained⟩ := placed (by rw [kind]; simp)
      rw [inRegion]
      refine departs (by rw [kind]; simp) (by rw [kind]; simp) ?_
      exact ends_followInitial steady arrived (by rw [same.containerOf?]; exact contained)
        (by rw [kindNow, kind])
  | history depth =>
      obtain ⟨region, inRegion, contained⟩ := placed (by rw [kind]; simp)
      rw [inRegion]
      refine departs (by rw [kind]; simp) (by rw [kind]; simp) ?_
      exact ends_resumeHistory respects steady arrived (by rw [same.containerOf?]; exact contained)
  | choice =>
      obtain ⟨region, inRegion, contained⟩ := placed (by rw [kind]; simp)
      refine departs (by rw [kind]; simp) (by rw [kind]; simp) ?_
      exact ends_departChoice steady arrived foundNow rfl rfl kind inRegion
  | final =>
      obtain ⟨region, inRegion, contained⟩ := placed (by rw [kind]; simp)
      refine departs (by rw [kind]; simp) (by rw [kind]; simp) ?_
      exact ends_reachFinal respects steady arrived (by rw [same.containerOf?]; exact contained)
        inRegion (by rw [kindNow, kind])

omit steady in
private theorem Follows.activates {machine after : Machine} {state : StateId} {node : StateNode}
    (orderly : machine.Orderly mayFail) (coherent : machine.Coherent)
    (ready : machine.Ready state) (found : machine.state? state = some node)
    (follows : Follows related state node (machine.entered state node.name) after)
    (whole : related (machine.entered state node.name) after → related machine after) :
    Activates related state machine after := by
  have inactive := ready_inactive ready
  have inactiveNode := (Machine.isStateActive_eq found).symm.trans inactive
  have arrived := Arrived.of_entered orderly coherent found ready inactive
  have same := Machine.sameChart_entered machine state node.name
  have kind : machine.kindOf? state = some node.kind :=
    Machine.kindOf?_eq_some.mpr ⟨node, found, rfl⟩
  have enters : Moved (machine.containerOf? state) machine (machine.entered state node.name) :=
    Moved.of_entered orderly.toWired coherent found ready inactiveNode rfl
  rcases follows with ⟨stays, touches⟩ | ⟨notRoot, automatic, departed⟩
  · refine ⟨{ toMoved := enters.trans (Moved.of_touches touches arrived.orderly.toWired
                arrived.coherent (same.containerOf? state))
              fed := fun region isSpot childless => ?_
              relates := whole (respects.still touches.toUneventful) }, fun _ =>
                ⟨node, found, touches⟩⟩
    have sameAfter := same.trans touches.sameChart
    have normal : node.kind = .normal := by
      rcases stays with normal | isRoot
      · exact normal
      · rw [isRoot] at kind
        rw [orderly.rootOnly state kind, orderly.rootFree] at isSpot
        cases isSpot
    have patternStored := childless.2 state (by rw [sameAfter.containerOf?]; exact isSpot)
      (by rw [sameAfter.kindOf?, kind, normal])
    rw [touches.toStill.states, arrived.active] at patternStored
    cases patternStored
  · have settled := respects.settled_of_departed arrived.orderly arrived.coherent arrived.active
      arrived.bare (fun current foundNow stays => by
        left
        rw [Machine.state?_entered found] at foundNow
        obtain rfl := Option.some.inj foundNow
        rcases stays with normal | isRoot
        · exact automatic normal
        · exact absurd isRoot notRoot) departed
    rw [same.containerOf?] at settled
    refine ⟨settled_after_moved (whole settled.relates) enters settled, fun stays => ?_⟩
    rcases stays with owns | ⟨current, foundNow, normal, enduring⟩
    · -- A state with regions is the root or a normal state that is not automatic.
      rcases orderly.owners state owns with normal | isRoot
      · rw [kind] at normal
        have none' := orderly.calm.leaves state node found (automatic (Option.some.inj normal))
        rw [Machine.regionsOf, found] at owns
        exact absurd none' owns
      · rw [kind] at isRoot
        exact absurd (Option.some.inj isRoot) notRoot
    · rw [found] at foundNow
      obtain rfl := Option.some.inj foundNow
      rw [automatic normal] at enduring
      cases enduring

theorem activating (known : ∃ depth, calls = Run.calls depth) :
    Activating mayFail related calls := by
  intro machine state orderly coherent ready present
  obtain ⟨node, found⟩ := Option.isSome_iff_exists.mp present
  have follows := ends_activate_follows respects steady orderly coherent ready found
  refine ends_intro (fun answer after result => ?_)
    fun _ _ result => ends_of_failed follows result
  refine (ends_of_finished follows result).activates respects orderly coherent ready found
    fun relates => ?_
  by_cases resumes : ∃ history, node.kind = .history history
  · obtain ⟨history, kind⟩ := resumes
    obtain ⟨depth, rfl⟩ := known
    exact respects.resumed orderly coherent found ready kind result relates
  · have enters := respects.entered orderly coherent found ready
      fun history kind => resumes ⟨history, kind⟩
    exact respects.trans enters relates

end Chart.Run
