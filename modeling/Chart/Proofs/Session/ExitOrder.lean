import Chart.Proofs.Run.ExitOrder
import Chart.Proofs.Session.Configuration

set_option autoImplicit false

/-!
Exits of a machine with quiet callbacks. The active states at a state, in the order in which the
machine lists them, are left in exactly the opposite order, each region between its active child and
its owner; when an exit behaviour fails, the states whose turn has not come are untouched.
-/

namespace Chart

namespace Machine

/-- The steps leave exactly these states, in this order, and close their regions on the way: after
the active child of the region and before its owner. -/
structure Retraces (machine : Machine) (gone : List StateId) (steps : List Step) : Prop where
  once : steps.Nodup
  states : steps.filterMap Step.state? = gone
  opened : ∀ region, .region region ∈ steps → machine.isRegionActive region = true
  closed : ∀ region owner, machine.isRegionActive region = true →
    machine.ownerOf? region = some owner → owner ∈ gone →
    [.region region, .state owner].Sublist steps
  between : ∀ region child owner, machine.containerOf? child = some region →
    machine.isStateActive child = true → machine.ownerOf? region = some owner → owner ∈ gone →
    [.state child, .region region, .state owner].Sublist steps

/-- An exit of the top state has left some states, in the given order, and no others, and the
remaining ones, with the regions around them, are active as before. -/
structure Unwound (top : StateId) (gone remaining : List StateId) (before after : Machine) :
    Prop where
  told : ∃ events, Told before after events ∧ before.Retraces gone (departures events)
  left : ∀ state ∈ gone, after.isStateActive state = false
  others : ∀ state, state ∉ gone → after.isStateActive state = before.isStateActive state
  shut : ∀ region owner, before.ownerOf? region = some owner → owner ∈ gone →
    after.isRegionActive region = false
  regions : ∀ region, ¬before.Beneath top region →
    after.isRegionActive region = before.isRegionActive region
  remaining : ∀ state ∈ remaining, after.isStateActive state = true ∧
    ∀ region, before.containerOf? state = some region → after.isRegionActive region = true

private theorem sublist_of_append {Item : Type} {part early late : List Item} {last : Item}
    (once : (early ++ late).Nodup) (member : last ∈ early) (ends : part.getLast? = some last)
    (within : part.Sublist (early ++ late)) : part.Sublist early := by
  obtain ⟨first, second, rfl, inEarly, inLate⟩ := List.sublist_append_iff.mp within
  rcases List.eq_nil_or_concat second with rfl | ⟨begun, item, rfl⟩
  · rw [List.append_nil]
    exact inEarly
  · rw [List.concat_eq_append, ← List.append_assoc, List.getLast?_concat] at ends
    have again : item ∈ late := inLate.subset (by simp)
    rw [Option.some.inj ends] at again
    exact absurd again (List.disjoint_of_nodup_append once member)

section Steps

variable {machine after : Machine} (wired : machine.Wired) (coherent : machine.Coherent)
variable {top : StateId} (active : machine.isStateActive top = true)
variable {done rest : List Step} (plan : machine.exitPlan top = done ++ rest)
include wired coherent active plan

private theorem retraces_of_plan : machine.Retraces (done.filterMap Step.state?) done := by
  have once : (done ++ rest).Nodup := by
    rw [← plan]
    exact List.nodup_reverse.mpr (nodup_activeSteps wired)
  have visited {state : StateId} (gone : state ∈ done.filterMap Step.state?) :
      .state state ∈ done ∧ machine.Below top state := by
    have named := Step.mem_filterMap_state?.mp gone
    have planned : .state state ∈ machine.exitPlan top := by
      rw [plan]
      exact List.mem_append_left _ named
    exact ⟨named, ((state_mem_exitPlan wired coherent active).mp planned).2⟩
  refine
    { once := once.of_append_left, states := rfl, opened := fun region named => ?_
      closed := fun region owner opened owned gone => ?_
      between := fun region child owner contained activeChild owned gone => ?_ }
  · refine ((region_mem_exitPlan wired coherent active).mp ?_).1
    rw [plan]
    exact List.mem_append_left _ named
  · obtain ⟨named, below⟩ := visited gone
    have order := region_sublist_exitPlan wired coherent below owned opened
    rw [plan] at order
    exact sublist_of_append once named rfl order
  · obtain ⟨named, below⟩ := visited gone
    have order := child_sublist_exitPlan wired coherent below owned contained activeChild
    rw [plan] at order
    exact sublist_of_append once named rfl order

private theorem unwound_of_followed (followed : Run.Followed done machine after) :
    Unwound top (done.filterMap Step.state?) (rest.filterMap Step.state?) machine after := by
  have once : (done ++ rest).Nodup := by
    rw [← plan]
    exact List.nodup_reverse.mpr (nodup_activeSteps wired)
  obtain ⟨events, told, steps⟩ := followed.told
  have retraces := retraces_of_plan wired coherent active plan
  refine
    { told := ⟨events, told, by rw [steps]; exact retraces⟩
      left := fun state gone => followed.off.states state (Step.mem_filterMap_state?.mp gone)
      others := fun state kept => followed.states state fun named =>
        kept (Step.mem_filterMap_state?.mpr named)
      shut := fun region owner owned gone => ?_
      regions := fun region outside => followed.regions region fun named => outside ?_
      remaining := fun state waits => ?_ }
  · by_cases named : .region region ∈ done
    · exact followed.off.regions region named
    · rw [followed.regions region named]
      exact Bool.eq_false_iff.mpr fun opened =>
        named ((retraces.closed region owner opened owned gone).subset (List.mem_cons_self ..))
  · refine ((region_mem_exitPlan wired coherent active).mp ?_).2
    rw [plan]
    exact List.mem_append_left _ named
  · have later := Step.mem_filterMap_state?.mp waits
    have planned : .state state ∈ machine.exitPlan top := by
      rw [plan]
      exact List.mem_append_right _ later
    have isActive := ((state_mem_exitPlan wired coherent active).mp planned).1
    have kept : .state state ∉ done := fun named => List.disjoint_of_nodup_append once named later
    refine ⟨(followed.states state kept).trans isActive, fun region contained => ?_⟩
    rw [followed.regions region fun named => kept ?_]
    · exact coherent.container_active wired isActive contained
    · -- A region is closed after its active child was left.
      have closes : .region region ∈ machine.exitPlan top := by
        rw [plan]
        exact List.mem_append_left _ named
      obtain ⟨_, owner, owned, below⟩ := (region_mem_exitPlan wired coherent active).mp closes
      have order := child_sublist_exitPlan wired coherent below owned contained isActive
      rw [plan] at order
      have before : [Step.state state, .region region].Sublist (done ++ rest) :=
        (List.sublist_append_left [Step.state state, .region region] [.state owner]).trans order
      exact (sublist_of_append once named rfl before).subset (List.mem_cons_self ..)

end Steps

/-- The active states at an active state are listed once each; an exit of the state leaves exactly
these, in the opposite order, and closes each region between its active child and its owner. If it
fails, the exit behaviour of one of them has failed: that state and those before it have been left,
and the remaining ones are active as before, with the regions around them. -/
theorem Reached.exit_unwinds {machine : Machine} (reached : machine.Reached anyTerms)
    (calm : machine.Calm True) {top : StateId} (active : machine.isStateActive top = true)
    (depth : Nat) :
    (machine.activePart top).Nodup ∧
    (∀ state, state ∈ machine.activePart top ↔
      machine.isStateActive state = true ∧ machine.Below top state) ∧
    (∀ after, Run.exit (Run.calls depth) top machine = .ok () after →
      Unwound top (machine.activePart top).reverse [] machine after ∧
        ∀ state ∈ machine.activePart top, Run.LeftWell (Run.calls depth) machine state) ∧
    ∀ halt after, Run.exit (Run.calls depth) top machine = .error halt after →
      ∃ early state late error,
        (machine.activePart top).reverse = early ++ state :: late ∧ halt = .error error ∧
        Run.RanExit (Run.calls depth) machine state (.error halt after) ∧
        (∀ earlier ∈ early, Run.LeftWell (Run.calls depth) machine earlier) ∧
        Unwound top (early ++ [state]) late machine after := by
  have wired := reached.formed.toWired
  have coherent := reached.coherent calm
  have listing := filterMap_exitPlan wired coherent active
  refine ⟨nodup_activePart wired coherent active,
    fun state => mem_activePart wired coherent active, fun after result => ?_,
    fun halt after result => ?_⟩
  · obtain ⟨followed, well⟩ :=
      ends_of_finished (Run.ends_exit_followed wired calm.behaviors active) result
    rw [← listing]
    refine ⟨unwound_of_followed wired coherent active (List.append_nil _).symm followed,
      fun state listed => well state ?_⟩
    obtain ⟨isActive, below⟩ := (mem_activePart wired coherent active).mp listed
    exact (state_mem_exitPlan wired coherent active).mpr ⟨isActive, below⟩
  · obtain ⟨early, state, late, error, plan, isError, followed, ran, well⟩ :=
      ends_of_failed (Run.ends_exit_followed wired calm.behaviors active) result
    have split : machine.exitPlan top = (early ++ [.state state]) ++ late := by
      rw [plan, List.append_assoc, List.singleton_append]
    have unwound := unwound_of_followed wired coherent active split followed
    rw [List.filterMap_append, List.filterMap_cons_some (Step.state?_state state),
      List.filterMap_nil] at unwound
    refine ⟨early.filterMap Step.state?, state, late.filterMap Step.state?, error, ?_, isError, ran,
      fun earlier gone => well earlier (Step.mem_filterMap_state?.mp gone), unwound⟩
    rw [← listing, plan, List.filterMap_append, List.filterMap_cons_some (Step.state?_state state)]

/-- A house with a floor, which cannot be left, and a heater beside it. -/
def houseRequests : List Request :=
  [.construct (.createState (.plain "house")), .construct (.addState ⟨3⟩),
    .construct (.appendRegion ⟨3⟩), .construct (.appendRegion ⟨3⟩),
    .construct (.createState
      { StateDefinition.plain "floor" with exit := some (.fail (.action "stuck")) }),
    .construct (.regionAddState ⟨1⟩ ⟨8⟩),
    .construct (.createState (.plain "lamp")), .construct (.addChildState ⟨8⟩ ⟨9⟩),
    .construct (.createState (.plain "heater")), .construct (.regionAddState ⟨2⟩ ⟨12⟩),
    .construct (.createTransition (.initial "house")), .construct (.addTransition ⟨0⟩),
    .construct (.createTransition (.initial "floor")), .construct (.regionAddTransition ⟨1⟩ ⟨1⟩),
    .construct (.createTransition (.initial "lamp")), .construct (.regionAddTransition ⟨3⟩ ⟨2⟩),
    .construct (.createTransition (.initial "heater")), .construct (.regionAddTransition ⟨2⟩ ⟨3⟩),
    .start]

def house : Machine :=
  Request.outcome 8 houseRequests (Machine.new "house" (.ofStem "auto"))

/-- No callback but exit behaviours, which fail at once. -/
def isStubborn (machine : Machine) : Bool :=
  machine.states.toList.all (fun node =>
      node.entry.isNone && node.activity.isNone && !node.config.autoTransition &&
        node.exit.all fun behavior => behavior matches .fail _) &&
    machine.transitions.toList.all fun transition => transition.effect.isNone

private theorem calm_of_isStubborn {machine : Machine} (stubborn : machine.isStubborn = true) :
    machine.Calm True := by
  obtain ⟨states, transitions⟩ := (Bool.and_eq_true _ _).mp stubborn
  have node {state : StateId} {node : StateNode} (found : machine.state? state = some node) :=
    List.all_eq_true.mp states node (Array.mem_toList_iff.mpr (Array.mem_of_getElem? found))
  refine ⟨fun state present behavior found runs => ?_,
    fun id found effect memo present isEffect => ?_, fun state present found automatic => ?_⟩
  · have known := node found
    rcases runs with entry | isExit | activity
    · simp [entry] at known
    · cases behavior with
      | fail error => exact .fail error trivial
      | _ => simp [isExit] at known
    · simp [activity] at known
  · have known := List.all_eq_true.mp transitions found
      (Array.mem_toList_iff.mpr (Array.mem_of_getElem? present))
    rw [isEffect] at known
    cases known
  · have known := node found
    simp [automatic] at known

private theorem house_plays :
    (Request.play 8 houseRequests (Machine.new "house" (.ofStem "auto"))).isSome = true ∧
      house.isStateActive ⟨3⟩ = true ∧
      (house.exitPlan ⟨3⟩).filterMap Step.state? = [⟨12⟩, ⟨9⟩, ⟨8⟩, ⟨3⟩] ∧
      house.isStubborn = true ∧
      (Run.exit (Run.calls 4) ⟨3⟩ house matches .error (.error (.action "stuck")) _) = true := by
  decide +kernel

/-- The exit behaviour of the floor fails, and the exit stops there. -/
theorem house_unwinds :
    house.Reached anyTerms ∧ house.Calm True ∧ house.isStateActive ⟨3⟩ = true ∧
      house.activePart ⟨3⟩ = [⟨3⟩, ⟨8⟩, ⟨9⟩, ⟨12⟩] ∧
      ∃ halt after, Run.exit (Run.calls 4) ⟨3⟩ house = .error halt after ∧
        ∃ early state late, [⟨12⟩, ⟨9⟩, ⟨8⟩, ⟨3⟩] = early ++ state :: late ∧
          Run.RanExit (Run.calls 4) house state (.error halt after) ∧
          Unwound ⟨3⟩ (early ++ [state]) late house after := by
  obtain ⟨plays, active, plan, stubborn, fails⟩ := house_plays
  have calm : house.Calm True := calm_of_isStubborn stubborn
  have reached : house.Reached anyTerms :=
    ⟨"house", .ofStem "auto", (session_outcome plays).weaken fun _ _ _ _ _ => trivial⟩
  have unwinds := (Reached.exit_unwinds reached calm active 4).2.2.2
  have listing := filterMap_exitPlan reached.formed.toWired (reached.coherent calm) active
  rw [plan] at listing
  have part : house.activePart ⟨3⟩ = [⟨3⟩, ⟨8⟩, ⟨9⟩, ⟨12⟩] := by
    rw [← List.reverse_inj, ← listing]
    rfl
  refine ⟨reached, calm, active, part, ?_⟩
  cases result : Run.exit (Run.calls 4) ⟨3⟩ house with
  | ok answer after =>
      rw [result] at fails
      cases fails
  | error halt after =>
      obtain ⟨early, state, late, _, split, _, ran, _, unwound⟩ := unwinds halt after result
      exact ⟨halt, after, rfl, early, state, late, listing.trans split, ran, unwound⟩

end Machine

end Chart
