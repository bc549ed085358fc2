import Chart.Proofs.Forest.Appending
import Chart.Proofs.Forest.Preorder
import Chart.Proofs.Session.Choosing

set_option autoImplicit false

/-!
What names mean. However a machine was put together and run, a name means the first state, or the
first registered transition, that has it in one fixed order: the members of the region as they were
added, and then, child by child and region by region, what is below the regions of the children.
-/

namespace Chart

/-! ### The order of insertion -/

namespace Construction

private theorem appending_call (construction : Construction) :
    Construct.Appending construction.call := by
  cases construction with
  | createState definition => exact (Construct.appending_createState definition).discard
  | createTransition definition => exact (Construct.appending_createTransition definition).discard
  | addState state => exact (Construct.appending_regionAddState Machine.defaultRegion state).discard
  | addTransition transition =>
      exact (Construct.appending_regionAddTransition Machine.defaultRegion transition).discard
  | addChildState parent child =>
      apply Construct.Appending.discard
      apply (Construct.appending_firstRegion parent).bind
      exact fun region => Construct.appending_regionAddState region child
  | addChildTransition parent transition =>
      apply Construct.Appending.discard
      apply (Construct.appending_firstRegion parent).bind
      exact fun region => Construct.appending_regionAddTransition region transition
  | appendRegion state => exact (Construct.appending_appendRegion state).discard
  | regionAddState region state => exact (Construct.appending_regionAddState region state).discard
  | regionAddTransition region transition =>
      exact (Construct.appending_regionAddTransition region transition).discard
  | regionAddHistory region depth =>
      exact (Construct.appending_regionAddHistory region depth).discard
  | addHistory parent depth =>
      apply Construct.Appending.discard
      apply (Construct.appending_firstRegion parent).bind
      exact fun region => Construct.appending_regionAddHistory region depth
  | addChoice parent name decision =>
      exact (Construct.appending_addChoice parent name decision).discard
  | setStateData state key value =>
      exact (Construct.appending_setStateData state key value).discard

end Construction

open Machine (Appended)

private theorem Request.Returns.appended {request : Request} {before after : Machine}
    {answer : Except MachineError Unit} (returns : request.Returns before answer after) :
    Appended before after := by
  cases runs : request.runs with
  | true => exact Appended.of_sameChart (Machine.Changes.sameChart (returns.changes runs))
  | false =>
      have ends (depth : Nat) : Ends (request.run depth) before
          (fun _ after => Appended before after) fun _ after => Appended before after := by
        cases request with
        | construct construction => exact ends_adaptExcept.mpr (construction.appending_call before)
        | setData key value =>
            unfold Request.run
            rw [ends_discard, ends_modifyGet]
            apply Machine.appended_modifyState
            exact fun _ => List.prefix_rfl
        | _ => cases runs
      rcases returns.ends ends with ⟨_, appended⟩ | ⟨_, _, appended⟩
      · exact appended
      · exact appended

private theorem Session.appended {terms : Terms} {before after : Machine}
    (session : Session terms before after) : Appended before after := by
  induction session with
  | refl => exact Appended.refl before
  | tail _ serves ih =>
      obtain ⟨request, answer, returns, _⟩ := serves
      exact ih.trans returns.appended

/-! ### The order of resolution -/

namespace Machine

structure Resolving (machine : Machine) : Prop where
  /-- The children of a region come first, then, for each child in order and each of its regions in
  order, what is below that region. -/
  states : ∀ region, machine.statesBelow region =
    machine.statesOf region ++ (machine.statesOf region).flatMap fun child =>
      (machine.regionsOf child).flatMap machine.statesBelow
  transitions : ∀ region, machine.transitionsBelow region =
    machine.transitionsOf region ++ (machine.statesOf region).flatMap fun child =>
      (machine.regionsOf child).flatMap machine.transitionsBelow
  resolveState : ∀ region name, machine.resolveState? region name =
    (machine.statesBelow region).find? fun state => machine.stateName state = name
  resolveTransition : ∀ region name, machine.resolveTransition? region name =
    (machine.transitionsBelow region).find? fun id => machine.transitionName id = name
  /-- A name means nothing exactly when nothing below the region has it. -/
  nowhere : ∀ region name, machine.resolveState? region name = none ↔
    ∀ state, machine.Inside region state → machine.stateName state ≠ name
  transitionNowhere : ∀ region name, machine.resolveTransition? region name = none ↔
    ∀ nested, machine.Within region nested → ∀ id ∈ machine.transitionsOf nested,
      machine.transitionName id ≠ name
  /-- What choices have made for themselves has no name to anybody else. -/
  registered : ∀ region name id, machine.resolveTransition? region name = some id →
    ¬machine.Synthesized id ∧ ∃ nested, machine.Within region nested ∧
      machine.registrarOf? id = some nested
  findState : ∀ name, machine.findState? name =
    (root :: (machine.regionsOf root).flatMap machine.statesBelow).find? fun state =>
      machine.stateName state = name
  findTransition : ∀ name, machine.findTransition? name =
    ((machine.regionsOf root).flatMap machine.transitionsBelow).find? fun id =>
      machine.transitionName id = name
  findRegistered : ∀ name id, machine.findTransition? name = some id → ¬machine.Synthesized id

section Resolving

variable {machine : Machine}

private theorem Formed.resolveState?_eq_none (formed : machine.Formed) {region : RegionId}
    {name : String} :
    machine.resolveState? region name = none ↔
      ∀ state, machine.Inside region state → machine.stateName state ≠ name := by
  rw [formed.toWired.resolveState?_eq_find?, List.find?_eq_none]
  simp only [formed.mem_statesBelow, decide_eq_true_eq, ne_eq]

private theorem Formed.resolveTransition?_eq_none (formed : machine.Formed)
    (registry : machine.Registry)
    {region : RegionId} {name : String} :
    machine.resolveTransition? region name = none ↔
      ∀ nested, machine.Within region nested → ∀ id ∈ machine.transitionsOf nested,
        machine.transitionName id ≠ name := by
  rw [registry.resolveTransition?_eq_find?, List.find?_eq_none]
  simp only [formed.mem_transitionsBelow, decide_eq_true_eq, ne_eq]
  constructor
  · intro other nested within id listed
    exact other id ⟨nested, within, listed⟩
  · rintro other id ⟨nested, within, listed⟩
    exact other nested within id listed

private theorem Formed.registered_of_below (formed : machine.Formed) (registry : machine.Registry)
    {region : RegionId} {id : TransitionId} (below : id ∈ machine.transitionsBelow region) :
    ¬machine.Synthesized id ∧ ∃ nested, machine.Within region nested ∧
      machine.registrarOf? id = some nested := by
  obtain ⟨nested, within, listed⟩ := formed.mem_transitionsBelow.mp below
  constructor
  · intro synthesized
    exact synthesized.2 nested listed
  · rw [transitionsOf_eq] at listed
    exact ⟨nested, within, registry.listed nested id listed⟩

private theorem Formed.resolving (formed : machine.Formed) (registry : machine.Registry) :
    machine.Resolving where
  states := formed.preorder_eq fun _ => statesOf_of_unknown
  transitions := formed.preorder_eq fun _ => transitionsOf_of_unknown
  resolveState := formed.toWired.resolveState?_eq_find?
  resolveTransition := registry.resolveTransition?_eq_find?
  nowhere := fun _ _ => formed.resolveState?_eq_none
  transitionNowhere := fun _ _ => formed.resolveTransition?_eq_none registry
  registered := by
    intro region name id resolved
    rw [registry.resolveTransition?_eq_find?] at resolved
    exact formed.registered_of_below registry (List.mem_of_find?_eq_some resolved)
  findState := by
    intro name
    have below : (fun region => machine.resolveState? region name) = fun region =>
        (machine.statesBelow region).find? fun state => machine.stateName state = name :=
      funext fun region => formed.toWired.resolveState?_eq_find? region name
    unfold findState?
    rw [List.find?_cons, List.find?_flatMap, below]
    change (if machine.stateName root = name then _ else _) = _
    by_cases named : machine.stateName root = name
    · rw [if_pos named, decide_eq_true named]
    · rw [if_neg named, decide_eq_false named]
  findTransition := by
    intro name
    have below : (fun region => machine.resolveTransition? region name) = fun region =>
        (machine.transitionsBelow region).find? fun id => machine.transitionName id = name :=
      funext fun region => registry.resolveTransition?_eq_find? region name
    unfold findTransition?
    rw [List.find?_flatMap, below]
  findRegistered := by
    intro name id found
    obtain ⟨region, _, resolved⟩ := List.exists_of_findSome?_eq_some found
    rw [registry.resolveTransition?_eq_find?] at resolved
    exact (formed.registered_of_below registry (List.mem_of_find?_eq_some resolved)).1

end Resolving

/-- However a machine was put together and run, names are resolved in one order, and whatever is
added later comes after what its region, or its owner, already has. -/
theorem Reached.names_resolved {machine : Machine} (reached : machine.Reached anyTerms) :
    machine.Resolving ∧ ∀ after, Session anyTerms machine after → Appended machine after := by
  constructor
  · exact reached.formed.resolving reached.registry
  · exact fun _ session => session.appended

/-! ### A chart with names that occur twice -/

/-- The flat has a room and a lamp, and the room has a lamp and a door of its own; there is a door
outside as well. Flat and room each have a way to switch, and the entrance is a choice. -/
def flatRequests : List Request :=
  [.construct (.createState (.plain "flat")), .construct (.addState ⟨3⟩),
    .construct (.appendRegion ⟨3⟩),
    .construct (.createState (.plain "room")), .construct (.regionAddState ⟨1⟩ ⟨6⟩),
    .construct (.appendRegion ⟨6⟩),
    .construct (.createState (.plain "lamp")), .construct (.regionAddState ⟨2⟩ ⟨9⟩),
    .construct (.createState (.plain "door")), .construct (.regionAddState ⟨2⟩ ⟨10⟩),
    .construct (.createState (.plain "lamp")), .construct (.regionAddState ⟨1⟩ ⟨11⟩),
    .construct (.createState (.plain "door")), .construct (.addState ⟨12⟩),
    .construct (.createTransition (.simple "switch" "lamp" "door")),
    .construct (.regionAddTransition ⟨2⟩ ⟨0⟩),
    .construct (.createTransition (.simple "switch" "lamp" "room")),
    .construct (.regionAddTransition ⟨1⟩ ⟨1⟩),
    .construct (.addChoice ⟨0⟩ "entrance" fun _ => ⟨some "door", []⟩),
    .construct (.createTransition (.initial "entrance")), .construct (.addTransition ⟨2⟩), .start]

def flat : Machine :=
  Request.outcome 12 flatRequests (Machine.new "flat" (.ofStem "auto"))

private theorem flat_plays :
    (Request.play 12 flatRequests (Machine.new "flat" (.ofStem "auto"))).isSome = true ∧
      flat.statesBelow defaultRegion =
        [⟨1⟩, ⟨2⟩, ⟨3⟩, ⟨12⟩, ⟨13⟩, ⟨4⟩, ⟨5⟩, ⟨6⟩, ⟨11⟩, ⟨7⟩, ⟨8⟩, ⟨9⟩, ⟨10⟩] ∧
      flat.findState? "flat" = some root ∧ flat.resolveState? defaultRegion "lamp" = some ⟨11⟩ ∧
      flat.resolveState? defaultRegion "door" = some ⟨12⟩ ∧
      flat.resolveState? ⟨1⟩ "door" = some ⟨10⟩ ∧
      flat.resolveState? ⟨2⟩ "room" = none ∧
      flat.findTransition? "switch" = some ⟨1⟩ ∧
      flat.resolveTransition? ⟨2⟩ "switch" = some ⟨0⟩ ∧
      flat.isStateActive ⟨12⟩ = true ∧
      flat.findTransition? (flat.transitionName ⟨3⟩) = none := by
  decide +kernel

private theorem reached_flat : flat.Reached anyTerms :=
  ⟨"flat", .ofStem "auto", (session_outcome flat_plays.1).weaken fun _ _ _ _ _ => trivial⟩

/-- Seen from outside, the lamp beside the room and the door outside come first. -/
theorem flat_resolved :
    flat.Reached anyTerms ∧ flat.resolveState? defaultRegion "lamp" = some ⟨11⟩ ∧
      flat.resolveState? defaultRegion "door" = some ⟨12⟩ ∧
      flat.resolveState? ⟨1⟩ "door" = some ⟨10⟩ ∧ flat.findTransition? "switch" = some ⟨1⟩ ∧
      flat.Resolving ∧ ∀ after, Session anyTerms flat after → Appended flat after := by
  obtain ⟨_, _, _, lamp, door, own, _, switch, _⟩ := flat_plays
  exact ⟨reached_flat, lamp, door, own, switch, Reached.names_resolved reached_flat⟩

end Machine

end Chart
