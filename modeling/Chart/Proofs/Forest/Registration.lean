import Chart.Proofs.Forest.Histories
import Chart.Proofs.Run.Change

set_option autoImplicit false

/-!
Registered transitions. A region lists each of its transitions once and knows it by its name; a
transition that says it belongs to a region is listed there, unless a choice has made it for itself.
Construction writes to these lists at one place only, and a running machine only adds transitions of
choices.
-/

namespace Chart.Machine

/-- What a region lists of transitions, and its index of their names. -/
def rosterOf (machine : Machine) (region : RegionId) :
    List TransitionId × Dictionary TransitionId :=
  ((machine.region? region).map fun members =>
    (members.transitions, members.transitionIndex)).getD ([], [])

def registrarOf? (machine : Machine) (transition : TransitionId) : Option RegionId :=
  (machine.transition? transition).bind Transition.container

/-- A choice takes the transition to one of its targets. -/
def Chosen (machine : Machine) (transition : TransitionId) : Prop :=
  ∃ choice node target, machine.state? choice = some node ∧
    Dictionary.find? node.choices target = some transition

structure Registry (machine : Machine) : Prop where
  once : ∀ region, (machine.rosterOf region).1.Nodup
  named : ∀ region name transition,
    Dictionary.find? (machine.rosterOf region).2 name = some transition ↔
      transition ∈ (machine.rosterOf region).1 ∧ machine.transitionName transition = name
  listed : ∀ region transition, transition ∈ (machine.rosterOf region).1 →
    machine.registrarOf? transition = some region
  placed : ∀ region transition, machine.registrarOf? transition = some region →
    transition ∈ (machine.rosterOf region).1 ∨ machine.Chosen transition
  chosen : ∀ transition, machine.Chosen transition →
    (machine.registrarOf? transition).isSome ∧
      ∀ region, transition ∉ (machine.rosterOf region).1

theorem transitionsOf_eq (machine : Machine) (region : RegionId) :
    machine.transitionsOf region = (machine.rosterOf region).1 := by
  unfold transitionsOf rosterOf
  cases machine.region? region <;> rfl

theorem rosterOf_of_found {machine : Machine} {region : RegionId} {members : Region}
    (found : machine.region? region = some members) :
    machine.rosterOf region = (members.transitions, members.transitionIndex) := by
  rw [rosterOf, found]
  rfl

theorem registrarOf?_eq_some {machine : Machine} {transition : TransitionId} {region : RegionId} :
    machine.registrarOf? transition = some region ↔
      ∃ found, machine.transition? transition = some found ∧ found.container = some region := by
  rw [registrarOf?, Option.bind_eq_some_iff]

private theorem ne_of_registrar {machine : Machine} {transition absent : TransitionId}
    (registered : (machine.registrarOf? transition).isSome)
    (missing : machine.transition? absent = none) : transition ≠ absent := by
  rintro rfl
  rw [registrarOf?, missing] at registered
  cases registered

theorem Registry.of_same {before after : Machine} (registry : before.Registry)
    (rosters : ∀ region, after.rosterOf region = before.rosterOf region)
    (transitions : after.transitions = before.transitions)
    (choices : ∀ transition, after.Chosen transition ↔ before.Chosen transition) :
    after.Registry := by
  have registrars (transition : TransitionId) :
      after.registrarOf? transition = before.registrarOf? transition := by
    simp only [registrarOf?, transition?, transitions]
  have names (transition : TransitionId) :
      after.transitionName transition = before.transitionName transition := by
    simp only [transitionName, transition?, transitions]
  exact
    { once := fun region => by rw [rosters]; exact registry.once region
      named := fun region name transition => by
        rw [rosters, names]
        exact registry.named region name transition
      listed := fun region transition => by
        rw [rosters, registrars]
        exact registry.listed region transition
      placed := fun region transition => by
        rw [rosters, registrars, choices]
        exact registry.placed region transition
      chosen := fun transition => by
        simp only [choices, registrars, rosters]
        exact registry.chosen transition }

/-! ### Construction -/

section Grown

variable {before after machine : Machine}

private theorem Grown.chosen_iff (grown : Grown before after) (transition : TransitionId) :
    after.Chosen transition ↔ before.Chosen transition := by
  have choices {node node' : StateNode} (grownNode : node.Grown node') :
      node'.choices = node.choices :=
    StateNode.read_lasting grownNode.lasting StateNode.choices fun _ => rfl
  constructor
  · rintro ⟨choice, node', target, found', chosen⟩
    cases found : before.state? choice with
    | none =>
        rw [(grown.newStates choice node' found found').2.1] at chosen
        cases chosen
    | some node =>
        have grownNode := grown.grownNode found found'
        exact ⟨choice, node, target, found, by rw [← choices grownNode]; exact chosen⟩
  · rintro ⟨choice, node, target, found, chosen⟩
    obtain ⟨node', found', grownNode⟩ := grown.states choice node found
    exact ⟨choice, node', target, found', by rw [choices grownNode]; exact chosen⟩

theorem Registry.of_grown (registry : before.Registry) (grown : Grown before after)
    (rosters : ∀ region, after.rosterOf region = before.rosterOf region)
    (transitions : after.transitions = before.transitions) : after.Registry :=
  registry.of_same rosters transitions grown.chosen_iff

theorem Registry.pushTransition (registry : machine.Registry) {new : Transition}
    (free : new.container = none) : (machine.pushTransition new).2.Registry := by
  set next := (machine.pushTransition new).1
  have absent : machine.transition? next = none := transition?_next machine new
  have registrars (transition : TransitionId) :
      (machine.pushTransition new).2.registrarOf? transition =
        machine.registrarOf? transition := by
    unfold registrarOf?
    rw [transition?_pushTransition]
    split
    · rename_i here
      rw [here, absent]
      exact free
    · rfl
  have listed (region : RegionId) (transition : TransitionId)
      (member : transition ∈ (machine.rosterOf region).1) :
      (machine.pushTransition new).2.transitionName transition =
        machine.transitionName transition := by
    have old : transition ≠ next :=
      ne_of_registrar (by rw [registry.listed region transition member]; rfl) absent
    unfold transitionName
    rw [transition?_pushTransition, if_neg old]
  exact
    { once := registry.once
      named := fun region name transition => by
        refine (registry.named region name transition).trans (and_congr_right fun member => ?_)
        rw [listed region transition member]
      listed := fun region transition member => by
        rw [registrars]
        exact registry.listed region transition member
      placed := fun region transition => by
        rw [registrars]
        exact registry.placed region transition
      chosen := fun transition => by
        rw [registrars]
        exact registry.chosen transition }

section Registering

variable {region : RegionId} {transition : TransitionId} {members : Region} {found : Transition}

private theorem rosterOf_registering (stored : machine.region? region = some members)
    (other : RegionId) :
    (machine.registering region transition found.name).rosterOf other =
      if other = region then
        (members.transitions ++ [transition],
          Dictionary.insert members.transitionIndex found.name transition)
      else machine.rosterOf other := by
  unfold rosterOf
  rw [region?_registering]
  split
  · rename_i here
    rw [here, stored]
    rfl
  · rfl

private theorem mem_rosterOf_registering (stored : machine.region? region = some members)
    {other : RegionId} {listed : TransitionId} :
    listed ∈ ((machine.registering region transition found.name).rosterOf other).1 ↔
      listed ∈ (machine.rosterOf other).1 ∨ other = region ∧ listed = transition := by
  rw [rosterOf_registering stored]
  split
  · rename_i here
    rw [here, rosterOf_of_found stored, List.mem_append, List.mem_singleton]
    exact or_congr_right ⟨fun last => ⟨rfl, last⟩, And.right⟩
  · rename_i elsewhere
    exact ⟨Or.inl, fun either => either.resolve_right fun new => elsewhere new.1⟩

private theorem registrarOf?_registering (present : machine.transition? transition = some found)
    (other : TransitionId) :
    (machine.registering region transition found.name).registrarOf? other =
      if other = transition then some region else machine.registrarOf? other := by
  unfold registrarOf?
  rw [transition?_registering]
  split
  · rename_i here
    rw [here, present]
    rfl
  · rfl

private theorem transitionName_registering (other : TransitionId) :
    (machine.registering region transition found.name).transitionName other =
      machine.transitionName other := by
  unfold transitionName
  rw [transition?_registering]
  split
  · cases machine.transition? other <;> rfl
  · rfl

theorem Registry.registering (registry : machine.Registry)
    (stored : machine.region? region = some members)
    (present : machine.transition? transition = some found) (free : found.container = none)
    (fresh : Dictionary.find? members.transitionIndex found.name = none) :
    (machine.registering region transition found.name).Registry := by
  have roster := rosterOf_of_found stored
  have unregistered : machine.registrarOf? transition = none := by
    rw [registrarOf?, present]
    exact free
  have unlisted (other : RegionId) : transition ∉ (machine.rosterOf other).1 := by
    intro member
    rw [registry.listed other transition member] at unregistered
    cases unregistered
  have named : machine.transitionName transition = found.name := by
    rw [transitionName, present]
    rfl
  refine { once := ?_, named := ?_, listed := ?_, placed := ?_, chosen := ?_ }
  · intro other
    rw [rosterOf_registering stored]
    split
    · have before := registry.once region
      have new := unlisted region
      rw [roster] at before new
      rw [List.nodup_append]
      refine ⟨before, List.nodup_singleton _, fun one member last single => ?_⟩
      rw [List.mem_singleton.mp single]
      rintro rfl
      exact new member
    · exact registry.once other
  · intro other name listed
    rw [rosterOf_registering stored, transitionName_registering]
    split
    · have before := registry.named region
      rw [roster] at before
      rw [Dictionary.find?_insert, List.mem_append, List.mem_singleton]
      by_cases same : found.name = name
      · rw [if_pos same]
        constructor
        · intro equal
          obtain rfl := Option.some.inj equal
          exact ⟨Or.inr rfl, named.trans same⟩
        · rintro ⟨member | rfl, isName⟩
          · have taken := (before name listed).mpr ⟨member, isName⟩
            rw [← same, fresh] at taken
            cases taken
          · rfl
      · rw [if_neg same, before]
        refine and_congr_left fun isName => ⟨Or.inl, fun either => either.resolve_right ?_⟩
        rintro rfl
        exact same (named.symm.trans isName)
    · exact registry.named other name listed
  · intro other listed member
    rw [registrarOf?_registering present]
    rcases (mem_rosterOf_registering stored).mp member with earlier | ⟨here, last⟩
    · rw [if_neg fun equal => unlisted other (by rw [← equal]; exact earlier)]
      exact registry.listed other listed earlier
    · rw [if_pos last, here]
  · intro other listed registered
    rw [registrarOf?_registering present] at registered
    split at registered
    · rename_i last
      left
      obtain rfl := Option.some.inj registered
      exact (mem_rosterOf_registering stored).mpr (Or.inr ⟨rfl, last⟩)
    · exact (registry.placed other listed registered).imp_left fun member =>
        (mem_rosterOf_registering stored).mpr (Or.inl member)
  · intro listed isChosen
    obtain ⟨registered, nowhere⟩ := registry.chosen listed isChosen
    have different : listed ≠ transition := by
      rintro rfl
      rw [unregistered] at registered
      cases registered
    refine ⟨by rw [registrarOf?_registering present, if_neg different]; exact registered,
      fun other member => ?_⟩
    rcases (mem_rosterOf_registering stored).mp member with earlier | ⟨_, last⟩
    · exact nowhere other earlier
    · exact different last

end Registering

private theorem readRegion_attach {Reading : Type} (read : Region → Reading)
    (blind : ∀ members name state, read (Region.listing members name state) = read members)
    (machine : Machine) (region : RegionId) (state : StateId) (other : RegionId) :
    ((machine.attach region state).region? other).map read =
      (machine.region? other).map read := by
  rw [region?_attach]
  split
  · cases machine.region? other with
    | none => rfl
    | some members => exact congrArg some (blind members _ _)
  · rfl

theorem rosterOf_attach (machine : Machine) (region : RegionId) (state : StateId)
    (other : RegionId) : (machine.attach region state).rosterOf other = machine.rosterOf other :=
  congrArg (Option.getD · ([], [])) (readRegion_attach
    (fun members => (members.transitions, members.transitionIndex)) (fun _ _ _ => rfl) machine
    region state other)

private theorem rosterOf_remembering (machine : Machine) (region : RegionId) (history : StateId)
    (other : RegionId) :
    (machine.remembering region history).rosterOf other = machine.rosterOf other :=
  congrArg (Option.getD · ([], [])) (readRegion_remembering
    (fun members => (members.transitions, members.transitionIndex)) (fun _ _ => rfl) other)

theorem transitions_attach (machine : Machine) (region : RegionId) (state : StateId) :
    (machine.attach region state).transitions = machine.transitions := by
  unfold attach
  rw [assignLevels_eq]
  rfl

theorem transitions_pushRegion (machine : Machine) (owner : StateId) :
    (machine.pushRegion owner).2.transitions = machine.transitions := by
  unfold pushRegion
  dsimp only
  rw [transitions_attach, transitions_attach]
  rfl

theorem rosterOf_pushRegion (machine : Machine) (owner : StateId) (other : RegionId) :
    (machine.pushRegion owner).2.rosterOf other = machine.rosterOf other := by
  unfold pushRegion
  dsimp only
  rw [rosterOf_attach, rosterOf_attach]
  unfold rosterOf
  rw [region?_modifyState]
  by_cases new : other.index = machine.regions.size
  · have absent : machine.region? other = none := Array.getElem?_eq_none (Nat.le_of_eq new.symm)
    rw [absent]
    simp [region?, pushState, new]
  · simp [region?, pushState, Array.getElem?_push, new]

private theorem transitions_remembering (machine : Machine) (region : RegionId)
    (history : StateId) :
    (machine.remembering region history).transitions = machine.transitions := rfl

theorem transitions_installed (machine : Machine) (region : RegionId) (name : String)
    (depth : HistoryDepth) :
    (machine.installed region name depth).transitions = machine.transitions := by
  unfold installed
  dsimp only
  rw [transitions_remembering, transitions_attach]
  rfl

theorem rosterOf_installed (machine : Machine) (region : RegionId) (name : String)
    (depth : HistoryDepth) (other : RegionId) :
    (machine.installed region name depth).rosterOf other = machine.rosterOf other := by
  unfold installed
  dsimp only
  rw [rosterOf_remembering, rosterOf_attach]
  rfl

theorem registry_new (name : String) (names : NameSource) :
    (Machine.new name names).Registry := by
  obtain ⟨bare, grown, _, _, _, _, onlyRoot⟩ := grown_new name names
  have unlisted (region : RegionId) : (Machine.new name names).rosterOf region = ([], []) :=
    rosterOf_pushRegion _ root region
  have unregistered (transition : TransitionId) :
      (Machine.new name names).registrarOf? transition = none := by
    have none' : (Machine.new name names).transitions = #[] := transitions_pushRegion _ root
    simp [registrarOf?, transition?, none']
  have unchosen (transition : TransitionId) : ¬(Machine.new name names).Chosen transition := by
    rw [grown.chosen_iff]
    rintro ⟨choice, node, target, found, chosen⟩
    rw [onlyRoot choice node found] at chosen
    cases chosen
  refine { once := ?_, named := ?_, listed := ?_, placed := ?_, chosen := ?_ }
  · intro region
    rw [unlisted]
    exact List.nodup_nil
  · intro region key transition
    rw [unlisted]
    simp
  · intro region transition member
    rw [unlisted] at member
    cases member
  · intro region transition registered
    rw [unregistered] at registered
    cases registered
  · exact fun transition chosen => absurd chosen (unchosen transition)

end Grown

/-! ### Running -/

theorem chosen_of_choices {before after : Machine}
    (same : ∀ state, (after.state? state).map StateNode.choices =
      (before.state? state).map StateNode.choices) (transition : TransitionId) :
    after.Chosen transition ↔ before.Chosen transition := by
  have read (machine : Machine) : machine.Chosen transition ↔ ∃ choice choices target,
      (machine.state? choice).map StateNode.choices = some choices ∧
        Dictionary.find? choices target = some transition := by
    constructor
    · rintro ⟨choice, node, target, found, chosen⟩
      exact ⟨choice, node.choices, target, by rw [found]; rfl, chosen⟩
    · rintro ⟨choice, choices, target, found, chosen⟩
      obtain ⟨node, found', rfl⟩ := Option.map_eq_some_iff.mp found
      exact ⟨choice, node, target, found', chosen⟩
  rw [read, read]
  simp only [same]

section Choosing

variable {machine : Machine} {choice : StateId} {node : StateNode} {region : RegionId}
  {name target : String}

def nextTransition (machine : Machine) : TransitionId := ⟨machine.transitions.size⟩

theorem transition?_transitionChosen (transition : TransitionId) :
    (machine.transitionChosen choice name target region).2.transition? transition =
      if transition = machine.nextTransition then
        some (Transition.ofChoice machine.generateName.1 name target region)
      else machine.transition? transition :=
  transition?_pushTransition machine.generateName.2 _ transition

private theorem registrarOf?_transitionChosen (transition : TransitionId) :
    (machine.transitionChosen choice name target region).2.registrarOf? transition =
      if transition = machine.nextTransition then some region
      else machine.registrarOf? transition := by
  unfold registrarOf?
  rw [transition?_transitionChosen]
  split <;> rfl

theorem state?_transitionChosen (state : StateId) :
    (machine.transitionChosen choice name target region).2.state? state =
      if choice = state then (machine.state? state).map fun current =>
        { current with
          choices := Dictionary.insert current.choices target machine.nextTransition }
      else machine.state? state :=
  state?_modifyState (machine.generateName.2.pushTransition
    (Transition.ofChoice machine.generateName.1 name target region)).2 choice state _

private theorem chosen_transitionChosen (found : machine.state? choice = some node)
    (fresh : Dictionary.find? node.choices target = none) (transition : TransitionId) :
    (machine.transitionChosen choice name target region).2.Chosen transition ↔
      transition = machine.nextTransition ∨ machine.Chosen transition := by
  have written : (machine.transitionChosen choice name target region).2.state? choice =
      some { node with
        choices := Dictionary.insert node.choices target machine.nextTransition } := by
    rw [state?_transitionChosen, if_pos rfl, found]
    rfl
  constructor
  · rintro ⟨other, current, key, foundOther, isChosen⟩
    rw [state?_transitionChosen] at foundOther
    split at foundOther
    · obtain ⟨earlier, foundEarlier, rfl⟩ := Option.map_eq_some_iff.mp foundOther
      dsimp only at isChosen
      rw [Dictionary.find?_insert] at isChosen
      split at isChosen
      · exact Or.inl (Option.some.inj isChosen).symm
      · exact Or.inr ⟨other, earlier, key, foundEarlier, isChosen⟩
    · exact Or.inr ⟨other, current, key, foundOther, isChosen⟩
  · rintro (rfl | ⟨other, current, key, foundOther, isChosen⟩)
    · exact ⟨choice, _, target, written, Dictionary.find?_insert_self _ _ _⟩
    · by_cases here : choice = other
      · subst here
        rw [found] at foundOther
        obtain rfl := Option.some.inj foundOther
        have different : target ≠ key := by
          rintro rfl
          rw [fresh] at isChosen
          cases isChosen
        refine ⟨choice, _, key, written, ?_⟩
        dsimp only
        rw [Dictionary.find?_insert_of_ne _ _ different]
        exact isChosen
      · refine ⟨other, current, key, ?_, isChosen⟩
        rw [state?_transitionChosen, if_neg here]
        exact foundOther

theorem Registry.transitionChosen (registry : machine.Registry)
    (found : machine.state? choice = some node)
    (fresh : Dictionary.find? node.choices target = none) :
    (machine.transitionChosen choice name target region).2.Registry := by
  have absent : machine.transition? machine.nextTransition = none :=
    transition?_next machine (Transition.ofChoice machine.generateName.1 name target region)
  have old {other : RegionId} {transition : TransitionId}
      (member : transition ∈ (machine.rosterOf other).1) : transition ≠ machine.nextTransition :=
    ne_of_registrar (by rw [registry.listed other transition member]; rfl) absent
  have rosters (other : RegionId) :
      (machine.transitionChosen choice name target region).2.rosterOf other =
        machine.rosterOf other := rfl
  refine { once := registry.once, named := ?_, listed := ?_, placed := ?_, chosen := ?_ }
  · intro other key transition
    refine (registry.named other key transition).trans (and_congr_right fun member => ?_)
    unfold transitionName
    rw [transition?_transitionChosen, if_neg (old member)]
  · intro other transition member
    rw [rosters] at member
    rw [registrarOf?_transitionChosen, if_neg (old member)]
    exact registry.listed other transition member
  · intro other transition registered
    rw [registrarOf?_transitionChosen] at registered
    rw [rosters, chosen_transitionChosen found fresh]
    split at registered
    · rename_i here
      exact Or.inr (Or.inl here)
    · exact (registry.placed other transition registered).imp_right Or.inr
  · intro transition isChosen
    simp only [rosters]
    rw [registrarOf?_transitionChosen]
    rcases (chosen_transitionChosen found fresh transition).mp isChosen with here | earlier
    · rw [if_pos here]
      exact ⟨rfl, fun other member => old member here⟩
    · obtain ⟨registered, nowhere⟩ := registry.chosen transition earlier
      rw [if_neg (ne_of_registrar registered absent)]
      exact ⟨registered, nowhere⟩

end Choosing

end Chart.Machine
