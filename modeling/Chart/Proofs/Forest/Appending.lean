import Chart.Proofs.Forest.Refusing

set_option autoImplicit false

/-!
The order of insertion. A region lists its states and its transitions, and a state its regions, in
the order in which they were added: every construction call, also a refused one, leaves each list at
the front of what it becomes.
-/

namespace Chart

namespace Machine

structure Appended (before after : Machine) : Prop where
  states : ∀ region, before.statesOf region <+: after.statesOf region
  regions : ∀ state, before.regionsOf state <+: after.regionsOf state
  transitions : ∀ region, before.transitionsOf region <+: after.transitionsOf region

namespace Appended

theorem refl (machine : Machine) : Appended machine machine where
  states := fun _ => List.prefix_rfl
  regions := fun _ => List.prefix_rfl
  transitions := fun _ => List.prefix_rfl

theorem trans {before middle after : Machine} (first : Appended before middle)
    (second : Appended middle after) : Appended before after where
  states := fun region => (first.states region).trans (second.states region)
  regions := fun state => (first.regions state).trans (second.regions state)
  transitions := fun region => (first.transitions region).trans (second.transitions region)

theorem of_sameChart {before after : Machine} (same : SameChart before after) :
    Appended before after where
  states := by
    intro region
    rw [same.statesOf]
  regions := by
    intro state
    rw [same.regionsOf]
  transitions := by
    intro region
    rw [same.transitionsOf]

private theorem of_stores {before after : Machine}
    (states : ∀ state node, before.state? state = some node →
      ∃ node', after.state? state = some node' ∧ node.regions <+: node'.regions)
    (regions : ∀ region members, before.region? region = some members →
      ∃ members', after.region? region = some members' ∧ members.states <+: members'.states ∧
        members.transitions <+: members'.transitions) : Appended before after where
  states := by
    intro region
    unfold statesOf
    cases found : before.region? region with
    | none => exact List.nil_prefix
    | some members =>
        obtain ⟨members', found', listed, _⟩ := regions region members found
        rw [found']
        exact listed
  regions := by
    intro state
    unfold regionsOf
    cases found : before.state? state with
    | none => exact List.nil_prefix
    | some node =>
        obtain ⟨node', found', owned⟩ := states state node found
        rw [found']
        exact owned
  transitions := by
    intro region
    unfold transitionsOf
    cases found : before.region? region with
    | none => exact List.nil_prefix
    | some members =>
        obtain ⟨members', found', _, listed⟩ := regions region members found
        rw [found']
        exact listed

end Appended

/-! ### The steps -/

section Steps

variable (machine : Machine)

theorem appended_modifyState (state : StateId) (change : StateNode → StateNode)
    (appends : ∀ node, node.regions <+: (change node).regions) :
    Appended machine (machine.modifyState state change) := by
  apply Appended.of_stores
  · intro other node found
    rw [state?_modifyState, found]
    by_cases here : state = other
    · rw [if_pos here]
      exact ⟨change node, rfl, appends node⟩
    · rw [if_neg here]
      exact ⟨node, rfl, List.prefix_rfl⟩
  · intro region members found
    exact ⟨members, found, List.prefix_rfl, List.prefix_rfl⟩

private theorem appended_modifyRegion (region : RegionId) (change : Region → Region)
    (states : ∀ members, members.states <+: (change members).states)
    (transitions : ∀ members, members.transitions <+: (change members).transitions) :
    Appended machine (machine.modifyRegion region change) := by
  apply Appended.of_stores
  · intro state node found
    exact ⟨node, found, List.prefix_rfl⟩
  · intro other members found
    rw [region?_modifyRegion, found]
    by_cases here : region = other
    · rw [if_pos here]
      exact ⟨change members, rfl, states members, transitions members⟩
    · rw [if_neg here]
      exact ⟨members, rfl, List.prefix_rfl, List.prefix_rfl⟩

private theorem appended_pushState (node : StateNode) :
    Appended machine (machine.pushState node).2 := by
  apply Appended.of_stores
  · intro state known found
    exact ⟨known, state?_pushState_of_some node found, List.prefix_rfl⟩
  · intro region members found
    exact ⟨members, found, List.prefix_rfl, List.prefix_rfl⟩

private theorem appended_assignLevels (depth : Nat) (state : StateId) (machine : Machine) :
    Appended machine (assignLevels depth state machine) := by
  -- By induction on the bound of the walk over the levels, and on the children there.
  induction depth generalizing state machine with
  | zero => exact Appended.refl machine
  | succ depth ih =>
      have along (children : List StateId) (current : Machine) : Appended current
          (children.foldl (fun current child => assignLevels depth child current) current) := by
        induction children generalizing current with
        | nil => exact Appended.refl current
        | cons child rest ihRest => exact (ih child current).trans (ihRest _)
      unfold assignLevels
      apply Appended.trans _ (along _ _)
      apply appended_modifyState
      exact fun _ => List.prefix_rfl

private theorem appended_attach (region : RegionId) (state : StateId) :
    Appended machine (machine.attach region state) := by
  have listed : Appended machine (machine.modifyRegion region fun members =>
      members.listing (machine.stateName state) state) := by
    apply appended_modifyRegion
    · exact fun members => List.prefix_append members.states [state]
    · exact fun _ => List.prefix_rfl
  unfold attach
  apply Appended.trans _ (appended_assignLevels _ _ _)
  apply listed.trans
  apply appended_modifyState
  exact fun _ => List.prefix_rfl

private theorem appended_pushRegion (owner : StateId) :
    Appended machine (machine.pushRegion owner).2 := by
  unfold pushRegion
  apply Appended.trans _ (appended_attach _ _ _)
  apply Appended.trans _ (appended_attach _ _ _)
  apply Appended.trans _ (appended_modifyState _ owner _ fun node =>
    List.prefix_append node.regions _)
  apply Appended.trans ((appended_pushState machine _).trans (appended_pushState _ _))
  apply Appended.of_stores
  · intro state node found
    exact ⟨node, found, List.prefix_rfl⟩
  · intro region members found
    refine ⟨members, ?_, List.prefix_rfl, List.prefix_rfl⟩
    have bounded := (Array.getElem?_eq_some_iff.mp found).1
    exact (Array.getElem?_push_lt bounded).trans (Array.getElem?_eq_getElem bounded ▸ found)

private theorem appended_installed (region : RegionId) (name : String) (depth : HistoryDepth) :
    Appended machine (machine.installed region name depth) := by
  unfold installed remembering
  apply Appended.trans (appended_pushState machine _)
  apply Appended.trans (appended_attach _ region _)
  exact appended_modifyRegion _ region _ (fun _ => List.prefix_rfl) fun _ => List.prefix_rfl

private theorem appended_registering (region : RegionId) (transition : TransitionId)
    (name : String) :
    Appended machine (machine.registering region transition name) := by
  unfold registering
  have unlisted : Appended machine (machine.modifyTransition transition fun entry =>
      { entry with container := some region }) :=
    ⟨fun _ => List.prefix_rfl, fun _ => List.prefix_rfl, fun _ => List.prefix_rfl⟩
  apply unlisted.trans
  apply appended_modifyRegion
  · exact fun _ => List.prefix_rfl
  · exact fun members => List.prefix_append members.transitions [transition]

end Steps

end Machine

namespace Construct

open Machine (Appended)

/-- Whatever the end of the call, the lists have got longer at their ends at most. -/
def Appending {Answer : Type} (construct : Construct Answer) : Prop :=
  ∀ machine : Machine, Ends construct machine (fun _ after => Appended machine after)
    (fun _ after => Appended machine after)

section Rules

variable {Answer Other : Type}

private theorem appending_pure (answer : Answer) : Appending (pure answer : Construct Answer) :=
  Appended.refl

theorem Appending.bind {first : Construct Other} {next : Other → Construct Answer}
    (appending : Appending first) (appendingNext : ∀ answer, Appending (next answer)) :
    Appending (first >>= next) := by
  intro machine
  rw [ends_bind]
  apply (appending machine).mono
  · intro answer middle appended
    exact (appendingNext answer middle).mono (fun _ _ later => appended.trans later)
      fun _ _ later => appended.trans later
  · exact fun _ _ appended => appended

theorem Appending.discard {construct : Construct Answer} (appending : Appending construct) :
    Appending (discard construct) := by
  intro machine
  rw [ends_discard]
  exact appending machine

private theorem appending_modifyGet {change : Machine → Answer × Machine}
    (appends : ∀ machine, Appended machine (change machine).2) :
    Appending (modifyGet change : Construct Answer) :=
  appends

private theorem appending_requireState (state : StateId) : Appending (requireState state) := by
  intro machine
  exact ends_requireState (fun _ _ => Appended.refl machine) fun _ => Appended.refl machine

private theorem appending_requireRegion (region : RegionId) : Appending (requireRegion region) := by
  intro machine
  exact ends_requireRegion (fun _ _ => Appended.refl machine) fun _ => Appended.refl machine

private theorem appending_requireTransition (transition : TransitionId) :
    Appending (requireTransition transition) := by
  intro machine
  exact ends_requireTransition (fun _ _ => Appended.refl machine) fun _ => Appended.refl machine

private theorem appending_requireComposite (state : StateId) :
    Appending (requireComposite state) := by
  intro machine
  exact ends_requireComposite (fun _ _ _ => Appended.refl machine) fun _ => Appended.refl machine

private theorem appending_forIn {Item : Type} (items : List Item)
    {step : Item → Unit → Construct (ForInStep Unit)}
    (appending : ∀ item, Appending (step item ())) :
    Appending (forIn items () step) := by
  -- By induction on the items.
  induction items with
  | nil => exact appending_pure ()
  | cons item rest ih =>
      rw [List.forIn_cons]
      apply (appending item).bind
      intro next
      cases next with
      | done _ => exact appending_pure ()
      | yield _ => exact ih

end Rules

private theorem appending_nameOrGenerate (name : Option String) :
    Appending (nameOrGenerate name) := by
  cases name with
  | some given => exact appending_pure given
  | none => exact fun machine => Appended.of_sameChart (Machine.SameChart.of_stores rfl rfl rfl)

theorem appending_createState (definition : StateDefinition) :
    Appending (createState definition) := by
  apply (appending_nameOrGenerate definition.name).bind
  exact fun name => appending_modifyGet fun machine => Machine.appended_pushState machine _

theorem appending_createTransition (definition : TransitionDefinition) :
    Appending (createTransition definition) := by
  apply (appending_nameOrGenerate definition.name).bind
  exact fun name => appending_modifyGet fun machine =>
    ⟨fun _ => List.prefix_rfl, fun _ => List.prefix_rfl, fun _ => List.prefix_rfl⟩

theorem appending_appendRegion (state : StateId) : Appending (appendRegion state) := by
  apply (appending_requireComposite state).discard.bind
  exact fun _ => appending_modifyGet fun machine => Machine.appended_pushRegion machine state

theorem appending_firstRegion (state : StateId) : Appending (firstRegion state) := by
  apply (appending_requireComposite state).bind
  intro node
  cases node.regions with
  | cons region _ => exact appending_pure region
  | nil => exact appending_modifyGet fun machine => Machine.appended_pushRegion machine state

theorem appending_regionAddState (region : RegionId) (state : StateId) :
    Appending (regionAddState region state) := by
  apply (appending_requireRegion region).bind
  intro members
  apply (appending_requireState state).bind
  intro node machine
  rw [ends_bind, ends_get]
  dsimp only
  split
  · exact Appended.refl machine
  · split
    · exact Appended.refl machine
    · split
      · exact Appended.refl machine
      · split
        · exact Appended.refl machine
        · exact Machine.appended_attach machine region state

theorem appending_regionAddTransition (region : RegionId) (transition : TransitionId) :
    Appending (regionAddTransition region transition) := by
  apply (appending_requireRegion region).bind
  intro members
  apply (appending_requireTransition transition).bind
  intro found machine
  rw [ends_bind, ends_get]
  dsimp only
  split
  · exact Appended.refl machine
  · split
    · exact Appended.refl machine
    · exact Machine.appended_registering machine region transition found.name

private theorem appending_installHistory (region : RegionId) (depth : HistoryDepth) :
    Appending (installHistory region depth) := by
  apply (appending_requireRegion region).bind
  intro members machine
  cases members.history with
  | some existing =>
      exact Machine.appended_modifyState machine existing _ fun _ => List.prefix_rfl
  | none =>
      dsimp only
      split
      · exact Appended.refl machine
      · exact Machine.appended_installed machine region _ depth

private theorem appending_installHistoryBelow (depth : Nat) (region : RegionId) :
    Appending (installHistoryBelow depth region) := by
  -- By induction on the bound of the walk.
  induction depth generalizing region with
  | zero => exact appending_pure ()
  | succ depth ih =>
      intro machine
      unfold installHistoryBelow
      rw [ends_bind, ends_get, ends_bind]
      apply appending_forIn
      intro nested
      apply (appending_installHistory nested .deep).discard.bind
      intro _
      apply (ih nested).bind
      exact fun _ => appending_pure _

theorem appending_regionAddHistory (region : RegionId) (depth : HistoryDepth) :
    Appending (regionAddHistory region depth) := by
  apply (appending_installHistory region depth).bind
  intro history machine
  dsimp only
  split
  · rw [ends_bind, ends_get, ends_bind]
    exact appending_installHistoryBelow _ region machine
  · exact Appended.refl machine

theorem appending_addChoice (parent : StateId) (name : String) (decision : Decision) :
    Appending (addChoice parent name decision) := by
  apply (appending_firstRegion parent).bind
  intro region
  apply Appending.bind (appending_modifyGet fun machine => Machine.appended_pushState machine _)
  exact fun choice => appending_regionAddState region choice

theorem appending_setStateData (state : StateId) (key : String) (value : Value) :
    Appending (setStateData state key value) := by
  apply (appending_requireState state).discard.bind
  exact fun _ => appending_modifyGet fun machine =>
    Machine.appended_modifyState machine state _ fun _ => List.prefix_rfl

end Construct
end Chart
