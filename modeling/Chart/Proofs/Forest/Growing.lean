import Chart.Proofs.Forest.Registration
import Chart.Proofs.Run.Ends

set_option autoImplicit false

/-!
Every construction call lets the chart grow, also one that is refused half way. The calls are taken
in turn, each on any formed machine.
-/

namespace Chart

namespace Machine

/-- The chart has grown and is formed, its lists of transitions still agree, and every transition
was there before or is one of those that may be added; only where it is registered may have
changed. -/
structure Becomes (added : Transition → Prop) (before after : Machine) : Prop where
  formed : after.Formed
  grown : Grown before after
  registry : before.Registry → after.Registry
  origins : ∀ transition found, after.transition? transition = some found →
    ∃ known, (before.transition? transition = some known ∨ added known) ∧
      found.lasting = known.lasting

section Becomes

variable {added : Transition → Prop} {before middle after machine : Machine}

theorem Becomes.of_transitions (formed : after.Formed) (grown : Grown before after)
    (rosters : ∀ region, after.rosterOf region = before.rosterOf region)
    (same : after.transitions = before.transitions) : Becomes added before after where
  formed := formed
  grown := grown
  registry := fun registry => registry.of_grown grown rosters same
  origins := by
    intro transition found present
    unfold transition? at present
    rw [same] at present
    exact ⟨found, Or.inl present, rfl⟩

theorem Becomes.refl (formed : machine.Formed) : Becomes added machine machine :=
  Becomes.of_transitions formed (Grown.refl machine) (fun _ => rfl) rfl

theorem Becomes.trans (first : Becomes added before middle) (second : Becomes added middle after) :
    Becomes added before after where
  formed := second.formed
  grown := first.grown.trans second.grown
  registry := fun registry => second.registry (first.registry registry)
  origins := by
    intro transition found present
    obtain ⟨known, origin, lasting⟩ := second.origins transition found present
    rcases origin with earlier | new
    · obtain ⟨known', origin', lasting'⟩ := first.origins transition known earlier
      exact ⟨known', origin', lasting.trans lasting'⟩
    · exact ⟨known, Or.inr new, lasting⟩

variable (formed : machine.Formed)
include formed

private theorem becomes_generateName : Becomes added machine machine.generateName.2 := by
  have same : SameChart machine machine.generateName.2 := SameChart.of_stores rfl rfl rfl
  exact Becomes.of_transitions (formed.of_sameChart same) { Grown.refl machine with }
    (fun _ => rfl) rfl

private theorem becomes_stateSet (state : StateId) (key : String) (value : Value) :
    Becomes added machine (machine.stateSet state key value).2 := by
  refine Becomes.of_transitions
    (formed.of_sameChart (SameChart.modifyState machine state _ fun _ => rfl))
    { Grown.refl machine with states := ?_, newStates := ?_ } (fun _ => rfl) rfl
  · intro other node found
    rw [stateSet, state?_modifyState, found]
    split
    · exact ⟨_, rfl, rfl, Or.inl rfl, fun _ contained => contained, fun _ known => known⟩
    · exact ⟨node, rfl, StateNode.Grown.refl node⟩
  · intro other node absent found
    rw [stateSet, state?_modifyState, absent] at found
    split at found <;> cases found

private theorem becomes_pushState {node : StateNode}
    (detached : node.container = none) (bare : node.regions = []) (low : node.level = 0)
    (inactive : node.status = .inactive) (unchosen : node.choices = [])
    (unframed : node.frame = none) (untimed : node.timer = .idle)
    (kind : node.kind = .normal ∨ (node.kind = .choice ∧ node.decision.isSome)) :
    Becomes added machine (machine.pushState node).2 := by
  refine Becomes.of_transitions
    { toWired := formed.toWired.pushState detached bare low ?_ ?_
      toMarked := formed.toMarked.pushState detached ?_ ?_ ?_ }
    (Grown.pushState machine inactive unchosen unframed untimed) (fun _ => rfl) rfl
  · rcases kind with normal | ⟨choice, _⟩
    · simp [normal]
    · simp [choice]
  · intro choice
    rcases kind with normal | ⟨_, decides⟩
    · rw [normal] at choice
      cases choice
    · exact decides
  all_goals
    rcases kind with normal | ⟨choice, _⟩
    · simp [normal]
    · simp [choice]

private theorem becomes_pushTransition {new : Transition} (free : new.container = none)
    (allowed : added new) : Becomes added machine (machine.pushTransition new).2 where
  formed :=
    { toWired := formed.toWired.pushTransition new
      initial := formed.initial, final := formed.final, history := formed.history
      contained := formed.contained }
  grown := Grown.pushTransition machine free
  registry := fun registry => registry.pushTransition free
  origins := by
    intro transition found present
    rw [transition?_pushTransition] at present
    split at present
    · obtain rfl := Option.some.inj present
      exact ⟨new, Or.inr allowed, rfl⟩
    · exact ⟨found, Or.inl present, rfl⟩

private theorem becomes_pushRegion {owner : StateId} {node : StateNode}
    (found : machine.state? owner = some node) (mayOwn : node.kind.mayOwnRegions = true) :
    Becomes added machine (machine.pushRegion owner).2 := by
  have allowed : machine.kindOf? owner = some .normal ∨ machine.kindOf? owner = some .root := by
    cases kind : node.kind with
    | normal => exact Or.inl (kindOf?_eq_some.mpr ⟨node, found, kind⟩)
    | root => exact Or.inr (kindOf?_eq_some.mpr ⟨node, found, kind⟩)
    | initial | final | history _ | choice =>
        rw [kind] at mayOwn
        cases mayOwn
  obtain ⟨formedAfter, grown⟩ := formed.pushRegion allowed
  exact Becomes.of_transitions formedAfter grown (rosterOf_pushRegion machine owner)
    (transitions_pushRegion machine owner)

end Becomes

end Machine

namespace Construct

open Machine (Becomes)

/-- Whatever the end of the call, the chart has grown. -/
def Growing {Answer : Type} (added : Transition → Prop) (construct : Construct Answer) : Prop :=
  ∀ machine : Machine, machine.Formed →
    Ends construct machine (fun _ after => Becomes added machine after)
      (fun _ after => Becomes added machine after)

variable {added : Transition → Prop}

section Rules

variable {Answer Other : Type}

private theorem growing_pure (answer : Answer) : Growing added (pure answer : Construct Answer) :=
  fun _ formed => Becomes.refl formed

private theorem Growing.after {construct : Construct Answer} (growing : Growing added construct)
    {before machine : Machine} (becomes : Becomes added before machine) :
    Ends construct machine (fun _ after => Becomes added before after)
      (fun _ after => Becomes added before after) :=
  (growing machine becomes.formed).mono (fun _ _ later => becomes.trans later)
    (fun _ _ later => becomes.trans later)

private theorem Growing.bind {first : Construct Other} {next : Other → Construct Answer}
    (growing : Growing added first) (growingNext : ∀ answer, Growing added (next answer)) :
    Growing added (first >>= next) := by
  intro machine formed
  rw [ends_bind]
  exact (growing machine formed).mono
    (fun answer _ becomes => (growingNext answer).after becomes) (fun _ _ becomes => becomes)

theorem Growing.discard {construct : Construct Answer} (growing : Growing added construct) :
    Growing added (discard construct) := by
  intro machine formed
  rw [ends_discard]
  exact growing machine formed

theorem ends_requireState {machine : Machine} {state : StateId}
    {finished : StateNode → Machine → Prop} {failed : ConfigurationError → Machine → Prop}
    (present : ∀ node, machine.state? state = some node → finished node machine)
    (absent : machine.state? state = none → failed (.unknownState state) machine) :
    Ends (requireState state) machine finished failed := by
  unfold requireState
  rw [ends_bind, ends_get]
  cases found : machine.state? state with
  | none => exact absent found
  | some node => exact present node found

theorem ends_requireRegion {machine : Machine} {region : RegionId}
    {finished : Region → Machine → Prop} {failed : ConfigurationError → Machine → Prop}
    (present : ∀ members, machine.region? region = some members → finished members machine)
    (absent : machine.region? region = none → failed (.unknownRegion region) machine) :
    Ends (requireRegion region) machine finished failed := by
  unfold requireRegion
  rw [ends_bind, ends_get]
  cases found : machine.region? region with
  | none => exact absent found
  | some members => exact present members found

theorem ends_requireTransition {machine : Machine} {transition : TransitionId}
    {finished : Transition → Machine → Prop} {failed : ConfigurationError → Machine → Prop}
    (present : ∀ found, machine.transition? transition = some found → finished found machine)
    (absent : machine.transition? transition = none →
      failed (.unknownTransition transition) machine) :
    Ends (requireTransition transition) machine finished failed := by
  unfold requireTransition
  rw [ends_bind, ends_get]
  cases found : machine.transition? transition with
  | none => exact absent found
  | some entry => exact present entry found

theorem ends_requireComposite {machine : Machine} {state : StateId}
    {finished : StateNode → Machine → Prop} {failed : ConfigurationError → Machine → Prop}
    (composite : ∀ node, machine.state? state = some node → node.kind.mayOwnRegions = true →
      finished node machine)
    (other : ∀ error, failed error machine) :
    Ends (requireComposite state) machine finished failed := by
  unfold requireComposite
  rw [ends_bind]
  refine ends_requireState (fun node found => ?_) (fun _ => other _)
  by_cases mayOwn : node.kind.mayOwnRegions = true
  · rw [if_pos mayOwn]
    exact composite node found mayOwn
  · rw [if_neg mayOwn]
    exact other _

end Rules

private theorem growing_nameOrGenerate (name : Option String) :
    Growing added (nameOrGenerate name) := by
  intro machine formed
  cases name with
  | some given => exact Becomes.refl formed
  | none => exact Machine.becomes_generateName formed

theorem growing_createState (definition : StateDefinition) :
    Growing added (createState definition) := by
  refine Growing.bind (growing_nameOrGenerate _) fun name machine formed => ?_
  rw [ends_modifyGet]
  exact Machine.becomes_pushState formed rfl rfl rfl rfl rfl rfl rfl (Or.inl rfl)

theorem growing_createTransition (definition : TransitionDefinition)
    (allowed : ∀ name, added (.ofDefinition name definition)) :
    Growing added (createTransition definition) := by
  refine Growing.bind (growing_nameOrGenerate _) fun name machine formed => ?_
  rw [ends_modifyGet]
  exact Machine.becomes_pushTransition formed rfl (allowed name)

theorem growing_appendRegion (state : StateId) : Growing added (appendRegion state) := by
  intro machine formed
  unfold appendRegion
  rw [ends_bind, ends_discard]
  refine ends_requireComposite (fun node found mayOwn => ?_) (fun _ => Becomes.refl formed)
  rw [ends_modifyGet]
  exact Machine.becomes_pushRegion formed found mayOwn

private theorem growing_firstRegion (state : StateId) : Growing added (firstRegion state) := by
  intro machine formed
  unfold firstRegion
  rw [ends_bind]
  refine ends_requireComposite (fun node found mayOwn => ?_) (fun _ => Becomes.refl formed)
  split
  · exact Becomes.refl formed
  · rw [ends_modifyGet]
    exact Machine.becomes_pushRegion formed found mayOwn

theorem growing_regionAddState (region : RegionId) (state : StateId) :
    Growing added (regionAddState region state) := by
  intro machine formed
  unfold regionAddState
  rw [ends_bind]
  refine ends_requireRegion (fun members foundRegion => ?_) (fun _ => Becomes.refl formed)
  rw [ends_bind]
  refine ends_requireState (fun node foundState => ?_) (fun _ => Becomes.refl formed)
  rw [ends_bind, ends_get]
  dsimp only
  by_cases isRoot : node.kind = .root
  · rw [if_pos isRoot]
    exact Becomes.refl formed
  · rw [if_neg isRoot]
    cases detached : node.container with
    | some existing => exact Becomes.refl formed
    | none =>
        dsimp only
        by_cases around : machine.encloses state region = true
        · rw [if_pos around]
          exact Becomes.refl formed
        · have open' : machine.encloses state region = false := by simpa using around
          rw [if_neg around]
          by_cases taken : Dictionary.contains members.stateIndex node.name = true
          · rw [if_pos taken]
            exact Becomes.refl formed
          · have fresh : Dictionary.find? members.stateIndex node.name = none := by
              simpa [Dictionary.contains] using taken
            rw [if_neg taken, ends_bind, ends_modify, ends_pure]
            obtain ⟨after, grown, _⟩ :=
              formed.attach foundRegion foundState isRoot detached open' fresh
            exact Becomes.of_transitions after grown (Machine.rosterOf_attach machine region state)
              (Machine.transitions_attach machine region state)

theorem growing_regionAddTransition (region : RegionId) (transition : TransitionId) :
    Growing added (regionAddTransition region transition) := by
  intro machine formed
  unfold regionAddTransition
  rw [ends_bind]
  refine ends_requireRegion (fun members foundRegion => ?_) (fun _ => Becomes.refl formed)
  rw [ends_bind]
  refine ends_requireTransition (fun found present => ?_) (fun _ => Becomes.refl formed)
  rw [ends_bind, ends_get]
  dsimp only
  cases free : found.container with
  | some existing => exact Becomes.refl formed
  | none =>
      dsimp only
      by_cases taken : Dictionary.contains members.transitionIndex found.name = true
      · rw [if_pos taken]
        exact Becomes.refl formed
      · have fresh : Dictionary.find? members.transitionIndex found.name = none := by
          simpa [Dictionary.contains] using taken
        rw [if_neg taken, ends_bind, ends_modify, ends_pure]
        refine
          { formed :=
              { toWired := formed.toWired.registering present free
                toMarked := formed.toMarked.registering }
            grown := Machine.Grown.registering foundRegion present free
            registry := fun registry => registry.registering foundRegion present free fresh
            origins := fun other entry stored => ?_ }
        change (machine.registering region transition found.name).transition? other =
          some entry at stored
        rw [Machine.transition?_registering] at stored
        split at stored
        · obtain ⟨known, known', rfl⟩ := Option.map_eq_some_iff.mp stored
          exact ⟨known, Or.inl known', rfl⟩
        · exact ⟨entry, Or.inl stored, rfl⟩

private theorem growing_installHistory (region : RegionId) (depth : HistoryDepth) :
    Growing added (installHistory region depth) := by
  intro machine formed
  unfold installHistory
  rw [ends_bind]
  refine ends_requireRegion (fun members foundRegion => ?_) (fun _ => Becomes.refl formed)
  cases marker : members.history with
  | some existing =>
      obtain ⟨_, old, isHistory⟩ := (formed.history region members existing foundRegion).mpr marker
      dsimp only
      rw [ends_bind, ends_modify, ends_pure]
      exact Becomes.of_transitions (formed.redeepened isHistory)
        (Machine.Grown.redeepened isHistory) (fun _ => rfl) rfl
  | none =>
      dsimp only
      by_cases taken :
          Dictionary.contains members.stateIndex (members.name ++ "-history-pseudo") = true
      · rw [if_pos taken]
        exact Becomes.refl formed
      · have fresh :
            Dictionary.find? members.stateIndex (members.name ++ "-history-pseudo") = none := by
          simpa [Dictionary.contains] using taken
        rw [if_neg taken, ends_modifyGet]
        obtain ⟨after, grown⟩ := formed.installed depth foundRegion fresh marker
        exact Becomes.of_transitions after grown
          (Machine.rosterOf_installed machine region _ depth)
          (Machine.transitions_installed machine region _ depth)

private theorem growing_forIn {Item : Type} (items : List Item)
    (step : Item → Unit → Construct (ForInStep Unit))
    (growing : ∀ item, Growing added (step item ())) :
    Growing added (forIn items () step) := by
  induction items with
  | nil => exact growing_pure ()
  | cons item rest ih =>
      rw [List.forIn_cons]
      refine Growing.bind (growing item) fun next => ?_
      cases next with
      | done _ => exact growing_pure ()
      | yield _ => exact ih

private theorem growing_installHistoryBelow (depth : Nat) (region : RegionId) :
    Growing added (installHistoryBelow depth region) := by
  -- By induction on the bound of the walk.
  induction depth generalizing region with
  | zero => exact growing_pure ()
  | succ depth ih =>
      intro machine formed
      unfold installHistoryBelow
      rw [ends_bind, ends_get, ends_bind]
      refine growing_forIn _ _ (fun nested => ?_) machine formed
      exact Growing.bind (growing_installHistory nested .deep).discard fun _ =>
        Growing.bind (ih nested) fun _ => growing_pure _

theorem growing_regionAddHistory (region : RegionId) (depth : HistoryDepth) :
    Growing added (regionAddHistory region depth) := by
  refine Growing.bind (growing_installHistory region depth) fun history => ?_
  intro machine formed
  dsimp only
  split
  · rw [ends_bind, ends_get, ends_bind]
    exact (growing_installHistoryBelow _ region machine formed).mono
      (fun _ _ becomes => becomes) (fun _ _ becomes => becomes)
  · exact Becomes.refl formed

theorem growing_addState (state : StateId) : Growing added (addState state) :=
  growing_regionAddState Machine.defaultRegion state

theorem growing_addTransition (transition : TransitionId) :
    Growing added (addTransition transition) :=
  growing_regionAddTransition Machine.defaultRegion transition

theorem growing_addChildState (parent child : StateId) :
    Growing added (addChildState parent child) :=
  Growing.bind (growing_firstRegion parent) fun region => growing_regionAddState region child

theorem growing_addChildTransition (parent : StateId) (transition : TransitionId) :
    Growing added (addChildTransition parent transition) :=
  Growing.bind (growing_firstRegion parent) fun region =>
    growing_regionAddTransition region transition

theorem growing_addHistory (parent : StateId) (depth : HistoryDepth) :
    Growing added (addHistory parent depth) :=
  Growing.bind (growing_firstRegion parent) fun region => growing_regionAddHistory region depth

theorem growing_addChoice (parent : StateId) (name : String) (decision : Decision) :
    Growing added (addChoice parent name decision) := by
  refine Growing.bind (growing_firstRegion parent) fun region => ?_
  refine Growing.bind (fun machine formed => ?_) fun choice => growing_regionAddState region choice
  rw [ends_modifyGet]
  exact Machine.becomes_pushState formed rfl rfl rfl rfl rfl rfl rfl (Or.inr ⟨rfl, rfl⟩)

theorem growing_setStateData (state : StateId) (key : String) (value : Value) :
    Growing added (setStateData state key value) := by
  intro machine formed
  unfold setStateData
  rw [ends_bind, ends_discard]
  refine ends_requireState (fun node found => ?_) (fun _ => Becomes.refl formed)
  rw [ends_modifyGet]
  exact Machine.becomes_stateSet formed state key value

end Construct
end Chart
