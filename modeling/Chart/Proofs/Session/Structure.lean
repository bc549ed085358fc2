import Chart.Proofs.Session.Request
import Mathlib.Data.Set.Card

set_option autoImplicit false

/-!
The structure of a chart. However a machine is put together and run, also by calls that are refused
half way, its lists, containers, indexes, markers and levels fit together: the states form a forest,
every region knows its members and its transitions by their names, and the level of a state counts
the states around it.
-/

namespace Chart.Machine

/-- A state stands around another one when a chain of containers and owners leads up to it. -/
def Surrounds (machine : Machine) (outer inner : StateId) : Prop :=
  Relation.TransGen (fun lower upper => machine.parentOf? lower = some upper) inner outer

/-- A choice state of the region has made the transition for one of its targets. -/
def ChosenIn (machine : Machine) (region : RegionId) (transition : TransitionId) : Prop :=
  ∃ choice node target name, machine.state? choice = some node ∧ node.container = some region ∧
    Dictionary.find? node.choices target = some transition ∧
    machine.transition? transition = some (.ofChoice name node.name target region)

/-- Everything that is written down twice in a chart agrees. -/
structure Consistent (machine : Machine) : Prop where
  /-- A region is listed by its owner, once, and by nobody else. -/
  ownership : ∀ state region, (machine.regionsOf state).count region =
    if machine.ownerOf? region = some state then 1 else 0
  /-- A state is listed in its container, once, and nowhere else. -/
  membership : ∀ region state, (machine.statesOf region).count state =
    if machine.containerOf? state = some region then 1 else 0
  /-- Every walk from a state to its parent, and on, ends. -/
  ascent : WellFounded fun outer inner => machine.parentOf? inner = some outer
  /-- Every walk from a state to a child, and on, ends. -/
  descent : WellFounded fun inner outer => machine.parentOf? inner = some outer
  /-- Chains of nested states are no longer than the walks that follow them. -/
  bounded : ∀ state, machine.level state ≤ machine.nestingBound
  names : ∀ region members name state, machine.region? region = some members →
    (Dictionary.find? members.stateIndex name = some state ↔
      state ∈ members.states ∧ machine.stateName state = name)
  namesDiffer : ∀ region, ((machine.statesOf region).map machine.stateName).Nodup
  initial : ∀ region members, machine.region? region = some members →
    (members.states.filter fun state => machine.kindOf? state = some .initial) = [members.initial]
  final : ∀ region members, machine.region? region = some members →
    (members.states.filter fun state => machine.kindOf? state = some .final) = [members.final]
  history : ∀ region members, machine.region? region = some members →
    (members.states.filter fun state =>
      machine.kindOf? state = some (.history .shallow) ∨
        machine.kindOf? state = some (.history .deep)) = members.history.toList
  owners : ∀ state, machine.regionsOf state ≠ [] →
    machine.kindOf? state = some .normal ∨ machine.kindOf? state = some .root
  /-- A listed transition is listed in its container, once, and nowhere else. -/
  registration : ∀ region transition, transition ∈ machine.transitionsOf region →
    machine.registrarOf? transition = some region ∧
      (machine.transitionsOf region).count transition = 1 ∧
      ∀ other, transition ∈ machine.transitionsOf other → other = region
  /-- A transition with a container is listed there, or a choice has made it and no region lists
  it. -/
  registrars : ∀ region transition, machine.registrarOf? transition = some region →
    transition ∈ machine.transitionsOf region ∨
      machine.ChosenIn region transition ∧ ∀ other, transition ∉ machine.transitionsOf other
  transitionNames : ∀ region members name transition, machine.region? region = some members →
    (Dictionary.find? members.transitionIndex name = some transition ↔
      transition ∈ members.transitions ∧ machine.transitionName transition = name)
  transitionNamesDiffer : ∀ region,
    ((machine.transitionsOf region).map machine.transitionName).Nodup
  level : ∀ state, {outer | machine.Surrounds outer state}.ncard = machine.level state
  /-- A transition leads deeper exactly if its target is not a member of its own region, and it
  never leads outwards. -/
  deeper : ∀ id region ends, machine.registrarOf? id = some region → machine.Connects id ends →
    machine.level ends.source ≤ machine.level ends.target ∧
      (machine.level ends.source < machine.level ends.target ↔
        machine.containerOf? ends.target ≠ some region)

/-! ### Lists -/

section Lists

variable {Item Key : Type} [DecidableEq Item]

private theorem count_eq_ite {items : List Item} (nodup : items.Nodup) {item : Item} {holds : Prop}
    [Decidable holds] (member : holds ↔ item ∈ items) :
    items.count item = if holds then 1 else 0 := by
  by_cases present : holds
  · rw [if_pos present]
    exact List.count_eq_one_of_mem nodup (member.mp present)
  · rw [if_neg present]
    exact List.count_eq_zero_of_not_mem fun listed => present (member.mpr listed)

omit [DecidableEq Item] in
private theorem eq_toList_of_mem_iff {items : List Item} (nodup : items.Nodup) {only : Option Item}
    (member : ∀ item, item ∈ items ↔ only = some item) : items = only.toList := by
  cases only with
  | none =>
      exact List.eq_nil_iff_forall_not_mem.mpr
        fun item listed => by simpa using (member item).mp listed
  | some single =>
      have same : items.Perm [single] :=
        (List.perm_ext_iff_of_nodup nodup (List.nodup_singleton single)).mpr fun item => by
          rw [member, List.mem_singleton, Option.some.injEq, eq_comm]
      exact List.perm_singleton.mp same

omit [DecidableEq Item] in
private theorem nodup_map_of_indexed {items : List Item} (nodup : items.Nodup) {key : Item → String}
    (index : Dictionary Item) (indexed : ∀ item ∈ items,
      Dictionary.find? index (key item) = some item) : (items.map key).Nodup := by
  refine nodup.map_on fun one listedOne other listedOther same => ?_
  have foundOther := indexed other listedOther
  rw [← same, indexed one listedOne] at foundOther
  exact Option.some.inj foundOther

end Lists

/-! ### Levels -/

section Levels

variable {machine : Machine} (wired : machine.Wired)
include wired

private theorem Wired.level_parent {state parent : StateId}
    (above : machine.parentOf? state = some parent) :
    machine.level state = machine.level parent + 1 := by
  obtain ⟨region, contained, owned⟩ := parentOf?_eq_some.mp above
  exact wired.level_succ contained owned

private theorem Wired.level_lt_of_surrounds {outer inner : StateId}
    (around : machine.Surrounds outer inner) :
    machine.level outer < machine.level inner := by
  induction around with
  | single above =>
      have step := wired.level_parent above
      omega
  | tail _ above ih =>
      have step := wired.level_parent above
      omega

omit wired in
private theorem surrounding_eq {state parent : StateId}
    (above : machine.parentOf? state = some parent) :
    {outer | machine.Surrounds outer state} =
      insert parent {outer | machine.Surrounds outer parent} := by
  ext outer
  rw [Set.mem_insert_iff, Set.mem_ofPred_eq, Set.mem_ofPred_eq, Surrounds,
    Relation.TransGen.head'_iff]
  constructor
  · rintro ⟨next, isNext, rest⟩
    rw [above] at isNext
    obtain rfl := Option.some.inj isNext
    exact (Relation.reflTransGen_iff_eq_or_transGen.mp rest)
  · intro known
    exact ⟨parent, above, Relation.reflTransGen_iff_eq_or_transGen.mpr known⟩

theorem Wired.ncard_surrounding (state : StateId) :
    {outer | machine.Surrounds outer state}.Finite ∧
      {outer | machine.Surrounds outer state}.ncard = machine.level state := by
  -- By induction on the level.
  induction tall : machine.level state generalizing state with
  | zero =>
      have none' : {outer | machine.Surrounds outer state} = ∅ := by
        ext outer
        simp only [Set.mem_ofPred_eq, Set.mem_empty_iff_false, iff_false]
        intro around
        have lower := wired.level_lt_of_surrounds around
        omega
      rw [none']
      exact ⟨Set.finite_empty, Set.ncard_empty _⟩
  | succ height ih =>
      cases above : machine.parentOf? state with
      | none =>
          have flat : machine.level state = 0 := by
            rw [wired.leveled, levelFromParent, above]
          omega
      | some parent =>
          have step := wired.level_parent above
          obtain ⟨finite, count⟩ := ih parent (by omega)
          have fresh : parent ∉ {outer | machine.Surrounds outer parent} := fun around =>
            Nat.lt_irrefl _ (wired.level_lt_of_surrounds around)
          rw [surrounding_eq above]
          exact ⟨finite.insert parent, by rw [Set.ncard_insert_of_notMem fresh finite, count]⟩

end Levels

/-! ### Sessions -/

theorem Reached.registry {terms : Terms} {machine : Machine} (reached : machine.Reached terms) :
    machine.Registry := by
  obtain ⟨name, names, session⟩ := reached
  refine (session.keeps (formed_new name names) (registry_new name names)
    fun _ _ _ _ evolves registry => ?_).2
  rcases evolves with becomes | changes
  · exact becomes.registry registry
  · exact changes.registry registry

section Consistent

variable {machine : Machine}

private theorem filter_markers (wired : machine.Wired) {region : RegionId} {members : Region}
    (found : machine.region? region = some members) {ofKind : StateId → Prop} [DecidablePred ofKind]
    (only : Option StateId)
    (marks : ∀ state, machine.containerOf? state = some region ∧ ofKind state ↔
      only = some state) : members.states.filter (fun state => ofKind state) = only.toList := by
  have states : machine.statesOf region = members.states := by
    rw [statesOf, found]
    rfl
  have nodup := wired.listedOnce region
  rw [states] at nodup
  refine eq_toList_of_mem_iff (nodup.filter _) fun state => ?_
  rw [List.mem_filter, ← states, ← wired.listed, decide_eq_true_iff]
  exact marks state

private theorem Connects.levels (formed : machine.Formed) {id : TransitionId} {region : RegionId}
    {ends : Endpoints} (registered : machine.registrarOf? id = some region)
    (connects : machine.Connects id ends) :
    machine.level ends.source ≤ machine.level ends.target ∧
      (machine.level ends.source < machine.level ends.target ↔
        machine.containerOf? ends.target ≠ some region) := by
  obtain ⟨transition, container, members, present, contains, found, isSource, isTarget⟩ := connects
  obtain ⟨transition', present', contained⟩ := registrarOf?_eq_some.mp registered
  rw [present] at present'
  obtain rfl := Option.some.inj present'
  rw [contains] at contained
  obtain rfl := Option.some.inj contained
  have wired := formed.toWired
  have owned : machine.ownerOf? container = some members.owner :=
    ownerOf?_eq_some.mpr ⟨members, found, rfl⟩
  have source := wired.level_succ (containerOf?_sourceOf found formed isSource) owned
  have inside := inside_targetOf found formed isTarget
  cases inside with
  | member direct =>
      have target := wired.level_succ direct owned
      exact ⟨by omega, fun deeper => by omega, fun elsewhere => absurd direct elsewhere⟩
  | @deeper _ owner nested direct ownedNested inside =>
      have between := wired.level_lt_of_inside owned inside
      have target := wired.level_succ direct ownedNested
      refine ⟨by omega, fun _ same => ?_, fun _ => by omega⟩
      rw [direct] at same
      obtain rfl := Option.some.inj same
      rw [owned] at ownedNested
      obtain rfl := Option.some.inj ownedNested
      omega

private theorem Registry.registration (registry : machine.Registry) {region : RegionId}
    {transition : TransitionId} (member : transition ∈ machine.transitionsOf region) :
    machine.registrarOf? transition = some region ∧
      (machine.transitionsOf region).count transition = 1 ∧
      ∀ other, transition ∈ machine.transitionsOf other → other = region := by
  have registrar {other : RegionId} (listed : transition ∈ machine.transitionsOf other) :
      machine.registrarOf? transition = some other := by
    rw [transitionsOf_eq] at listed
    exact registry.listed other transition listed
  refine ⟨registrar member, List.count_eq_one_of_mem ?_ member, fun other listed => ?_⟩
  · rw [transitionsOf_eq]
    exact registry.once region
  · have same := registrar listed
    rw [registrar member] at same
    exact (Option.some.inj same).symm

private theorem Registry.registrar (registry : machine.Registry) (linked : machine.Linked)
    {region : RegionId} {transition : TransitionId}
    (registered : machine.registrarOf? transition = some region) :
    transition ∈ machine.transitionsOf region ∨
      machine.ChosenIn region transition ∧
        ∀ other, transition ∉ machine.transitionsOf other := by
  simp only [transitionsOf_eq]
  refine (registry.placed region transition registered).imp_right fun chosen => ?_
  refine ⟨?_, (registry.chosen transition chosen).2⟩
  obtain ⟨choice, node, target, found, known⟩ := chosen
  obtain ⟨name, container, contained, present⟩ :=
    linked.choices choice node target transition found known
  obtain ⟨transition', present', inRegion⟩ := registrarOf?_eq_some.mp registered
  rw [present] at present'
  obtain rfl := Option.some.inj present'
  obtain rfl := Option.some.inj inRegion
  exact ⟨choice, node, target, name, found, contained, known, present⟩

end Consistent

/-- However a machine is put together and run, its chart is consistent. -/
theorem Reached.consistent {machine : Machine} (reached : machine.Reached anyTerms) :
    machine.Consistent := by
  have formed := reached.formed
  have wired := formed.toWired
  have registry := reached.registry
  refine
    { ownership := fun state region =>
        count_eq_ite (wired.ownedOnce state) (wired.owned region state)
      membership := fun region state =>
        count_eq_ite (wired.listedOnce region) (wired.listed state region)
      ascent := ?_
      descent := ?_
      bounded := wired.level_le_nestingBound
      names := wired.indexed
      namesDiffer := fun region => ?_
      initial := fun region members found => ?_
      final := fun region members found => ?_
      history := fun region members found => ?_
      owners := wired.owners
      registration := fun region transition => registry.registration
      registrars := fun region transition => registry.registrar reached.linked
      transitionNames := fun region members name transition found => ?_
      transitionNamesDiffer := fun region => ?_
      level := fun state => (wired.ncard_surrounding state).2
      deeper := fun id region ends => Connects.levels formed }
  · refine Subrelation.wf (fun {outer inner} above => ?_) (measure machine.level).wf
    have step := wired.level_parent above
    change machine.level outer < machine.level inner
    omega
  · refine Subrelation.wf (fun {inner outer} above => ?_)
      (measure fun state => machine.nestingBound - machine.level state).wf
    have step := wired.level_parent above
    have bound := wired.level_le_nestingBound inner
    change machine.nestingBound - machine.level inner < machine.nestingBound - machine.level outer
    omega
  · cases found : machine.region? region with
    | none =>
        rw [statesOf, found]
        exact List.nodup_nil
    | some members =>
        refine nodup_map_of_indexed (wired.listedOnce region) members.stateIndex
          fun state listed => ?_
        rw [statesOf, found] at listed
        exact (wired.indexed region members _ state found).mpr ⟨listed, rfl⟩
  · refine filter_markers wired found (some members.initial) fun state => ?_
    rw [formed.initial region members state found, Option.some.injEq, eq_comm]
  · refine filter_markers wired found (some members.final) fun state => ?_
    rw [formed.final region members state found, Option.some.injEq, eq_comm]
  · refine filter_markers wired found members.history fun state => ?_
    rw [← formed.history region members state found]
    refine and_congr_right fun _ => ⟨?_, ?_⟩
    · rintro (shallow | deep)
      · exact ⟨_, shallow⟩
      · exact ⟨_, deep⟩
    · rintro ⟨_ | _, isHistory⟩
      · exact Or.inl isHistory
      · exact Or.inr isHistory
  · have named := registry.named region name transition
    rw [rosterOf_of_found found] at named
    exact named
  · rw [transitionsOf_eq]
    exact nodup_map_of_indexed (registry.once region)
      (machine.rosterOf region).2 fun transition listed =>
      (registry.named region _ transition).mpr ⟨listed, rfl⟩

/-- A state is added to another one that is still detached, then this one to the machine; both
regions get a history, and a choice decides where the machine starts. -/
def atlasRequests : List Request :=
  [.construct (.createState (.plain "land")), .construct (.createState (.plain "town")),
    .construct (.addChildState ⟨3⟩ ⟨4⟩), .construct (.addState ⟨3⟩),
    .construct (.regionAddHistory ⟨0⟩ .deep),
    .construct (.addChoice ⟨0⟩ "fork" fun _ => ⟨some "land", []⟩),
    .construct (.createTransition (.initial "fork")), .construct (.addTransition ⟨0⟩),
    .construct (.createTransition (.initial "town")), .construct (.addChildTransition ⟨3⟩ ⟨1⟩),
    .start]

def atlasStarted : Machine :=
  Request.outcome 12 atlasRequests (Machine.new "atlas" (.ofStem "auto"))

def atlas : Machine :=
  (Request.construct (.regionAddState ⟨1⟩ ⟨3⟩)).aftermath 1 atlasStarted

private theorem atlas_plays :
    (Request.play 12 atlasRequests (Machine.new "atlas" (.ofStem "auto"))).isSome = true ∧
      (Request.construct (.regionAddState ⟨1⟩ ⟨3⟩)).refusal 1 atlasStarted =
        some (.configuration (.alreadyContained "land" "atlas-region-0")) ∧
      atlas.registrarOf? ⟨2⟩ = some defaultRegion ∧ atlas.isStateActive ⟨4⟩ = true ∧
      atlas.level ⟨4⟩ = 2 ∧ ⟨2⟩ ∉ atlas.transitionsOf defaultRegion := by
  decide +kernel

private theorem reached_atlas : atlas.Reached anyTerms := by
  have played : Session (played atlasRequests)
    (Machine.new "atlas" (.ofStem "auto")) atlasStarted :=
    session_outcome atlas_plays.1
  have refused : (Request.construct (.regionAddState ⟨1⟩ ⟨3⟩)).Returns atlasStarted
      (.error (.configuration (.alreadyContained "land" "atlas-region-0"))) atlas :=
    returns_aftermath atlas_plays.2.1
  exact ⟨"atlas", .ofStem "auto", (played.weaken fun _ _ _ _ _ => trivial).tail
    ⟨_, _, refused, trivial⟩⟩

theorem atlas_consistent :
    atlas.Reached anyTerms ∧ atlas.Consistent ∧ atlas.isStateActive ⟨4⟩ = true ∧
      atlas.level ⟨4⟩ = 2 ∧ atlas.ChosenIn defaultRegion ⟨2⟩ := by
  obtain ⟨_, _, chosen, active, level, unlisted⟩ := atlas_plays
  have consistent := Reached.consistent reached_atlas
  refine ⟨reached_atlas, consistent, active, level, ?_⟩
  rcases consistent.registrars defaultRegion ⟨2⟩ chosen with listed | ⟨made, _⟩
  · exact absurd listed unlisted
  · exact made

end Chart.Machine
