import Chart.Proofs.Run.OfferedOperations
import Chart.Proofs.Run.ExitScope

set_option autoImplicit false

/-!
Coming to an end. In a resolute chart the initial transition of a region leads to a normal state,
and any other transition to a normal state, to a history, or to the end of its own region. What is
entered then leads downwards only, through at most a history and an initial state on each level; a
completion climbs up level by level, and every step of it may lead downwards once. So a depth that
is linear in the nesting of the regions is never used up. All that this needs to know of the
statuses is that active regions have active owners.
-/

namespace Chart

namespace Machine

/-- No callback fires a transition, no state completes by itself or decides, and transitions lead
only where entering goes downwards or a region ends. -/
structure Resolute (machine : Machine) : Prop where
  behaviors : machine.QuietStates True
  effects : ∀ id found effect memo, machine.transition? id = some found →
    found.effect = some effect → (effect memo).Quiet True
  manual : ∀ state node, machine.state? state = some node → node.config.autoTransition = false
  undecided : ∀ state, machine.kindOf? state ≠ some .choice
  initial : ∀ region members id found target, machine.region? region = some members →
    Run.firstSourceless? machine region = some id → machine.transition? id = some found →
    targetOf machine region members found = .ok target → machine.kindOf? target = some .normal
  others : ∀ region members id found target, machine.region? region = some members →
    machine.transition? id = some found → found.container = some region →
    Run.firstSourceless? machine region ≠ some id →
    targetOf machine region members found = .ok target →
    machine.kindOf? target = some .normal ∨
      (∃ depth, machine.kindOf? target = some (.history depth)) ∨ target = members.final

theorem Resolute.calm {machine : Machine} (resolute : machine.Resolute) : machine.Calm True where
  behaviors := resolute.behaviors
  effects := resolute.effects
  leaves := fun state node found automatic => by
    rw [resolute.manual state node found] at automatic
    cases automatic

def Supported (machine : Machine) : Prop :=
  ∀ region, machine.isRegionActive region = true →
    ∃ owner, machine.ownerOf? region = some owner ∧ machine.isStateActive owner = true

/-- The machine has come from the base and is supported. -/
structure SupportedFrom (base machine : Machine) : Prop where
  changes : Changes base machine
  supported : machine.Supported

namespace SupportedFrom

variable {base machine after : Machine}

private theorem sameChart (supportedFrom : SupportedFrom base machine) : SameChart base machine :=
  supportedFrom.changes.sameChart

private theorem owner_active (supportedFrom : SupportedFrom base machine) {region : RegionId}
    {owner : StateId}
    (active : machine.isRegionActive region = true) (owned : base.ownerOf? region = some owner) :
    machine.isStateActive owner = true := by
  obtain ⟨owner', owned', isActive⟩ := supportedFrom.supported region active
  rw [supportedFrom.sameChart.ownerOf?, owned] at owned'
  obtain rfl := Option.some.inj owned'
  exact isActive

private theorem still (supportedFrom : SupportedFrom base machine) (still : Still machine after) :
    SupportedFrom base after where
  changes := supportedFrom.changes.trans still.changes
  supported := by
    intro region active
    rw [still.isRegionActive] at active
    obtain ⟨owner, owned, isActive⟩ := supportedFrom.supported region active
    refine ⟨owner, ?_, ?_⟩
    · rw [still.sameChart.ownerOf?]
      exact owned
    · rw [still.states]
      exact isActive

private theorem entered (supportedFrom : SupportedFrom base machine) {state : StateId}
    {node : StateNode}
    (found : machine.state? state = some node) (inactive : node.status.isActive = false) :
    SupportedFrom base (machine.entered state node.name) where
  changes := supportedFrom.changes.trans (Change.enter found inactive (Or.inr (Or.inr trivial))).one
  supported := by
    intro region active
    rw [isRegionActive_entered] at active
    obtain ⟨owner, owned, isActive⟩ := supportedFrom.supported region active
    refine ⟨owner, ?_, (isStateActive_entered found node.name owner).mpr (Or.inr isActive)⟩
    rw [(sameChart_entered machine state node.name).ownerOf?]
    exact owned

private theorem opened (supportedFrom : SupportedFrom base machine) {region : RegionId}
    {members : Region}
    (found : machine.region? region = some members) (inactive : members.status.isActive = false)
    (ownerActive : machine.isStateActive members.owner = true) :
    SupportedFrom base (machine.opened region members.name) where
  changes := supportedFrom.changes.trans (Change.openRegion found inactive).one
  supported := by
    intro other active
    have step : Change True machine (machine.opened region members.name) :=
      .openRegion found inactive
    have same := step.sameChart
    rcases (isRegionActive_opened found members.name other).mp active with here | earlier
    · refine ⟨members.owner, ?_, ownerActive⟩
      rw [same.ownerOf?, here]
      exact ownerOf?_eq_some.mpr ⟨members, found, rfl⟩
    · obtain ⟨owner, owned, isActive⟩ := supportedFrom.supported other earlier
      exact ⟨owner, by rw [same.ownerOf?]; exact owned, isActive⟩

private theorem joined (supportedFrom : SupportedFrom base machine) {owner : StateId}
    (inactive : ∀ region ∈ machine.regionsOf owner, machine.isRegionActive region = false) :
    SupportedFrom base (machine.joined owner) where
  changes := supportedFrom.changes.trans (Change.join inactive).one
  supported := supportedFrom.supported

private theorem leavesOnly (supportedFrom : SupportedFrom base machine) {steps : List Step}
    (leaves : Run.LeavesOnly steps machine after) (off : Run.AllInactive steps after)
    (whole : ∀ owner region, .state owner ∈ steps → machine.ownerOf? region = some owner →
      machine.isRegionActive region = true → .region region ∈ steps) : SupportedFrom
      base after where
  changes := supportedFrom.changes.trans leaves.changes
  supported := by
    intro region active
    have unnamed : .region region ∉ steps := fun named => by
      rw [off.regions region named] at active
      cases active
    rw [leaves.regions region unnamed] at active
    obtain ⟨owner, owned, isActive⟩ := supportedFrom.supported region active
    refine ⟨owner, by rw [leaves.changes.sameChart.ownerOf?]; exact owned, ?_⟩
    rw [leaves.states owner fun named => unnamed (whole owner region named owned active)]
    exact isActive

end SupportedFrom

/-! ### Plans that lead downwards -/

/-- A state of a plan stands in the chain, or marks an inactive region of a state in it; by
induction on the chain. -/
theorem mem_chainEntryPlan {machine : Machine} {state : StateId} {chain : List StateId}
    (named : .state state ∈ machine.chainEntryPlan chain) :
    state ∈ chain ∨ ∃ owner ∈ chain, ∃ region members, region ∈ machine.inactiveRegions owner ∧
      machine.region? region = some members ∧ state = members.entryMarker := by
  have marks {owner : StateId} {region : RegionId}
      (pending : region ∈ machine.inactiveRegions owner)
      (named : .state state ∈ machine.enterMarker region) :
      ∃ region members, region ∈ machine.inactiveRegions owner ∧
        machine.region? region = some members ∧ state = members.entryMarker := by
    unfold enterMarker entryMarker? at named
    cases found : machine.region? region with
    | none =>
        rw [found] at named
        cases named
    | some members =>
        rw [found] at named
        exact ⟨region, members, pending, found,
          Step.state.inj (List.mem_singleton.mp named)⟩
  have unnamed {regions : List RegionId} : Step.state state ∉ regions.map Step.region := by
    intro named
    obtain ⟨_, _, impossible⟩ := List.mem_map.mp named
    cases impossible
  induction chain with
  | nil => cases named
  | cons top rest ih =>
      cases rest with
      | nil =>
          rcases List.mem_cons.mp named with here | later
          · exact Or.inl (by rw [Step.state.inj here]; exact List.mem_cons_self ..)
          · rcases List.mem_append.mp later with impossible | later
            · exact absurd impossible unnamed
            · obtain ⟨region, pending, named⟩ := List.mem_flatMap.mp later
              exact Or.inr ⟨top, List.mem_cons_self .., marks pending named⟩
      | cons next rest =>
          rcases List.mem_cons.mp named with here | later
          · exact Or.inl (by rw [Step.state.inj here]; exact List.mem_cons_self ..)
          · rcases List.mem_append.mp later with impossible | later
            · exact absurd impossible unnamed
            · obtain ⟨region, pending, named⟩ := List.mem_flatMap.mp later
              split at named
              · rcases ih named with inChain | ⟨owner, member, marked⟩
                · exact Or.inl (List.mem_cons_of_mem _ inChain)
                · exact Or.inr ⟨owner, List.mem_cons_of_mem _ member, marked⟩
              · exact Or.inr ⟨top, List.mem_cons_self .., marks pending named⟩

/-- The chain up from a state inside a region whose owner is active runs through states inside that
region, which own regions; by induction on the depth. -/
theorem mem_inactiveChain {machine : Machine} {region : RegionId} {owner : StateId}
    (wired : machine.Wired) (owned : machine.ownerOf? region = some owner)
    (active : machine.isStateActive owner = true) {depth : Nat} {state other : StateId}
    {chain : List StateId} (inside : machine.Inside region state)
    (member : other ∈ machine.inactiveChain depth state chain) :
    other ∈ chain ∨ machine.Inside region other ∧ machine.regionsOf other ≠ [] := by
  induction depth generalizing state chain with
  | zero => exact Or.inl member
  | succ depth ih =>
      unfold inactiveChain at member
      cases isParent : machine.parentOf? state with
      | none =>
          rw [isParent] at member
          exact Or.inl member
      | some parent =>
          rw [isParent] at member
          dsimp only at member
          split at member
          · exact Or.inl member
          · rename_i inactive
            obtain ⟨nested, contained, ownedNested⟩ := parentOf?_eq_some.mp isParent
            have insideParent : machine.Inside region parent := by
              rcases (inside.within_container contained).inside_owner ownedNested with same | inside
              · rw [same, owned] at ownedNested
                obtain rfl := Option.some.inj ownedNested
                exact absurd active inactive
              · exact inside
            rcases ih insideParent member with inChain | found
            · rcases List.mem_cons.mp inChain with here | inRest
              · rw [here]
                exact Or.inr ⟨insideParent,
                  List.ne_nil_of_mem ((wired.owned nested parent).mp ownedNested)⟩
              · exact Or.inl inRest
            · exact Or.inr found

/-- The state stays when it is entered, or passes on from at least this level. -/
def LeadsDown (base : Machine) (low : Nat) (state : StateId) : Prop :=
  base.kindOf? state = some .normal ∨ base.kindOf? state = some .root ∨
    low ≤ base.level state ∧ (base.kindOf? state = some .initial ∨
      ∃ depth, base.kindOf? state = some (.history depth))

def Descends (base : Machine) (low : Nat) (steps : List Step) : Prop :=
  ∀ state, .state state ∈ steps → base.LeadsDown low state

private theorem kindOf?_entryMarker {machine : Machine} (formed : machine.Formed)
    {region : RegionId}
    {members : Region} (stored : machine.region? region = some members) :
    machine.kindOf? members.entryMarker = some .initial ∨
      ∃ depth, machine.kindOf? members.entryMarker = some (.history depth) := by
  unfold Region.entryMarker
  cases marker : members.history with
  | none => exact Or.inl ((formed.initial region members members.initial stored).mpr rfl).2
  | some history => exact Or.inr ((formed.history region members history stored).mpr marker).2

private theorem descends_chain {base machine : Machine} (formed : base.Formed)
    (same : SameChart base machine) {low : Nat} {chain : List StateId}
    (leadsDown : ∀ state ∈ chain, base.LeadsDown low state)
    (high : ∀ state ∈ chain, low ≤ base.level state + 1) :
    base.Descends low (machine.chainEntryPlan chain) := by
  intro state named
  rcases mem_chainEntryPlan named with inChain | ⟨owner, member, region, members, owns, found, rfl⟩
  · exact leadsDown state inChain
  · have formedNow := formed.of_sameChart same
    have contained := containerOf?_entryMarker found formedNow
    have level :=
      formedNow.level_succ contained
      ((formedNow.owned region owner).mpr (List.mem_filter.mp owns).1)
    rw [same.level, same.level] at level
    have bound := high owner member
    have kind := kindOf?_entryMarker formedNow found
    simp only [same.kindOf?] at kind
    exact Or.inr (Or.inr ⟨by omega, kind⟩)

private theorem descends_explicit {base machine : Machine} (formed : base.Formed)
    (same : SameChart base machine) {region : RegionId} {owner target : StateId}
    (owned : base.ownerOf? region = some owner) (active : machine.isStateActive owner = true)
    (inside : base.Inside region target) {low : Nat} (high : low ≤ base.level owner + 2)
    (leadsDown : base.LeadsDown low target) :
    base.Descends low (machine.explicitEntryPlan target) := by
  have formedNow := formed.of_sameChart same
  have chainMember {state : StateId}
      (member : state ∈ machine.inactiveChain machine.nestingBound target [target]) :
      state = target ∨ base.Inside region state ∧ base.regionsOf state ≠ [] := by
    rcases mem_inactiveChain formedNow.toWired (by rw [same.ownerOf?]; exact owned) active
      (same.inside.mpr inside) member with here | ⟨insideState, owns⟩
    · exact Or.inl (List.mem_singleton.mp here)
    · rw [same.regionsOf] at owns
      exact Or.inr ⟨same.inside.mp insideState, owns⟩
  have plan : base.Descends low (machine.chainEntryPlan
      (machine.inactiveChain machine.nestingBound target [target])) := by
    refine descends_chain formed same (fun state member => ?_) fun state member => ?_
    · rcases chainMember member with here | ⟨_, owns⟩
      · rw [here]
        exact leadsDown
      · exact (formed.owners state owns).imp id Or.inl
    · have above : base.level owner < base.level state := by
        rcases chainMember member with here | ⟨insideState, _⟩
        · rw [here]
          exact formed.level_lt_of_inside owned inside
        · exact formed.level_lt_of_inside owned insideState
      omega
  intro state named
  exact plan state (mem_explicitEntryPlan named)

end Machine

namespace Run

open Machine (SupportedFrom TouchesOnly Still)

/-- The run ends in a supported machine, or fails, but not for want of depth. -/
def Ending {Answer : Type} (base : Machine) (run : Run Answer) (machine : Machine) : Prop :=
  Ends run machine (fun _ after => SupportedFrom base after) (fun halt _ => halt ≠ .exhausted)

section Rules

variable {Answer Other : Type} {base machine : Machine}

private theorem Ending.bind {first : Run Other} {next : Other → Run Answer}
    (ending : Ending base first machine)
    (endingNext : ∀ answer after, SupportedFrom base after → Ending base (next answer) after) :
    Ending base (first >>= next) machine := by
  unfold Ending
  rw [ends_bind]
  exact ending.mono (fun answer after supportedFrom => endingNext answer after supportedFrom)
    fun _ _ failure => failure

theorem Ending.discard {run : Run Answer} (ending : Ending base run machine) :
    Ending base (discard run) machine := by
  unfold Ending
  rw [ends_discard]
  exact ending

private theorem ending_fail (error : ConfigurationError) :
    Ending base (fail error : Run Answer) machine := by
  unfold Ending
  rw [ends_fail]
  simp

private theorem ending_note (supportedFrom : SupportedFrom base machine) {event : Event}
    (plain : event.isPlain = true) :
    Ending base (note event) machine := by
  unfold Ending
  rw [ends_note]
  exact supportedFrom.still (Still.note machine plain)

private theorem ending_forM {Item : Type} {step : Item → Run PUnit} {items : List Item}
    (ending : ∀ item ∈ items, ∀ machine, SupportedFrom base machine →
      Ending base (step item) machine)
    (supportedFrom : SupportedFrom base machine) : Ending base (items.forM step) machine := by
  induction items generalizing machine with
  | nil => exact supportedFrom
  | cons first rest ih =>
      unfold Ending
      rw [ends_forM_cons]
      refine (ending first (List.mem_cons_self ..) machine supportedFrom).mono
        (fun _ after kept => ?_)
        fun _ _ failure => failure
      exact ih (fun item member => ending item (List.mem_cons_of_mem _ member)) kept

end Rules

variable {base machine : Machine} {calls : Calls}

private theorem ending_startBehavior {state : StateId} {behavior : Option Behavior} {phase : Phase}
    (supportedFrom : SupportedFrom base machine)
    (quiet : ∀ present, behavior = some present → present.Quiet True) :
    Ending base (startBehavior calls state phase behavior) machine :=
  (ends_startBehavior_quiet quiet phase machine).mono
    (fun _ _ touches => supportedFrom.still touches.toStill) fun _ _ failure => failure.2.1

variable (formed : base.Formed) (resolute : base.Resolute)
include formed resolute

private theorem ending_exit (supportedFrom : SupportedFrom base machine) (state : StateId) :
    Ending base (exit calls state) machine := by
  have wired := formed.toWired.of_sameChart supportedFrom.sameChart
  refine (ends_exit_leavesOnly (resolute.behaviors.of_sameChart supportedFrom.sameChart) state).mono
    (fun _ after leaves => ?_) fun _ _ failure => failure.2
  refine supportedFrom.leavesOnly leaves.1 leaves.2 fun owner region named owned active => ?_
  exact List.mem_reverse.mpr
    (Machine.region_mem_activeSteps wired (List.mem_reverse.mp named) owned active)

omit resolute in
private theorem ending_deactivate (quietStates : base.QuietStates True)
    (supportedFrom : SupportedFrom base machine)
    {state : StateId} (bare : base.regionsOf state = []) :
    Ending base (deactivate calls state) machine := by
  have wired := formed.toWired.of_sameChart supportedFrom.sameChart
  refine (ends_deactivate_leavesOnly (quietStates.of_sameChart supportedFrom.sameChart) state).mono
    (fun _ after leaves => ?_) fun _ _ failure => failure.2
  refine supportedFrom.leavesOnly leaves.1 { states := ?_, regions := ?_ } ?_
  · intro other named
    rw [Machine.Step.state.inj (List.mem_singleton.mp named)]
    exact leaves.2
  · intro region named
    cases List.mem_singleton.mp named
  · intro owner region named owned
    have listed := (wired.owned region owner).mp owned
    rw [Machine.Step.state.inj (List.mem_singleton.mp named),
      supportedFrom.sameChart.regionsOf, bare]
      at listed
    cases listed

omit formed in
private theorem ending_enterNormal (supportedFrom : SupportedFrom base machine) {state : StateId}
    {node : StateNode}
    (fixed : (base.state? state).map StateNode.fixed = some node.fixed)
    (normal : node.kind = .normal) : Ending base (enterNormal calls state node) machine := by
  obtain ⟨origin, found, same⟩ := Option.map_eq_some_iff.mp fixed
  have runs (present : Behavior) : origin.Runs present = node.Runs present :=
    StateNode.read_eq same (fun node => node.Runs present) fun _ => rfl
  have quiet (present : Behavior) (isRun : node.Runs present) : present.Quiet True :=
    resolute.behaviors state origin present found (by rw [runs]; exact isRun)
  have config : origin.config = node.config := StateNode.read_eq same StateNode.config fun _ => rfl
  have kind : origin.kind = node.kind := StateNode.read_eq same StateNode.kind fun _ => rfl
  have manual := resolute.manual state origin found
  rw [config] at manual
  unfold enterNormal
  refine (ending_startBehavior supportedFrom fun present isEntry =>
    quiet present (Or.inl isEntry)).bind
    fun _ middle supportedMiddle => ?_
  unfold Ending
  rw [ends_bind, ends_get]
  split
  · rename_i active
    split
    · rename_i timed
      obtain ⟨now, foundNow, isActive⟩ := Machine.isStateActive_iff.mp active
      obtain ⟨origin', found', sameNow⟩ := supportedMiddle.sameChart.state?_backward foundNow
      rw [found] at found'
      obtain rfl := Option.some.inj found'
      refine (ends_startTimer foundNow isActive ?_ ?_).mono
        (fun _ _ touches => supportedMiddle.still touches.toStill) fun _ _ (impossible : False) =>
          impossible.elim
      · rw [← StateNode.read_eq sameNow StateNode.kind fun _ => rfl, kind]
        exact normal
      · rw [← StateNode.read_eq sameNow StateNode.config fun _ => rfl, config]
        exact timed
    · unfold finishEntry
      refine (ending_startBehavior supportedMiddle fun present isActivity =>
        quiet present (Or.inr (Or.inr isActivity))).bind fun _ after supportedAfter => ?_
      unfold Ending
      rw [ends_bind, ends_get, manual, Bool.and_false, if_neg Bool.false_ne_true]
      exact supportedAfter
  · exact supportedMiddle

private theorem ending_activate (supportedFrom : SupportedFrom base machine) {state : StateId}
    (initial : base.kindOf? state = some .initial → ∀ region after, SupportedFrom base after →
      base.containerOf? state = some region → Ending base (followInitial calls region) after)
    (history : (∃ depth, base.kindOf? state = some (.history depth)) → ∀ region after,
      SupportedFrom base after → base.containerOf? state = some region →
      Ending base (resumeHistory calls state region) after)
    (final : base.kindOf? state = some .final → ∀ region after, SupportedFrom base after →
      base.containerOf? state = some region → Ending base (completeRegion calls region) after) :
    Ending base (activate calls state) machine := by
  cases found : machine.state? state with
  | none =>
      unfold activate Ending
      rw [ends_bind, ends_get, found]
      exact supportedFrom
  | some node =>
      cases active : node.status.isActive with
      | true =>
          unfold activate Ending
          rw [ends_bind, ends_get, found]
          dsimp only
          rw [if_pos active, ends_warn]
          exact supportedFrom.still (Still.note machine rfl)
      | false =>
          have entered := supportedFrom.entered found active
          have kind : base.kindOf? state = some node.kind := by
            rw [← supportedFrom.sameChart.kindOf?]
            exact Machine.kindOf?_eq_some.mpr ⟨node, found, rfl⟩
          have inside {region : RegionId} (inRegion : node.container = some region) :
              base.containerOf? state = some region := by
            rw [← supportedFrom.sameChart.containerOf?]
            exact Machine.containerOf?_eq_some.mpr ⟨node, found, inRegion⟩
          have fixed : (base.state? state).map StateNode.fixed = some node.fixed := by
            rw [← supportedFrom.sameChart.states, found]
            rfl
          unfold Ending
          rw [ends_activate found active]
          cases isKind : node.kind with
          | normal => exact ending_enterNormal resolute entered fixed isKind
          | root => exact entered
          | choice =>
              rw [isKind] at kind
              exact absurd kind (resolute.undecided state)
          | initial =>
              rw [isKind] at kind
              cases inRegion : node.container with
              | none => exact entered
              | some region => exact initial kind region _ entered (inside inRegion)
          | history depth =>
              rw [isKind] at kind
              cases inRegion : node.container with
              | none => exact entered
              | some region => exact history ⟨depth, kind⟩ region _ entered (inside inRegion)
          | final =>
              rw [isKind] at kind
              have bare := formed.bare_of_kind kind rfl
              unfold reachFinal
              refine (ending_deactivate formed resolute.behaviors entered bare).bind
                fun _ after supportedAfter => ?_
              cases inRegion : node.container with
              | none => exact supportedAfter
              | some region => exact final kind region after supportedAfter (inside inRegion)

omit formed resolute in
private theorem ending_regionStep (supportedFrom : SupportedFrom base machine) (region : RegionId) :
    Ending base (entryStep calls (.region region)) machine := by
  unfold entryStep Ending
  rw [ends_bind, ends_get]
  cases found : machine.region? region with
  | none => exact supportedFrom
  | some members =>
      dsimp only
      split
      · rename_i ownerActive
        unfold activateRegion
        rw [ends_bind, ends_get, found]
        dsimp only
        split
        · exact supportedFrom.still (Still.note machine rfl)
        · rename_i inactive
          exact supportedFrom.opened found (by simpa using inactive) ownerActive
      · exact supportedFrom.still (Still.note machine rfl)

omit formed resolute in
private theorem ending_stateStep {state : StateId} (supportedFrom : SupportedFrom base machine)
    (activates : Ending base (activate calls state) machine) :
    Ending base (entryStep calls (.state state)) machine := by
  unfold entryStep Ending
  rw [ends_bind, ends_get]
  cases machine.containerOf? state with
  | none => exact activates
  | some region =>
      dsimp only
      split
      · exact activates
      · exact supportedFrom.still (Still.note machine rfl)

/-! ### Downwards -/

def reach (base : Machine) (low : Nat) : Nat := 2 * (base.nestingBound + 1 - low)

structure EndsBelow (base : Machine) (calls : Calls) (depth : Nat) : Prop where
  trigger : ∀ machine region owner id memo, SupportedFrom base machine →
    firstSourceless? base region = some id → base.ownerOf? region = some owner →
    reach base (base.level owner + 2) + 1 ≤ depth → Ending base (calls.trigger id memo) machine
  enter : ∀ machine state, SupportedFrom base machine → base.kindOf? state = some .normal →
    reach base (base.level state + 1) + 1 ≤ depth → Ending base (calls.enter state) machine
  activate : ∀ machine state, SupportedFrom base machine → base.kindOf? state = some .initial →
    reach base (base.level state) ≤ depth → Ending base (calls.activate state) machine

variable (linked : base.Linked) {depth : Nat} (endsBelow : EndsBelow base calls depth)

omit resolute in
include endsBelow in
private theorem ending_followInitial (supportedFrom : SupportedFrom base machine) {state : StateId}
    {region : RegionId}
    (contained : base.containerOf? state = some region)
    (deep : reach base (base.level state) ≤ depth + 1) :
    Ending base (followInitial calls region) machine := by
  obtain ⟨owner, owned⟩ := formed.exists_owner contained
  have level := formed.level_succ contained owned
  have bound := formed.level_le_nestingBound state
  unfold followInitial
  unfold Ending
  rw [ends_bind, ends_get]
  cases first : firstSourceless? machine region with
  | none => exact ending_fail _
  | some id =>
      rw [supportedFrom.sameChart.firstSourceless? formed.toWired] at first
      refine Ending.bind
        (endsBelow.trigger machine region owner id .null supportedFrom first owned ?_)
        fun outcome after supportedAfter => ?_
      · unfold reach at deep ⊢
        omega
      · cases outcome with
        | fired => exact supportedAfter
        | _ => exact ending_fail _

include linked endsBelow in
private theorem ending_resumeHistory (supportedFrom : SupportedFrom base machine) {state : StateId}
    {region : RegionId}
    (contained : base.containerOf? state = some region) {kind : HistoryDepth}
    (isHistory : base.kindOf? state = some (.history kind))
    (deep : reach base (base.level state) ≤ depth) :
    Ending base (resumeHistory calls state region) machine := by
  have bare := formed.bare_of_kind isHistory rfl
  obtain ⟨owner, owned⟩ := formed.exists_owner contained
  have level := formed.level_succ contained owned
  have bound := formed.level_le_nestingBound state
  unfold resumeHistory
  refine (ending_deactivate formed resolute.behaviors supportedFrom bare).bind
    fun _ after supportedAfter => ?_
  have same := supportedAfter.sameChart
  unfold Ending
  rw [ends_bind, ends_get]
  cases stored : after.region? region with
  | none => exact supportedAfter
  | some members =>
      dsimp only
      cases remembered : members.lastActive with
      | some last =>
          obtain ⟨containedLast, normal⟩ :=
            (supportedAfter.changes.linked linked).lastActive region members last stored remembered
          rw [same.containerOf?] at containedLast
          rw [same.kindOf?] at normal
          have levelLast := formed.level_succ containedLast owned
          refine Ending.bind (ending_note supportedAfter rfl) fun _ told supportedTold => ?_
          refine endsBelow.enter told last supportedTold normal ?_
          unfold reach at deep ⊢
          omega
      | none =>
          have formedAfter := formed.of_sameChart same
          obtain ⟨containedInitial, isInitial⟩ :=
            (formedAfter.initial region members members.initial stored).mpr rfl
          rw [same.containerOf?] at containedInitial
          rw [same.kindOf?] at isInitial
          have levelInitial := formed.level_succ containedInitial owned
          refine endsBelow.activate after members.initial supportedAfter isInitial ?_
          unfold reach at deep ⊢
          omega

include linked endsBelow in
private theorem ending_descent (supportedFrom : SupportedFrom base machine) {low : Nat}
    {plan : List Machine.Step}
    (descends : base.Descends low plan) (deep : reach base low ≤ depth) :
    Ending base (enterBy calls plan) machine := by
  refine ending_forM (fun step member current supportedNow => ?_) supportedFrom
  cases step with
  | region region => exact ending_regionStep supportedNow region
  | state state =>
      have leadsDown := descends state member
      have passes (kind : StateKind) (isKind : base.kindOf? state = some kind)
          (notNormal : kind ≠ .normal) (notRoot : kind ≠ .root) : low ≤ base.level state := by
        rcases leadsDown with normal | isRoot | ⟨bound, _⟩
        · rw [isKind] at normal
          exact absurd (Option.some.inj normal) notNormal
        · rw [isKind] at isRoot
          exact absurd (Option.some.inj isRoot) notRoot
        · exact bound
      refine ending_stateStep supportedNow (ending_activate formed resolute supportedNow ?_ ?_ ?_)
      · intro initial region after supportedAfter contained
        have bound := passes .initial initial (by simp) (by simp)
        refine ending_followInitial formed endsBelow supportedAfter contained ?_
        unfold reach at deep ⊢
        omega
      · rintro ⟨kind, history⟩ region after supportedAfter contained
        have bound := passes (.history kind) history (by simp) (by simp)
        refine ending_resumeHistory formed resolute linked endsBelow supportedAfter
          contained history ?_
        unfold reach at deep ⊢
        omega
      · intro final
        rcases leadsDown with normal | isRoot | ⟨_, initial | ⟨_, history⟩⟩
        · rw [final] at normal
          cases normal
        · rw [final] at isRoot
          cases isRoot
        · rw [final] at initial
          cases initial
        · rw [final] at history
          cases history

/-! ### Firing -/

/-- The target of the transition can be entered from any supported machine in which the owner of the
region is active. -/
def EntersTarget (base : Machine) (calls : Calls) (found : Transition) : Prop :=
  ∀ machine region members owner source target, SupportedFrom base machine →
    found.container = some region → base.region? region = some members →
    base.ownerOf? region = some owner → machine.isStateActive owner = true →
    Machine.sourceOf members found = .ok source →
    Machine.targetOf base region members found = .ok target →
    (base.level source < base.level target → Ending base (enterExplicit calls target) machine) ∧
      (¬base.level source < base.level target → Ending base (enterDefault calls target) machine)

private theorem ends_exit_owned (supportedFrom : SupportedFrom base machine)
    {source owner : StateId} {region : RegionId}
    (contained : base.containerOf? source = some region)
    (owned : base.ownerOf? region = some owner) (active : machine.isStateActive owner = true) :
    Ends (exit calls source) machine
      (fun _ after => SupportedFrom base after ∧ after.isStateActive owner = true)
      (fun halt _ => halt ≠ .exhausted) := by
  have same := supportedFrom.sameChart
  have wired := formed.toWired.of_sameChart same
  refine Ends.mono ((ending_exit formed resolute supportedFrom source).and
    (ends_exit_leavesOnly (resolute.behaviors.of_sameChart same) source)) (fun _ after both => ?_)
    fun _ _ failure => failure.1
  refine ⟨both.1, ?_⟩
  rw [both.2.1.states owner fun named => ?_]
  · exact active
  · have below := (Machine.below_of_mem_activeSteps wired).1 owner (List.mem_reverse.mp named)
    have around := wired.level_le_of_below below
    have level := wired.level_succ (by rw [same.containerOf?]; exact contained)
      (by rw [same.ownerOf?]; exact owned)
    omega

variable {found : Transition} {memo : Value}

private theorem ending_fireExternal (supportedFrom : SupportedFrom base machine)
    (entersTarget : EntersTarget base calls found)
    (quiet : ∀ effect, found.effect = some effect → (effect memo).Quiet True)
    {region : RegionId} {members : Region} {owner : StateId} {ends : Machine.Endpoints}
    (inRegion : found.container = some region) (stored : base.region? region = some members)
    (owned : base.ownerOf? region = some owner) (active : machine.isStateActive owner = true)
    (isSource : Machine.sourceOf members found = .ok ends.source)
    (isTarget : Machine.targetOf base region members found = .ok ends.target)
    {id : TransitionId} {sourceName targetName : String} :
    Ending base (fireExternal calls id found ends sourceName targetName memo) machine := by
  have contained := Machine.containerOf?_sourceOf stored formed isSource
  unfold fireExternal
  unfold Ending
  rw [ends_bind, ends_report, ends_bind]
  have told : Still machine
    (machine.note (.notice (.firing id found.name sourceName targetName))) :=
    Still.note machine rfl
  refine (ends_exit_owned formed resolute (supportedFrom.still told) contained owned
    (by rw [told.states]; exact active)).mono (fun _ empty left => ?_) fun _ _ failure => failure
  rw [ends_bind]
  refine (ends_runEffect quiet).mono (fun _ effected touches => ?_) fun _ _ failure => failure.2.1
  have recorded := TouchesOnly.recorded ends.source effected id
    ⟨found.name, sourceName, targetName, false⟩
  have effects := (touches.trans recorded).toStill
  rw [ends_bind]
  change Ends _ (effected.recorded id ⟨found.name, sourceName, targetName, false⟩) _ _
  generalize effected.recorded id ⟨found.name, sourceName, targetName, false⟩ = ready at effects ⊢
  have supportedReady := left.1.still effects
  obtain ⟨explicitly, directly⟩ := entersTarget ready region members owner ends.source ends.target
    supportedReady inRegion stored owned (by rw [effects.states]; exact left.2) isSource isTarget
  rw [ends_bind, ends_get, supportedReady.sameChart.level, supportedReady.sameChart.level]
  split
  · rename_i deeper
    exact (explicitly deeper).bind fun _ _ after => after
  · rename_i notDeeper
    exact (directly notDeeper).bind fun _ _ after => after

private theorem ending_trigger (supportedFrom : SupportedFrom base machine) {id : TransitionId}
    (known : base.transition? id = some found) (entersTarget : EntersTarget base calls found) :
    Ending base (trigger calls id memo) machine := by
  have quiet (effect : Effect) (isEffect : found.effect = some effect) : (effect memo).Quiet True :=
    resolute.effects id found effect memo known isEffect
  unfold trigger
  refine (ending_note supportedFrom rfl).bind fun _ asked supportedAsked => ?_
  have same := supportedAsked.sameChart
  unfold Ending
  rw [ends_bind, ends_get, same.kept id found known]
  cases resolved : asked.endpoints id with
  | error error => exact ending_fail error
  | ok ends =>
      obtain ⟨found', region, now, known', inRegion, storedNow, active, isSource, isTarget⟩ :=
        Machine.endpoints_eq_ok resolved
      rw [same.kept id found known] at known'
      obtain rfl := Option.some.inj known'
      obtain ⟨members, stored, fixed⟩ := same.region?_backward storedNow
      rw [← Machine.sourceOf_eq_of_fixed fixed] at isSource
      rw [same.targetOf fixed.symm] at isTarget
      have owned : base.ownerOf? region = some members.owner :=
        Machine.ownerOf?_eq_some.mpr ⟨members, stored, rfl⟩
      have ownerActive := supportedAsked.owner_active
        (Machine.isRegionActive_iff.mpr ⟨now, storedNow, active⟩) owned
      dsimp only
      refine Ending.bind ?_ fun outcome after supportedAfter =>
        (ending_note supportedAfter rfl).bind fun _ _ done => done
      unfold fireResolved Ending
      rw [ends_bind, ends_get]
      dsimp only
      split
      · exact supportedAsked.still (Still.note asked rfl)
      · rw [ends_bind]
        refine Ends.mono ends_guardAccepts (fun accepted guarded touches => ?_)
          fun _ _ (impossible : False) => impossible.elim
        have still := touches.1.toStill
        have supportedGuarded := supportedAsked.still still
        split
        · exact supportedGuarded.still (Still.note guarded rfl)
        · split
          · unfold fireInternal
            refine (ending_note supportedGuarded rfl).bind fun _ told supportedTold => ?_
            unfold Ending
            rw [ends_bind]
            refine (ends_runEffect quiet).mono (fun _ effected effects => ?_)
              fun _ _ failure => failure.2.1
            exact (supportedTold.still effects.toStill).still
              (TouchesOnly.recorded Machine.root effected id _).toStill
          · exact ending_fireExternal formed resolute supportedGuarded entersTarget quiet
              inRegion stored owned
              (by rw [still.states]; exact ownerActive) isSource isTarget

/-! ### Down along initial transitions -/

include linked endsBelow in
private theorem entersTarget_downwards {region : RegionId} {owner target : StateId}
    (owned : base.ownerOf? region = some owner) (inside : base.Inside region target) {low : Nat}
    (high : low ≤ base.level owner + 2) (leadsDown : base.LeadsDown low target)
    (deep : reach base low ≤ depth) (supportedFrom : SupportedFrom base machine)
    (active : machine.isStateActive owner = true) :
    Ending base (enterExplicit calls target) machine ∧
      Ending base (enterDefault calls target) machine := by
  have same := supportedFrom.sameChart
  have level := formed.level_lt_of_inside owned inside
  constructor
  · unfold enterExplicit Ending
    rw [ends_bind, ends_get]
    exact ending_descent formed resolute linked endsBelow supportedFrom
      (Machine.descends_explicit formed same owned active inside high leadsDown) deep
  · unfold enterDefault Ending
    rw [ends_bind, ends_get]
    have plan : base.Descends low (machine.chainEntryPlan [target]) := by
      refine Machine.descends_chain formed same (fun state member => ?_) fun state member => ?_
      · rw [List.mem_singleton.mp member]
        exact leadsDown
      · rw [List.mem_singleton.mp member]
        omega
    exact ending_descent formed resolute linked endsBelow supportedFrom plan deep

include linked in
private theorem endsBelow_calls (depth : Nat) : EndsBelow base (Run.calls depth) depth := by
  -- By induction on the depth, each level takes two of it.
  induction depth with
  | zero =>
      refine ⟨fun _ _ _ _ _ _ _ _ deep => ?_, fun _ _ _ _ deep => ?_, fun _ state _ _ deep => ?_⟩
      · omega
      · omega
      · have bound := formed.level_le_nestingBound state
        unfold reach at deep
        omega
  | succ depth ih =>
      refine
        { trigger := fun machine region owner id memo supportedFrom first owned deep => ?_
          enter := fun machine state supportedFrom normal deep => ?_
          activate := fun machine state supportedFrom initial deep => ?_ }
      · obtain ⟨found, known, inRegion, _⟩ := firstSourceless?_spec formed.toWired first
        refine ending_trigger formed resolute supportedFrom known ?_
        intro current region' members owner' source target supportedNow inRegion'
          stored owned' active
          isSource isTarget
        rw [inRegion] at inRegion'
        obtain rfl := Option.some.inj inRegion'
        rw [owned] at owned'
        obtain rfl := Option.some.inj owned'
        have normal := resolute.initial region members id found target stored first known isTarget
        have entersTarget := entersTarget_downwards formed resolute linked ih owned
          (Machine.inside_targetOf stored formed isTarget) (Nat.le_refl _) (Or.inl normal)
          (by omega) supportedNow active
        exact ⟨fun _ => entersTarget.1, fun _ => entersTarget.2⟩
      · have plan : base.Descends (base.level state + 1) (machine.chainEntryPlan [state]) := by
          refine Machine.descends_chain formed supportedFrom.sameChart (fun other member => ?_)
            fun other member => ?_
          · rw [List.mem_singleton.mp member]
            exact Or.inl normal
          · rw [List.mem_singleton.mp member]
        change Ending base (enterDefault (Run.calls depth) state) machine
        unfold enterDefault Ending
        rw [ends_bind, ends_get]
        exact ending_descent formed resolute linked ih supportedFrom plan (by omega)
      · refine ending_activate formed resolute supportedFrom ?_ ?_ ?_
        · intro _ region after supportedAfter contained
          exact ending_followInitial formed ih supportedAfter contained deep
        · rintro ⟨kind, history⟩
          rw [initial] at history
          cases history
        · intro final
          rw [initial] at final
          cases final

/-! ### Upwards along completions -/

structure EndsAbove (base : Machine) (calls : Calls) (depth : Nat) : Prop where
  trigger : ∀ machine id found region owner memo, SupportedFrom base machine →
    base.transition? id = some found → found.container = some region →
    base.ownerOf? region = some owner →
    2 * base.nestingBound + base.level owner + 1 ≤ depth →
    Ending base (calls.trigger id memo) machine
  completeRegion : ∀ machine region owner, SupportedFrom base machine →
    base.ownerOf? region = some owner →
    2 * base.nestingBound + base.level owner + 1 ≤ depth →
    Ending base (calls.completeRegion region) machine

variable (endsAbove : EndsAbove base calls depth)

include endsAbove in
private theorem ending_completeState (supportedFrom : SupportedFrom base machine) {state : StateId}
    (deep : 2 * base.nestingBound + base.level state ≤ depth) :
    Ending base (completeState calls state) machine := by
  have same := supportedFrom.sameChart
  unfold completeState Ending
  rw [ends_bind, ends_get]
  cases present : machine.state? state with
  | none => exact supportedFrom
  | some node =>
      dsimp only
      cases container : node.container with
      | none =>
          dsimp only
          split
          · refine Ending.bind (ending_note supportedFrom rfl) fun _ told supportedTold => ?_
            exact ending_exit formed resolute supportedTold state
          · exact supportedFrom
      | some region =>
          have contained : base.containerOf? state = some region := by
            rw [← same.containerOf?]
            exact Machine.containerOf?_eq_some.mpr ⟨node, present, container⟩
          obtain ⟨owner, owned⟩ := formed.exists_owner contained
          have level := formed.level_succ contained owned
          dsimp only
          cases first : firstOutgoing? machine region node.name with
          | some id =>
              obtain ⟨found, known, inRegion, _, listed⟩ :=
                firstOutgoing?_spec (formed.toWired.of_sameChart same) first
              rw [same.transitionsOf] at listed
              rw [same.registered_transition? formed.toWired listed] at known
              exact (endsAbove.trigger machine id found region owner .null supportedFrom
                known inRegion owned
                (by omega)).discard
          | none =>
              refine Ending.bind (ending_exit formed resolute supportedFrom state)
                fun _ after supportedAfter =>
                endsAbove.completeRegion after region owner supportedAfter owned (by omega)

include endsAbove in
private theorem ending_completeRegion (supportedFrom : SupportedFrom base machine)
    {region : RegionId} {owner : StateId}
    (owned : base.ownerOf? region = some owner)
    (deep : 2 * base.nestingBound + base.level owner ≤ depth) :
    Ending base (completeRegion calls region) machine := by
  unfold completeRegion Ending
  rw [ends_bind]
  refine (ends_deactivateRegion_leavesOnly region).mono (fun closes after leaves => ?_)
    fun _ _ (impossible : False) => impossible.elim
  have supportedAfter : SupportedFrom base after := by
    refine supportedFrom.leavesOnly leaves.1 { states := ?_, regions := ?_ } ?_
    · intro state named
      cases List.mem_singleton.mp named
    · intro other named
      rw [Machine.Step.region.inj (List.mem_singleton.mp named)]
      exact leaves.2
    · intro _ _ named
      cases List.mem_singleton.mp named
  split
  · rw [ends_bind, ends_get]
    cases stored : after.region? region with
    | none => exact supportedAfter
    | some members =>
        have isOwner : members.owner = owner := by
          have ownedNow := supportedAfter.sameChart.ownerOf? region
          rw [owned, Machine.ownerOf?, stored] at ownedNow
          exact Option.some.inj ownedNow
        dsimp only
        split
        · rename_i joins
          rw [ends_bind, ends_report, isOwner]
          rw [isOwner] at joins
          have supportedJoined : SupportedFrom base (after.joined owner) :=
            supportedAfter.joined fun other owns => by
              simpa using List.all_eq_true.mp joins other owns
          exact ending_completeState formed resolute endsAbove supportedJoined deep
        · exact supportedAfter
  · exact supportedAfter

include linked endsAbove endsBelow in
private theorem entersTarget_anywhere {id : TransitionId} (known : base.transition? id = some found)
    {region : RegionId} {owner : StateId} (inRegion : found.container = some region)
    (owned : base.ownerOf? region = some owner)
    (deep : 2 * base.nestingBound + base.level owner ≤ depth) : EntersTarget base calls found := by
  intro machine region' members owner' source target supportedFrom inRegion' stored owned'
    active isSource
    isTarget
  rw [inRegion] at inRegion'
  obtain rfl := Option.some.inj inRegion'
  rw [owned] at owned'
  obtain rfl := Option.some.inj owned'
  have inside := Machine.inside_targetOf stored formed isTarget
  have below := formed.level_lt_of_inside owned inside
  have downwards (leadsDown : base.LeadsDown 1 target) :=
    entersTarget_downwards formed resolute linked endsBelow owned inside (by omega) leadsDown
      (by unfold reach; omega) supportedFrom active
  have cases' : base.kindOf? target = some .normal ∨
      (∃ kind, base.kindOf? target = some (.history kind)) ∨ target = members.final := by
    by_cases first : firstSourceless? base region = some id
    · exact Or.inl (resolute.initial region members id found target stored first known isTarget)
    · exact resolute.others region members id found target stored known inRegion first isTarget
  rcases cases' with normal | ⟨kind, history⟩ | isFinal
  · have entersTarget := downwards (Or.inl normal)
    exact ⟨fun _ => entersTarget.1, fun _ => entersTarget.2⟩
  · have entersTarget := downwards (Or.inr (Or.inr ⟨by omega, Or.inr ⟨kind, history⟩⟩))
    exact ⟨fun _ => entersTarget.1, fun _ => entersTarget.2⟩
  · -- the final state lies beside the source, so it is entered by default
    obtain ⟨contained, final⟩ := (formed.final region members target stored).mpr isFinal
    have level := formed.level_succ contained owned
    have levelSource :=
      formed.level_succ (Machine.containerOf?_sourceOf stored formed isSource) owned
    refine ⟨fun deeper => by omega, fun _ => ?_⟩
    have bare : machine.regionsOf target = [] := by
      rw [supportedFrom.sameChart.regionsOf]
      exact formed.bare_of_kind final rfl
    unfold enterDefault Ending
    rw [ends_bind, ends_get]
    unfold Machine.defaultEntryPlan Machine.inactiveRegions
    rw [bare]
    refine ending_forM (fun step member current supportedNow => ?_) supportedFrom
    rw [List.mem_singleton.mp member]
    refine ending_stateStep supportedNow (ending_activate formed resolute supportedNow ?_ ?_ ?_)
    · intro initial
      rw [final] at initial
      cases initial
    · rintro ⟨kind, history⟩
      rw [final] at history
      cases history
    · intro _ other after supportedAfter containedOther
      rw [contained] at containedOther
      obtain rfl := Option.some.inj containedOther
      exact ending_completeRegion formed resolute endsAbove supportedAfter owned deep

include linked in
private theorem endsAbove_calls (depth : Nat) : EndsAbove base (Run.calls depth) depth := by
  -- By induction on the depth, each level takes one of it.
  induction depth with
  | zero =>
      refine ⟨fun _ _ _ _ _ _ _ _ _ _ deep => ?_, fun _ _ _ _ _ deep => ?_⟩
      · omega
      · omega
  | succ depth ih =>
      refine
        { trigger :=
          fun machine id found region owner memo supportedFrom known inRegion owned deep => ?_
          completeRegion := fun machine region owner supportedFrom owned deep => ?_ }
      · exact ending_trigger formed resolute supportedFrom known
          (entersTarget_anywhere formed resolute linked
            (endsBelow_calls formed resolute linked depth) ih
            known inRegion owned (by omega))
      · exact ending_completeRegion formed resolute ih supportedFrom owned (by omega)

/-! ### Operations -/

section Operations

omit formed resolute in
private theorem ending_refuse {Answer : Type} (error : UsageError) :
    Ending base (do
      warn error
      raise (.usage error) : Run Answer) machine := by
  unfold Ending
  rw [ends_bind, ends_warn, ends_raise]
  simp

variable (supportedFrom : SupportedFrom base base)
include supportedFrom

include linked in
theorem ending_start (deep : 2 * base.nestingBound ≤ depth) :
    Ending base (start depth) base := by
  have plan : base.Descends 1 (base.chainEntryPlan [Machine.root]) := by
    apply Machine.descends_chain formed (.refl base)
    · intro state member
      rw [List.mem_singleton.mp member]
      exact Or.inr (Or.inl formed.rootKind)
    · intro state member
      omega
  unfold start Ending
  rw [ends_bind, ends_get]
  split
  · exact ending_refuse _
  · change Ending base (enterDefault (Run.calls depth) Machine.root) base
    unfold enterDefault Ending
    rw [ends_bind, ends_get]
    apply ending_descent formed resolute linked
      (endsBelow_calls formed resolute linked depth) supportedFrom plan
    unfold reach
    omega

theorem ending_finish : Ending base (finish depth) base := by
  unfold finish Ending
  rw [ends_bind, ends_get]
  split
  · exact ending_exit formed resolute supportedFrom Machine.root
  · exact ending_refuse _

include linked in
theorem ending_completion {state : StateId} (deep : 3 * base.nestingBound ≤ depth) :
    Ending base (completion depth state) base := by
  unfold completion Ending
  rw [ends_bind, ends_get]
  split
  · exact ending_fail _
  · split
    · have bound := formed.level_le_nestingBound state
      exact ending_completeState formed resolute
        (endsAbove_calls formed resolute linked depth) supportedFrom
        (by omega)
    · exact ending_refuse _

include linked in
theorem ending_triggerHandle {id : TransitionId} {memo : Value}
    (deep : 3 * base.nestingBound ≤ depth) : Ending base (triggerHandle depth id memo) base := by
  by_cases standing : ∃ found region owner, base.transition? id = some found ∧
      found.container = some region ∧ base.ownerOf? region = some owner
  · obtain ⟨found, region, owner, known, inRegion, owned⟩ := standing
    have bound := formed.level_le_nestingBound owner
    exact (endsAbove_calls formed resolute linked (depth + 1)).trigger base id found
      region owner memo
      supportedFrom known inRegion owned (by omega)
  · change Ending base (trigger (Run.calls depth) id memo) base
    unfold trigger Ending
    rw [ends_bind, ends_note, ends_bind, ends_get]
    generalize noted : base.note (.requested id) = asked
    cases resolved : asked.endpoints id with
    | error error => cases asked.transition? id <;> exact ending_fail error
    | ok ends =>
        obtain ⟨found, region, members, known, inRegion, stored, _⟩ :=
          Machine.endpoints_eq_ok resolved
        rw [← noted] at known stored
        exact absurd ⟨found, region, members.owner, known, inRegion,
          Machine.ownerOf?_eq_some.mpr ⟨members, stored, rfl⟩⟩ standing

include linked in
theorem ending_triggerNamed {name : String} {memo : Value} (deep : 3 * base.nestingBound ≤ depth) :
    Ending base (triggerNamed depth name memo) base := by
  unfold triggerNamed Calls.triggerNamed Ending
  rw [ends_bind, ends_get]
  cases base.findTransition? name with
  | none => exact ending_fail _
  | some id => exact ending_triggerHandle formed resolute linked supportedFrom deep

end Operations

end Run

end Chart
