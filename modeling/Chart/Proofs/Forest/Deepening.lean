import Chart.Proofs.Forest.Preorder
import Chart.Proofs.Forest.Refusing

set_option autoImplicit false

/-!
Deep histories, region by region. The installation is written as a recursion that collects the
regions of normal states anew in each region it comes to; that recursion ends, and the bounded walk
is what it does. Afterwards every region within the first has a deep history, and to install it once
more changes nothing.
-/

namespace Chart

namespace Machine

/-- The region has a history, and it is a deep one. -/
def Deep (machine : Machine) (region : RegionId) : Prop :=
  ∃ history, machine.historyOf? region = some history ∧
    machine.kindOf? history = some (.history .deep)

/-- A region within another one lies within the first region on the way down to it; by induction on
the way up. -/
theorem Wired.within_cases {machine : Machine} (wired : machine.Wired) {outer inner : RegionId}
    (within : machine.Within outer inner) :
    inner = outer ∨ ∃ nested ∈ Construct.regionsOfNormalStates machine outer,
      machine.Within nested inner := by
  rcases within with same | ⟨owner, owned, inside⟩
  · exact Or.inl same
  · right
    induction inside generalizing inner with
    | member contained =>
        exact ⟨inner, mem_regionsOfNormalStates wired contained owned, Within.refl machine inner⟩
    | deeper contained ownedAround _ ih =>
        obtain ⟨nested, member, within⟩ := ih ownedAround
        exact ⟨nested, member, within.trans (Within.of_member owned contained)⟩

/-! ### The levels and the bound stay -/

section Kept

variable {region : RegionId} {before after : Machine}

theorem AddsHistories.within_iff (adds : AddsHistories before after) {outer inner : RegionId} :
    after.Within outer inner ↔ before.Within outer inner := by
  constructor
  · exact adds.within
  · rintro (same | ⟨owner, owned, inside⟩)
    · exact Or.inl same
    · exact Or.inr ⟨owner, adds.grown.ownerOf? owned, adds.grown.inside inside⟩

private theorem Deepened.level (deepened : Deepened region before after) {state : StateId}
    (present : (before.state? state).isSome) : after.level state = before.level state := by
  obtain ⟨node, found⟩ := Option.isSome_iff_exists.mp present
  obtain ⟨kind, found', _⟩ := deepened.states state node found
  unfold Machine.level
  rw [found, found']
  rfl

private theorem Wired.state?_of_owner {machine : Machine} (wired : machine.Wired)
    {nested : RegionId}
    {owner : StateId} (owned : machine.ownerOf? nested = some owner) :
    (machine.state? owner).isSome := by
  have listed := (wired.owned nested owner).mp owned
  unfold regionsOf at listed
  cases found : machine.state? owner with
  | none =>
      rw [found] at listed
      cases listed
  | some node => rfl

private theorem Deepened.stepsSuffice (deepened : Deepened region before after)
    (wired : before.Wired)
    (adds : AddsHistories before after) {steps : Nat} {nested : RegionId}
    (stepsSuffice : before.StepsSuffice steps nested) : after.StepsSuffice steps nested := by
  intro owner owned
  rw [adds.owners] at owned
  have bound : after.nestingBound = before.nestingBound := deepened.regionCount
  rw [deepened.level (wired.state?_of_owner owned), bound]
  exact stepsSuffice owner owned

end Kept

private theorem redeepened_self {machine : Machine} {history : StateId} {depth : HistoryDepth}
    (isHistory : machine.kindOf? history = some (.history depth)) :
    machine.redeepened history depth = machine := by
  obtain ⟨node, found, kind⟩ := kindOf?_eq_some.mp isHistory
  have unchanged : { node with kind := .history depth } = node := by rw [← kind]
  have states : (machine.redeepened history depth).states = machine.states := by
    apply Array.ext_getElem?
    intro index
    have read := @state?_redeepened machine history depth ⟨index⟩
    change (machine.redeepened history depth).state? ⟨index⟩ = machine.state? ⟨index⟩
    rw [read]
    by_cases here : (⟨index⟩ : StateId) = history
    · rw [if_pos here, here, found, Option.map_some, unchanged]
    · rw [if_neg here]
  calc machine.redeepened history depth
      = { machine with states := (machine.redeepened history depth).states } := rfl
    _ = machine := by rw [states]

def KeepsDeep (before after : Machine) : Prop :=
  ∀ region, before.Deep region → after.Deep region

private theorem Grown.keepsDeep {before after : Machine} (grown : Grown before after)
    (kinds : ∀ state, before.kindOf? state = some (.history .deep) →
      after.kindOf? state = some (.history .deep)) : KeepsDeep before after := by
  rintro region ⟨history, marked, isDeep⟩
  exact ⟨history, grown.historyOf? marked, kinds history isDeep⟩

theorem KeepsDeep.trans {before middle after : Machine} (first : KeepsDeep before middle)
    (second : KeepsDeep middle after) : KeepsDeep before after :=
  fun region deep => second region (first region deep)

end Machine

namespace Construct

open Machine (AddsHistories Deepened Deep KeepsDeep)

/-! ### One region -/

structure Installs (region : RegionId) (history : StateId) (before after : Machine) : Prop where
  adds : AddsHistories before after
  deepened : Deepened region before after
  marked : after.historyOf? region = some history
  isDeep : after.kindOf? history = some (.history .deep)
  keeps : KeepsDeep before after

private theorem ends_installHistory_deep {machine : Machine} (formed : machine.Formed)
    (region : RegionId) :
    Ends (installHistory region .deep) machine
      (fun history after => Installs region history machine after)
      (fun _ after => after = machine) := by
  have deep : Ends (installHistory region .deep) machine
      (fun history after => after.historyOf? region = some history ∧
        after.kindOf? history = some (.history .deep) ∧ KeepsDeep machine after)
      (fun _ _ => True) := by
    unfold installHistory
    rw [ends_bind]
    apply ends_requireRegion _ fun _ => trivial
    intro members found
    cases marker : members.history with
    | some existing =>
        obtain ⟨_, old, isHistory⟩ := (formed.history region members existing found).mpr marker
        dsimp only
        rw [ends_bind, ends_modify, ends_pure]
        change (machine.redeepened existing .deep).historyOf? region = some existing ∧
          (machine.redeepened existing .deep).kindOf? existing = some (.history .deep) ∧
          KeepsDeep machine (machine.redeepened existing .deep)
        refine ⟨Machine.historyOf?_eq_some.mpr ⟨members, found, marker⟩, ?_, ?_⟩
        · rw [Machine.kindOf?_redeepened isHistory, if_pos rfl]
        · apply (Machine.Grown.redeepened isHistory).keepsDeep
          intro state isDeep
          rw [Machine.kindOf?_redeepened isHistory]
          split
          · rfl
          · exact isDeep
    | none =>
        dsimp only
        split
        · trivial
        · rename_i free
          have fresh :
              Dictionary.find? members.stateIndex (members.name ++ "-history-pseudo") = none := by
            simpa [Dictionary.contains] using free
          rw [ends_modifyGet]
          obtain ⟨_, grown⟩ := formed.installed .deep found fresh marker
          obtain ⟨history, marked, isDeep, _⟩ := formed.installed_history .deep found fresh
          have stored := Machine.region?_installed machine region
            (members.name ++ "-history-pseudo") .deep region
          rw [if_pos rfl, found] at stored
          have isNew := Machine.historyOf?_eq_some.mpr ⟨_, stored, rfl⟩
          rw [marked] at isNew
          obtain rfl := Option.some.inj isNew
          refine ⟨marked, isDeep, grown.keepsDeep fun state wasDeep => ?_⟩
          obtain ⟨node, present, kind⟩ := Machine.kindOf?_eq_some.mp wasDeep
          obtain ⟨node', present', grownNode⟩ := grown.states state node present
          apply Machine.kindOf?_eq_some.mpr
          refine ⟨node', present', ?_⟩
          have absent : machine.state? ⟨machine.states.size⟩ = none :=
            Machine.state?_next machine (.bare "" .normal)
          rw [Machine.state?_installed machine region _ .deep fun same => by
            rw [same, absent] at present
            cases present] at present'
          rw [present] at present'
          rw [← Option.some.inj present', kind]
  apply ((ends_installHistory_checked formed region .deep).and deep).mono
  · rintro history after ⟨⟨adds, deepened⟩, marked, isDeep, keeps⟩
    exact ⟨adds, deepened, marked, isDeep, keeps⟩
  · exact fun _ _ both => both.1

/-! ### The recursion -/

private theorem mem_regionsWithin_of_normal {machine : Machine} {region nested : RegionId}
    (member : nested ∈ regionsOfNormalStates machine region) :
    nested ∈ machine.regionsWithin region := by
  obtain ⟨child, isChild, listed⟩ := List.mem_flatMap.mp member
  exact List.mem_flatMap.mpr ⟨child, (List.mem_filter.mp isChild).1, listed⟩

/-- How the recursion ends, without a bound: region after region receives a deep history, each
followed by the regions of its normal states. -/
inductive Descends :
    List RegionId → Machine → EStateM.Result ConfigurationError Machine Unit → Prop
  | done {machine : Machine} : Descends [] machine (.ok () machine)
  | refused {nested : RegionId} {rest : List RegionId} {machine after : Machine}
      {error : ConfigurationError}
      (refuses : installHistory nested .deep machine = .error error after) :
      Descends (nested :: rest) machine (.error error after)
  | broken {nested : RegionId} {rest : List RegionId} {machine middle after : Machine}
      {history : StateId} {error : ConfigurationError}
      (installs : installHistory nested .deep machine = .ok history middle)
      (below : Descends (regionsOfNormalStates middle nested) middle (.error error after)) :
      Descends (nested :: rest) machine (.error error after)
  | onward {nested : RegionId} {rest : List RegionId} {machine middle last : Machine}
      {history : StateId} {result : EStateM.Result ConfigurationError Machine Unit}
      (installs : installHistory nested .deep machine = .ok history middle)
      (below : Descends (regionsOfNormalStates middle nested) middle (.ok () last))
      (further : Descends rest last result) : Descends (nested :: rest) machine result

/-- The run ends as the recursion over the regions does. -/
def Descending (regions : List RegionId) (machine : Machine) (run : Construct Unit) : Prop :=
  Ends run machine (fun _ after => Descends regions machine (.ok () after))
    fun error after => Descends regions machine (.error error after)

private theorem descending_forIn {steps : Nat}
    (below : ∀ nested machine, machine.Formed → machine.StepsSuffice steps nested →
      Descending (regionsOfNormalStates machine nested) machine (installHistoryBelow steps nested))
    (regions : List RegionId) {machine : Machine} (formed : machine.Formed)
    (stepsSuffice : ∀ nested ∈ regions, machine.StepsSuffice steps nested) :
    Descending regions machine (forIn regions PUnit.unit fun nested _ => do
      discard (installHistory nested .deep)
      installHistoryBelow steps nested
      return ForInStep.yield PUnit.unit) := by
  -- By induction on the regions, whose levels stay as they are.
  induction regions generalizing machine with
  | nil => exact Descends.done
  | cons nested rest ih =>
      unfold Descending
      rw [List.forIn_cons, ends_bind, ends_bind, ends_discard]
      apply ends_intro
      · intro history middle installed
        have installs := ends_of_finished (ends_installHistory_deep formed nested) installed
        have kept (region : RegionId) (enough : machine.StepsSuffice steps region) :
            middle.StepsSuffice steps region :=
          installs.deepened.stepsSuffice formed.toWired installs.adds enough
        have enough := kept nested (stepsSuffice nested (List.mem_cons_self ..))
        rw [ends_bind]
        apply ((below nested middle installs.adds.formed enough).and
          (ends_installHistoryBelow_deepened installs.adds.formed steps nested)).mono
        · rintro _ last ⟨isBelow, adds, deepened⟩
          apply (ih adds.formed _).mono
          · exact fun _ _ further => .onward installed isBelow further
          · exact fun _ _ further => .onward installed isBelow further
          · intro region member
            apply deepened.stepsSuffice installs.adds.formed.toWired adds
            exact kept region (stepsSuffice region (List.mem_cons_of_mem _ member))
        · rintro error after ⟨isBelow, _⟩
          exact .broken installed isBelow
      · intro error after refuses
        exact .refused refuses

private theorem descending_installHistoryBelow {steps : Nat} {region : RegionId} {machine : Machine}
    (formed : machine.Formed) (stepsSuffice : machine.StepsSuffice steps region) :
    Descending (regionsOfNormalStates machine region) machine
    (installHistoryBelow steps region) := by
  -- By induction on the bound, which is never used up.
  induction steps generalizing region machine with
  | zero =>
      have childless : regionsOfNormalStates machine region = [] := by
        apply List.eq_nil_iff_forall_not_mem.mpr
        intro nested member
        obtain ⟨child, contained, _⟩ :=
          formed.toWired.mem_regionsWithin.mp (mem_regionsWithin_of_normal member)
        obtain ⟨owner, owned⟩ := formed.toWired.exists_owner contained
        have low := formed.level_owner_lt owned
        have enough := stepsSuffice owner owned
        omega
      rw [childless]
      exact Descends.done
  | succ steps ih =>
      unfold installHistoryBelow Descending
      rw [ends_bind, ends_get, ends_bind]
      apply descending_forIn _ _ formed
      · intro nested member
        exact formed.toWired.stepsSuffice_within stepsSuffice (mem_regionsWithin_of_normal member)
      · exact fun nested current formedCurrent enough => ih formedCurrent enough

theorem descending_regionAddHistory {machine : Machine} (formed : machine.Formed)
    (region : RegionId) :
    Descending [region] machine (discard (regionAddHistory region .deep)) := by
  unfold Descending regionAddHistory
  rw [ends_discard, ends_bind]
  apply ends_intro
  · intro history middle installed
    have installs := ends_of_finished (ends_installHistory_deep formed region) installed
    rw [if_pos rfl, ends_bind, ends_get, ends_bind]
    apply (descending_installHistoryBelow installs.adds.formed
      (Machine.stepsSuffice_nestingBound middle region)).mono
    · exact fun _ after below => .onward installed below .done
    · exact fun error after below => .broken installed below
  · intro error after refuses
    exact .refused refuses

/-- When the recursion has gone through, every region within the given ones has a deep history; by
induction on how it went. -/
theorem Descends.deepens {regions : List RegionId} {machine : Machine}
    {result : EStateM.Result ConfigurationError Machine Unit}
    (descends : Descends regions machine result) (formed : machine.Formed) {after : Machine}
    (through : result = .ok () after) :
    AddsHistories machine after ∧ KeepsDeep machine after ∧
      ∀ region ∈ regions, ∀ nested, machine.Within region nested → after.Deep nested := by
  induction descends generalizing after with
  | done =>
      cases through
      exact ⟨AddsHistories.refl formed, fun _ deep => deep, List.forall_mem_nil _⟩
  | refused _ => cases through
  | broken _ _ _ => cases through
  | @onward region rest machine middle last history result installed _ _ ihBelow ihFurther =>
      have installs := ends_of_finished (ends_installHistory_deep formed region) installed
      obtain ⟨addsBelow, keepsBelow, deepBelow⟩ := ihBelow installs.adds.formed rfl
      obtain ⟨addsFurther, keepsFurther, deepFurther⟩ := ihFurther addsBelow.formed through
      have adds := installs.adds.trans addsBelow
      refine ⟨adds.trans addsFurther, (installs.keeps.trans keepsBelow).trans keepsFurther, ?_⟩
      intro other member nested within
      rcases List.mem_cons.mp member with rfl | inRest
      · apply keepsFurther
        rcases installs.adds.formed.toWired.within_cases (installs.adds.within_iff.mpr within) with
          rfl | ⟨inner, isInner, deeper⟩
        · exact keepsBelow nested ⟨history, installs.marked, installs.isDeep⟩
        · exact deepBelow inner isInner nested deeper
      · exact deepFurther other inRest nested (adds.within_iff.mpr within)

/-! ### Once more -/

section Settled

variable {machine : Machine}

theorem eq_ok_of_ends {Answer : Type} {run : Construct Answer} {answer : Answer}
    (ends : Ends run machine (fun given after => given = answer ∧ after = machine)
      fun _ _ => False) : run machine = .ok answer machine := by
  cases result : run machine with
  | ok given after =>
      obtain ⟨rfl, rfl⟩ := ends_of_finished ends result
      rfl
  | error error after => exact absurd (ends_of_failed ends result) id

private theorem ends_installHistory_settled {region : RegionId} {history : StateId}
    (marked : machine.historyOf? region = some history)
    (isDeep : machine.kindOf? history = some (.history .deep)) :
    Ends (installHistory region .deep) machine
      (fun answer after => answer = history ∧ after = machine) fun _ _ => False := by
  obtain ⟨members, found, marker⟩ := Machine.historyOf?_eq_some.mp marked
  unfold installHistory
  rw [ends_bind]
  apply ends_requireRegion
  · intro members' found'
    rw [found] at found'
    obtain rfl := Option.some.inj found'
    rw [marker]
    exact ⟨rfl, Machine.redeepened_self isDeep⟩
  · intro absent
    rw [found] at absent
    cases absent

private theorem ends_installHistoryBelow_settled (wired : machine.Wired) (steps : Nat)
    {region : RegionId}
    (deep : ∀ nested, machine.Within region nested → machine.Deep nested) :
    Ends (installHistoryBelow steps region) machine (fun _ after => after = machine)
      fun _ _ => False := by
  -- By induction on the bound, and on the regions there.
  induction steps generalizing region with
  | zero => rfl
  | succ steps ih =>
      unfold installHistoryBelow
      rw [ends_bind, ends_get, ends_bind]
      have inner (nested : RegionId) (member : nested ∈ regionsOfNormalStates machine region) :=
        within_of_mem_regionsOfNormalStates wired member
      generalize regionsOfNormalStates machine region = regions at inner
      induction regions with
      | nil => rfl
      | cons nested rest ihRest =>
          have within := inner nested (List.mem_cons_self ..)
          obtain ⟨history, marked, isDeep⟩ := deep nested within
          rw [List.forIn_cons, ends_bind, ends_bind, ends_discard]
          apply (ends_installHistory_settled marked isDeep).mono _ fun _ _ never => never
          rintro _ _ ⟨_, rfl⟩
          rw [ends_bind]
          apply (ih fun deeper isWithin => deep deeper (within.trans isWithin)).mono _
            fun _ _ never => never
          rintro _ _ rfl
          exact ihRest fun other member => inner other (List.mem_cons_of_mem _ member)

theorem ends_regionAddHistory_settled (wired : machine.Wired) {region : RegionId}
    {history : StateId}
    (marked : machine.historyOf? region = some history)
    (deep : ∀ nested, machine.Within region nested → machine.Deep nested) :
    Ends (regionAddHistory region .deep) machine
      (fun answer after => answer = history ∧ after = machine) fun _ _ => False := by
  obtain ⟨history', marked', isDeep⟩ := deep region (Machine.Within.refl machine region)
  rw [marked] at marked'
  obtain rfl := Option.some.inj marked'
  unfold regionAddHistory
  rw [ends_bind]
  apply (ends_installHistory_settled marked isDeep).mono _ fun _ _ never => never
  rintro _ _ ⟨rfl, rfl⟩
  rw [if_pos rfl, ends_bind, ends_get, ends_bind]
  apply (ends_installHistoryBelow_settled wired _ deep).mono _ fun _ _ never => never
  rintro _ _ rfl
  exact ⟨rfl, rfl⟩

end Settled

/-! ### What is there afterwards -/

theorem ends_regionAddHistory_deepened {machine : Machine} (formed : machine.Formed)
    (region : RegionId) :
    Ends (regionAddHistory region .deep) machine
      (fun history after => AddsHistories machine after ∧ Deepened region machine after ∧
        after.historyOf? region = some history) (fun _ _ => True) := by
  unfold regionAddHistory
  rw [ends_bind]
  apply (ends_installHistory_deep formed region).mono _ fun _ _ _ => trivial
  intro history middle installs
  rw [if_pos rfl, ends_bind, ends_get, ends_bind]
  apply (ends_installHistoryBelow_deepened installs.adds.formed _ region).mono _
    fun _ _ _ => trivial
  rintro _ after ⟨adds, deepened⟩
  refine ⟨installs.adds.trans adds, ?_, adds.grown.historyOf? installs.marked⟩
  exact installs.deepened.trans deepened installs.adds (Machine.Within.refl machine region)

end Construct

namespace Machine

/-- The region has one history, which is a deep one, and knows it in every way. -/
structure HasDeepHistory (machine : Machine) (region : RegionId) (members : Region)
    (history : StateId) : Prop where
  stored : machine.region? region = some members
  handle : members.history = some history
  deep : machine.kindOf? history = some (.history .deep)
  contained : machine.containerOf? history = some region
  indexed : Dictionary.find? members.stateIndex (machine.stateName history) = some history
  listed : members.states.count history = 1
  single : ∀ other ∈ members.states,
    (∃ depth, machine.kindOf? other = some (.history depth)) → other = history

theorem Formed.hasDeepHistory {machine : Machine} (formed : machine.Formed) {region : RegionId}
    (deep : machine.Deep region) :
    ∃ members history, machine.HasDeepHistory region members history := by
  obtain ⟨history, marked, isDeep⟩ := deep
  obtain ⟨members, found, handle⟩ := historyOf?_eq_some.mp marked
  have states : machine.statesOf region = members.states := by
    rw [statesOf, found]
    rfl
  have contained := ((formed.history region members history found).mpr handle).1
  have member : history ∈ members.states := by
    rw [← states]
    exact (formed.listed history region).mp contained
  refine ⟨members, history, found, handle, isDeep, contained, ?_, ?_, ?_⟩
  · exact (formed.indexed region members _ history found).mpr ⟨member, rfl⟩
  · apply List.count_eq_one_of_mem _ member
    rw [← states]
    exact formed.listedOnce region
  · intro other listed isHistory
    rw [← states] at listed
    have known := (formed.history region members other found).mp
      ⟨(formed.listed other region).mpr listed, isHistory⟩
    rw [handle] at known
    exact (Option.some.inj known).symm

/-- Nothing but the history of the region is new in it, and what was outside is as it was. -/
structure Elsewhere (region : RegionId) (before after : Machine) : Prop where
  regions : ∀ other, other ≠ region → after.region? other = before.region? other
  states : ∀ state node, before.state? state = some node → node.container ≠ some region →
    after.state? state = some node
  transitions : after.transitions = before.transitions
  stored : ∀ state node, before.state? state = none → after.state? state = some node →
    node.container = some region

theorem Deepened.statesOf {region : RegionId} {before after : Machine}
    (deepened : Deepened region before after) (nested : RegionId) :
    after.statesOf nested = before.statesOf nested ∨
      before.Within region nested ∧ before.historyOf? nested = none ∧
        ∃ history, before.state? history = none ∧ after.historyOf? nested = some history ∧
          after.statesOf nested = before.statesOf nested ++ [history] := by
  cases found : before.region? nested with
  | none =>
      left
      have missing : after.region? nested = none := by
        have bound := Array.getElem?_eq_none_iff.mp found
        apply Array.getElem?_eq_none
        rw [deepened.regionCount]
        exact bound
      rw [Machine.statesOf, Machine.statesOf, missing, found]
  | some members =>
      rcases deepened.regions nested members found with kept | ⟨within, free, history,
        absent, gained⟩
      · left
        rw [Machine.statesOf, Machine.statesOf, kept, found]
      · right
        refine ⟨within, ?_, history, absent, historyOf?_eq_some.mpr ⟨_, gained, rfl⟩, ?_⟩
        · rw [historyOf?, found]
          exact free
        · rw [Machine.statesOf, Machine.statesOf, gained, found]
          rfl

theorem Deepened.region?_outside {region : RegionId} {before after : Machine}
    (deepened : Deepened region before after) {other : RegionId} {members : Region}
    (outside : ¬before.Within region other) (found : before.region? other = some members) :
    after.region? other = some members := by
  rcases deepened.regions other members found with kept | ⟨within, _⟩
  · exact kept
  · exact absurd within outside

end Machine

namespace Construct

open Machine (Elsewhere)

private theorem ends_installHistory_elsewhere {machine : Machine} (formed : machine.Formed)
    (region : RegionId) (depth : HistoryDepth) :
    Ends (installHistory region depth) machine (fun _ after => Elsewhere region machine after)
      fun _ after => after = machine := by
  unfold installHistory
  rw [ends_bind]
  apply ends_requireRegion _ fun _ => rfl
  intro members found
  cases marker : members.history with
  | some existing =>
      obtain ⟨contained, _⟩ := (formed.history region members existing found).mpr marker
      dsimp only
      rw [ends_bind, ends_modify, ends_pure]
      change Elsewhere region machine (machine.redeepened existing depth)
      refine { regions := fun _ _ => rfl, states := ?_, transitions := rfl, stored := ?_ }
      · intro state node stored outside
        rw [Machine.state?_redeepened, if_neg, stored]
        rintro rfl
        rw [Machine.containerOf?, stored] at contained
        exact outside contained
      · intro state node absent stored
        rw [Machine.state?_redeepened, absent] at stored
        split at stored <;> cases stored
  | none =>
      dsimp only
      split
      · rfl
      · rename_i free
        have fresh :
            Dictionary.find? members.stateIndex (members.name ++ "-history-pseudo") = none := by
          simpa [Dictionary.contains] using free
        rw [ends_modifyGet]
        obtain ⟨history, _, _, containers, _⟩ := formed.installed_history depth found fresh
        have deepened := Machine.Deepened.installed formed depth found fresh marker
        refine
          { regions := fun other different => ?_, states := fun state node stored _ => ?_,
            transitions := deepened.transitions, stored := fun state node absent stored => ?_ }
        · exact (Machine.region?_installed machine region _ depth other).trans (if_neg different)
        · refine (Machine.state?_installed machine region _ depth fun same => ?_).trans stored
          have missing : machine.state? ⟨machine.states.size⟩ = none :=
            Machine.state?_next machine (.bare "" .normal)
          rw [same, missing] at stored
          cases stored
        · change (machine.installed region _ depth).state? state = some node at stored
          obtain ⟨nested, _, inNested⟩ := deepened.stored state node absent stored
          have contained := containers state
          rw [Machine.containerOf?, stored, Option.bind_some] at contained
          by_cases here : state = history
          · rw [if_pos here] at contained
            exact contained
          · rw [if_neg here, Machine.containerOf?, absent, inNested] at contained
            cases contained

theorem ends_regionAddHistory_shallow {machine : Machine} (formed : machine.Formed)
    (region : RegionId) :
    Ends (regionAddHistory region .shallow) machine (fun _ after => Elsewhere region machine after)
      fun _ after => after = machine := by
  unfold regionAddHistory
  rw [ends_bind]
  apply (ends_installHistory_elsewhere formed region .shallow).mono
  · intro history after elsewhere
    rw [if_neg fun same => by cases same]
    exact elsewhere
  · exact fun _ _ same => same

end Construct
end Chart
