import Chart.Proofs.Run.EntryFirings

set_option autoImplicit false

/-!
Plans enter states one below the other or in different regions. With any callbacks, what an entry
plan enters before a firing is recorded are the states it names, and what the histories among them
resume; no two of them lie beside each other. So a trigger enters a state beside one that it has
entered before only after two firings, its own and that of a trigger of a callback. By induction on
the depth.
-/

namespace Chart

namespace Machine

/-- Entering a state by itself enters the state, and entering a history what it resumes. -/
def EntryScope (machine : Machine) (state other : StateId) : Prop :=
  other = state ∨ ∃ depth region, machine.kindOf? state = some (.history depth) ∧
    machine.containerOf? state = some region ∧ machine.Inside region other

/-- Entering a state by default enters what lies at it, and entering a history what it resumes. -/
def PlanScope (machine : Machine) (state other : StateId) : Prop :=
  machine.Below state other ∨ machine.EntryScope state other

section Scopes

variable {machine : Machine} {state other owner : StateId} {region : RegionId}

private theorem PlanScope.inside (inScope : machine.PlanScope state other)
    (contained : machine.containerOf? state = some region) : machine.Inside region other := by
  rcases inScope with below | rfl | ⟨_, region', _, contained', inside⟩
  · exact Inside.of_below contained below
  · exact .member contained
  · rw [contained] at contained'
    obtain rfl := Option.some.inj contained'
    exact inside

private theorem EntryScope.eq_of_owner (inScope : machine.EntryScope state other)
    (wired : machine.Wired)
    (owns : region ∈ machine.regionsOf state) : other = state := by
  refine inScope.resolve_right ?_
  rintro ⟨depth, _, history, _⟩
  rcases wired.owners state (List.ne_nil_of_mem owns) with normal | isRoot
  · rw [normal] at history
    cases history
  · rw [isRoot] at history
    cases history

private theorem not_beside_of_siblings (wired : machine.Wired) {first second : RegionId}
    (ownedFirst : machine.ownerOf? first = some owner)
    (ownedSecond : machine.ownerOf? second = some owner) (different : first ≠ second)
    (insideFirst : machine.Inside first state) (insideSecond : machine.Inside second other) :
    ¬machine.Beside state other := by
  have apart := wired.siblings_apart ownedFirst ownedSecond different
  have clear : machine.Clear first other :=
    { outside := fun inside => apart.not_inside inside insideSecond
      owner := fun owner' owned => by
        rw [ownedFirst] at owned
        obtain rfl := Option.some.inj owned
        exact not_beside_of_below wired (Or.inr ⟨second, ownedSecond, insideSecond⟩) }
  exact clear.inside wired insideFirst

private theorem SameChart.entryScope {before after : Machine} (same : SameChart before after) :
    after.EntryScope state other ↔ before.EntryScope state other := by
  unfold EntryScope
  simp only [same.kindOf?, same.containerOf?, same.inside]

end Scopes

end Machine

namespace Run

open Discipline hiding Sound
open Machine (Change Changes EntersWithin FiresFirst SameChart Told)

def firingFirst : Discipline :=
  .throughout (fun _ => True) (fun machine => machine.Formed ∧ machine.Linked) FiresFirst

/-- The run enters only states of the scope without a firing. -/
def WithinFrom (scope : StateId → Prop) (run : Run Unit) (machine : Machine) : Prop :=
  Ends run machine (fun _ after => EntersWithin scope machine after)
    fun halt after => halt = .exhausted ∨ EntersWithin scope machine after

structure Calls.EnterWithin (calls : Calls) : Prop extends firingFirst.KeptBy calls where
  enter : ∀ (machine : Machine) state, firingFirst.fit machine →
    WithinFrom (machine.PlanScope state) (calls.enter state) machine
  activate : ∀ (machine : Machine) state, firingFirst.fit machine →
    WithinFrom (machine.EntryScope state) (calls.activate state) machine

/-! ### What is allowed -/

private theorem firesFirst_note (machine : Machine) {event : Event} (plain : event.isPlain = true) :
    FiresFirst machine (machine.note event) :=
  .of_told (Change.note event plain).one (Machine.told_note machine event)
    (by simp [Event.sets_of_still (Event.moves_of_isPlain plain)])

private theorem firesFirst_recorded (machine : Machine) (id : TransitionId) (firing : Firing) :
    FiresFirst machine (machine.recorded id firing) :=
  .of_told (Change.record id firing).one (Machine.told_note _ (.recorded id firing))
    (by simp [Event.sets])

theorem lawful_firingFirst : firingFirst.Lawful :=
  lawful_throughout (fun fires => fires.changes.sameChart)
    (fun fit fires => ⟨fit.1.of_sameChart fires.changes.sameChart, fires.changes.linked fit.2⟩)
    (fun _ => FiresFirst.refl _) (fun first second => first.trans second)
    (fun _ routine => firesFirst_note _ (Event.isPlain_of_isRoutine routine))
    fun _ _ => firesFirst_note _ rfl

theorem refuses_firingFirst : firingFirst.Refuses :=
  refuses_throughout fun _ => FiresFirst.refl _

private theorem lenient_firingFirst : firingFirst.Lenient :=
  lenient_throughout (fun _ => FiresFirst.refl _)
    fun {machine} key value _ => .of_told (Change.write key value).one (Told.refl machine) (by simp)

theorem sound_firingFirst : firingFirst.Sound where
  toLawful := lawful_firingFirst
  behaviors := fun _ _ _ => trivial
  behave := fun kept state behavior _ =>
    kept_behave lawful_firingFirst lenient_firingFirst kept.trigger state behavior
  left := by
    intro machine state node fit found active
    have leaves : FiresFirst machine (machine.left state node) :=
      .of_told (Change.leave found active).one (Machine.told_left state node)
        (by simp [Event.sets])
    exact leaves.trans (finished_starting lawful_firingFirst (lawful_firingFirst.fit fit leaves)
      (firesFirst_note _ rfl) node.closing)
  closed := fun {machine region members} _ found active =>
    .of_told (Change.closeRegion found active).one (Machine.told_closed machine region members.name)
      (by simp [Event.sets])
  joined := fun {machine _} _ inactive =>
    .of_told (Change.join inactive).one (Machine.told_note machine _) (by simp [Event.sets])
  opened := fun {machine region members} _ found inactive _ =>
    .of_told (Change.openRegion found inactive).one
      (Machine.told_opened machine region members.name) (by simp [Event.sets])
  started := fun _ _ => firesFirst_note _ rfl
  timed := by
    intro machine state node _ found active normal timed
    have arms : Changes machine (machine.timerArmed state) :=
      (Change.armTimer found active normal timed).one
    exact .of_told (arms.tail (Change.note _ rfl))
      (Machine.told_note (machine.timerArmed state) _) (by simp [Event.sets])

private theorem chooses_firingFirst : firingFirst.Chooses where
  decided := fun _ _ _ => firesFirst_note _ rfl
  chosen := fun {machine} {_ _ _ _} _ found contained fresh _ =>
    .of_told (Change.choose found contained fresh).one (Told.refl machine) (by simp)

theorem ticks_firingFirst : firingFirst.Ticks where
  started := fun _ _ => firesFirst_note _ rfl
  folded := fun {machine handle _} now _ found awaited running =>
    .of_told (Change.foldFrame found awaited running now).one
      (Machine.told_note machine (.delivered handle)) (by simp [Event.sets])
  requested := fun {machine _ _} _ found running =>
    .of_told (Change.requestFrame found running).one (Told.refl machine) (by simp)
  reset := fun {machine place _} _ _ found stopped =>
    have resets : Changes machine (machine.timerReset place) :=
      (Change.resetTimer found stopped).one
    .of_told (resets.tail (Change.note _ rfl))
      (Machine.told_note (machine.timerReset place) _) (by simp [Event.sets])
  cancelled := fun {machine handle} _ stale =>
    .of_told (Change.cancelFrame handle stale).one (Told.refl machine) (by simp)

section Rules

variable {machine before : Machine} {run : Run Unit} {scope : StateId → Prop}

theorem WithinFrom.mono {wider : StateId → Prop} (within : WithinFrom scope run machine)
    (wide : ∀ state, scope state → wider state) : WithinFrom wider run machine :=
  Ends.mono within (fun _ _ enters => enters.mono wide)
    fun _ _ ended => ended.imp_right fun enters => enters.mono wide

theorem withinFrom_of_kept (kept : firingFirst.KeptFrom run machine) :
    WithinFrom scope run machine :=
  Ends.mono kept (fun _ _ fires => fires.entersWithin)
    fun _ _ ended => ended.imp_right FiresFirst.entersWithin

private theorem ends_after_enters (enters : EntersWithin scope before machine)
    (kept : firingFirst.KeptFrom run machine) :
    Ends run machine (fun _ after => EntersWithin scope before after)
      fun halt after => halt = .exhausted ∨ EntersWithin scope before after :=
  Ends.mono kept (fun _ _ fires => enters.trans_fires fires)
    fun _ _ ended => ended.imp_right enters.trans_fires

private theorem WithinFrom.after_fires (within : WithinFrom scope run machine)
    (fires : FiresFirst before machine) :
    Ends run machine (fun _ after => EntersWithin scope before after)
      fun halt after => halt = .exhausted ∨ EntersWithin scope before after :=
  Ends.mono within (fun _ _ enters => fires.trans_enters enters)
    fun _ _ ended => ended.imp_right fires.trans_enters

end Rules

/-! ### Entering one state -/

section Operations

variable {calls : Calls} (enters : calls.EnterWithin) {machine : Machine}
include enters

private theorem ends_resumeHistory_within {state : StateId} {node : StateNode} {region : RegionId}
    {depth : HistoryDepth} (fit : firingFirst.fit machine)
    (found : machine.state? state = some node)
    (inactive : node.status.isActive = false) (history : node.kind = .history depth)
    (inRegion : node.container = some region) :
    Ends (resumeHistory calls state region) (machine.entered state node.name)
      (fun _ after => EntersWithin (machine.EntryScope state) machine after)
      fun halt after => halt = .exhausted ∨
        EntersWithin (machine.EntryScope state) machine after := by
  have begins : Changes machine (machine.entered state node.name) :=
    (Change.enter found inactive (Or.inr (Or.inr trivial))).one
  have present := Machine.state?_entered found node.name
  have leaves : Changes (machine.entered state node.name)
      ((machine.entered state node.name).left state { node with status := .active }) :=
    (Change.leave present rfl).one
  have passes : Changes machine
      ((machine.entered state node.name).left state { node with status := .active }) :=
    begins.trans leaves
  have same := passes.sameChart
  have contained : machine.containerOf? state = some region := by
    unfold Machine.containerOf?
    rw [found]
    exact inRegion
  have resumes {other : StateId} (inside : machine.Inside region other) :
      machine.EntryScope state other := by
    refine Or.inr ⟨depth, region, ?_, contained, inside⟩
    unfold Machine.kindOf?
    rw [found]
    exact congrArg some history
  unfold resumeHistory
  rw [ends_bind, ends_deactivate present rfl, if_neg (by simp [history])]
  set gone := (machine.entered state node.name).left state { node with status := .active }
  have fitGone : firingFirst.fit gone :=
    ⟨fit.1.of_sameChart same, passes.linked fit.2⟩
  have whole {after : Machine} {scope : StateId → Prop} (rest : EntersWithin scope gone after)
      (within : ∀ other, scope other → gone.Inside region other) :
      EntersWithin (machine.EntryScope state) machine after :=
    (EntersWithin.after_passing found inactive leaves rest).mono fun other either =>
      either.elim Or.inl fun inScope => resumes (same.inside.mp (within other inScope))
  rw [ends_pure, ends_bind, ends_get]
  split
  · exact whole (FiresFirst.refl gone).entersWithin fun _ impossible => impossible
  · rename_i members stored
    split
    · rename_i last remembered
      have containedLast := (fitGone.2.lastActive region members last stored remembered).1
      have noted : FiresFirst gone
          (gone.note (.notice (.historyResumes last (gone.stateName last)))) :=
          firesFirst_note _ rfl
      have sameNoted := noted.changes.sameChart
      have within (other : StateId) (inScope : (gone.note
          (.notice (.historyResumes last (gone.stateName last)))).PlanScope last other) :
          gone.Inside region other :=
        sameNoted.inside.mp (inScope.inside (by rw [sameNoted.containerOf?]; exact containedLast))
      rw [ends_bind, ends_report]
      exact ((enters.enter _ last (lawful_firingFirst.fit fitGone noted)).after_fires noted).mono
        (fun _ _ rest => whole rest within)
        fun _ _ ended => ended.imp_right fun rest => whole rest within
    · have containedInitial :=
        ((fitGone.1.initial region members members.initial stored).mpr rfl).1
      have within (other : StateId) (inScope : gone.EntryScope members.initial other) :
          gone.Inside region other :=
        Machine.PlanScope.inside (Or.inr inScope) containedInitial
      exact Ends.mono (enters.activate gone _ fitGone) (fun _ _ rest => whole rest within)
        fun _ _ ended => ended.imp_right fun rest => whole rest within

private theorem within_activate {state : StateId} (fit : firingFirst.fit machine) :
    WithinFrom (machine.EntryScope state) (activate calls state) machine := by
  cases found : machine.state? state with
  | none =>
      refine withinFrom_of_kept ?_
      unfold KeptFrom activate
      rw [ends_bind, ends_get, found]
      exact FiresFirst.refl machine
  | some node =>
      by_cases active : node.status.isActive = true
      · refine withinFrom_of_kept ?_
        unfold KeptFrom activate
        rw [ends_bind, ends_get, found]
        simp only [active, if_true]
        exact kept_warn lawful_firingFirst _ machine fit
      · have inactive : node.status.isActive = false := by simpa using active
        have begins : EntersWithin (machine.EntryScope state) machine
            (machine.entered state node.name) :=
          (Machine.entersWithin_entered found inactive).mono fun _ => Or.inl
        have fitEntered : firingFirst.fit (machine.entered state node.name) :=
          ⟨fit.1.of_sameChart begins.changes.sameChart, begins.changes.linked fit.2⟩
        have after {run : Run Unit}
            (kept : firingFirst.KeptFrom run (machine.entered state node.name)) :=
          ends_after_enters begins kept
        apply ends_activate_kept sound_firingFirst enters.toKeptBy found inactive fitEntered
        · exact fun _ _ _ kept => after kept
        · intro normal
          exact after (keptFrom_enterNormal sound_firingFirst enters.toKeptBy fitEntered found
            begins.changes.sameChart normal (fun _ _ => trivial)
            (finished_starting lawful_firingFirst fitEntered (firesFirst_note _ rfl) node.entry))
        · exact fun depth region history inRegion =>
            ends_resumeHistory_within enters fit found inactive history inRegion
        · exact fun _ => after (keptFrom_followChoice lawful_firingFirst chooses_firingFirst
            enters.trigger fitEntered (Machine.state?_entered found node.name) rfl rfl rfl)

end Operations

/-! ### Plans -/

/-- In any machine with the chart, the plan enters only states of the scope without a firing. -/
def PlanWithin (calls : Calls) (chart : Machine) (scope : StateId → Prop)
    (plan : List Machine.Step) : Prop :=
  ∀ machine : Machine, firingFirst.fit machine → SameChart chart machine →
    WithinFrom scope (enterBy calls plan) machine

section Plans

variable {calls : Calls} {chart : Machine} {scope first second : StateId → Prop}
  {plan early late : List Machine.Step}

theorem PlanWithin.mono (within : PlanWithin calls chart first plan)
    (wider : ∀ state, first state → second state) : PlanWithin calls chart second plan :=
  fun machine fit same => (within machine fit same).mono wider

private theorem planWithin_nil : PlanWithin calls chart scope [] :=
  fun machine _ _ => (FiresFirst.refl machine).entersWithin

private theorem PlanWithin.append (one : PlanWithin calls chart first early)
    (other : PlanWithin calls chart second late)
    (apart : ∀ state state', first state → second state' → ¬chart.Beside state state') :
    PlanWithin calls chart (fun state => first state ∨ second state) (early ++ late) := by
  intro machine fit same
  unfold WithinFrom enterBy
  rw [ends_forM_append]
  refine Ends.mono (one machine fit same) (fun _ middle entered => ?_)
    fun _ _ ended => ended.imp_right fun entered => entered.mono fun _ => Or.inl
  have fitMiddle : firingFirst.fit middle :=
    ⟨fit.1.of_sameChart entered.changes.sameChart, entered.changes.linked fit.2⟩
  have apartHere (state state' : StateId) (inFirst : first state) (inSecond : second state') :
      ¬machine.Beside state state' := by
    rw [same.beside]
    exact apart state state' inFirst inSecond
  exact Ends.mono (other middle fitMiddle (same.trans entered.changes.sameChart))
    (fun _ _ rest => entered.trans rest apartHere)
    fun _ _ ended => ended.imp_right fun rest => entered.trans rest apartHere

private theorem planWithin_regions (regions : List RegionId) :
    PlanWithin calls chart (fun _ => False) (regions.map Machine.Step.region) := by
  intro machine fit _
  refine withinFrom_of_kept (keptFrom_enterBy lawful_firingFirst sound_firingFirst.toOpens
    (fun _ _ => False) (fun _ impossible => impossible)
    (fun _ impossible => impossible.elim) fit ?_)
  intro state named
  obtain ⟨_, _, impossible⟩ := List.mem_map.mp named
  cases impossible

variable (enters : calls.EnterWithin)
include enters

private theorem planWithin_state (state : StateId) :
    PlanWithin calls chart (chart.EntryScope state) [.state state] := by
  intro machine fit same
  have activates : WithinFrom (chart.EntryScope state) (activate calls state) machine :=
    (within_activate enters fit).mono fun _ => same.entryScope.mp
  unfold WithinFrom enterBy
  rw [ends_forM_cons]
  have step : WithinFrom (chart.EntryScope state) (entryStep calls (.state state)) machine := by
    unfold WithinFrom entryStep
    rw [ends_bind, ends_get]
    split
    · exact activates
    · split
      · exact activates
      · exact (firesFirst_note machine rfl).entersWithin
  exact step

variable (formed : chart.Formed)
include formed

private theorem planWithin_enterMarker (region : RegionId) :
    PlanWithin calls chart (chart.Inside region) (chart.enterMarker region) := by
  unfold Machine.enterMarker Machine.entryMarker?
  cases stored : chart.region? region with
  | none => exact planWithin_nil
  | some members =>
      refine (planWithin_state enters members.entryMarker).mono fun other inScope => ?_
      exact Machine.PlanScope.inside (Or.inr inScope)
        (Machine.containerOf?_entryMarker stored formed)

omit enters in
/-- Plans for different regions of one owner; by induction on the regions. -/
theorem planWithin_branches {owner : StateId} {regions : List RegionId} (nodup : regions.Nodup)
    (owned : ∀ region ∈ regions, chart.ownerOf? region = some owner)
    {branch : RegionId → List Machine.Step}
    (within : ∀ region ∈ regions, PlanWithin calls chart (chart.Inside region) (branch region)) :
    PlanWithin calls chart (fun other => ∃ region ∈ regions, chart.Inside region other)
      (regions.flatMap branch) := by
  induction regions with
  | nil => exact planWithin_nil
  | cons region rest ih =>
      obtain ⟨fresh, nodupRest⟩ := List.nodup_cons.mp nodup
      have others := ih nodupRest (fun other member => owned other (List.mem_cons_of_mem _ member))
        fun other member => within other (List.mem_cons_of_mem _ member)
      refine ((within region (List.mem_cons_self ..)).append others ?_).mono ?_
      · rintro state state' inside ⟨other, member, insideOther⟩
        exact Machine.not_beside_of_siblings formed.toWired (owned region (List.mem_cons_self ..))
          (owned other (List.mem_cons_of_mem _ member))
          (fun same => fresh (by rw [same]; exact member)) inside insideOther
      · rintro state (inside | ⟨other, member, inside⟩)
        · exact ⟨region, List.mem_cons_self .., inside⟩
        · exact ⟨other, List.mem_cons_of_mem _ member, inside⟩

private theorem planWithin_owner (state : StateId) {regions : List RegionId} (nodup : regions.Nodup)
    (owned : ∀ region ∈ regions, region ∈ chart.regionsOf state)
    {branch : RegionId → List Machine.Step}
    (within : ∀ region ∈ regions, PlanWithin calls chart (chart.Inside region) (branch region)) :
    PlanWithin calls chart (chart.PlanScope state)
      (.state state :: regions.map Machine.Step.region ++ regions.flatMap branch) := by
  have owner (region : RegionId) (member : region ∈ regions) :
      chart.ownerOf? region = some state := (formed.owned region state).mpr (owned region member)
  have branches := planWithin_branches formed nodup owner within
  have enters : PlanWithin calls chart (chart.EntryScope state) [.state state] :=
    planWithin_state enters state
  have opens := enters.append (planWithin_regions regions) fun _ _ _ impossible =>
    impossible.elim
  refine (opens.append branches ?_).mono ?_
  · rintro one other (inScope | impossible) ⟨region, member, inside⟩
    · obtain rfl := inScope.eq_of_owner formed.toWired (owned region member)
      exact Machine.not_beside_of_below formed.toWired
        (Or.inr ⟨region, owner region member, inside⟩)
    · exact impossible.elim
  · rintro other ((inScope | impossible) | ⟨region, member, inside⟩)
    · exact Or.inr inScope
    · exact impossible.elim
    · exact Or.inl (Or.inr ⟨region, owner region member, inside⟩)

private theorem planWithin_chainEntryPlan (top : StateId) (chain : List StateId) :
    PlanWithin calls chart (chart.PlanScope top) (chart.chainEntryPlan (top :: chain)) := by
  -- By induction on the chain.
  have nodup (state : StateId) : (chart.inactiveRegions state).Nodup :=
    (formed.ownedOnce state).filter _
  have owned (state : StateId) (region : RegionId)
    (pending : region ∈ chart.inactiveRegions state) :
      region ∈ chart.regionsOf state := (List.mem_filter.mp pending).1
  induction chain generalizing top with
  | nil =>
      exact planWithin_owner enters formed top (nodup top) (owned top)
        fun region _ => planWithin_enterMarker enters formed region
  | cons next rest ih =>
      refine planWithin_owner enters formed top (nodup top) (owned top) fun region _ => ?_
      split
      · rename_i contained
        exact (ih next).mono fun other inScope => inScope.inside contained
      · exact planWithin_enterMarker enters formed region

end Plans

/-! ### Firing -/

section Firing

variable {calls : Calls} (enters : calls.EnterWithin) {machine : Machine}
include enters

private theorem within_enterDefault {state : StateId} (fit : firingFirst.fit machine) :
    WithinFrom (machine.PlanScope state) (enterDefault calls state) machine := by
  unfold WithinFrom enterDefault
  rw [ends_bind, ends_get]
  exact planWithin_chainEntryPlan enters fit.1 state [] machine fit (SameChart.refl machine)

private theorem within_enterTarget {ends : Machine.Endpoints} (fit : firingFirst.fit machine) :
    WithinFrom (fun _ => True) (enterTarget calls ends) machine := by
  unfold WithinFrom enterTarget
  rw [ends_bind, ends_get]
  split
  · unfold enterExplicit Machine.explicitEntryPlan
    rw [ends_bind, ends_get]
    obtain ⟨top, rest, chain, _⟩ := @Machine.exists_inactiveChain machine machine.nestingBound
      ends.target [] (List.forall_mem_nil _)
    simp only [chain, List.head?_cons, Option.map_some, Option.getD_some]
    have opens : PlanWithin calls machine (fun _ => False) (machine.activateInactive top) := by
      unfold Machine.activateInactive
      split
      · exact planWithin_nil
      · rename_i region _
        split
        · exact planWithin_nil
        · exact planWithin_regions [region]
    exact ((opens.append (planWithin_chainEntryPlan enters fit.1 top rest) fun _ _ impossible =>
      impossible.elim).mono fun _ _ => trivial) machine fit (SameChart.refl machine)
  · exact (within_enterDefault enters fit).mono fun _ _ => trivial

private theorem kept_trigger_firingFirst (id : TransitionId) (memo : Value) :
    firingFirst.Kept (trigger calls id memo) := by
  intro machine fit
  have effects (transition : Transition) (source : StateId) :
      firingFirst.Kept (runEffect calls transition source memo) :=
    kept_runEffect sound_firingFirst enters.toKeptBy source fun _ _ => trivial
  have asks : FiresFirst machine (machine.note (.requested id)) := firesFirst_note _ rfl
  have fitAsked : firingFirst.fit (machine.note (.requested id)) := lawful_firingFirst.fit fit asks
  refine (ends_trigger_of_resolved lawful_firingFirst (fun _ _ => firesFirst_note _ rfl) fitAsked
    fun {transition ends} _ _ => ?_).mono
    (fun _ _ later => asks.trans later) fun _ _ halted => lawful_firingFirst.halts asks halted
  refine keptFrom_fireResolved lawful_firingFirst fitAsked fun _ _ fitGuarded => ⟨?_, ?_⟩
  · apply Kept.bind lawful_firingFirst (kept_note lawful_firingFirst rfl) _ _ fitGuarded
    intro _
    apply Kept.bind lawful_firingFirst (effects transition ends.source)
    exact fun _ machine _ => firesFirst_recorded machine id _
  · apply ends_fireExternal_of
    have noted := kept_exit sound_firingFirst enters.toKeptBy ends.source
    refine ((noted _ (lawful_firingFirst.fit fitGuarded (firesFirst_note _ rfl))).after
      lawful_firingFirst (firesFirst_note _ rfl)).mono (fun _ gone left => ?_)
      fun _ _ halted => halted
    have fitGone := lawful_firingFirst.fit fitGuarded left
    refine ((effects transition ends.source gone fitGone).after lawful_firingFirst left).mono
      (fun _ acted acts => ?_) fun _ _ halted => halted
    have fitActed := lawful_firingFirst.fit fitGuarded acts
    refine Ends.mono (within_enterTarget enters
      (lawful_firingFirst.fit fitActed (firesFirst_recorded acted id _)))
      (fun _ _ entered => acts.trans_recorded rfl entered)
      fun _ _ ended => ended.imp_right fun entered => acts.trans_recorded rfl entered

end Firing

theorem calls_enterWithin (depth : Nat) : (calls depth).EnterWithin := by
  -- By induction on the depth.
  induction depth with
  | zero =>
      exact
        { trigger := fun _ _ _ _ => Or.inl rfl
          completeRegion := fun _ _ _ => Or.inl rfl
          enter := fun _ _ _ => Or.inl rfl
          activate := fun _ _ _ => Or.inl rfl }
  | succ depth ih =>
      exact
        { trigger := kept_trigger_firingFirst ih
          completeRegion := kept_completeRegion sound_firingFirst ih.toKeptBy
          enter := fun _ _ fit => within_enterDefault ih fit
          activate := fun _ _ fit => within_activate ih fit }

end Run

end Chart
