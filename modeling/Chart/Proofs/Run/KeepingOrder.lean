import Chart.Proofs.Run.Termination
import Chart.Proofs.Run.EventOrder

set_option autoImplicit false

/-!
Every operation keeps the order of events, whatever the callbacks do. This is a discipline of which
the entries have to be looked at: a call to enter a state at the root begins with its entry, which
is what ties a history to the child its region remembers. Plans made at the root stay there. The
operations at all depths follow by induction on the depth.
-/

namespace Chart

namespace Machine

section Plans

variable {machine : Machine}

def AtRoot (machine : Machine) (steps : List Step) : Prop :=
  ∀ state, .state state ∈ steps → machine.Below root state

private theorem AtRoot.of_sameChart {after : Machine} {steps : List Step}
    (atRoot : machine.AtRoot steps)
    (same : SameChart machine after) : after.AtRoot steps :=
  fun state named => same.below.mpr (atRoot state named)

private theorem atRoot_chainEntryPlan (formed : machine.Formed) {chain : List StateId}
    (below : ∀ state ∈ chain, machine.Below root state) :
    machine.AtRoot (machine.chainEntryPlan chain) := by
  intro state named
  rcases mem_chainEntryPlan named with inChain | ⟨owner, member, region, members, owns, found, rfl⟩
  · exact below state inChain
  · apply Beneath.below _ (containerOf?_entryMarker found formed)
    exact ⟨owner, (formed.owned region owner).mpr (List.mem_filter.mp owns).1, below owner member⟩

private theorem atRoot_explicitEntryPlan (formed : machine.Formed) {target : StateId}
    (below : machine.Below root target) : machine.AtRoot (machine.explicitEntryPlan target) := by
  intro state named
  apply atRoot_chainEntryPlan formed _ state (mem_explicitEntryPlan named)
  intro other member
  have climbs (one parent : StateId) (isParent : machine.parentOf? one = some parent)
      (atRoot : machine.Below root one) : machine.Below root parent :=
    formed.toWired.below_parent atRoot isParent
  exact forall_mem_inactiveChain climbs below (by simpa using below) other member

end Plans

end Machine

namespace Run

open Discipline hiding Sound
open Machine (Fit Change InOrder InOrderFrom)

private theorem tellsVisit_of_isRoutine {event : Event} (routine : event.isRoutine = true) :
    event.tellsVisit = false := by
  cases event with
  | notice notice => cases notice <;> first | rfl | cases routine
  | _ => first | rfl | cases routine

/-- The run keeps the order of events when it finishes and when it ends with an error. -/
def keepingOrder : Discipline := .throughout (fun _ => True) Fit InOrder

/-- The run keeps the order of events and begins with the entry of the state. -/
def EntersFrom {Answer : Type} (state : StateId) (run : Run Answer) (machine : Machine) : Prop :=
  Ends run machine (fun _ after => InOrderFrom state machine after)
    fun halt after => halt = .exhausted ∨ InOrderFrom state machine after

structure Calls.KeepOrder (calls : Calls) : Prop extends keepingOrder.KeptBy calls where
  enter : ∀ (machine : Machine) state, machine.Fit → machine.Below Machine.root state →
    EntersFrom state (calls.enter state) machine
  activate : ∀ (machine : Machine) state, machine.Fit → machine.Below Machine.root state →
    EntersFrom state (calls.activate state) machine

/-! ### What is allowed -/

private theorem lawful_keepingOrder : keepingOrder.Lawful :=
  lawful_throughout (fun inOrder => inOrder.changes.sameChart) Fit.of_inOrder
    (fun fit => InOrder.refl fit.rooted) (fun first second => first.trans second)
    (fun fit routine => InOrder.note fit.rooted (Event.isPlain_of_isRoutine routine)
      (tellsVisit_of_isRoutine routine))
    fun _ fit => InOrder.note fit.rooted rfl rfl

theorem refuses_keepingOrder : keepingOrder.Refuses :=
  refuses_throughout fun fit => InOrder.refl fit.rooted

theorem inOrder_write {machine : Machine} (fit : machine.Fit) (key : String) (value : Value) :
    InOrder machine (machine.set key value).2 :=
  .of_change fit.rooted (.write key value) (Machine.Told.refl machine) (by simp)

private theorem lenient_keepingOrder : keepingOrder.Lenient :=
  lenient_throughout (fun fit => InOrder.refl fit.rooted) fun key value fit =>
    inOrder_write fit key value

theorem sound_keepingOrder : keepingOrder.Sound where
  toLawful := lawful_keepingOrder
  behaviors := fun _ _ _ => trivial
  behave := fun kept state behavior _ =>
    kept_behave lawful_keepingOrder lenient_keepingOrder kept.trigger state behavior
  left := fun fit found active => InOrder.left fit found active
  closed := fun fit found active => InOrder.of_change fit.rooted (.closeRegion found active)
    (Machine.told_closed _ _ _) (by simp [Event.tellsVisit])
  joined := fun fit inactive => InOrder.of_change fit.rooted (.join inactive)
    (Machine.told_note _ _) (by simp [Event.tellsVisit])
  opened := fun fit found inactive active => InOrder.opened fit.rooted found inactive
    ⟨_, Machine.ownerOf?_eq_some.mpr ⟨_, found, rfl⟩,
      fit.rooted.below_of_active fit.linked.retold active⟩
  started := fun fit _ => InOrder.note fit.rooted rfl rfl
  timed := by
    intro machine state node fit found active normal timed
    have armed : InOrder machine (machine.timerArmed state) :=
      .of_change fit.rooted (.armTimer found active normal timed) (Machine.Told.refl machine)
        (by simp)
    exact armed.trans (InOrder.note armed.rooted rfl rfl)

private theorem chooses_keepingOrder : keepingOrder.Chooses where
  decided := fun _ _ fit => InOrder.note fit.rooted rfl rfl
  chosen := fun fit found contained fresh _ =>
    InOrder.of_change fit.rooted (.choose found contained fresh) (Machine.Told.refl _) (by simp)

private theorem fires_keepingOrder : keepingOrder.Fires where
  effects := fun _ _ _ _ => trivial
  requested := fun _ fit => InOrder.note fit.rooted rfl rfl
  recorded := by
    intro machine id firing fit
    exact InOrder.of_change fit.rooted (.record id firing)
      (Machine.told_note { machine with log := machine.log.push firing } (.recorded id firing))
      (by simp [Event.tellsVisit])
  settled := fun _ _ fit => InOrder.note fit.rooted rfl rfl

theorem ticks_keepingOrder : keepingOrder.Ticks where
  started := fun _ fit => InOrder.note fit.rooted rfl rfl
  folded := by
    intro machine handle node now fit found awaited running
    exact InOrder.of_change fit.rooted (.foldFrame found awaited running now)
      (Machine.told_note machine (.delivered handle)) (by simp [Event.tellsVisit])
  requested := fun fit found running =>
    InOrder.of_change fit.rooted (.requestFrame found running) (Machine.Told.refl _) (by simp)
  reset := by
    intro machine state node name fit found stopped
    have reset : InOrder machine (machine.timerReset state) :=
      .of_change fit.rooted (.resetTimer found stopped) (Machine.Told.refl machine) (by simp)
    exact reset.trans (InOrder.note reset.rooted rfl rfl)
  cancelled := fun fit stale =>
    InOrder.of_change fit.rooted (.cancelFrame _ stale) (Machine.Told.refl _) (by simp)

theorem inOrder_framesTaken {machine : Machine} (fit : machine.Fit) :
    InOrder machine machine.framesTaken :=
  .of_change fit.rooted (.takeFrames trivial) (Machine.Told.refl machine) (by simp)

/-! ### Entering -/

section EnteringFrom

variable {Answer Other : Type} {before machine : Machine} {state : StateId}

private theorem ends_after_inOrderFrom {run : Run Answer} (kept : keepingOrder.KeptFrom run machine)
    (inOrderFrom : InOrderFrom state before machine) :
    Ends run machine (fun _ after => InOrderFrom state before after)
      fun halt after => halt = .exhausted ∨ InOrderFrom state before after :=
  Ends.mono kept (fun _ _ later => inOrderFrom.trans later) fun _ _ later =>
    later.imp_right inOrderFrom.trans

theorem EntersFrom.kept {run : Run Answer} (entersFrom : EntersFrom state run machine) :
    keepingOrder.KeptFrom run machine :=
  Ends.mono entersFrom (fun _ _ inOrderFrom => inOrderFrom.toInOrder) fun _ _ failure =>
    failure.imp_right fun inOrderFrom => inOrderFrom.toInOrder

private theorem EntersFrom.bind {first : Run Other} {next : Other → Run Answer}
    (entersFrom : EntersFrom state first machine) (keptNext : ∀ answer after,
      InOrder machine after → keepingOrder.KeptFrom (next answer) after) :
    EntersFrom state (first >>= next) machine := by
  unfold EntersFrom
  rw [ends_bind]
  apply Ends.mono entersFrom
  · intro answer after inOrderFrom
    exact ends_after_inOrderFrom (keptNext answer after inOrderFrom.toInOrder) inOrderFrom
  · exact fun _ _ failure => failure

end EnteringFrom

section Operations

variable {calls : Calls} (keeps : calls.KeepOrder)
include keeps

omit keeps in
theorem ends_resumption {machine : Machine} {history : StateId} {node : StateNode}
    {region : RegionId} {members : Region} {ended : Unit → Machine → Prop}
    {failed : Halt → Machine → Prop} (found : machine.state? history = some node)
    (active : node.status.isActive = true) (special : node.kind ≠ .normal)
    (stored : machine.region? region = some members) :
    Ends (resumeHistory calls history region) machine ended failed ↔
      Ends
        (match members.lastActive with
          | some last => do
              report (.historyResumes last (machine.stateName last))
              calls.enter last
          | none => calls.activate members.initial)
        (machine.left history node) ended failed := by
  have storedLeft : (machine.left history node).region? region = some members := by
    rw [Machine.region?_left, if_neg fun both => special both.1]
    exact stored
  unfold resumeHistory
  rw [ends_bind, ends_deactivate found active, if_neg special, ends_pure, ends_bind, ends_get,
    storedLeft]
  dsimp only
  cases members.lastActive with
  | none => exact Iff.rfl
  | some last =>
      dsimp only
      rw [(Machine.sameChart_left machine history node).stateName]

section History

variable {machine : Machine} {history : StateId} {node : StateNode} {region : RegionId}
  {depth : HistoryDepth} (fit : machine.Fit) (found : machine.state? history = some node)
  (inactive : node.status.isActive = false) (below : machine.Below Machine.root history)
  (isHistory : node.kind = .history depth) (contained : node.container = some region)
include fit found inactive below isHistory contained

/-- The history is left at once, and what the call to enter the next state begins with is what the
region remembers. -/
theorem entersFrom_resumeHistory :
    Ends (resumeHistory calls history region) (machine.entered history node.name)
      (fun _ after => InOrderFrom history machine after)
      fun halt after => halt = .exhausted ∨ InOrderFrom history machine after := by
  have special : node.kind ≠ .normal := by rw [isHistory]; simp
  have around := Machine.containerOf?_eq_some.mpr ⟨node, found, contained⟩
  obtain ⟨owner, owned, belowOwner⟩ := fit.beneath_of_below below around
  obtain ⟨members, stored, _⟩ := Machine.ownerOf?_eq_some.mp owned
  have foundNow := Machine.state?_entered found node.name
  have fitEntered := fit.entered found inactive below
  -- A history starts nothing when it is left.
  have leaves := InOrder.left fitEntered foundNow rfl
  rw [StateNode.closing, if_neg special] at leaves
  have toldLeft := @Machine.told_left (machine.entered history node.name) history
    { node with status := .active }
  have fitLeft := fitEntered.of_inOrder leaves
  have same := (Machine.sameChart_entered machine history node.name).trans
    leaves.changes.sameChart
  have atRoot {child : StateId} (within : machine.containerOf? child = some region) :=
    same.below.mpr (Machine.Beneath.below ⟨owner, owned, belowOwner⟩ within)
  rw [ends_resumption foundNow rfl special stored]
  generalize (machine.entered history node.name).left history { node with status := .active } = gone
    at *
  cases remembered : members.lastActive with
  | some last =>
      dsimp only
      generalize (machine.entered history node.name).stateName last = name
      have noted : InOrder gone (gone.note (.notice (.historyResumes last name))) :=
        .note fitLeft.rooted rfl rfl
      have memory : machine.lastActive? region = some last := by
        rw [Machine.lastActive?, stored]
        exact remembered
      have lastBelow := atRoot (fit.linked.lastActive region members last stored remembered).1
      have handsOver {after : Machine} (inOrderFrom : InOrderFrom last
          (gone.note (.notice (.historyResumes last name))) after) :
          InOrderFrom history machine after := by
        apply InOrderFrom.resumed fit found inactive isHistory contained
          (leaves.trans (noted.trans inOrderFrom.toInOrder))
        rw [memory]
        exact Machine.resumption_recalled toldLeft (Machine.told_note gone _) inOrderFrom machine
      rw [ends_bind, ends_report]
      apply Ends.mono (keeps.enter _ last (fitLeft.of_inOrder noted)
        (noted.changes.sameChart.below.mpr lastBelow))
      · exact fun _ _ inOrderFrom => handsOver inOrderFrom
      · exact fun _ _ failure => failure.imp_right handsOver
  | none =>
      dsimp only
      have memory : machine.lastActive? region = none := by
        rw [Machine.lastActive?, stored]
        exact remembered
      have initialBelow := atRoot ((fit.initial region members members.initial stored).mpr rfl).1
      have handsOver {after : Machine} (inOrderFrom : InOrderFrom members.initial gone after) :
          InOrderFrom history machine after := by
        apply InOrderFrom.resumed fit found inactive isHistory contained
          (leaves.trans inOrderFrom.toInOrder)
        rw [memory]
        exact Machine.resumption_fresh stored toldLeft inOrderFrom
      apply Ends.mono (keeps.activate _ members.initial fitLeft initialBelow)
      · exact fun _ _ inOrderFrom => handsOver inOrderFrom
      · exact fun _ _ failure => failure.imp_right handsOver

end History

/-- The behaviour of a normal state begins right with its entry; what a history does is told as a
whole. -/
theorem entersFrom_activate {machine : Machine} {state : StateId} (fit : machine.Fit)
    (below : machine.Below Machine.root state) :
    EntersFrom state (activate calls state) machine := by
  obtain ⟨node, found⟩ := Option.isSome_iff_exists.mp (fit.isSome_of_below below)
  by_cases active : node.status.isActive = true
  · unfold EntersFrom activate
    rw [ends_bind, ends_get, found]
    simp only [active, if_true]
    rw [ends_warn]
    exact InOrderFrom.of_missed fit.rooted rfl rfl rfl
  · have inactive : node.status.isActive = false := by simpa using active
    have fitEntered := fit.entered found inactive below
    have enters (unmarked : ∀ depth, node.kind = .history depth → node.container = none) :=
      InOrderFrom.entered (InOrder.entered fit found inactive below unmarked)
    -- Every kind but the normal one starts nothing when it is entered.
    have passes {run : Run Unit} (special : node.kind ≠ .normal)
        (unmarked : ∀ depth, node.kind = .history depth → node.container = none)
        (keptRun : keepingOrder.KeptFrom run (machine.entered state node.name)) :
        Ends run (machine.entered state node.name) (fun _ after => InOrderFrom state machine after)
          fun halt after => halt = .exhausted ∨ InOrderFrom state machine after := by
      have entered := enters unmarked
      rw [StateNode.opening, if_neg special] at entered
      exact ends_after_inOrderFrom keptRun entered
    apply ends_activate_kept sound_keepingOrder keeps.toKeptBy found inactive fitEntered
    · exact fun special _ unmarked keptRun => passes special unmarked keptRun
    · intro normal
      have entered := enters (by rw [normal]; simp)
      rw [StateNode.opening, if_pos normal] at entered
      rw [ends_enterNormal_begun]
      exact ends_after_inOrderFrom (keptFrom_performEntry sound_keepingOrder keeps.toKeptBy
        (fit.of_inOrder entered.toInOrder) found entered.changes.sameChart normal
        fun _ _ => trivial) entered
    · exact fun depth region history contained =>
        entersFrom_resumeHistory keeps fit found inactive below history contained
    · intro choice
      exact passes (by rw [choice]; simp) (by rw [choice]; simp)
        (keptFrom_followChoice lawful_keepingOrder chooses_keepingOrder keeps.trigger fitEntered
          (Machine.state?_entered found node.name) rfl rfl rfl)

private theorem entersFrom_entryStep {machine : Machine} {state : StateId} (fit : machine.Fit)
    (below : machine.Below Machine.root state) :
    EntersFrom state (entryStep calls (.state state)) machine := by
  unfold EntersFrom entryStep
  rw [ends_bind, ends_get]
  split
  · exact entersFrom_activate keeps fit below
  · split
    · exact entersFrom_activate keeps fit below
    · rw [ends_report]
      exact InOrderFrom.of_missed fit.rooted rfl rfl rfl

private theorem keepingOrder_enterBy {machine : Machine} {plan : List Machine.Step}
    (fit : machine.Fit)
    (atRoot : machine.AtRoot plan) : keepingOrder.KeptFrom (enterBy calls plan) machine := by
  apply keptFrom_enterBy sound_keepingOrder.toLawful sound_keepingOrder.toOpens
    (fun machine state => machine.Below Machine.root state)
    _ _ fit atRoot
  · exact fun inOrder below => (lawful_keepingOrder.same inOrder).below.mpr below
  · exact fun fit below => (entersFrom_activate keeps fit below).kept

private theorem entersFrom_enterDefault {machine : Machine} {state : StateId} (fit : machine.Fit)
    (below : machine.Below Machine.root state) :
    EntersFrom state (enterDefault calls state) machine := by
  have atRoot : machine.AtRoot (machine.defaultEntryPlan state) :=
    @Machine.atRoot_chainEntryPlan machine fit.toFormed [state] (by simpa using below)
  unfold EntersFrom enterDefault
  rw [ends_bind, ends_get]
  obtain ⟨steps, plan, _⟩ := Machine.defaultEntryPlan_eq fit.toFormed state
  rw [plan] at atRoot ⊢
  apply EntersFrom.bind (entersFrom_entryStep keeps fit below)
  intro _ after inOrder
  apply keepingOrder_enterBy keeps (fit.of_inOrder inOrder)
  apply Machine.AtRoot.of_sameChart _ inOrder.changes.sameChart
  exact fun other named => atRoot other (List.mem_cons_of_mem _ named)

private theorem keepingOrder_enterTarget {ends : Machine.Endpoints} {machine : Machine}
    (fit : machine.Fit)
    (below : machine.Below Machine.root ends.target) :
    keepingOrder.KeptFrom (enterTarget calls ends) machine := by
  apply KeptFrom.get
  split
  · apply KeptFrom.get
    exact keepingOrder_enterBy keeps fit (Machine.atRoot_explicitEntryPlan fit.toFormed below)
  · exact (entersFrom_enterDefault keeps fit below).kept

/-! ### Firing -/

omit keeps in
private theorem below_target {machine : Machine} {id : TransitionId} {ends : Machine.Endpoints}
    (fit : machine.Fit) (resolved : machine.endpoints id = .ok ends) :
    machine.Below Machine.root ends.target := by
  obtain ⟨found, region, members, known, inRegion, _⟩ := Machine.endpoints_eq_ok resolved
  obtain ⟨active, _, inside⟩ := Machine.endpoints_spec fit.toFormed known inRegion resolved
  obtain ⟨outer, owned, within⟩ := Machine.beneath_iff.mp (fit.rooted.regions region active)
  exact Or.inr ⟨outer, owned, inside.of_within within⟩

private theorem keepingOrder_trigger (id : TransitionId) (memo : Value) :
    keepingOrder.Kept (trigger calls id memo) := by
  intro machine fit
  apply keptFrom_trigger sound_keepingOrder keeps.toKeptBy fires_keepingOrder fit
  intro asked ends recorded fitAsked resolved fitRecorded same _
  exact keepingOrder_enterTarget keeps fitRecorded (same.below.mpr (below_target fitAsked resolved))

end Operations

theorem calls_keepingOrder (depth : Nat) : (calls depth).KeepOrder := by
  induction depth with
  | zero =>
      exact {
        trigger := fun _ _ _ _ => Or.inl rfl
        enter := fun _ _ _ _ => Or.inl rfl
        activate := fun _ _ _ _ => Or.inl rfl
        completeRegion := fun _ _ _ => Or.inl rfl }
  | succ depth ih =>
      exact {
        trigger := keepingOrder_trigger ih
        enter := fun _ _ fit below => entersFrom_enterDefault ih fit below
        activate := fun _ _ fit below => entersFrom_activate ih fit below
        completeRegion := kept_completeRegion sound_keepingOrder ih.toKeptBy }

end Run
end Chart
