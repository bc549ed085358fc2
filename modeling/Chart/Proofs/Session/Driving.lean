import Chart.Proofs.Run.Driving
import Chart.Proofs.Session.Configuration

set_option autoImplicit false

/-!
Machines whose effects drive orthogonal siblings. Effects of the transitions in the regions of one
state, the base, may fire such transitions, nested to any depth and with errors caught or passed
on; nothing else fires anything. After every call the configuration is coherent: whatever a
suspended trigger had left open when it was interrupted is still as it left it.
-/

namespace Chart

namespace Machine

/-- The configuration is coherent. Either every state was entered that was to be, or no status has
changed. -/
def CoherentAfter (before after : Machine) : Prop :=
  after.Coherent ∧ (NoMissedEntry before after ∨ Still before after)

variable {base : StateId} {spot : Option RegionId} {before after : Machine}

private theorem KeepsWaiting.coherentAfter (keepsWaiting : KeepsWaiting base spot before after) :
    CoherentAfter before after :=
  ⟨keepsWaiting.coherent, Or.inl keepsWaiting.noMissedEntry⟩

private theorem Still.coherentAfter (still : Still before after) (coherent : before.Coherent) :
    CoherentAfter before after :=
  ⟨still.coherent coherent, Or.inr still⟩

end Machine

namespace Run

open Machine (KeepsWaiting Still CoherentAfter)

section Operations

variable {base : StateId} {depth : Nat} {machine : Machine}

private theorem Always.coherentAfter {Answer : Type} {spot : Option RegionId} {run : Run Answer}
    (always : Always (KeepsWaiting base spot) run machine) : Always CoherentAfter run machine :=
  always.mono (fun _ _ keepsWaiting => keepsWaiting.coherentAfter) fun _ _ keepsWaiting =>
    keepsWaiting.coherentAfter

variable (fitToDrive : machine.FitToDrive base) (coherent : machine.Coherent)
include fitToDrive coherent

private theorem coherentAfter_start : Always CoherentAfter (start depth) machine := by
  unfold Always start
  rw [ends_bind, ends_get]
  split
  · rw [ends_bind, ends_warn, ends_raise]
    exact (Still.note machine rfl).coherentAfter coherent
  · rename_i notActive
    have inactive : machine.isStateActive Machine.root = false := Bool.eq_false_iff.mpr notActive
    obtain ⟨node, found, _⟩ := Machine.kindOf?_eq_some.mp fitToDrive.rootKind
    exact ((callsKeepWaiting_calls base (depth + 1)).enter machine Machine.root fitToDrive coherent
      (Or.inl ⟨rfl, inactive⟩) (by rw [found]; rfl)).coherentAfter

private theorem coherentAfter_finish : Always CoherentAfter (finish depth) machine := by
  unfold Always finish
  rw [ends_bind, ends_get]
  split
  · rename_i isActive
    apply (ends_exit_keepsWaiting fitToDrive coherent isActive).mono
    · exact fun _ _ left => left.2.coherentAfter
    · exact fun _ _ keepsWaiting => keepsWaiting.coherentAfter
  · rw [ends_bind, ends_warn, ends_raise]
    exact (Still.note machine rfl).coherentAfter coherent

private theorem coherentAfter_completion {state : StateId} :
    Always CoherentAfter (completion depth state) machine := by
  unfold Always completion
  rw [ends_bind, ends_get]
  cases found : machine.state? state with
  | none =>
      rw [ends_fail]
      exact (Still.note machine rfl).coherentAfter coherent
  | some node =>
      dsimp only
      split
      · rename_i isActive
        exact (keepsWaiting_completeState (callsKeepWaiting_calls base depth) fitToDrive coherent
          (Machine.isStateActive_iff.mpr ⟨node, found, isActive⟩)).coherentAfter
      · rw [ends_bind, ends_warn, ends_raise]
        exact (Still.note machine rfl).coherentAfter coherent

/-- Which region the transition belongs to does not matter: the caller has suspended nothing. -/
theorem coherentAfter_triggerHandle {id : TransitionId} {memo : Value} :
    Always CoherentAfter (triggerHandle depth id memo) machine := by
  change Ends (trigger (calls depth) id memo) machine _ _
  cases resolved : machine.endpoints id with
  | error cause =>
      apply (ends_trigger_rejected resolved).mono
      · exact fun _ _ (impossible : False) => impossible.elim
      · exact fun _ _ still => still.coherentAfter coherent
  | ok ends =>
      obtain ⟨found, region, _, known, inRegion, _⟩ := Machine.endpoints_eq_ok resolved
      exact (driven_trigger (callsKeepWaiting_calls base depth) fitToDrive coherent known
        inRegion).keepsWaiting.coherentAfter

omit fitToDrive coherent in
private theorem still_frame (quietStates : machine.QuietStates True) (handle : FrameHandle)
    (now : Duration) :
    Always Still (frame depth handle now) machine := by
  cases found : machine.state? handle.state with
  | none =>
      unfold Always frame deliverFrame
      rw [ends_bind, ends_get, found, ends_fail]
      exact Still.note machine rfl
  | some node =>
      apply (ends_deliverFrame quietStates).mono
      · exact fun _ _ uneventful => uneventful.toStill
      · intro _ after failure
        rcases failure with ⟨still, _⟩ | ⟨_, _, _, absent, _⟩
        · exact still
        · rw [found] at absent
          cases absent

end Operations

end Run

/-- Calls that run the machine run one in which only effects from the regions of the base fire, and
only into these regions. -/
def driving (base : StateId) : Terms := fun before request _ _ =>
  request.runs = true → before.Drives base

namespace Request

open Machine (CoherentAfter)
open Run (Always)

private theorem coherentAfter_run {base : StateId} {request : Request} (runs : request.runs = true)
    {machine : Machine} (fitToDrive : machine.FitToDrive base) (coherent : machine.Coherent)
    (depth : Nat) : Always CoherentAfter (request.run depth) machine := by
  cases request with
  | construct _ | setData _ _ => cases runs
  | start => exact Run.coherentAfter_start fitToDrive coherent
  | finish => exact Run.coherentAfter_finish fitToDrive coherent
  | trigger transition memo =>
      exact (ends_discard _).mpr (Run.coherentAfter_triggerHandle fitToDrive coherent)
  | triggerNamed name memo =>
      unfold Always run
      rw [ends_discard]
      unfold Run.triggerNamed Run.Calls.triggerNamed
      rw [ends_bind, ends_get]
      cases machine.findTransition? name with
      | none =>
          rw [Run.ends_fail]
          exact (Machine.Still.note machine rfl).coherentAfter coherent
      | some transition => exact Run.coherentAfter_triggerHandle fitToDrive coherent
  | completion state => exact Run.coherentAfter_completion fitToDrive coherent
  | frame handle now =>
      apply (Run.still_frame fitToDrive.drives.behaviors handle now).mono
      · exact fun _ _ still => still.coherentAfter coherent
      · exact fun _ _ still => still.coherentAfter coherent
  | advance now =>
      apply (ends_discard _).mpr
      apply (Run.ends_advance fitToDrive.drives.behaviors fitToDrive.linked).mono
      · exact fun _ _ uneventful => uneventful.toStill.coherentAfter coherent
      · exact fun _ _ failure => failure.1.coherentAfter coherent

theorem Returns.coherentAfter_of_fitToDrive {base : StateId} {request : Request}
    {before after : Machine}
    {answer : Except MachineError Unit} (returns : request.Returns before answer after)
    (runs : request.runs = true) (fitToDrive : before.FitToDrive base)
    (coherent : before.Coherent) :
    CoherentAfter before after := by
  rcases returns.ends
    (coherentAfter_run runs fitToDrive coherent) with ⟨_, coherentAfter⟩ | ⟨_, _, coherentAfter⟩
  · exact coherentAfter
  · exact coherentAfter

private theorem Returns.coherent_of_driving {base : StateId} {request : Request}
    {before after : Machine}
    {answer : Except MachineError Unit} (returns : request.Returns before answer after)
    (formed : before.Formed) (linked : before.Linked)
    (drives : driving base before request answer after) (coherent : before.Coherent) :
    after.Coherent := by
  cases runs : request.runs with
  | false =>
      rcases returns.prepares formed runs with becomes | still
      · exact coherent.of_grown becomes.grown becomes.formed.toWired
      · exact still.coherent coherent
  | true =>
      have fitToDrive : before.FitToDrive base :=
        { toFormed := formed, linked := linked, drives := drives runs }
      exact (returns.coherentAfter_of_fitToDrive runs fitToDrive coherent).1

end Request

namespace Machine

/-- However the effects in the regions of one state drive their siblings, after every call the
active regions have active owners, the active states below the root have active regions around
them, and no region has two active children. -/
theorem Reached.driven_configuration {base : StateId} {machine : Machine}
    (reached : machine.Reached (driving base)) :
    (∀ region, machine.isRegionActive region = true →
      ∃ owner, machine.ownerOf? region = some owner ∧ machine.isStateActive owner = true) ∧
    (∀ state, machine.isStateActive state = true → state ≠ root →
      ∃ region, machine.containerOf? state = some region ∧
        machine.isRegionActive region = true) ∧
    ∀ region, ((machine.statesOf region).filter machine.isStateActive).length ≤ 1 := by
  have coherent : machine.Coherent := by
    obtain ⟨name, names, session⟩ := reached
    exact @Session.keeps_under _ _ _ session (formed_new name names) (linked_new name names)
      (fun _ => True) (fun _ _ _ _ known => known) trivial Machine.Coherent
      (coherent_new name names)
      fun _ _ _ _ formed linked _ returns drives kept =>
        returns.coherent_of_driving formed linked drives kept
  exact ⟨coherent.owned, coherent.contained, coherent.activeChildren reached.formed.toWired⟩

end Machine

/-! ### Checking that a chart drives -/

private theorem Session.driving {terms : Terms} {base : StateId} {before after : Machine}
    (session : Session terms before after) (drives : before.Drives base)
    (runs : ∀ first request answer last, terms first request answer last → request.runs = true) :
    Session (driving base) before after ∧ after.Drives base := by
  induction session with
  | refl => exact ⟨Relation.ReflTransGen.refl, drives⟩
  | tail _ serves ih =>
      obtain ⟨session, drivesNow⟩ := ih
      obtain ⟨request, answer, returns, meets⟩ := serves
      have changes := returns.changes (runs _ _ _ _ meets)
      exact ⟨session.tail ⟨request, answer, returns, fun _ => drivesNow⟩,
        drivesNow.of_sameChart changes.sameChart⟩

/-- The effect of the transition the request creates, if it has one. -/
def Request.effect? : Request → Option Effect
  | .construct (.createTransition definition) => definition.effect
  | _ => none

/-- The effects in a machine that has been put together come from the definitions it was given. -/
theorem Session.effects {requests : List Request} {before after : Machine}
    (session : Session (played requests) before after) (formed : before.Formed)
    (bare : ∀ id found, before.transition? id = some found → found.effect = none) :
    ∀ id found effect, after.transition? id = some found → found.effect = some effect →
      effect ∈ requests.filterMap Request.effect? := by
  induction session with
  | refl =>
      intro id found effect present isEffect
      rw [bare id found present] at isEffect
      cases isEffect
  | tail earlier serves ih =>
      obtain ⟨request, answer, returns, listed, _⟩ := serves
      intro id found effect present isEffect
      rcases returns.evolves (Session.formed earlier formed) with becomes | changes
      · obtain ⟨known, origin, lasting⟩ := becomes.origins id found present
        have sameEffect : found.lasting.effect = known.lasting.effect :=
          congrArg Transition.effect lasting
        have isEffect : known.effect = some effect := sameEffect.symm.trans isEffect
        rcases origin with before | created
        · exact ih id known effect before isEffect
        · cases request with
          | construct construction =>
              cases construction with
              | createTransition definition =>
                  obtain ⟨name, rfl⟩ := created
                  exact List.mem_filterMap.mpr ⟨_, listed, isEffect⟩
              | _ => exact created.elim
          | _ => exact created.elim
      · rcases changes.sameChart.chosen id found present with before | ⟨_, _, _, _, made⟩
        · exact ih id found effect before isEffect
        · rw [made] at isEffect
          cases isEffect

namespace Machine

private theorem fires_firing {permitted : TransitionReference → Prop} {name : String}
    (allowed : permitted (.name name)) (memo : Value) : (firing name memo).Fires permitted := by
  refine .fire allowed .null fun answer => ?_
  cases answer with
  | ok outcome => exact .done
  | error error => exact .fail error

/-- No state runs anything or completes by itself, and effects are found only in the regions of the
base. -/
def isDriving (machine : Machine) (base : StateId) : Bool :=
  machine.states.toList.all (fun node =>
      node.entry.isNone && node.exit.isNone && node.activity.isNone &&
        !node.config.autoTransition) &&
    machine.transitions.toList.all fun transition => transition.effect.isNone ||
      transition.container.all fun region => machine.ownerOf? region == some base

private theorem drives_of_isDriving {machine : Machine} {base : StateId}
    (checked : machine.isDriving base = true)
    (fires : ∀ id found effect memo, machine.transition? id = some found →
      found.effect = some effect → (effect memo).Fires (machine.Reaches base)) :
    machine.Drives base := by
  obtain ⟨states, transitions⟩ := (Bool.and_eq_true _ _).mp checked
  have known {state : StateId} {node : StateNode} (found : machine.state? state = some node) :=
    List.all_eq_true.mp states node (Array.mem_toList_iff.mpr (Array.mem_of_getElem? found))
  simp only [Bool.and_eq_true, Bool.not_eq_true', Option.isNone_iff_eq_none] at known
  refine { behaviors := ?_, effects := ?_, leaves := ?_ }
  · intro state node behavior found runs
    obtain ⟨⟨⟨noEntry, noExit⟩, noActivity⟩, _⟩ := known found
    rcases runs with entry | exit | activity
    · rw [noEntry] at entry
      cases entry
    · rw [noExit] at exit
      cases exit
    · rw [noActivity] at activity
      cases activity
  · intro id found region effect memo present inRegion isEffect
    have placed := List.all_eq_true.mp transitions found
      (Array.mem_toList_iff.mpr (Array.mem_of_getElem? present))
    rw [isEffect, inRegion] at placed
    have owned : machine.ownerOf? region = some base := by simpa using placed
    exact (fires id found effect memo present isEffect).mono fun _ reaches => ⟨owned, reaches⟩
  · intro state node found automatic
    rw [(known found).2] at automatic
    cases automatic

/-- A state with two regions; the effect of the transition in the one fires that in the other. -/
def duetRequests : List Request :=
  [.construct (.createState (.plain "duet")), .construct (.addState ⟨3⟩),
    .construct (.appendRegion ⟨3⟩), .construct (.appendRegion ⟨3⟩),
    .construct (.createState (.plain "first")), .construct (.regionAddState ⟨1⟩ ⟨8⟩),
    .construct (.createState (.plain "second")), .construct (.regionAddState ⟨1⟩ ⟨9⟩),
    .construct (.createState (.plain "low")), .construct (.regionAddState ⟨2⟩ ⟨10⟩),
    .construct (.createState (.plain "high")), .construct (.regionAddState ⟨2⟩ ⟨11⟩),
    .construct (.createTransition (.initial "duet")), .construct (.addTransition ⟨0⟩),
    .construct (.createTransition (.initial "first")),
    .construct (.regionAddTransition ⟨1⟩ ⟨1⟩),
    .construct (.createTransition (.initial "low")),
    .construct (.regionAddTransition ⟨2⟩ ⟨2⟩),
    .construct (.createTransition
      { TransitionDefinition.simple "lead" "first" "second" with
          effect := some (firing "follow") }),
    .construct (.regionAddTransition ⟨1⟩ ⟨3⟩),
    .construct (.createTransition (.simple "follow" "low" "high")),
    .construct (.regionAddTransition ⟨2⟩ ⟨4⟩)]

def duet : Machine :=
  Request.outcome 8 duetRequests (Machine.new "duet" (.ofStem "auto"))

def duetPlayed : Machine :=
  Request.outcome 8 [.start, .triggerNamed "lead" .null] duet

private theorem duet_plays :
    (Request.play 8 duetRequests (Machine.new "duet" (.ofStem "auto"))).isSome = true ∧
      (Request.play 8 [.start, .triggerNamed "lead" .null] duet).isSome = true ∧
      duet.isDriving ⟨3⟩ = true ∧ duet.findTransition? "follow" = some ⟨4⟩ ∧
      (duet.transition? ⟨4⟩).bind Transition.container = some ⟨2⟩ ∧
      duet.ownerOf? ⟨2⟩ = some ⟨3⟩ ∧
      duetPlayed.isStateActive ⟨9⟩ = true ∧ duetPlayed.isStateActive ⟨11⟩ = true := by
  decide +kernel

/-- The transition of the one region has been taken, and the other one with it. -/
theorem duet_configuration :
    duetPlayed.Reached (driving ⟨3⟩) ∧ duetPlayed.isStateActive ⟨9⟩ = true ∧
      duetPlayed.isStateActive ⟨11⟩ = true ∧
      ∀ region, ((duetPlayed.statesOf region).filter duetPlayed.isStateActive).length ≤ 1 := by
  obtain ⟨builds, plays, checked, resolved, placed, owned, second, high⟩ := duet_plays
  have built := session_outcome builds
  have reaches : duet.Reaches ⟨3⟩ (.name "follow") := by
    intro id found
    rw [resolved] at found
    obtain rfl := Option.some.inj found
    obtain ⟨transition, known, inRegion⟩ := Option.bind_eq_some_iff.mp placed
    exact ⟨transition, ⟨2⟩, known, inRegion, owned⟩
  have drives : duet.Drives ⟨3⟩ := by
    refine drives_of_isDriving checked fun id found effect memo present isEffect => ?_
    have listed : effect ∈ duetRequests.filterMap Request.effect? :=
      built.effects (formed_new _ _) (fun _ _ impossible => by cases impossible) id found effect
        present isEffect
    obtain rfl : effect = firing "follow" := List.mem_singleton.mp listed
    exact fires_firing reaches memo
  have reached : duetPlayed.Reached (driving ⟨3⟩) := by
    have building : ∀ request ∈ duetRequests, request.runs = false := by
      simp [duetRequests, Request.runs]
    have running : ∀ request ∈ [Request.start, .triggerNamed "lead" .null],
        request.runs = true := by
      simp [Request.runs]
    refine ⟨"duet", .ofStem "auto", (built.weaken fun _ request _ _ call runs => ?_).trans
      (Session.driving (session_outcome plays) drives fun _ request _ _ call =>
        running request call.1).1⟩
    rw [building request call.1] at runs
    cases runs
  exact ⟨reached, second, high, (Reached.driven_configuration reached).2.2⟩

end Machine

end Chart
