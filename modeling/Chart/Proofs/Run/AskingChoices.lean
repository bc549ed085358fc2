import Chart.Proofs.Run.Consulting
import Chart.Proofs.Run.Disciplined

set_option autoImplicit false

/-!
Every operation asks the choices it enters, whatever the callbacks do. This is a discipline of which
only the entry of a choice has to be looked at: a call to trigger a transition begins with the
request for it, which is what ties a choice's answer to the transition on file. The operations at
all depths follow by induction on the depth.
-/

namespace Chart.Run

open Discipline hiding Sound
open Machine (Consulted ChoicesKept Filing Told SameChart)

private theorem consults_of_isRoutine {event : Event} (routine : event.isRoutine = true)
    (machine : Machine) : event.consults machine = false := by
  cases event with
  | notice notice => cases notice <;> first | rfl | cases routine
  | _ => first | rfl | cases routine

/-- The choices are asked, when a run finishes and when it ends with an error. -/
def asking : Discipline := .throughout (fun _ => True) Machine.Decided Consulted

structure Calls.Asking (calls : Calls) : Prop where
  /-- The request is the first that is told. -/
  trigger : ∀ (machine : Machine) id memo, machine.Decided →
    Ends (calls.trigger id memo) machine
      (fun _ after => Consulted (machine.note (.requested id)) after)
      fun halt after => halt = .exhausted ∨ Consulted (machine.note (.requested id)) after
  enter : ∀ state, asking.Kept (calls.enter state)
  activate : ∀ state, asking.Kept (calls.activate state)
  completeRegion : ∀ region, asking.Kept (calls.completeRegion region)

/-! ### What is allowed -/

private theorem lawful_asking : asking.Lawful :=
  lawful_throughout (fun consulted => consulted.same)
    (fun decided consulted => decided.of_sameChart consulted.same)
    (fun _ => Consulted.refl _) (fun first second => first.trans second)
    (fun _ routine => (ChoicesKept.note _ (consults_of_isRoutine routine _)).consulted)
    fun _ _ => (ChoicesKept.note _ rfl).consulted

theorem refuses_asking : asking.Refuses :=
  refuses_throughout fun _ => Consulted.refl _

private theorem lenient_asking : asking.Lenient := by
  apply lenient_throughout
  · exact fun _ => Consulted.refl _
  · intro machine key value _
    have written : ChoicesKept machine (machine.set key value).2 :=
      ChoicesKept.modifyState machine machine.frames Machine.root _ (fun _ => rfl) fun _ => rfl
    exact written.consulted

theorem sound_asking : asking.Sound where
  toLawful := lawful_asking
  behaviors := fun _ _ _ => trivial
  behave := fun kept state behavior _ =>
    kept_behave lawful_asking lenient_asking kept.trigger state behavior
  left := by
    intro machine state node decided _ _
    have leaves := (ChoicesKept.left machine state node).consulted
    exact leaves.trans (finished_starting lawful_asking (decided.of_sameChart leaves.same)
      (ChoicesKept.note _ rfl).consulted node.closing)
  closed := fun _ _ _ => (ChoicesKept.closed _ _ _).consulted
  joined := fun _ _ => (ChoicesKept.note _ rfl).consulted
  opened := fun _ _ _ _ => (ChoicesKept.opened _ _ _).consulted
  started := fun _ _ => (ChoicesKept.note _ rfl).consulted
  timed := by
    intro machine state node _ _ _ _ _
    have armed : ChoicesKept machine (machine.timerArmed state) :=
      ChoicesKept.modifyState machine _ state _ (fun _ => rfl) fun _ => rfl
    exact armed.consulted.trans (ChoicesKept.note _ rfl).consulted

private theorem fires_asking : asking.Fires where
  effects := fun _ _ _ _ => trivial
  requested := fun _ _ => (ChoicesKept.note _ rfl).consulted
  recorded := fun id firing _ => (ChoicesKept.recorded _ id firing).consulted
  settled := fun _ _ _ => (ChoicesKept.note _ rfl).consulted

theorem ticks_asking : asking.Ticks where
  started := fun _ _ => (ChoicesKept.note _ rfl).consulted
  folded := by
    intro machine handle node now _ _ _ _
    have noted : Consulted machine (machine.note (.delivered handle)) :=
      (ChoicesKept.note machine rfl).consulted
    have folds : ChoicesKept (machine.note (.delivered handle))
      (machine.frameFolded handle node now) :=
      ChoicesKept.modifyState (machine.note (.delivered handle)) machine.frames handle.state _
        (fun _ => rfl) fun _ => rfl
    exact noted.trans folds.consulted
  requested := by
    intro machine state node _ _ _
    have requested : ChoicesKept machine (machine.frameRequested state) :=
      ChoicesKept.modifyState machine _ state _ (fun _ => rfl) fun _ => rfl
    exact requested.consulted
  reset := by
    intro machine state node name _ _ _
    have reset : ChoicesKept machine (machine.timerReset state) :=
      ChoicesKept.modifyState machine machine.frames state _ (fun _ => rfl) fun _ => rfl
    exact reset.consulted.trans (ChoicesKept.note _ rfl).consulted
  cancelled := fun _ _ => (ChoicesKept.queued _ _).consulted

section Operations

variable {calls : Calls} (asks : calls.Asking)
include asks

theorem Calls.Asking.keptAnywhere : asking.KeptAnywhere calls where
  trigger := by
    intro id memo machine decided
    have requested := fires_asking.requested id decided
    apply Ends.mono (asks.trigger machine id memo decided)
    · exact fun _ _ later => requested.trans later
    · exact fun _ _ failure => failure.imp_right requested.trans
  completeRegion := asks.completeRegion
  enter := asks.enter
  activate := asks.activate

section Choices

variable {machine : Machine} {choice : StateId} {node : StateNode} {decision : Decision}
  (found : machine.state? choice = some node) (isChoice : node.kind = .choice)
  (decides : node.decision = some decision)
include found isChoice decides

omit asks in
/-- The transition for an answer is on file when it has been looked up, and the answer means a state
unless it was on file before. -/
theorem ends_choiceTransition_filed {seen : Machine} {target : String} {region : RegionId}
    (answer : (decision (seen.view choice)).answer = some target)
    (contained : node.container = some region) :
    Ends (choiceTransition choice node region target)
      (machine.asked choice node (decision (seen.view choice)))
      (fun id after => Filing machine after ∧ after.filed? choice target = some id ∧
        Told machine after (.notice (.entered choice node.name) ::
          .decided choice (some target) :: (decision (seen.view choice)).notes.map .note))
      fun _ after => Consulted machine after := by
  set verdict := decision (seen.view choice) with isVerdict
  have told : Told machine (machine.asked choice node verdict) _ := Machine.told_asked verdict
  rw [answer] at told
  have onFile := Machine.filed?_asked found verdict target
  have present := Machine.state?_asked found verdict
  have filing : Filing machine (machine.asked choice node verdict) := Machine.filing_asked verdict
  unfold choiceTransition
  split
  · rename_i id known
    exact ⟨filing, onFile.trans known, told⟩
  · rename_i fresh
    rw [ends_bind, ends_get]
    split
    · rename_i unresolved
      have nowhere : machine.resolveState? region target = none := by
        rw [← filing.same.resolveState?]
        simpa using unresolved
      have consulted := Machine.consulted_unanswered found isChoice seen decides
        fun other within isAnswer inRegion => by
          rw [answer] at isAnswer
          rw [contained] at inRegion
          rw [← Option.some.inj isAnswer, ← Option.some.inj inRegion]
          exact nowhere
      exact consulted.trans (ChoicesKept.note _ rfl).consulted
    · have files : Filing _
          ((machine.asked choice node verdict).transitionChosen choice node.name target region).2 :=
        Filing.transitionChosen present isChoice node.name (onFile.trans fresh)
      refine ⟨filing.trans files, ?_, told⟩
      exact (Machine.filed?_transitionChosen present node.name choice target).trans
        (if_pos ⟨rfl, rfl⟩)

omit decides in
private theorem ends_followChoice_consulted (decided : machine.Decided) :
    Ends (followChoice calls choice node) (machine.entered choice node.name)
      (fun _ after => Consulted machine after)
      fun halt after => halt = .exhausted ∨ Consulted machine after := by
  obtain ⟨decision, decides⟩ := Option.isSome_iff_exists.mp (decided choice node found isChoice)
  unfold followChoice
  rw [decides]
  dsimp only
  rw [ends_bind, ends_get, ends_bind, ends_note, ends_bind, ends_noteAll]
  set seen := machine.entered choice node.name
  change Ends _ (machine.asked choice node (decision (seen.view choice))) _ _
  have unanswered := Machine.consulted_unanswered found isChoice seen decides
  cases answer : (decision (seen.view choice)).answer with
  | none =>
      have consulted := unanswered fun target _ isAnswer => by
        rw [answer] at isAnswer
        cases isAnswer
      exact (kept_fail lawful_asking _ _ (decided.of_sameChart consulted.same)).after lawful_asking
        consulted
  | some target =>
      cases contained : node.container with
      | none =>
          exact unanswered fun _ region _ inRegion => by
            rw [contained] at inRegion
            cases inRegion
      | some region =>
          dsimp only
          rw [ends_bind]
          apply Ends.mono (ends_choiceTransition_filed found isChoice decides answer contained)
          · rintro id after ⟨filing, filed, told⟩
            have consulted := Machine.consulted_answered found isChoice decides answer filing told
              filed
            rw [ends_discard]
            apply Ends.mono (asks.trigger after id .null (decided.of_sameChart filing.same))
            · exact fun _ _ later => consulted.trans later
            · exact fun _ _ failure => failure.imp_right consulted.trans
          · exact fun _ _ consulted => Or.inr consulted

end Choices

private theorem asking_activate (state : StateId) : asking.Kept (activate calls state) := by
  intro machine decided
  apply keptFrom_activate sound_asking.toLawful decided
  intro node found inactive
  have same := Machine.sameChart_entered machine state node.name
  have decidedNow := decided.of_sameChart same
  have after (notChoice : node.kind ≠ .choice) {run : Run Unit}
      (keptRun : asking.KeptFrom run (machine.entered state node.name)) :
      Ends run (machine.entered state node.name) (fun _ after => asking.finished machine after)
        fun halt after => asking.halted halt machine after := by
    apply keptRun.after lawful_asking
    apply (ChoicesKept.entered machine state node.name _).consulted
    rw [Machine.kindOf?, found]
    simpa using notChoice
  apply ends_activate_kept sound_asking asks.keptAnywhere.toKeptBy found inactive decidedNow
  · exact fun _ notChoice _ keptRun => after notChoice keptRun
  · intro normal
    apply after (by rw [normal]; simp)
    apply keptFrom_enterNormal sound_asking asks.keptAnywhere.toKeptBy decidedNow found same normal
      fun _ _ => trivial
    exact finished_starting lawful_asking decidedNow (ChoicesKept.note _ rfl).consulted node.entry
  · intro depth region history _
    apply after (by rw [history]; simp)
    exact kept_resumeHistory_anywhere sound_asking asks.keptAnywhere state region _ decidedNow
  · exact fun choice => ends_followChoice_consulted asks found choice decided

private theorem ends_trigger_consulted (id : TransitionId) (memo : Value) {machine : Machine}
    (decided : machine.Decided) :
    Ends (trigger calls id memo) machine
      (fun _ after => Consulted (machine.note (.requested id)) after)
      fun halt after => halt = .exhausted ∨ Consulted (machine.note (.requested id)) after := by
  have decidedNow := decided.of_sameChart (Machine.sameChart_note machine (.requested id))
  apply ends_trigger_kept sound_asking asks.keptAnywhere.toKeptBy fires_asking decidedNow
  exact fun _ fit _ _ => kept_enterTarget sound_asking (asking_activate asks) _ _ fit

end Operations

theorem calls_asking (depth : Nat) : (calls depth).Asking := by
  induction depth with
  | zero =>
      exact {
        trigger := fun _ _ _ _ => Or.inl rfl
        enter := fun _ _ _ => Or.inl rfl
        activate := fun _ _ _ => Or.inl rfl
        completeRegion := fun _ _ _ => Or.inl rfl }
  | succ depth ih =>
      exact {
        trigger := fun _ id memo decided => ends_trigger_consulted ih id memo decided
        enter := kept_enterDefault sound_asking (asking_activate ih)
        activate := asking_activate ih
        completeRegion := kept_completeRegion sound_asking ih.keptAnywhere.toKeptBy }

end Chart.Run
