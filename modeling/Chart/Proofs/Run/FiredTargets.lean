import Chart.Proofs.Run.Attaining
import Chart.Proofs.Run.Triggering

set_option autoImplicit false

/-!
The target of a transition that has fired. When the target stays, it is active afterwards with all
that is around it, and nothing outside the region of the transition was touched.
-/

namespace Chart.Run

open Machine (Orderly TouchesOnly Emptied Concludes Attained Confined Silent Path)

variable {mayFail : Prop} {calls : Calls}

private theorem getLast?_inactiveChain {machine : Machine} {depth : Nat} {state : StateId}
    {rest : List StateId} :
    (machine.inactiveChain depth state (state :: rest)).getLast? = (state :: rest).getLast? := by
  induction depth generalizing state rest with
  | zero => rfl
  | succ depth ih =>
      unfold Machine.inactiveChain
      split
      · rfl
      · split
        · rfl
        · rw [ih, List.getLast?_cons_cons]

section Entry

variable (activating : Activating mayFail Concludes calls)
variable {machine : Machine} {region : RegionId} {target : StateId}
variable (orderly : machine.Orderly mayFail) (coherent : machine.Coherent)
variable (idle : machine.Idle region) (stays : Stays machine target)
variable (bare : machine.regionsOf target = [])
include activating orderly coherent idle stays bare

private theorem ends_enterExplicit_attained (inside : machine.Inside region target) :
    Ends (enterExplicit calls target) machine
      (fun _ after => Attained region target machine after) (Aborted mayFail) := by
  obtain ⟨chain, isChain, plan, path, inactive⟩ :=
    Machine.exists_path_of_inside orderly.toWired coherent idle inside
  have last := @getLast?_inactiveChain machine machine.nestingBound target []
  rw [← isChain] at last
  unfold enterExplicit
  rw [ends_bind, ends_get, plan]
  exact attains_chain activating orderly.toFormed path last stays bare inactive machine
    (Machine.SameChart.refl machine) orderly coherent idle

private theorem ends_enterDefault_attained (contained : machine.containerOf? target = some region) :
    Ends (enterDefault calls target) machine
      (fun _ after => Attained region target machine after) (Aborted mayFail) := by
  unfold enterDefault
  rw [ends_bind, ends_get]
  refine attains_chain activating orderly.toFormed (Path.one contained) rfl stays bare
    (fun state member other listed => ?_) machine (Machine.SameChart.refl machine) orderly coherent
    idle
  rw [List.mem_singleton.mp member, bare] at listed
  cases listed

end Entry

private theorem attained_after_touches {machine middle after : Machine} {state target : StateId}
    {region : RegionId} (touches : TouchesOnly state machine middle)
    (contained : machine.containerOf? state = some region)
    (attained : Attained region target middle after) : Attained region target machine after where
  active := attained.active
  confined := (Confined.of_touches touches (.member contained)).trans attained.confined
    touches.sameChart
  silent := (Silent.of_touches touches).trans attained.silent
  passed := by
    obtain ⟨events, told, _⟩ := touches.told
    exact fun nested onWay =>
      (attained.passed nested (touches.sameChart.onWay.mpr onWay)).earlier touches.sameChart told

private theorem attained_after_emptied {machine middle after : Machine} {source target : StateId}
    {region : RegionId} (wired : machine.Wired)
    (emptied : Emptied (machine.Below source) (machine.Beneath source) machine middle)
    (contained : machine.containerOf? source = some region)
    (attained : Attained region target middle after) : Attained region target machine after := by
  have same := emptied.changes.sameChart
  obtain ⟨events, told, _, shuts⟩ := emptied.told
  have confined : Confined region machine middle :=
    Confined.of_emptied emptied (fun _ below => Machine.Inside.of_below contained below)
      fun _ beneath => Machine.Within.of_beneath contained beneath
  have outside : ¬machine.Beneath source region := by
    rintro ⟨owner, owned, below⟩
    exact wired.not_inside_own_region owned (Machine.Inside.of_below contained below)
  exact
    { active := attained.active
      confined := confined.trans attained.confined same
      silent := by
        refine Silent.trans ⟨events, told, fun event member => ?_⟩ attained.silent
        by_contra sets
        exact outside (shuts event member region sets).1
      passed := fun nested onWay =>
        (attained.passed nested (same.onWay.mpr onWay)).earlier same told }

private theorem Cleared.attained {source target : StateId} {region : RegionId}
    {machine told empty ready after : Machine} (orderly : machine.Orderly mayFail)
    (cleared : Cleared mayFail source region machine told empty ready)
    (contained : machine.containerOf? source = some region)
    (attained : Attained region target ready after) : Attained region target machine after := by
  have containedTold := (cleared.tells.sameChart.containerOf? source).trans contained
  have containedEmpty := (cleared.emptied.changes.sameChart.containerOf? source).trans containedTold
  have orderlyTold := orderly.of_changes cleared.tells.changes
  refine attained_after_touches cleared.tells contained ?_
  refine attained_after_emptied orderlyTold.toWired cleared.emptied containedTold ?_
  exact attained_after_touches cleared.effects containedEmpty attained

private theorem ends_fireExternal_attained (activating : Activating mayFail Concludes calls)
    {machine : Machine} {id : TransitionId} {found : Transition} {ends : Machine.Endpoints}
    {region : RegionId} {sourceName targetName : String} {memo : Value}
    (orderly : machine.Orderly mayFail) (coherent : machine.Coherent)
    (sourceActive : machine.isStateActive ends.source = true)
    (contained : machine.containerOf? ends.source = some region)
    (inside : machine.Inside region ends.target) (stays : Stays machine ends.target)
    (bare : machine.regionsOf ends.target = [])
    (quiet : ∀ effect, found.effect = some effect → (effect memo).Quiet mayFail) :
    Ends (fireExternal calls id found ends sourceName targetName memo) machine
      (fun _ after => Attained region ends.target machine after) (Aborted mayFail) := by
  refine ends_fireExternal_cleared orderly coherent sourceActive contained quiet
    (fun told empty ready cleared _ => ?_) fun told empty ready cleared notDeeper => ?_
  · exact (ends_enterExplicit_attained activating cleared.orderly cleared.coherent cleared.idle
      (stays.of_sameChart cleared.sameChart) ((cleared.sameChart.regionsOf _).trans bare)
      (cleared.sameChart.inside.mpr inside)).mono
      (fun _ _ attained => cleared.attained orderly contained attained) fun _ _ failure => failure
  · have containedTarget := contained_of_not_deeper cleared.orderly.toWired
      ((cleared.sameChart.containerOf? _).trans contained) (cleared.sameChart.inside.mpr inside)
      notDeeper
    exact (ends_enterDefault_attained activating cleared.orderly cleared.coherent cleared.idle
      (stays.of_sameChart cleared.sameChart) ((cleared.sameChart.regionsOf _).trans bare)
      containedTarget).mono
      (fun _ _ attained => cleared.attained orderly contained attained) fun _ _ failure => failure

private theorem ends_trivial {Answer : Type} (run : Run Answer) (machine : Machine) :
    Ends run machine (fun _ _ => True) (fun _ _ => True) :=
  ends_intro (fun _ _ _ => trivial) fun _ _ _ => trivial

private theorem ends_trigger_fires {machine : Machine} {id : TransitionId} {memo : Value} :
    Ends (trigger calls id memo) machine
      (fun outcome after => outcome = .fired → ∃ found ends guarded fired,
        machine.transition? id = some found ∧ machine.endpoints id = .ok ends ∧
        machine.isStateActive ends.source = true ∧ TouchesOnly ends.source machine guarded ∧
        fireExternal calls id found ends (machine.stateName ends.source)
          (machine.stateName ends.target) memo guarded = .ok .fired fired ∧
        after = fired.note (.settled id .fired)) (fun _ _ => True) := by
  unfold trigger
  rw [ends_bind, ends_note, ends_bind, ends_get, Machine.transition?_note, Machine.endpoints_note]
  split
  · rename_i found ends known resolved
    rw [ends_bind]
    unfold fireResolved
    rw [ends_bind, ends_get]
    dsimp only
    split
    · rw [ends_bind, ends_report]
      exact fun impossible => by cases impossible
    · rename_i sourceActive
      rw [ends_bind]
      refine Ends.mono ends_guardAccepts (fun accepted guarded touches => ?_)
        fun _ _ (impossible : False) => impossible.elim
      split
      · rw [ends_bind, ends_report]
        exact fun impossible => by cases impossible
      · split
        · unfold fireInternal
          rw [ends_bind, ends_report, ends_bind]
          refine (ends_trivial _ _).mono (fun _ _ _ => ?_) fun _ _ _ => trivial
          rw [ends_bind]
          exact fun impossible => by cases impossible
        · refine ends_intro (fun outcome fired result => ?_) fun _ _ _ => trivial
          rw [ends_bind, ends_note]
          rintro rfl
          refine ⟨found, ends, guarded, fired, known, resolved, by simpa using sourceActive,
            (TouchesOnly.note ends.source machine rfl).trans touches.1, result, rfl⟩
  · exact trivial
  · exact trivial

theorem attained_of_fired {machine after : Machine} {id : TransitionId} {memo : Value}
    {ends : Machine.Endpoints} {found : Transition} {region : RegionId} {depth : Nat}
    (orderly : machine.Orderly mayFail) (coherent : machine.Coherent)
    (known : machine.transition? id = some found) (inRegion : found.container = some region)
    (resolved : machine.endpoints id = .ok ends) (stays : Stays machine ends.target)
    (bare : machine.regionsOf ends.target = [])
    (fires : trigger (Run.calls depth) id memo machine = .ok .fired after) :
    Attained region ends.target machine after := by
  obtain ⟨found', ends', guarded, fired, known', resolved', sourceActive, touches,
    result, isAfter⟩ :=
    ends_of_finished ends_trigger_fires fires rfl
  rw [known] at known'
  obtain rfl := Option.some.inj known'
  rw [resolved] at resolved'
  obtain rfl := Except.ok.inj resolved'
  obtain ⟨_, contained, inside⟩ := Machine.endpoints_spec orderly.toFormed known inRegion resolved
  have same := touches.sameChart
  have activating : Activating mayFail Concludes (Run.calls depth) :=
    activating (respects_concludes mayFail) (steady_calls (respects_concludes mayFail) depth)
      ⟨depth, rfl⟩
  have attained := ends_of_finished (ends_fireExternal_attained activating
    (orderly.of_changes touches.changes) (touches.coherent coherent)
    (by rw [touches.toStill.states]; exact sourceActive) ((same.containerOf? _).trans contained)
    (same.inside.mpr inside) (stays.of_sameChart same) ((same.regionsOf _).trans bare)
    fun effect isEffect => orderly.calm.effects id found effect memo known isEffect) result
  rw [isAfter]
  have told := Machine.told_note fired (.settled id .fired)
  have whole := attained_after_touches touches contained attained
  exact
    { active := whole.active
      confined := ⟨whole.confined.states, whole.confined.regions, by
        obtain ⟨events, earlier, within⟩ := whole.confined.told
        refine ⟨_, earlier.trans told, fun event member other sets => ?_⟩
        rcases List.mem_append.mp member with early | last
        · exact within event early other sets
        · rw [List.mem_singleton.mp last] at sets
          exact absurd rfl sets⟩
      silent := whole.silent.trans ⟨_, told, by simp [Event.setsRegion]⟩
      passed := fun nested onWay => (whole.passed nested onWay).later told fun active => active }

end Chart.Run
