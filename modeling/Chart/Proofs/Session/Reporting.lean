import Chart.Proofs.Session.Driving

set_option autoImplicit false

/-!
Mistakes in the chart are reported once. The report is made where the mistake is found, and the
error passes through everything above without another one, also through callbacks that fire a
transition and fail with what it failed with. So an observer hears of a mistake during a call
exactly when the call ends with it, provided that no callback catches an error or makes one up.
-/

namespace Chart

/-- The callback fails with an error of its own, or at once with what one of its requests failed
with; it never goes on after a failed request. -/
inductive Behavior.Forthright : Behavior → Prop
  | done : Forthright .done
  | fail (message : String) : Forthright (.fail (.action message))
  | note (text : String) {next : Behavior} (rest : Forthright next) : Forthright (.note text next)
  | look {next : View → Behavior} (rest : ∀ view, Forthright (next view)) : Forthright (.look next)
  | write (key : String) (value : Value) {next : Option Value → Behavior}
      (rest : ∀ old, Forthright (next old)) : Forthright (.write key value next)
  | fire (reference : TransitionReference) (memo : Value)
      {next : Except MachineError Outcome → Behavior}
      (passes : ∀ error, next (.error error) = .fail error)
      (rest : ∀ outcome, Forthright (next (.ok outcome))) : Forthright (.fire reference memo next)

private theorem forthright_firing (name : String) (memo : Value) : (firing name memo).Forthright :=
  .fire (.name name) .null (fun _ => rfl) fun _ => .done

/-! ### What an observer hears -/

namespace Event

def diagnostic? : Event → Option Diagnostic
  | .notice reported => some reported.diagnostic
  | _ => none

private theorem mistake?_of_unmarked {event : Event} (unmarked : event.isMilestone = false) :
    event.mistake? = none := by
  cases event with
  | notice notice => cases notice <;> first | rfl | cases unmarked
  | _ => rfl

end Event

/-- The log of an observer that listened to these events only. -/
def heard (events : List Event) : DiagnosticLog :=
  (events.filterMap Event.diagnostic?).foldl DiagnosticLog.observe .empty

def ConfigurationError.diagnostic (error : ConfigurationError) : Diagnostic :=
  ⟨.error, error.message⟩

private theorem entries_foldl_observe (log : DiagnosticLog) (diagnostics : List Diagnostic) :
    (diagnostics.foldl DiagnosticLog.observe log).entries = log.entries ++ diagnostics := by
  induction diagnostics generalizing log with
  | nil => exact (List.append_nil _).symm
  | cons diagnostic rest ih =>
      rw [List.foldl_cons, ih, DiagnosticLog.observe, List.append_assoc, List.singleton_append]

private theorem atLevel_heard (events : List Event) :
    (heard events).atLevel .error =
      (events.filterMap Event.mistake?).map ConfigurationError.diagnostic := by
  rw [DiagnosticLog.atLevel, heard, entries_foldl_observe, DiagnosticLog.empty, List.nil_append]
  induction events with
  | nil => rfl
  | cons event rest ih =>
      cases event with
      | notice notice =>
          cases notice with
          | misconfiguration error => exact congrArg (error.diagnostic :: ·) ih
          | _ => exact ih
      | _ => exact ih

/-! ### The mistakes that are reported -/

def Halt.mistakes : Halt → List ConfigurationError
  | .error (.configuration mistake) => [mistake]
  | _ => []

namespace Machine

/-- Exactly these mistakes are reported, in a chart that stays. -/
structure Reports (before after : Machine) (mistakes : List ConfigurationError) : Prop where
  same : SameChart before after
  told : ∃ events, Told before after events ∧ events.filterMap Event.mistake? = mistakes

theorem Reports.trans {before middle after : Machine} {early late : List ConfigurationError}
    (first : Reports before middle early) (second : Reports middle after late) :
    Reports before after (early ++ late) where
  same := first.same.trans second.same
  told := by
    obtain ⟨earlier, toldEarlier, rfl⟩ := first.told
    obtain ⟨later, toldLater, rfl⟩ := second.told
    exact ⟨earlier ++ later, toldEarlier.trans toldLater, List.filterMap_append⟩

private theorem reports_note (machine : Machine) (event : Event) :
    Reports machine (machine.note event) event.mistake?.toList where
  same := sameChart_note machine event
  told := by
    refine ⟨[event], told_note machine event, ?_⟩
    cases isMistake : event.mistake? <;> simp [isMistake]

private theorem Passes.reports {before after : Machine}
    (passes : Passes Event.isMilestone before after) :
    Reports before after [] where
  same := passes.same
  told := by
    obtain ⟨events, told, unmarked⟩ := passes.told
    refine ⟨events, told, List.filterMap_eq_nil_iff.mpr fun event member => ?_⟩
    exact Event.mistake?_of_unmarked (unmarked event member)

end Machine

namespace Run

open Discipline (KeptFrom kept_pure kept_note kept_get kept_triggerReference keptFrom_trigger)
open Machine (Reports Passes)

/-- Nothing is reported but the mistake that halts the call. -/
def reporting : Contract where
  permits := Behavior.Forthright
  finished before after := Reports before after []
  halted halt before after := Reports before after halt.mistakes

private theorem lawful_reporting : reporting.Lawful where
  same := fun reports => reports.same
  passes := fun passes => passes.reports
  trans := fun first second => first.trans second
  halts := fun first second => first.trans second
  exhausted := fun machine => (Passes.refl machine).reports
  misused := fun machine _ => (Passes.refl machine).reports
  misconfigured := fun machine error =>
    Machine.reports_note machine (.notice (.misconfiguration error))

private theorem reporting_behave {calls : Calls} (kept : reporting.discipline.KeptBy calls)
    (state : StateId) {behavior : Behavior} (forthright : behavior.Forthright) :
    reporting.Kept (behave calls state behavior) := by
  -- By induction on the behaviour: what a request failed with is what the behaviour fails with.
  have lawful := lawful_reporting.discipline
  induction forthright with
  | done => exact kept_pure lawful _
  | fail message => exact fun machine _ => (Passes.refl machine).reports
  | note text _ ih => exact Discipline.Kept.bind lawful (kept_note lawful rfl) fun _ => ih
  | look _ ih =>
      apply kept_get
      exact fun machine abides => ih (machine.view state) machine abides
  | write key value _ ih =>
      apply Discipline.Kept.bind lawful _ fun old => ih old
      exact fun _ _ => lawful_reporting.written key value
  | fire reference memo passes _ ih =>
      intro machine abides
      unfold KeptFrom behave
      rw [ends_bind, ends_attempt]
      apply Ends.mono (kept_triggerReference lawful kept.trigger reference memo machine abides)
      · intro outcome after finished
        exact (ih outcome after (lawful.fit abides finished)).after lawful finished
      · intro halt after halted
        cases halt with
        | error error =>
            dsimp only
            rw [passes error]
            exact halted
        | exhausted => exact halted

private theorem sound_reporting : reporting.Sound :=
  { lawful_reporting with
    behave := fun kept state _ forthright => reporting_behave kept state forthright }

private theorem fires_reporting : reporting.discipline.Fires where
  effects := fun memo abides found isEffect => abides.effects _ _ _ memo found isEffect
  requested := fun id _ => Machine.reports_note _ (.requested id)
  recorded := by
    intro machine id firing _
    have pushed : Reports machine { machine with log := machine.log.push firing } [] :=
      ⟨Machine.SameChart.of_stores rfl rfl rfl, [], Machine.Told.refl machine, rfl⟩
    exact pushed.trans (Machine.reports_note _ (.recorded id firing))
  settled := fun id outcome _ => Machine.reports_note _ (.settled id outcome)

private theorem reporting_trigger {calls : Calls} (kept : reporting.KeptBy calls)
    (id : TransitionId)
    (memo : Value) : reporting.Kept (trigger calls id memo) := by
  intro machine abides
  apply keptFrom_trigger sound_reporting.discipline kept.toKeptBy fires_reporting abides
  exact fun _ _ abidesNow _ _ => sound_reporting.kept_enterTarget kept _ _ abidesNow

private theorem keptBy_reporting (depth : Nat) : reporting.KeptBy (calls depth) :=
  Contract.keptBy_calls sound_reporting (fun _ kept => reporting_trigger kept) depth

end Run

namespace Machine

/-- When callbacks are forthright, a call that ends with a mistake in the chart has had it reported
once, at the highest level, and nothing else at that level; any other call has had nothing reported
there. -/
theorem mistake_reported_once {machine after : Machine} {request : Request}
    {answer : Except MachineError Unit} (forthright : machine.Abides Behavior.Forthright)
    (runs : request.runs = true) (returns : request.Returns machine answer after) :
    ∃ events, Told machine after events ∧
      (∀ error, answer = .error (.configuration error) →
        (heard events).atLevel .error = [⟨.error, error.message⟩]) ∧
      ((∀ error, answer ≠ .error (.configuration error)) →
        (heard events).atLevel .error = []) := by
  have ends := returns.keeps Run.sound_reporting Run.keptBy_reporting runs forthright
  rcases ends with ⟨rfl, reports⟩ | ⟨error, rfl, reports⟩
  · obtain ⟨events, told, mistakes⟩ := reports.told
    refine ⟨events, told, fun _ impossible => ?_, fun _ => ?_⟩
    · cases impossible
    · rw [atLevel_heard, mistakes, List.map_nil]
  · obtain ⟨events, told, mistakes⟩ := reports.told
    refine ⟨events, told, fun cause isCause => ?_, fun other => ?_⟩
    · cases isCause
      rw [atLevel_heard, mistakes]
      rfl
    · rw [atLevel_heard, mistakes]
      cases error with
      | configuration cause => exact absurd rfl (other cause)
      | usage _ => rfl
      | action _ => rfl

private theorem abides_of_effects {machine : Machine} {permits : Behavior → Prop}
    (idle : machine.states.toList.all (fun node =>
      node.entry.isNone && node.exit.isNone && node.activity.isNone) = true)
    (effects : ∀ id found effect memo, machine.transition? id = some found →
      found.effect = some effect → permits (effect memo)) : machine.Abides permits where
  behaviors := by
    intro state node behavior found runs
    have known := List.all_eq_true.mp idle node
      (Array.mem_toList_iff.mpr (Array.mem_of_getElem? found))
    simp only [Bool.and_eq_true, Option.isNone_iff_eq_none] at known
    obtain ⟨⟨noEntry, noExit⟩, noActivity⟩ := known
    rcases runs with entry | exit | activity
    · rw [noEntry] at entry
      cases entry
    · rw [noExit] at exit
      cases exit
    · rw [noActivity] at activity
      cases activity
  effects := effects

/-- The way down into the cellar sets off a transition to a state that does not exist. -/
def mazeRequests : List Request :=
  [.construct (.createState (.plain "hall")), .construct (.addState ⟨3⟩),
    .construct (.createState (.plain "cellar")), .construct (.addState ⟨4⟩),
    .construct (.createTransition (.initial "hall")), .construct (.addTransition ⟨0⟩),
    .construct (.createTransition
      { TransitionDefinition.simple "descend" "hall" "cellar" with
          effect := some (firing "stray") }),
    .construct (.addTransition ⟨1⟩),
    .construct (.createTransition (.simple "stray" "cellar" "attic")),
    .construct (.addTransition ⟨2⟩), .start]

def maze : Machine :=
  Request.outcome 8 mazeRequests (Machine.new "maze" (.ofStem "auto"))

private theorem maze_plays :
    (Request.play 8 mazeRequests (Machine.new "maze" (.ofStem "auto"))).isSome = true ∧
      maze.states.toList.all (fun node =>
        node.entry.isNone && node.exit.isNone && node.activity.isNone) = true ∧
      (Request.triggerNamed "descend" .null).refusal 8 maze =
        some (.configuration (.unknownTarget "stray" "attic" "maze-region-0")) := by
  decide +kernel

/-- The mistake is found by the inner transition and passes through the outer one. -/
theorem maze_reports_once :
    maze.Reached anyTerms ∧ maze.Abides Behavior.Forthright ∧ ∃ after events,
      (Request.triggerNamed "descend" .null).Returns maze
        (.error (.configuration (.unknownTarget "stray" "attic" "maze-region-0"))) after ∧
      Told maze after events ∧
      (heard events).atLevel .error =
        [⟨.error, (ConfigurationError.unknownTarget "stray" "attic" "maze-region-0").message⟩] := by
  obtain ⟨plays, idle, refused⟩ := maze_plays
  have built := session_outcome plays
  have forthright : maze.Abides Behavior.Forthright := by
    refine abides_of_effects idle fun id found effect memo present isEffect => ?_
    have listed : effect ∈ mazeRequests.filterMap Request.effect? :=
      built.effects (formed_new _ _) (fun _ _ impossible => by cases impossible) id found effect
        present isEffect
    obtain rfl : effect = firing "stray" := List.mem_singleton.mp listed
    exact forthright_firing "stray" memo
  have returns := returns_aftermath refused
  obtain ⟨events, told, once, _⟩ := mistake_reported_once forthright rfl returns
  exact ⟨⟨"maze", .ofStem "auto", built.weaken fun _ _ _ _ _ => trivial⟩, forthright, _, events,
    returns, told, once _ rfl⟩

end Machine

end Chart
