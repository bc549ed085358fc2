import Chart.Proofs.Run.Termination
import Chart.Proofs.Session.Configuration

set_option autoImplicit false

/-!
Calls that return. In a resolute chart no call of its owner goes on forever, whatever has been
called before and however it went: what a call sets off nests no deeper than three times the regions
do.
-/

namespace Chart

open Run (Ending)

private theorem Request.ending_run {machine : Machine} (formed : machine.Formed)
    (linked : machine.Linked)
    (resolute : machine.Resolute) (supported : machine.Supported) {request : Request}
    (runs : request.runs = true) {depth : Nat} (deep : 3 * machine.nestingBound ≤ depth) :
    Ends (request.run depth) machine (fun _ _ => True) (fun halt _ => halt ≠ .exhausted) := by
  have supportedFrom : machine.SupportedFrom machine := ⟨Relation.ReflTransGen.refl, supported⟩
  have ended {Answer : Type} {run : Run Answer} (ending : Ending machine run machine) :
      Ends run machine (fun _ _ => True) (fun halt _ => halt ≠ .exhausted) :=
    ending.mono (fun _ _ _ => trivial) fun _ _ failure => failure
  cases request with
  | construct _ | setData _ _ => cases runs
  | start => exact ended (Run.ending_start formed resolute linked supportedFrom (by omega))
  | finish => exact ended (Run.ending_finish formed resolute supportedFrom)
  | trigger transition memo =>
      exact ended (Run.ending_triggerHandle formed resolute linked supportedFrom deep).discard
  | triggerNamed name memo =>
      exact ended (Run.ending_triggerNamed formed resolute linked supportedFrom deep).discard
  | completion state =>
      exact ended (Run.ending_completion formed resolute linked supportedFrom deep)
  | frame handle now =>
      refine (Run.ends_deliverFrame resolute.behaviors).mono (fun _ _ _ => trivial)
        fun halt _ failure => ?_
      rcases failure with ⟨_, error, _⟩ | ⟨_, error, isError, _⟩
      · exact error
      · rw [isError]
        simp
  | advance now =>
      unfold Request.run
      rw [ends_discard]
      exact (Run.ends_advance resolute.behaviors linked).mono (fun _ _ _ => trivial)
        fun _ _ failure => failure.2.1

namespace Machine

/-- In a resolute chart every call of the owner returns. -/
theorem Reached.call_returns {machine : Machine} (reached : machine.Reached anyTerms)
    (resolute : machine.Resolute) {request : Request} (runs : request.runs = true) :
    ∃ answer after, request.Returns machine answer after := by
  have coherent := reached.coherent resolute.calm
  have ending := Request.ending_run reached.formed reached.linked resolute coherent.owned runs
    (Nat.le_refl _)
  generalize 3 * machine.nestingBound = depth at ending
  cases result : request.run depth machine with
  | ok answer after =>
      refine ⟨.ok (), after, depth, ?_⟩
      unfold Run.attempt
      rw [result]
  | error halt after =>
      cases halt with
      | error error =>
          refine ⟨.error error, after, depth, ?_⟩
          unfold Run.attempt
          rw [result]
      | exhausted => exact absurd rfl (ends_of_failed ending result)

/-! ### Checking that a chart is resolute -/

/-- Whether the transition, if it stands in the region, leads where it may in a resolute chart. -/
def isDirected (machine : Machine) (region : RegionId) (id : TransitionId) : Bool :=
  (machine.region? region).all fun members =>
    (machine.transition? id).all fun found =>
      match targetOf machine region members found with
      | .error _ => true
      | .ok target =>
          machine.kindOf? target == some .normal ||
            Run.firstSourceless? machine region != some id &&
              (found.container != some region || target == members.final ||
                machine.kindOf? target == some (.history .shallow) ||
                machine.kindOf? target == some (.history .deep))

def isResolute (machine : Machine) : Bool :=
  machine.isPlain && machine.states.toList.all (fun node => node.kind != .choice) &&
    (List.range machine.regions.size).all fun region =>
      (List.range machine.transitions.size).all fun id => machine.isDirected ⟨region⟩ ⟨id⟩

private theorem resolute_of_isResolute {machine : Machine} (checked : machine.isResolute = true) :
    machine.Resolute := by
  unfold isResolute at checked
  rw [Bool.and_eq_true, Bool.and_eq_true] at checked
  obtain ⟨⟨plain, kinds⟩, directions⟩ := checked
  have calm : machine.Calm True := calm_of_isPlain plain
  have directed {region : RegionId} {members : Region} {id : TransitionId} {found : Transition}
      {target : StateId} (stored : machine.region? region = some members)
      (known : machine.transition? id = some found)
      (isTarget : targetOf machine region members found = .ok target) :
      machine.kindOf? target = some .normal ∨ Run.firstSourceless? machine region ≠ some id ∧
        (found.container ≠ some region ∨ target = members.final ∨
          ∃ depth, machine.kindOf? target = some (.history depth)) := by
    have direction := List.all_eq_true.mp (List.all_eq_true.mp directions region.index
      (List.mem_range.mpr (Array.getElem?_eq_some_iff.mp stored).1)) id.index
      (List.mem_range.mpr (Array.getElem?_eq_some_iff.mp known).1)
    unfold isDirected at direction
    simp only [stored, known, isTarget, Option.all_some, Bool.or_eq_true, Bool.and_eq_true,
      beq_iff_eq, bne_iff_ne] at direction
    refine direction.imp_right fun others => ⟨others.1, ?_⟩
    rcases others.2 with ((elsewhere | final) | shallow) | deep
    · exact Or.inl elsewhere
    · exact Or.inr (Or.inl final)
    · exact Or.inr (Or.inr ⟨.shallow, shallow⟩)
    · exact Or.inr (Or.inr ⟨.deep, deep⟩)
  exact
    { behaviors := calm.behaviors
      effects := calm.effects
      manual := fun state node found => (node_of_isPlain plain found).2.2.2
      undecided := by
        intro state choice
        obtain ⟨node, found, isChoice⟩ := kindOf?_eq_some.mp choice
        have kind := List.all_eq_true.mp kinds node
          (Array.mem_toList_iff.mpr (Array.mem_of_getElem? found))
        exact bne_iff_ne.mp kind isChoice
      initial := by
        intro region members id found target stored first known isTarget
        exact (directed stored known isTarget).resolve_right fun others => others.1 first
      others := by
        intro region members id found target stored known inRegion _ isTarget
        rcases directed stored known isTarget with normal | ⟨_, elsewhere | final | history⟩
        · exact Or.inl normal
        · exact absurd inRegion elsewhere
        · exact Or.inr (Or.inr final)
        · exact Or.inr (Or.inl history) }

/-- A task that is put on file when its draft is done; it is drafted again where it stopped. -/
def taskRequests : List Request :=
  [.construct (.createState (.plain "task")), .construct (.addState ⟨3⟩),
    .construct (.createState (.plain "draft")), .construct (.addChildState ⟨3⟩ ⟨4⟩),
    .construct (.createState (.plain "file")), .construct (.addState ⟨7⟩),
    .construct (.regionAddHistory ⟨1⟩ .shallow),
    .construct (.createTransition (.initial "task")), .construct (.addTransition ⟨0⟩),
    .construct (.createTransition (.initial "draft")), .construct (.regionAddTransition ⟨1⟩ ⟨1⟩),
    .construct (.createTransition { TransitionDefinition.anonymous with source := some "draft" }),
    .construct (.regionAddTransition ⟨1⟩ ⟨2⟩),
    .construct (.createTransition (.simple "keep" "task" "file")), .construct (.addTransition ⟨3⟩),
    .construct (.createTransition (.simple "redo" "file" "task")), .construct (.addTransition ⟨4⟩),
    .start]

def task : Machine :=
  Request.outcome 12 taskRequests (Machine.new "task" (.ofStem "auto"))

/-- The draft is done: its region ends, the task is complete, and is put on file. -/
theorem task_completion_returns :
    task.Reached anyTerms ∧ task.Resolute ∧ task.isRegionActive ⟨1⟩ = true ∧
      ∃ answer after, (Request.completion ⟨4⟩).Returns task answer after := by
  have reached : task.Reached anyTerms :=
    ⟨"task", .ofStem "auto", (session_outcome (by decide +kernel)).weaken
      fun _ _ _ _ _ => trivial⟩
  have resolute : task.Resolute := resolute_of_isResolute (by decide +kernel)
  have active : task.isRegionActive ⟨1⟩ = true := by decide +kernel
  exact ⟨reached, resolute, active, Reached.call_returns reached resolute rfl⟩

end Machine

end Chart
