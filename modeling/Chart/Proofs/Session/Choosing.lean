import Chart.Proofs.Run.AskingChoices
import Chart.Proofs.Session.Structure

set_option autoImplicit false

/-!
The files of the choices. Whatever a machine is asked to do once its chart stands, with any
callbacks, its chart stays as it is but for the transitions that choices make for themselves. Each
of them is on file with one choice for one target, for good, and a choice that is entered takes the
one on file.
-/

namespace Chart

namespace Request

def writes : Request → Bool
  | .construct (.setStateData _ _ _) | .setData _ _ => true
  | _ => false

def operates (request : Request) : Bool := request.runs || request.writes

private theorem asking_run {request : Request} (runs : request.runs = true) (depth : Nat) :
    Run.asking.Kept (request.run depth) :=
  kept_run Run.sound_asking Run.refuses_asking Run.ticks_asking
    (fun depth => (Run.calls_asking depth).keptAnywhere.toKeptBy)
    (fun _ => (Machine.ChoicesKept.queued _ _).consulted) runs
    (fun _ depth => (Run.calls_asking depth).enter Machine.root) depth

private theorem consulted_stateSet (machine : Machine) (state : StateId) (key : String)
    (value : Value) : Machine.Consulted machine (machine.stateSet state key value).2 := by
  have written : Machine.ChoicesKept machine (machine.stateSet state key value).2 :=
    Machine.ChoicesKept.modifyState machine machine.frames state _ (fun _ => rfl) fun _ => rfl
  exact written.consulted

private theorem asking_run_writing {request : Request} (writes : request.writes = true)
    (depth : Nat) :
    Run.asking.Kept (request.run depth) := by
  intro machine _
  unfold Run.Discipline.KeptFrom
  cases request with
  | setData key value =>
      unfold run
      rw [ends_discard, ends_modifyGet]
      exact consulted_stateSet machine Machine.root key value
  | construct construction =>
      cases construction with
      | setStateData state key value =>
          unfold run Construction.call Construct.setStateData
          rw [ends_adaptExcept, ends_discard, ends_bind, ends_discard]
          apply Construct.ends_requireState
          · intro node _
            rw [ends_modifyGet]
            exact consulted_stateSet machine state key value
          · exact fun _ => Or.inr (Machine.Consulted.refl machine)
      | _ => cases writes
  | _ => cases writes

private theorem Returns.consulted {request : Request} {before after : Machine}
    {answer : Except MachineError Unit} (returns : request.Returns before answer after)
    (operates : request.operates = true) (decided : before.Decided) :
    Machine.Consulted before after := by
  have asking (depth : Nat) : Run.asking.Kept (request.run depth) := by
    rcases Bool.or_eq_true _ _ |>.mp operates with runs | writes
    · exact asking_run runs depth
    · exact asking_run_writing writes depth
  rcases returns.ends fun depth => asking depth before decided with
    ⟨_, consulted⟩ | ⟨_, _, exhausted | consulted⟩
  · exact consulted
  · cases exhausted
  · exact consulted

end Request

def operating : Terms := fun _ request _ _ => request.operates = true

private theorem Session.consulted {before after : Machine}
    (session : Session operating before after)
    (decided : before.Decided) : Machine.Consulted before after := by
  induction session with
  | refl => exact Machine.Consulted.refl before
  | tail _ serves ih =>
      obtain ⟨request, answer, returns, operates⟩ := serves
      exact ih.trans (returns.consulted operates (decided.of_sameChart ih.same))

namespace Machine

/-- The transition belongs to a region, and no region lists it. -/
def Synthesized (machine : Machine) (id : TransitionId) : Prop :=
  (machine.registrarOf? id).isSome ∧ ∀ region, id ∉ machine.transitionsOf region

structure WellFiled (machine : Machine) : Prop where
  /-- Each is on file with one choice and for one target. -/
  synthesized : ∀ id, machine.Synthesized id ↔
    ∃! entry : StateId × String, machine.filed? entry.1 entry.2 = some id
  /-- What is on file leads from the choice to the target, unconditionally and without effect. -/
  entry : ∀ choice target id, machine.filed? choice target = some id →
    ∃ node region name, machine.state? choice = some node ∧ node.kind = .choice ∧
      node.container = some region ∧
      machine.transition? id = some
        { name, source := some node.name, target := some target, guard := none, effect := none,
          internal := false, container := some region }

/-! ### Only choices have files -/

private theorem Grown.filed? {before after : Machine} (grown : Grown before after)
    (choice : StateId)
    (target : String) : after.filed? choice target = before.filed? choice target := by
  unfold Machine.filed?
  cases found : before.state? choice with
  | some node =>
      obtain ⟨node', found', grownNode⟩ := grown.states choice node found
      have choices : node'.choices = node.choices :=
        StateNode.read_lasting grownNode.lasting StateNode.choices fun _ => rfl
      rw [found']
      exact congrArg (Dictionary.find? · target) choices
  | none =>
      cases found' : after.state? choice with
      | none => rfl
      | some node' =>
          have empty := (grown.newStates choice node' found found').2.1
          simp [empty]

def Selective (machine : Machine) : Prop :=
  ∀ choice target id, machine.filed? choice target = some id →
    machine.kindOf? choice = some .choice

private theorem Selective.of_grown {before after : Machine} (selective : before.Selective)
    (grown : Grown before after) : after.Selective := by
  intro choice target id filed
  rw [grown.filed?] at filed
  obtain ⟨node, found, isChoice⟩ := kindOf?_eq_some.mp (selective choice target id filed)
  obtain ⟨node', found', grownNode⟩ := grown.states choice node found
  apply kindOf?_eq_some.mpr
  refine ⟨node', found', ?_⟩
  rcases grownNode.kind with same | ⟨_, _, isHistory, _⟩
  · exact same.trans isChoice
  · rw [isChoice] at isHistory
    cases isHistory

private theorem Selective.of_consulted {before after : Machine} (selective : before.Selective)
    (consulted : Consulted before after) : after.Selective := by
  intro choice target id filed
  rw [consulted.same.kindOf?]
  rcases consulted.filed choice target id filed with earlier | ⟨_, _, isChoice⟩
  · exact selective choice target id earlier
  · exact isChoice

private theorem selective_new (name : String) (names : NameSource) :
    (Machine.new name names).Selective := by
  obtain ⟨bare, grown, _, _, _, _, onlyRoot⟩ := grown_new name names
  apply Selective.of_grown _ grown
  intro choice target id filed
  obtain ⟨node, found, known⟩ := Option.bind_eq_some_iff.mp filed
  rw [onlyRoot choice node found] at known
  cases known

private theorem Reached.selective {terms : Terms} {machine : Machine}
    (reached : machine.Reached terms) :
    machine.Selective := by
  obtain ⟨name, names, session⟩ := reached
  refine session.keeps_under (formed_new name names) (linked_new name names)
    (fun _ _ _ _ (holds : True) => holds) trivial Machine.Selective
    (selective_new name names) ?_
  intro first request answer last formed _ _ returns _ selective
  cases operates : request.operates with
  | true => exact selective.of_consulted (returns.consulted operates formed.decided)
  | false =>
      cases request with
      | construct construction => exact selective.of_grown (returns.becomes formed).grown
      | _ => cases operates

/-! ### What is on file is right -/

section Filed

variable {machine : Machine}

private theorem filed?_eq_some {choice : StateId} {target : String} {id : TransitionId} :
    machine.filed? choice target = some id ↔ ∃ node, machine.state? choice = some node ∧
      Dictionary.find? node.choices target = some id := by
  rw [filed?, Option.bind_eq_some_iff]

private theorem chosen_iff_filed {id : TransitionId} :
    machine.Chosen id ↔ ∃ choice target, machine.filed? choice target = some id := by
  simp only [filed?_eq_some, Chosen]
  constructor
  · rintro ⟨choice, node, target, found, known⟩
    exact ⟨choice, target, node, found, known⟩
  · rintro ⟨choice, target, node, found, known⟩
    exact ⟨choice, node, target, found, known⟩

private theorem Wired.eq_of_name (wired : machine.Wired) {region : RegionId} {one other : StateId}
    (inOne : machine.containerOf? one = some region)
    (inOther : machine.containerOf? other = some region)
    (same : machine.stateName one = machine.stateName other) : one = other := by
  have listedOne := (wired.listed one region).mp inOne
  have listedOther := (wired.listed other region).mp inOther
  unfold statesOf at listedOne listedOther
  cases found : machine.region? region with
  | none =>
      rw [found] at listedOne
      cases listedOne
  | some members =>
      rw [found] at listedOne listedOther
      have knownOne := (wired.indexed region members _ one found).mpr ⟨listedOne, rfl⟩
      have knownOther := (wired.indexed region members _ other found).mpr ⟨listedOther, same.symm⟩
      rw [knownOne] at knownOther
      exact Option.some.inj knownOther

variable (formed : machine.Formed) (linked : machine.Linked)
include formed linked

private theorem filed_once {one other : StateId} {target key : String} {id : TransitionId}
    (filedOne : machine.filed? one target = some id)
    (filedOther : machine.filed? other key = some id) : one = other ∧ target = key := by
  obtain ⟨nodeOne, foundOne, knownOne⟩ := filed?_eq_some.mp filedOne
  obtain ⟨nodeOther, foundOther, knownOther⟩ := filed?_eq_some.mp filedOther
  obtain ⟨name, region, inOne, present⟩ := linked.choices one nodeOne target id foundOne knownOne
  obtain ⟨name', region', inOther, present'⟩ :=
    linked.choices other nodeOther key id foundOther knownOther
  rw [present] at present'
  have same := Option.some.inj present'
  have sources : some nodeOne.name = some nodeOther.name := congrArg Transition.source same
  have targets : some target = some key := congrArg Transition.target same
  have regions : some region = some region' := congrArg Transition.container same
  obtain rfl := Option.some.inj regions
  constructor
  · apply formed.toWired.eq_of_name (containerOf?_eq_some.mpr ⟨nodeOne, foundOne, inOne⟩)
      (containerOf?_eq_some.mpr ⟨nodeOther, foundOther, inOther⟩)
    rw [stateName, stateName, foundOne, foundOther]
    exact Option.some.inj sources
  · exact Option.some.inj targets

end Filed

private theorem Reached.wellFiled {terms : Terms} {machine : Machine}
    (reached : machine.Reached terms) :
    machine.WellFiled where
  synthesized := by
    intro id
    have registry := reached.registry
    constructor
    · rintro ⟨registered, unlisted⟩
      obtain ⟨region, isRegistrar⟩ := Option.isSome_iff_exists.mp registered
      have chosen := (registry.placed region id isRegistrar).resolve_left fun listed => by
        rw [← transitionsOf_eq] at listed
        exact unlisted region listed
      obtain ⟨choice, target, filed⟩ := chosen_iff_filed.mp chosen
      refine ⟨(choice, target), filed, ?_⟩
      rintro ⟨other, key⟩ filedOther
      obtain ⟨rfl, rfl⟩ := filed_once reached.formed reached.linked filed filedOther
      rfl
    · rintro ⟨⟨choice, target⟩, filed, _⟩
      obtain ⟨registered, unlisted⟩ := registry.chosen id
        (chosen_iff_filed.mpr ⟨choice, target, filed⟩)
      refine ⟨registered, fun region => ?_⟩
      rw [transitionsOf_eq]
      exact unlisted region
  entry := by
    intro choice target id filed
    obtain ⟨node, found, known⟩ := filed?_eq_some.mp filed
    obtain ⟨node', found', isChoice⟩ :=
      kindOf?_eq_some.mp (reached.selective choice target id filed)
    rw [found] at found'
    obtain rfl := Option.some.inj found'
    obtain ⟨name, region, contained, present⟩ :=
      reached.linked.choices choice node target id found known
    exact ⟨node, region, name, found, isChoice, contained, present⟩

/-- However a machine was put together and run, from then on its chart stays: calls only add the
transitions that choices file, what is on file stays there, and every choice that is entered is
asked once and takes the transition on file for its answer. -/
theorem Reached.choices_consulted {machine after : Machine} (reached : machine.Reached anyTerms)
    (session : Session operating machine after) : Consulted machine after ∧ after.WellFiled := by
  have consulted := session.consulted reached.formed.decided
  obtain ⟨name, names, earlier⟩ := reached
  have whole : after.Reached anyTerms :=
    ⟨name, names, earlier.trans (session.weaken fun _ _ _ _ _ => trivial)⟩
  exact ⟨consulted, whole.wellFiled⟩

/-! ### A choice between two ways -/

/-- A choice leads to the right when a way has been written down, and to the left otherwise. -/
def junctionRequests : List Request :=
  [.construct (.createState (.plain "left")), .construct (.addState ⟨3⟩),
    .construct (.createState (.plain "right")), .construct (.addState ⟨4⟩),
    .construct (.addChoice ⟨0⟩ "fork" fun view =>
      ⟨some (if (view.get? "way").isSome then "right" else "left"), ["asked"]⟩),
    .construct (.createTransition (.initial "fork")), .construct (.addTransition ⟨0⟩),
    .construct (.createTransition (.simple "again" "left" "fork")),
    .construct (.addTransition ⟨1⟩),
    .construct (.createTransition (.simple "more" "right" "fork")),
    .construct (.addTransition ⟨2⟩)]

def junction : Machine :=
  Request.outcome 12 junctionRequests (Machine.new "junction" (.ofStem "auto"))

def junctionCalls : List Request :=
  [.start, .trigger ⟨1⟩ .null, .setData "way" .null, .trigger ⟨1⟩ .null, .trigger ⟨2⟩ .null]

def junctionPassed : Machine :=
  Request.outcome 12 junctionCalls junction

private theorem junction_plays :
    (Request.play 12 junctionRequests (Machine.new "junction" (.ofStem "auto"))).isSome = true ∧
      (Request.play 12 junctionCalls junction).isSome = true ∧
      junctionCalls.all Request.operates = true ∧
      junction.transitions.size = 3 ∧ junctionPassed.transitions.size = 5 ∧
      junctionPassed.filed? ⟨5⟩ "left" = some ⟨3⟩ ∧
      junctionPassed.filed? ⟨5⟩ "right" = some ⟨4⟩ := by
  decide +kernel

private theorem reached_junction : junction.Reached anyTerms :=
  ⟨"junction", .ofStem "auto",
    (session_outcome junction_plays.1).weaken fun _ _ _ _ _ => trivial⟩

private theorem session_junction : Session operating junction junctionPassed := by
  obtain ⟨_, plays, operate, _⟩ := junction_plays
  apply (session_outcome plays).weaken
  intro _ request _ _ call
  exact List.all_eq_true.mp operate request call.1

/-- The choice is entered four times and files two transitions. -/
theorem junction_consulted :
    junction.Reached anyTerms ∧ Session operating junction junctionPassed ∧
      junction.transitions.size = 3 ∧ junctionPassed.transitions.size = 5 ∧
      junctionPassed.filed? ⟨5⟩ "left" = some ⟨3⟩ ∧
      junctionPassed.filed? ⟨5⟩ "right" = some ⟨4⟩ ∧
      Consulted junction junctionPassed ∧ junctionPassed.WellFiled := by
  obtain ⟨_, _, _, before, after, left, right⟩ := junction_plays
  exact ⟨reached_junction, session_junction, before, after, left, right,
    Reached.choices_consulted reached_junction session_junction⟩

end Machine

end Chart
