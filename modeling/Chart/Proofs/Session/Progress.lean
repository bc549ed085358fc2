import Chart.Proofs.Session.Configuration

set_option autoImplicit false

/-!
Progress along closed charts. When callbacks neither fail nor fire, and every name that transitions
and decisions use means something, nothing that happens inside a call can go wrong: a call is
refused only because of the status it meets, before it does anything, and a refused call leaves
nothing but its reports behind.
-/

namespace Chart

/-- Internal transitions are created with a source. The definitions made by hand are not internal,
so this asks nothing of them. -/
def sourcing : Terms := fun _ request _ _ =>
  ∀ definition, request = .construct (.createTransition definition) →
    definition.internal = true → definition.source ≠ none

private theorem TransitionDefinition.source_of_internal {definition : TransitionDefinition}
    (valid : definition.violations = []) (internal : definition.internal = true) :
    definition.source ≠ none := by
  intro sourceless
  have broken : Violation.internalWithoutSource ∈ definition.violations := by
    simp [violations, violationsOf, internal, sourceless]
  rw [valid] at broken
  cases broken

theorem Behavior.Quiet.mono {mayFail permitted : Prop} (weaker : mayFail → permitted)
    {behavior : Behavior} (quiet : behavior.Quiet mayFail) : behavior.Quiet permitted := by
  induction quiet with
  | done => exact .done
  | fail error allowed => exact .fail error (weaker allowed)
  | note text _ ih => exact .note text ih
  | look _ ih => exact .look ih
  | write key value _ ih => exact .write key value ih

namespace Machine

theorem Calm.mono {mayFail permitted : Prop} (weaker : mayFail → permitted) {machine : Machine}
    (calm : machine.Calm mayFail) : machine.Calm permitted where
  behaviors := fun state node behavior found runs =>
    (calm.behaviors state node behavior found runs).mono weaker
  effects := fun transition found effect memo present isEffect =>
    (calm.effects transition found effect memo present isEffect).mono weaker
  leaves := calm.leaves

private theorem Reached.sourced {machine : Machine} (reached : machine.Reached sourcing) :
    machine.Sourced := by
  -- By induction on the calls; only a construction adds a transition that may be internal.
  obtain ⟨name, names, session⟩ := reached
  induction session with
  | refl =>
      intro id transition present
      have none' : (Machine.new name names).transitions = #[] := transitions_pushRegion _ root
      unfold transition? at present
      rw [none'] at present
      cases present
  | @tail before after earlier call ih =>
      obtain ⟨request, answer, returns, provides⟩ := call
      rcases returns.evolves (Session.formed earlier (formed_new name names)) with
        becomes | changes
      · intro id transition present internal
        obtain ⟨known, origin, same⟩ := becomes.origins id transition present
        have source : transition.source = known.source :=
          (congrArg Transition.source same :)
        have kept : transition.internal = known.internal :=
          (congrArg Transition.internal same :)
        rw [source]
        rw [kept] at internal
        rcases origin with old | created
        · exact ih id known old internal
        · cases request with
          | construct construction =>
              cases construction with
              | createTransition definition =>
                  obtain ⟨_, rfl⟩ := created
                  exact provides definition rfl internal
              | _ => exact created.elim
          | _ => exact created.elim
      · exact ih.of_sameChart changes.sameChart

end Machine

namespace Request

/-- A call by an owner who only knows the chart: no handle is made up, and only transitions that a
region lists are triggered. -/
def Proper (machine : Machine) : Request → Prop
  | .start | .finish | .advance _ => True
  | .completion state => (machine.state? state).isSome = true
  | .trigger transition _ => ∃ region, transition ∈ machine.transitionsOf region
  | .construct _ | .setData _ _ | .triggerNamed _ _ | .frame _ _ => False

/-- The one error a proper call may end with, and the status it is due to. -/
def Excuse (machine : Machine) : Request → MachineError → Prop
  | .start, error => machine.isActive = true ∧ error = .usage (.stateAlreadyActive machine.name)
  | .finish, error =>
      machine.isActive = false ∧ error = .usage (.stateAlreadyInactive machine.name)
  | .completion state, error =>
      machine.isStateActive state = false ∧
        error = .usage (.stateAlreadyInactive (machine.stateName state))
  | .trigger id _, error => ∃ transition region, machine.transition? id = some transition ∧
      transition.container = some region ∧ machine.isRegionActive region = false ∧
      error = .configuration (.inactiveContainer transition.name (machine.regionName region))
  | .construct _, _ | .setData _ _, _ | .triggerNamed _ _, _ | .frame _ _, _ | .advance _, _ =>
      False

private theorem Proper.runs {machine : Machine} {request : Request}
    (proper : request.Proper machine) :
    request.runs = true := by
  cases request <;> first | rfl | exact proper.elim

end Request

def properly : Terms := fun machine request _ _ => request.Proper machine

private theorem Session.changes {before after : Machine} (session : Session properly before after) :
    Machine.Changes before after := by
  induction session with
  | refl => exact Relation.ReflTransGen.refl
  | tail _ call ih =>
      obtain ⟨_, _, returns, proper⟩ := call
      exact ih.trans (returns.changes proper.runs)

namespace Machine

/-- Where the region of a registered transition is active, a closed chart resolves its
endpoints; elsewhere its region is what is wrong. -/
theorem Closed.endpoints_error {machine : Machine} (closed : machine.Closed)
    (formed : machine.Formed) (coherent : machine.Coherent) {id : TransitionId}
    {region : RegionId} (listed : id ∈ machine.transitionsOf region)
    {error : ConfigurationError} (wrong : machine.endpoints id = .error error) :
    ∃ transition, machine.transition? id = some transition ∧
      transition.container = some region ∧ machine.isRegionActive region = false ∧
      error = .inactiveContainer transition.name (machine.regionName region) := by
  obtain ⟨transition, known, inRegion⟩ := formed.registered region id listed
  cases stored : machine.region? region with
  | none =>
      rw [transitionsOf, stored] at listed
      cases listed
  | some members =>
      have named : machine.regionName region = members.name := by
        rw [regionName, stored]
        rfl
      have status : machine.isRegionActive region = members.status.isActive := by
        rw [isRegionActive, stored]
        rfl
      cases isActive : members.status.isActive with
      | false =>
          refine ⟨transition, known, inRegion, by rw [status, isActive], ?_⟩
          unfold endpoints at wrong
          rw [known] at wrong
          dsimp only at wrong
          rw [inRegion] at wrong
          dsimp only at wrong
          rw [stored] at wrong
          simp only [isActive, Bool.false_eq_true, if_false] at wrong
          rw [named]
          exact (Except.error.inj wrong).symm
      | true =>
          rw [transitionsOf, stored] at listed
          have attached := coherent.attached formed.toWired (by rw [status, isActive])
          have proper := closed.registered region members id transition attached stored listed known
          rcases endpoints_of_active stored formed known inRegion isActive with
            ⟨_, _, improper⟩ | ⟨source, target, resolved, _⟩
          · exact absurd proper improper
          · rw [resolved] at wrong
            cases wrong

/-- Calls along a closed chart are refused only because of a status they meet, and then nothing has
changed but the journal. -/
theorem Reached.proper_calls_refused_by_status {chart machine after : Machine} {request : Request}
    {answer : Except MachineError Unit} (reached : chart.Reached sourcing)
    (calm : chart.Calm False) (closed : chart.Closed) (session : Session properly chart machine)
    (proper : request.Proper machine) (returns : request.Returns machine answer after) :
    answer = .ok () ∨ ∃ error, answer = .error error ∧ request.Excuse machine error ∧
      Run.Reported machine after := by
  have changes := session.changes
  have same := changes.sameChart
  have goesOn : machine.Reached sourcing := by
    obtain ⟨name, names, earlier⟩ := reached
    refine ⟨name, names, earlier.trans (session.weaken ?_)⟩
    rintro _ _ _ _ proper definition rfl
    exact proper.elim
  have calmNow := calm.of_sameChart same
  have closedNow := closed.of_sameChart same reached.formed.toWired
  have coherent := goesOn.coherent (calmNow.mono fun impossible => impossible.elim)
  have formed := goesOn.formed
  have orderly : machine.Orderly False :=
    { toFormed := formed
      linked := goesOn.linked
      calm := calmNow
      closed := fun _ => closedNow
      sourced := fun _ => goesOn.sourced }
  rcases returns.ends (Request.ends_served (Run.respects_trivial False) proper.runs orderly
    coherent) with ⟨isOk, _⟩ | ⟨error, isError, aborted | ⟨reported, refusal, isRefusal, because⟩⟩
  · exact Or.inl isOk
  · exact absurd (aborted.2 (by simp)) id
  · obtain rfl := Halt.error.inj isRefusal
    refine Or.inr ⟨error, isError, ?_, reported⟩
    cases request with
    | start => exact because
    | finish => exact because
    | completion state =>
        rcases because with ⟨absent, _⟩ | ⟨node, found, inactive, isUsage⟩
        · have present : (machine.state? state).isSome = true := proper
          rw [absent] at present
          cases present
        · refine ⟨by rw [isStateActive, found]; exact inactive, ?_⟩
          rw [isUsage, stateName, found]
          rfl
    | trigger id memo =>
        obtain ⟨cause, wrong, isConfiguration⟩ := because
        obtain ⟨region, listed⟩ := proper
        obtain ⟨transition, known, inRegion, inactive, isCause⟩ :=
          closedNow.endpoints_error formed coherent listed wrong
        exact ⟨transition, region, known, inRegion, inactive, by rw [isConfiguration, isCause]⟩
    | advance now => exact because.elim
    | _ => exact proper.elim

/-! ### Checking that a chart is closed -/

def leads (machine : Machine) (region : RegionId) (name : String) : Bool :=
  (machine.resolveState? region name).any fun state => machine.kindOf? state != some .initial

def leadsOn (machine : Machine) (region : RegionId) (transition : Transition) : Bool :=
  transition.target.all (machine.leads region)

def starts (machine : Machine) (region : RegionId) (transition : Transition) : Bool :=
  transition.source.all fun name =>
    ((machine.region? region).bind fun members => Dictionary.find? members.stateIndex name).any
      fun state => machine.kindOf? state != some .final

def isClosed (machine : Machine) : Bool :=
  (List.range machine.regions.size).all (fun index =>
      (Run.firstSourceless? machine ⟨index⟩).any (fun id =>
          (machine.transition? id).any fun transition =>
            transition.guard.isNone && machine.leadsOn ⟨index⟩ transition) &&
        (machine.transitionsOf ⟨index⟩).all fun id =>
          (machine.transition? id).all fun transition =>
            machine.starts ⟨index⟩ transition && machine.leadsOn ⟨index⟩ transition) &&
    machine.states.toList.all fun node => node.kind != .choice

private theorem leadsOn_of_check {machine : Machine} {region : RegionId} {transition : Transition}
    (checks : machine.leadsOn region transition = true) : machine.LeadsOn region transition := by
  intro name target
  unfold leadsOn at checks
  rw [target] at checks
  obtain ⟨state, resolved, kind⟩ := (Option.any_eq_true _ _).mp checks
  exact ⟨state, resolved, by simpa using kind⟩

private theorem starts_of_check {machine : Machine} {region : RegionId} {members : Region}
    {transition : Transition} (stored : machine.region? region = some members)
    (checks : machine.starts region transition = true) : machine.Starts members transition := by
  intro name source
  unfold starts at checks
  rw [source, stored] at checks
  obtain ⟨state, indexed, kind⟩ := (Option.any_eq_true _ _).mp checks
  exact ⟨state, indexed, by simpa using kind⟩

private theorem closed_of_isClosed {machine : Machine} (checks : machine.isClosed = true) :
    machine.Closed := by
  obtain ⟨regions, noChoice⟩ := (Bool.and_eq_true _ _).mp checks
  have region {region : RegionId} {members : Region}
      (stored : machine.region? region = some members) :=
    (Bool.and_eq_true _ _).mp (List.all_eq_true.mp regions region.index
      (List.mem_range.mpr (Array.getElem?_eq_some_iff.mp stored).1))
  refine { initial := ?_, registered := ?_, decided := ?_ }
  · intro here attached
    have present : ∃ members, machine.region? here = some members := by
      obtain ⟨top, owned, rfl | ⟨owner, ownedHere, _⟩⟩ := attached
      · obtain ⟨members, stored, _⟩ := ownerOf?_eq_some.mp owned
        exact ⟨members, stored⟩
      · obtain ⟨members, stored, _⟩ := ownerOf?_eq_some.mp ownedHere
        exact ⟨members, stored⟩
    obtain ⟨members, stored⟩ := present
    obtain ⟨id, first, anyTransition⟩ := (Option.any_eq_true _ _).mp (region stored).1
    obtain ⟨transition, known, proper⟩ := (Option.any_eq_true _ _).mp anyTransition
    obtain ⟨unguarded, leads⟩ := (Bool.and_eq_true _ _).mp proper
    exact ⟨id, transition, first, known, Option.isNone_iff_eq_none.mp unguarded,
      leadsOn_of_check leads⟩
  · intro here members id transition _ stored listed known
    have isListed : id ∈ machine.transitionsOf here := by
      rw [transitionsOf, stored]
      exact listed
    have proper := List.all_eq_true.mp (region stored).2 id isListed
    rw [known] at proper
    obtain ⟨starts, leads⟩ := (Bool.and_eq_true _ _).mp proper
    exact ⟨starts_of_check stored starts, leadsOn_of_check leads⟩
  · intro _ state node _ _ _ _ found choice _
    have known := List.all_eq_true.mp noChoice node
      (Array.mem_toList_iff.mpr (Array.mem_of_getElem? found))
    rw [choice] at known
    cases known

private theorem start_of_isActive {machine : Machine} (isActive : machine.isActive = true)
    (depth : Nat) :
    Run.start depth machine = .error (.error (.usage (.stateAlreadyActive machine.name)))
      (machine.note (.notice (.misuse (.stateAlreadyActive machine.name)))) := by
  change (if machine.isActive then _ else _ : Run Unit) machine = _
  rw [if_pos isActive]
  rfl

/-- A lamp that is on refuses to be started again. -/
theorem lamp_refuses_start :
    lamp.Reached sourcing ∧ lamp.Calm False ∧ lamp.Closed ∧ Session properly lamp lamp ∧
      Request.start.Proper lamp ∧ ∃ after,
        Request.start.Returns lamp (.error (.usage (.stateAlreadyActive lamp.name))) after ∧
          Run.Reported lamp after := by
  have reached : lamp.Reached sourcing := by
    refine ⟨"lamp", .ofStem "auto", session_lamp.weaken ?_⟩
    rintro _ _ _ _ ⟨listed, _⟩ definition rfl
    have isInitial : definition = .initial "on" := by simpa [lampRequests] using listed
    rw [isInitial]
    exact TransitionDefinition.source_of_internal rfl
  have calm : lamp.Calm False := calm_of_isPlain lamp_plays.2.2.1
  obtain ⟨isClosed, isActive⟩ : lamp.isClosed = true ∧ lamp.isActive = true := by decide +kernel
  have closed : lamp.Closed := closed_of_isClosed isClosed
  have returns : Request.start.Returns lamp (.error (.usage (.stateAlreadyActive lamp.name)))
      (lamp.note (.notice (.misuse (.stateAlreadyActive lamp.name)))) := by
    refine ⟨0, ?_⟩
    have refuses := start_of_isActive isActive 0
    unfold Run.attempt
    rw [show Request.start.run 0 lamp = _ from refuses]
  have proper : Request.start.Proper lamp := trivial
  rcases Reached.proper_calls_refused_by_status reached calm closed Relation.ReflTransGen.refl
    proper returns with impossible | ⟨_, _, _, reported⟩
  · cases impossible
  · exact ⟨reached, calm, closed, Relation.ReflTransGen.refl, proper, _, returns, reported⟩

end Machine

end Chart
