import Chart.Proofs.Forest.Growing
import Chart.Proofs.Run.Contract
import Chart.Proofs.Run.TimerFrames
import Chart.Proofs.Run.OfferedOperations

set_option autoImplicit false

/-!
Requests to a machine. The owner of a machine puts its chart together and has it run, in any order;
every request is answered or refused with an error, and the machine goes on as the request left it.
A session is a sequence of such calls, possibly restricted to calls of some kind.
-/

namespace Chart

inductive Construction
  | createState (definition : StateDefinition)
  | createTransition (definition : TransitionDefinition)
  | addState (state : StateId)
  | addTransition (transition : TransitionId)
  | addChildState (parent child : StateId)
  | addChildTransition (parent : StateId) (transition : TransitionId)
  | appendRegion (state : StateId)
  | regionAddState (region : RegionId) (state : StateId)
  | regionAddTransition (region : RegionId) (transition : TransitionId)
  | regionAddHistory (region : RegionId) (depth : HistoryDepth)
  | addHistory (parent : StateId) (depth : HistoryDepth)
  | addChoice (parent : StateId) (name : String) (decision : Decision)
  | setStateData (state : StateId) (key : String) (value : Value)

inductive Request
  | construct (construction : Construction)
  | setData (key : String) (value : Value)
  | start
  | finish
  | trigger (transition : TransitionId) (memo : Value)
  | triggerNamed (name : String) (memo : Value)
  | completion (state : StateId)
  | frame (handle : FrameHandle) (now : Duration)
  | advance (now : Duration)

namespace Construction

/-- Carries the call out; what it would answer is left aside. -/
def call : Construction → Construct Unit
  | .createState definition => discard (Construct.createState definition)
  | .createTransition definition => discard (Construct.createTransition definition)
  | .addState state => discard (Construct.addState state)
  | .addTransition transition => discard (Construct.addTransition transition)
  | .addChildState parent child => discard (Construct.addChildState parent child)
  | .addChildTransition parent transition =>
      discard (Construct.addChildTransition parent transition)
  | .appendRegion state => discard (Construct.appendRegion state)
  | .regionAddState region state => discard (Construct.regionAddState region state)
  | .regionAddTransition region transition =>
      discard (Construct.regionAddTransition region transition)
  | .regionAddHistory region depth => discard (Construct.regionAddHistory region depth)
  | .addHistory parent depth => discard (Construct.addHistory parent depth)
  | .addChoice parent name decision => discard (Construct.addChoice parent name decision)
  | .setStateData state key value => discard (Construct.setStateData state key value)

/-- The transitions the call may create, up to the name they get. -/
def creates : Construction → Transition → Prop
  | .createTransition definition, found => ∃ name, found = .ofDefinition name definition
  | _, _ => False

private theorem growing_call (construction : Construction) :
    Construct.Growing construction.creates construction.call := by
  cases construction with
  | createState definition => exact (Construct.growing_createState definition).discard
  | createTransition definition =>
      exact (Construct.growing_createTransition definition fun name => ⟨name, rfl⟩).discard
  | addState state => exact (Construct.growing_addState state).discard
  | addTransition transition => exact (Construct.growing_addTransition transition).discard
  | addChildState parent child => exact (Construct.growing_addChildState parent child).discard
  | addChildTransition parent transition =>
      exact (Construct.growing_addChildTransition parent transition).discard
  | appendRegion state => exact (Construct.growing_appendRegion state).discard
  | regionAddState region state => exact (Construct.growing_regionAddState region state).discard
  | regionAddTransition region transition =>
      exact (Construct.growing_regionAddTransition region transition).discard
  | regionAddHistory region depth =>
      exact (Construct.growing_regionAddHistory region depth).discard
  | addHistory parent depth => exact (Construct.growing_addHistory parent depth).discard
  | addChoice parent name decision =>
      exact (Construct.growing_addChoice parent name decision).discard
  | setStateData state key value =>
      exact (Construct.growing_setStateData state key value).discard

end Construction

namespace Request

/-- Carries the request out, with callbacks and cascades nested at most to the given depth. -/
def run (depth : Nat) : Request → Run Unit
  | .construct construction =>
      EStateM.adaptExcept (fun error => .error (.configuration error)) construction.call
  | .setData key value => discard (modifyGet fun machine => machine.set key value)
  | .start => Run.start depth
  | .finish => Run.finish depth
  | .trigger transition memo => discard (Run.triggerHandle depth transition memo)
  | .triggerNamed name memo => discard (Run.triggerNamed depth name memo)
  | .completion state => Run.completion depth state
  | .frame handle now => Run.frame depth handle now
  | .advance now => discard (Run.advance depth now)

def runs : Request → Bool
  | .construct _ | .setData _ _ => false
  | _ => true

/-- The request returns, with an answer or with an error, and leaves the machine. -/
def Returns (request : Request) (before : Machine) (answer : Except MachineError Unit)
    (after : Machine) : Prop :=
  ∃ depth, Run.attempt (request.run depth) before = .ok answer after

theorem Returns.ends {request : Request} {before after : Machine}
    {answer : Except MachineError Unit} {finished : Unit → Machine → Prop}
    {failed : Halt → Machine → Prop} (returns : request.Returns before answer after)
    (ends : ∀ depth, Ends (request.run depth) before finished failed) :
    (answer = .ok () ∧ finished () after) ∨
      ∃ error, answer = .error error ∧ failed (.error error) after := by
  obtain ⟨depth, result⟩ := returns
  rcases Run.ends_of_attempt (ends depth) result with ⟨⟨⟩, answered, finishes⟩ | failure
  · exact Or.inl ⟨answered, finishes⟩
  · exact Or.inr failure

theorem ends_adaptExcept {machine : Machine} {construct : Construct Unit}
    {finished : Unit → Machine → Prop} {failed : Halt → Machine → Prop} :
    Ends (EStateM.adaptExcept (fun error => Halt.error (.configuration error)) construct) machine
      finished failed ↔
      Ends construct machine finished fun error after =>
        failed (.error (.configuration error)) after := by
  unfold Ends EStateM.adaptExcept
  cases construct machine <;> exact Iff.rfl

/-- The transitions a request may create at the owner's wish. -/
def creates : Request → Transition → Prop
  | .construct construction => construction.creates
  | _ => fun _ => False

/-- A call that runs nothing lets the chart grow, every other one is a sequence of changes. -/
def Evolves (request : Request) (before after : Machine) : Prop :=
  Machine.Becomes request.creates before after ∨ Machine.Changes before after

/-- One case for each request that runs the machine; its callbacks may do anything that the
discipline permits. -/
theorem kept_run {discipline : Run.Discipline} (sound : discipline.Sound)
    (refuses : discipline.Refuses) (ticks : discipline.Ticks)
    (kept : ∀ depth, discipline.KeptBy (Run.calls depth))
    (taken : ∀ {machine : Machine}, discipline.fit machine →
      discipline.finished machine machine.framesTaken)
    {request : Request} (runs : request.runs = true)
    (enters : request = .start → ∀ depth, discipline.Kept ((Run.calls depth).enter Machine.root))
    (depth : Nat) :
    discipline.Kept (request.run depth) := by
  have acts := sound.acts (kept depth) ticks
  cases request with
  | construct _ | setData _ _ => cases runs
  | start => exact Run.Discipline.kept_start sound.toLawful refuses (enters rfl (depth + 1))
  | finish =>
      exact Run.Discipline.kept_finish sound.toLawful refuses
        (Run.Discipline.kept_exit sound (kept depth) _)
  | trigger id memo => exact ((kept (depth + 1)).trigger id memo).discard
  | triggerNamed name memo =>
      exact (Run.Discipline.kept_triggerNamed sound.toLawful (kept (depth + 1)).trigger name
        memo).discard
  | completion state =>
      exact Run.Discipline.kept_completion sound.toLawful refuses
        (Run.Discipline.kept_completeState sound (kept depth) state)
  | frame handle now => exact Run.Discipline.kept_frame ticks sound.toLawful acts handle now
  | advance now => exact (Run.Discipline.kept_advance ticks sound.toLawful acts taken now).discard

/-- A contract that the operations keep tells how a machine is left when such a request returns. -/
theorem Returns.keeps {contract : Run.Contract} (sound : contract.Sound)
    (kept : ∀ depth, contract.KeptBy (Run.calls depth)) {request : Request} {before after : Machine}
    {answer : Except MachineError Unit} (returns : request.Returns before answer after)
    (runs : request.runs = true) (abides : before.Abides contract.permits) :
    (answer = .ok () ∧ contract.finished before after) ∨
      ∃ error, answer = .error error ∧ contract.halted (.error error) before after :=
  returns.ends fun depth => kept_run sound.discipline sound.toLawful.refuses sound.toLawful.ticks
    (fun depth => (kept depth).toKeptBy) (fun _ => sound.passes (Machine.Passes.queued _ _)) runs
    (fun _ depth => (kept depth).enter Machine.root) depth before abides

private theorem changing_run {request : Request} (runs : request.runs = true) (depth : Nat) :
    (Run.changing True).Kept (request.run depth) :=
  kept_run (Run.sound_changing True) (Run.refuses_changing True) (Run.ticks_changing True)
    (fun depth => (Run.calls_changing True depth).toKeptBy)
    (fun _ => (Machine.Change.takeFrames trivial).one) runs
    (fun _ depth machine sound => (Run.calls_changing True depth).enter machine _ sound
      (Or.inr trivial)) depth

theorem Returns.changes {request : Request} {before after : Machine}
    {answer : Except MachineError Unit} (returns : request.Returns before answer after)
    (runs : request.runs = true) : Machine.Changes before after := by
  rcases returns.ends fun depth => changing_run runs depth before (Or.inl trivial) with
    ⟨_, changes⟩ | ⟨_, _, changes⟩
  · exact changes
  · exact changes

/-- What the call itself does before its callbacks and cascades: starting enters the root, advancing
takes the pending frames. -/
inductive Opens : Request → Machine → Machine → Prop
  | nothing {request : Request} {before : Machine} : Opens request before before
  | root {before : Machine} {node : StateNode} (found : before.state? Machine.root = some node)
      (inactive : node.status.isActive = false) :
      Opens .start before (before.entered Machine.root node.name)
  | frames {before : Machine} {now : Duration} : Opens (.advance now) before before.framesTaken

theorem Opens.changes {request : Request} {before opened : Machine}
    (opens : request.Opens before opened) : Machine.Changes before opened := by
  cases opens with
  | nothing => exact Relation.ReflTransGen.refl
  | root found inactive => exact (Machine.Change.enter found inactive (Or.inr (Or.inr trivial))).one
  | frames => exact (Machine.Change.takeFrames trivial).one

/-- Everything else a call does is a cascade. -/
def Cascades (request : Request) (before after : Machine) : Prop :=
  ∃ opened, request.Opens before opened ∧ Machine.Cascade opened after

private theorem ends_run_cascades {request : Request} {before : Machine} (formed : before.Formed)
    (linked : before.Linked) (built : ∀ construction, request ≠ .construct construction)
    (depth : Nat) :
    Ends (request.run depth) before (fun _ after => request.Cascades before after)
      (fun _ after => request.Cascades before after) := by
  have right : Run.Sound False before := Or.inr ⟨formed, linked⟩
  have calls := Run.calls_changing False (depth + 1)
  have plain {run : Run Unit} (changing : (Run.changing False).Kept run) :
      Ends run before (fun _ after => request.Cascades before after)
        (fun _ after => request.Cascades before after) :=
    (changing before right).mono (fun _ _ cascade => ⟨before, .nothing, cascade⟩)
      fun _ _ cascade => ⟨before, .nothing, cascade⟩
  cases request with
  | construct construction => exact absurd rfl (built construction)
  | setData key value =>
      unfold run
      rw [ends_discard, ends_modifyGet]
      exact ⟨before, .nothing, (Machine.Change.write key value).one⟩
  | start =>
      refine (Run.cascading_start formed linked depth).mono ?_ ?_
      · rintro _ after ⟨node, found, inactive, cascade⟩
        exact ⟨_, .root found inactive, cascade⟩
      · rintro _ after (cascade | ⟨node, found, inactive, cascade⟩)
        · exact ⟨before, .nothing, cascade⟩
        · exact ⟨_, .root found inactive, cascade⟩
  | finish => exact plain (Run.changing_finish depth)
  | trigger transition memo => exact plain (calls.trigger transition memo).discard
  | triggerNamed name memo =>
      exact plain (Run.Discipline.kept_triggerNamed (Run.lawful_changing False) calls.trigger name
        memo).discard
  | completion state => exact plain (Run.changing_completion depth state)
  | frame handle now => exact plain (Run.changing_frame depth handle now)
  | advance now =>
      unfold run
      rw [ends_discard]
      exact (Run.ends_advance_taken right depth now).mono
        (fun _ _ cascade => ⟨_, .frames, cascade⟩) fun _ _ cascade => ⟨_, .frames, cascade⟩

theorem Returns.becomes {construction : Construction} {before after : Machine}
    {answer : Except MachineError Unit}
    (returns : (Request.construct construction).Returns before answer after)
    (formed : before.Formed) : Machine.Becomes construction.creates before after := by
  have ends (depth : Nat) : Ends ((Request.construct construction).run depth) before
      (fun _ after => Machine.Becomes construction.creates before after)
      (fun _ after => Machine.Becomes construction.creates before after) :=
    ends_adaptExcept.mpr (construction.growing_call before formed)
  rcases returns.ends ends with ⟨_, becomes⟩ | ⟨_, _, becomes⟩
  · exact becomes
  · exact becomes

theorem Returns.prepares {request : Request} {before after : Machine}
    {answer : Except MachineError Unit} (returns : request.Returns before answer after)
    (formed : before.Formed) (idle : request.runs = false) :
    Machine.Becomes request.creates before after ∨ Machine.Still before after := by
  cases request with
  | construct construction => exact Or.inl (returns.becomes formed)
  | setData key value =>
      have ends (depth : Nat) : Ends ((Request.setData key value).run depth) before
          (fun _ after => Machine.Still before after)
          (fun _ after => Machine.Still before after) := by
        unfold run
        rw [ends_discard, ends_modifyGet]
        exact (Machine.TouchesOnly.write Machine.root before key value).toStill
      rcases returns.ends ends with ⟨_, still⟩ | ⟨_, _, still⟩
      · exact Or.inr still
      · exact Or.inr still
  | _ => cases idle

/-- A call that builds lets the chart grow, every other one is a cascade from where it opens. -/
theorem Returns.develops {request : Request} {before after : Machine}
    {answer : Except MachineError Unit} (returns : request.Returns before answer after)
    (formed : before.Formed) (linked : before.Linked) :
    Machine.Grown before after ∨ request.Cascades before after := by
  by_cases built : ∃ construction, request = .construct construction
  · obtain ⟨construction, rfl⟩ := built
    exact Or.inl (returns.becomes formed).grown
  · have other (construction : Construction) : request ≠ .construct construction :=
      fun same => built ⟨construction, same⟩
    rcases returns.ends (ends_run_cascades formed linked other) with ⟨_, found⟩ | ⟨_, _, found⟩
    · exact Or.inr found
    · exact Or.inr found

theorem Returns.evolves {request : Request} {before after : Machine}
    {answer : Except MachineError Unit} (returns : request.Returns before answer after)
    (formed : before.Formed) : request.Evolves before after := by
  cases runs : request.runs with
  | true => exact Or.inr (returns.changes runs)
  | false =>
      rcases returns.prepares formed runs with becomes | still
      · exact Or.inl becomes
      · exact Or.inr still.changes

end Request

/-! ### Sessions -/

abbrev Terms := Machine → Request → Except MachineError Unit → Machine → Prop

/-- One call on the given terms. -/
def Serves (terms : Terms) (before after : Machine) : Prop :=
  ∃ request answer, request.Returns before answer after ∧ terms before request answer after

/-- Any number of calls on the given terms. -/
abbrev Session (terms : Terms) : Machine → Machine → Prop :=
  Relation.ReflTransGen (Serves terms)

/-- Every call is welcome. -/
def anyTerms : Terms := fun _ _ _ _ => True

def answered : Terms := fun _ _ answer _ => answer = .ok ()

/-- A new machine comes to this one in a session on the given terms. -/
def Machine.Reached (terms : Terms) (machine : Machine) : Prop :=
  ∃ name names, Session terms (Machine.new name names) machine

theorem Session.weaken {terms wider : Terms} {before after : Machine}
    (session : Session terms before after)
    (weaker : ∀ before request answer after, terms before request answer after →
      wider before request answer after) : Session wider before after := by
  refine Relation.ReflTransGen.mono (fun first last serves => ?_) _ _ session
  obtain ⟨request, answer, returns, meets⟩ := serves
  exact ⟨request, answer, returns, weaker _ _ _ _ meets⟩

theorem Machine.Reached.weaken {terms wider : Terms} {machine : Machine}
    (reached : machine.Reached terms)
    (weaker : ∀ before request answer after, terms before request answer after →
      wider before request answer after) : machine.Reached wider := by
  obtain ⟨name, names, session⟩ := reached
  exact ⟨name, names, session.weaken weaker⟩

namespace Request.Evolves

variable {request : Request} {before after : Machine}

theorem formed (evolves : request.Evolves before after) (formed : before.Formed) :
    after.Formed := by
  rcases evolves with becomes | changes
  · exact becomes.formed
  · exact formed.of_sameChart changes.sameChart

theorem linked (evolves : request.Evolves before after) (linked : before.Linked) :
    after.Linked := by
  rcases evolves with becomes | changes
  · exact becomes.grown.linked linked
  · exact changes.linked linked

theorem calm {mayFail : Prop} (evolves : request.Evolves before after)
    (calm : after.Calm mayFail) : before.Calm mayFail := by
  rcases evolves with becomes | changes
  · exact calm.before_grown becomes.grown
  · exact calm.before_sameChart changes.sameChart

end Request.Evolves

/-! ### Sessions that are written down -/

/-- Fires a transition by its name and fails when that fails. -/
def firing (name : String) : Effect :=
  fun _ => .fire (.name name) .null fun answer =>
    match answer with
    | .ok _ => .done
    | .error error => .fail error

def oneSecond : Duration := .ofMillis 1000 (Nat.le_of_ble_eq_true rfl)

/-- Carries out one request after the other, as long as all are answered. -/
def Request.play (depth : Nat) : List Request → Machine → Option Machine
  | [], machine => some machine
  | request :: rest, machine =>
      match request.run depth machine with
      | .ok _ after => play depth rest after
      | .error _ _ => none

/-- The requests are listed, and every call is answered. -/
def played (requests : List Request) : Terms := fun _ request answer _ =>
  request ∈ requests ∧ answer = .ok ()

private theorem session_of_play {depth : Nat} {requests : List Request} {before after : Machine}
    (plays : Request.play depth requests before = some after) :
    Session (played requests) before after := by
  -- By induction on the requests.
  induction requests generalizing before with
  | nil =>
      obtain rfl := Option.some.inj plays
      exact Relation.ReflTransGen.refl
  | cons request rest ih =>
      unfold Request.play at plays
      split at plays
      · rename_i answer middle finishes
        refine Relation.ReflTransGen.head
          ⟨request, .ok (), ⟨depth, ?_⟩, List.mem_cons_self .., rfl⟩ ((ih plays).weaken ?_)
        · unfold Run.attempt
          rw [finishes]
        · exact fun _ _ _ _ call => ⟨List.mem_cons_of_mem _ call.1, call.2⟩
      · cases plays

/-- The machine the requests lead to, or the one before them if they are not all answered. -/
def Request.outcome (depth : Nat) (requests : List Request) (machine : Machine) : Machine :=
  (Request.play depth requests machine).getD machine

theorem session_outcome {depth : Nat} {requests : List Request} {machine : Machine}
    (plays : (Request.play depth requests machine).isSome = true) :
    Session (played requests) machine (Request.outcome depth requests machine) := by
  obtain ⟨after, ends⟩ := Option.isSome_iff_exists.mp plays
  unfold Request.outcome
  rw [ends]
  exact session_of_play ends

theorem returns_outcome {depth : Nat} {request : Request} {machine : Machine}
    (plays : (Request.play depth [request] machine).isSome = true) :
    request.Returns machine (.ok ()) (Request.outcome depth [request] machine) := by
  refine ⟨depth, ?_⟩
  unfold Request.outcome Run.attempt
  unfold Request.play at plays ⊢
  cases result : request.run depth machine with
  | ok _ after => rfl
  | error halt after =>
      rw [result] at plays
      cases plays

def Request.refusal (depth : Nat) (request : Request) (machine : Machine) : Option MachineError :=
  match request.run depth machine with
  | .error (.error error) _ => some error
  | _ => none

def Request.aftermath (depth : Nat) (request : Request) (machine : Machine) : Machine :=
  match request.run depth machine with
  | .ok _ after | .error _ after => after

theorem returns_aftermath {depth : Nat} {request : Request} {machine : Machine}
    {error : MachineError} (refused : request.refusal depth machine = some error) :
    request.Returns machine (.error error) (request.aftermath depth machine) := by
  refine ⟨depth, ?_⟩
  unfold Request.aftermath Run.attempt
  unfold Request.refusal at refused
  split at refused
  · rename_i fails
    rw [fails, Option.some.inj refused]
  · cases refused

theorem Session.keeps {terms : Terms} {before after : Machine}
    (session : Session terms before after)
    (formed : before.Formed) {kept : Machine → Prop} (holds : kept before)
    (step : ∀ (first last : Machine) (request : Request), first.Formed →
      request.Evolves first last → kept first → kept last) : after.Formed ∧ kept after := by
  induction session with
  | refl => exact ⟨formed, holds⟩
  | tail _ serves ih =>
      obtain ⟨request, answer, returns, _⟩ := serves
      have evolves := returns.evolves ih.1
      exact ⟨evolves.formed ih.1, step _ _ request ih.1 evolves ih.2⟩

theorem Session.runs {terms : Terms} {before after : Machine} (session : Session terms before after)
    (formed : before.Formed) {state : StateId} {node : StateNode}
    (found : before.state? state = some node) :
    ∃ node', after.state? state = some node' ∧ ∀ behavior, node'.Runs behavior ↔
    node.Runs behavior := by
  let Kept (machine : Machine) : Prop :=
    ∃ node', machine.state? state = some node' ∧ ∀ behavior, node'.Runs behavior ↔
    node.Runs behavior
  refine (@Session.keeps terms before after session formed Kept ⟨node, found, fun _ => Iff.rfl⟩
    fun first last request _ evolves known => ?_).2
  obtain ⟨earlier, foundEarlier, same⟩ := known
  rcases evolves with becomes | changes
  · obtain ⟨later, foundLater, grown⟩ := becomes.grown.states state earlier foundEarlier
    have equal (behavior : Behavior) := StateNode.read_lasting grown.lasting
      (fun node => node.Runs behavior) fun _ => rfl
    exact ⟨later, foundLater, fun behavior => by rw [← same, equal]⟩
  · obtain ⟨later, foundLater, fixed⟩ := changes.sameChart.state?_forward foundEarlier
    have equal (behavior : Behavior) := StateNode.read_eq fixed
      (fun node => node.Runs behavior) fun _ => rfl
    exact ⟨later, foundLater, fun behavior => by rw [← same, equal]⟩

theorem Session.formed {terms : Terms} {before after : Machine}
    (session : Session terms before after) (formed : before.Formed) : after.Formed :=
  (@Session.keeps terms before after session formed (fun _ => True) trivial
    fun _ _ _ _ _ known => known).1

theorem Session.linked {terms : Terms} {before after : Machine}
    (session : Session terms before after) (formed : before.Formed) (linked : before.Linked) :
    after.Linked :=
  (session.keeps formed linked fun _ _ _ _ evolves known => evolves.linked known).2

theorem Session.calm {terms : Terms} {mayFail : Prop} {before after : Machine}
    (session : Session terms before after) (formed : before.Formed) (calm : after.Calm mayFail) :
    before.Calm mayFail := by
  induction session with
  | refl => exact calm
  | @tail middle after earlier serves ih =>
      obtain ⟨request, answer, returns, _⟩ := serves
      have formedMiddle := Session.formed earlier formed
      exact ih ((returns.evolves formedMiddle).calm calm)

/-- What one call keeps under a condition that each call had before it if it has it after, a session
keeps that ends under the condition. -/
theorem Session.keeps_under {terms : Terms} {before after : Machine}
    (session : Session terms before after) (formed : before.Formed) (linked : before.Linked)
    {condition : Machine → Prop} (back : ∀ (request : Request) (first last : Machine),
      request.Evolves first last → condition last → condition first) (holds : condition after)
    (kept : Machine → Prop) (begins : kept before)
    (step : ∀ first request answer last, first.Formed → first.Linked → condition first →
      request.Returns first answer last → terms first request answer last → kept first →
      kept last) : kept after := by
  induction session with
  | refl => exact begins
  | @tail middle after earlier serves ih =>
      obtain ⟨request, answer, returns, meets⟩ := serves
      have formedMiddle := Session.formed earlier formed
      have holdsMiddle := back request middle after (returns.evolves formedMiddle) holds
      exact step middle request answer after formedMiddle (Session.linked earlier formed linked)
        holdsMiddle returns meets (ih holdsMiddle)

theorem Session.keeps_calmly {terms : Terms} {mayFail : Prop} {before after : Machine}
    (session : Session terms before after) (formed : before.Formed) (linked : before.Linked)
    (calm : after.Calm mayFail) (kept : Machine → Prop) (holds : kept before)
    (step : ∀ first request answer last, first.Formed → first.Linked → first.Calm mayFail →
      request.Returns first answer last → terms first request answer last → kept first →
      kept last) : kept after :=
  session.keeps_under formed linked (fun _ _ _ evolves calm => evolves.calm calm) calm
  kept holds step

namespace Machine

theorem linked_new (name : String) (names : NameSource) : (Machine.new name names).Linked := by
  obtain ⟨bare, grown, noRegions, _, noFrames, noJournal, onlyRoot⟩ := grown_new name names
  refine grown.linked
    { choices := ?_
      lastActive := ?_
      frames := ?_
      retold := ?_ }
  · intro state node target transition found chosen
    rw [onlyRoot state node found] at chosen
    cases chosen
  · intro region members last found _
    unfold region? at found
    rw [noRegions] at found
    cases found
  · intro handle pending
    rw [noFrames] at pending
    cases pending
  · constructor
    · intro state
      rw [noJournal]
      change false = bare.isStateActive state
      unfold isStateActive
      cases found : bare.state? state with
      | none => rfl
      | some node =>
          rw [onlyRoot state node found]
          rfl
    · intro region
      rw [noJournal]
      change false = bare.isRegionActive region
      unfold isRegionActive region?
      rw [noRegions]
      rfl

theorem Reached.formed {terms : Terms} {machine : Machine} (reached : machine.Reached terms) :
    machine.Formed := by
  obtain ⟨name, names, session⟩ := reached
  exact session.formed (formed_new name names)

theorem Reached.linked {terms : Terms} {machine : Machine} (reached : machine.Reached terms) :
    machine.Linked := by
  obtain ⟨name, names, session⟩ := reached
  exact session.linked (formed_new name names) (linked_new name names)

private theorem clocked_new (name : String) (names : NameSource) :
    (Machine.new name names).Clocked := by
  obtain ⟨bare, grown, _, _, _, _, onlyRoot⟩ := grown_new name names
  refine grown.clocked fun state node found => ?_
  obtain rfl := onlyRoot state node found
  exact StateNode.Clocked.of_stopped rfl (fun _ impossible => by cases impossible)
    fun _ => ⟨rfl, rfl⟩

theorem awaited_new (name : String) (names : NameSource) :
    (Machine.new name names).Awaited [] := by
  obtain ⟨bare, grown, _, _, _, _, onlyRoot⟩ := grown_new name names
  refine grown.awaited fun state node found running => ?_
  obtain rfl := onlyRoot state node found
  cases running

theorem Reached.clocked {terms : Terms} {machine : Machine} (reached : machine.Reached terms) :
    machine.Clocked := by
  obtain ⟨name, names, session⟩ := reached
  refine (session.keeps (formed_new name names) (clocked_new name names)
    fun _ _ _ _ evolves clocked => ?_).2
  rcases evolves with becomes | changes
  · exact becomes.grown.clocked clocked
  · exact changes.clocked clocked

end Machine

end Chart
