import Chart.Proofs.Run.Change
import Chart.Proofs.Run.Ends

set_option autoImplicit false

/-!
Disciplines of the operations. A discipline says which behaviours callbacks may have, which machines
an operation has to be able to start from, and how it may leave them when it finishes and when it
halts. The rules here put disciplined runs together, the way the operations are put together; they
need no more than that machines stay fit, that what was done in two parts was done, and that the
events that tell of nothing in particular are allowed.
-/

namespace Chart

/-- Tells of nothing that was entered, left, timed, decided, asked for or fired, and of no mistake
in the chart. -/
def Event.isRoutine : Event → Bool
  | .notice (.entrySkipped _ _) | .notice (.activationSkipped _ _) => true
  | .notice (.historyResumes _ _) | .notice .machineCompleted | .notice (.misuse _) => true
  | .notice (.ignored _ _ _) | .notice (.rejected _ _) => true
  | .notice (.firingInternal _ _) | .notice (.firing _ _ _ _) | .note _ => true
  | _ => false

theorem Event.isPlain_of_isRoutine {event : Event} (routine : event.isRoutine = true) :
    event.isPlain = true := by
  cases event with
  | notice notice => cases notice <;> first | rfl | cases routine
  | _ => first | rfl | cases routine

namespace Run

open Machine (SameChart)

@[simp] theorem ends_noteAll {machine : Machine} {ended : Unit → Machine → Prop}
    {failed : Halt → Machine → Prop} (texts : List String) :
    Ends (noteAll texts) machine ended failed ↔ ended () (machine.notedAll texts) := Iff.rfl

/-- What callbacks are permitted, which machines are fit to start from, and how an operation may
leave such a machine when it finishes and when it halts. -/
structure Discipline where
  permits : Behavior → Prop
  fit : Machine → Prop
  finished : Machine → Machine → Prop
  halted : Halt → Machine → Machine → Prop

namespace Discipline

variable {Answer Other : Type}

def KeptFrom (discipline : Discipline) (run : Run Answer) (machine : Machine) : Prop :=
  Ends run machine (fun _ after => discipline.finished machine after)
    fun halt after => discipline.halted halt machine after

def Kept (discipline : Discipline) (run : Run Answer) : Prop :=
  ∀ machine : Machine, discipline.fit machine → discipline.KeptFrom run machine

/-- What every operation relies on. What is asked of entries differs from one discipline to the
other. -/
structure KeptBy (discipline : Discipline) (calls : Calls) : Prop where
  trigger : ∀ id memo, discipline.Kept (calls.trigger id memo)
  completeRegion : ∀ region, discipline.Kept (calls.completeRegion region)

structure KeptAnywhere (discipline : Discipline) (calls : Calls) : Prop
    extends discipline.KeptBy calls where
  enter : ∀ state, discipline.Kept (calls.enter state)
  activate : ∀ state, discipline.Kept (calls.activate state)

/-- Machines stay fit, and what follows a finished part counts for the whole. -/
structure Lawful (discipline : Discipline) : Prop where
  same : ∀ {before after}, discipline.finished before after → SameChart before after
  fit : ∀ {before after}, discipline.fit before → discipline.finished before after →
    discipline.fit after
  refl : ∀ {machine}, discipline.fit machine → discipline.finished machine machine
  trans : ∀ {before middle after}, discipline.finished before middle →
    discipline.finished middle after → discipline.finished before after
  halts : ∀ {before middle after halt}, discipline.finished before middle →
    discipline.halted halt middle after → discipline.halted halt before after
  note : ∀ {machine event}, discipline.fit machine → event.isRoutine = true →
    discipline.finished machine (machine.note event)
  exhausted : ∀ {machine}, discipline.fit machine → discipline.halted .exhausted machine machine
  misconfigured : ∀ {machine} error, discipline.fit machine →
    discipline.halted (.error (.configuration error)) machine
      (machine.note (.notice (.misconfiguration error)))

/-- A call from outside that is misused may end there. -/
structure Refuses (discipline : Discipline) : Prop where
  misused : ∀ {machine} error, discipline.fit machine →
    discipline.halted (.error (.usage error)) machine machine

/-- A callback may fail, and one whose request fails may go on as if it had finished. -/
structure Lenient (discipline : Discipline) : Prop where
  failed : ∀ {machine} error, discipline.fit machine →
    discipline.halted (.error error) machine machine
  caught : ∀ {before after error}, discipline.halted (.error error) before after →
    discipline.finished before after
  written : ∀ {machine} key value, discipline.fit machine →
    discipline.finished machine (machine.set key value).2

/-- Whether an operation finishes or fails makes no difference, and nothing is asked where the depth
was exhausted. -/
def throughout (permits : Behavior → Prop) (fit : Machine → Prop)
    (kept : Machine → Machine → Prop) : Discipline where
  permits := permits
  fit := fit
  finished := kept
  halted halt before after := halt = .exhausted ∨ kept before after

section Rules

variable {discipline : Discipline} {before machine : Machine}

theorem KeptFrom.after {run : Run Answer} (lawful : discipline.Lawful)
    (kept : discipline.KeptFrom run machine) (earlier : discipline.finished before machine) :
    Ends run machine (fun _ after => discipline.finished before after)
      fun halt after => discipline.halted halt before after :=
  Ends.mono kept (fun _ _ later => lawful.trans earlier later)
    fun _ _ halted => lawful.halts earlier halted

theorem KeptFrom.bind {first : Run Other} {next : Other → Run Answer} (lawful : discipline.Lawful)
    (kept : discipline.KeptFrom first machine) (keptNext : ∀ answer after,
      discipline.finished machine after → discipline.KeptFrom (next answer) after) :
    discipline.KeptFrom (first >>= next) machine := by
  unfold KeptFrom
  rw [ends_bind]
  apply Ends.mono kept
  · intro answer after finished
    exact (keptNext answer after finished).after lawful finished
  · exact fun _ _ halted => halted

theorem KeptFrom.get {next : Machine → Run Answer}
    (kept : discipline.KeptFrom (next machine) machine) :
    discipline.KeptFrom (get >>= next) machine := by
  unfold KeptFrom
  rw [ends_bind, ends_get]
  exact kept

theorem KeptFrom.discard {run : Run Answer} (kept : discipline.KeptFrom run machine) :
    discipline.KeptFrom (discard run) machine := by
  unfold KeptFrom
  rw [ends_discard]
  exact kept

theorem Kept.discard {run : Run Answer} (kept : discipline.Kept run) :
    discipline.Kept (discard run) :=
  fun machine fit => (kept machine fit).discard

theorem kept_get {next : Machine → Run Answer}
    (kept : ∀ machine : Machine, discipline.fit machine →
      discipline.KeptFrom (next machine) machine) : discipline.Kept (get >>= next) :=
  fun machine fit => (kept machine fit).get

variable (lawful : discipline.Lawful)
include lawful

theorem kept_pure (answer : Answer) : discipline.Kept (pure answer : Run Answer) :=
  fun _ fit => lawful.refl fit

theorem Kept.bind {first : Run Other} {next : Other → Run Answer} (kept : discipline.Kept first)
    (keptNext : ∀ answer, discipline.Kept (next answer)) : discipline.Kept (first >>= next) :=
  fun machine fit => (kept machine fit).bind lawful fun answer after finished =>
    keptNext answer after (lawful.fit fit finished)

theorem kept_note {event : Event} (routine : event.isRoutine = true) :
    discipline.Kept (note event) :=
  fun _ fit => lawful.note fit routine

theorem kept_warn (error : UsageError) : discipline.Kept (warn error) :=
  kept_note lawful rfl

theorem kept_misuse (refuses : discipline.Refuses) (error : UsageError) :
    discipline.Kept (do
      warn error
      raise (.usage error) : Run Answer) :=
  Kept.bind lawful (kept_warn lawful error) fun _ _ fit => refuses.misused error fit

theorem kept_fail (error : ConfigurationError) : discipline.Kept (fail error : Run Answer) :=
  fun _ fit => lawful.misconfigured error fit

theorem finished_notedAll (fit : discipline.fit machine) (texts : List String) :
    discipline.finished machine (machine.notedAll texts) := by
  induction texts generalizing machine with
  | nil => exact lawful.refl fit
  | cons text rest ih =>
      have noted : discipline.finished machine (machine.note (.note text)) := lawful.note fit rfl
      exact lawful.trans noted (ih (lawful.fit fit noted))

private theorem kept_noteAll (texts : List String) : discipline.Kept (noteAll texts) :=
  fun _ fit => finished_notedAll lawful fit texts

theorem kept_forM {Item : Type} (items : List Item) (step : Item → Run PUnit)
    (kept : ∀ item, discipline.Kept (step item)) : discipline.Kept (items.forM step) := by
  induction items with
  | nil => exact kept_pure lawful _
  | cons item rest ih => exact Kept.bind lawful (kept item) fun _ => ih

section Triggers

variable {calls : Calls} (triggers : ∀ id memo, discipline.Kept (calls.trigger id memo))
include triggers

theorem kept_triggerNamed (name : String) (memo : Value) :
    discipline.Kept (calls.triggerNamed name memo) := by
  apply kept_get
  intro machine fit
  split
  · exact triggers _ memo machine fit
  · exact kept_fail lawful _ machine fit

theorem kept_triggerReference (reference : TransitionReference) (memo : Value) :
    discipline.Kept (calls.triggerReference reference memo) := by
  cases reference with
  | handle transition => exact triggers transition memo
  | name name => exact kept_triggerNamed lawful triggers name memo

theorem kept_followInitial (region : RegionId) : discipline.Kept (followInitial calls region) := by
  apply kept_get
  intro machine fit
  split
  · exact kept_fail lawful _ machine fit
  · apply Kept.bind lawful (triggers _ _) _ machine fit
    intro outcome
    cases outcome with
    | fired => exact kept_pure lawful _
    | _ => exact kept_fail lawful _

end Triggers

theorem kept_guardAccepts (transition : Transition) (source : StateId) (memo : Value) :
    discipline.Kept (guardAccepts transition source memo) := by
  unfold guardAccepts
  split
  · exact kept_pure lawful _
  · apply kept_get
    exact fun machine fit =>
      Kept.bind lawful (kept_noteAll lawful _) (fun _ => kept_pure lawful _) machine fit

end Rules

/-! ### Lenient disciplines -/

section Lenient

variable {discipline : Discipline}

private theorem Kept.attempt {run : Run Answer} (lenient : discipline.Lenient)
    (kept : discipline.Kept run) : discipline.Kept (attempt run) := by
  intro machine fit
  unfold KeptFrom
  rw [ends_attempt]
  apply Ends.mono (kept machine fit)
  · exact fun _ _ finished => finished
  · intro halt after halted
    cases halt with
    | error error => exact lenient.caught halted
    | exhausted => exact halted

theorem kept_behave (lawful : discipline.Lawful) (lenient : discipline.Lenient) {calls : Calls}
    (triggers : ∀ id memo, discipline.Kept (calls.trigger id memo)) (state : StateId)
    (behavior : Behavior) :
    discipline.Kept (behave calls state behavior) := by
  -- By induction on the behaviour.
  induction behavior with
  | done => exact kept_pure lawful _
  | fail error => exact fun _ fit => lenient.failed error fit
  | note text next ih => exact Kept.bind lawful (kept_note lawful rfl) fun _ => ih
  | look next ih =>
      apply kept_get
      exact fun machine fit => ih (machine.view state) machine fit
  | write key value next ih =>
      apply Kept.bind lawful _ ih
      exact fun _ fit => lenient.written key value fit
  | fire reference memo next ih =>
      exact Kept.bind lawful
        (kept_triggerReference lawful triggers reference memo |>.attempt lenient) ih

end Lenient

section Throughout

variable {permits : Behavior → Prop} {fit : Machine → Prop} {kept : Machine → Machine → Prop}

theorem lawful_throughout (same : ∀ {before after}, kept before after → SameChart before after)
    (stays : ∀ {before after}, fit before → kept before after → fit after)
    (refl : ∀ {machine}, fit machine → kept machine machine)
    (trans : ∀ {before middle after}, kept before middle → kept middle after → kept before after)
    (note : ∀ {machine : Machine} {event : Event}, fit machine → event.isRoutine = true →
      kept machine (machine.note event))
    (mistaken : ∀ {machine : Machine} error, fit machine →
      kept machine (machine.note (.notice (.misconfiguration error)))) :
    (throughout permits fit kept).Lawful where
  same := same
  fit := stays
  refl := refl
  trans := trans
  halts := fun first second => second.imp_right (trans first)
  note := note
  exhausted := fun _ => Or.inl rfl
  misconfigured := fun error fits => Or.inr (mistaken error fits)

theorem refuses_throughout (refl : ∀ {machine}, fit machine → kept machine machine) :
    (throughout permits fit kept).Refuses where
  misused := fun _ fits => Or.inr (refl fits)

theorem kept_of_attempt {run : Run Answer} {machine after : Machine}
    {answer : Except MachineError Answer} (keeps : (throughout permits fit kept).Kept run)
    (fits : fit machine) (result : attempt run machine = .ok answer after) :
    kept machine after := by
  rcases ends_of_attempt (keeps machine fits) result with
    ⟨_, _, finished⟩ | ⟨_, _, impossible | failed⟩
  · exact finished
  · cases impossible
  · exact failed

theorem lenient_throughout (refl : ∀ {machine}, fit machine → kept machine machine)
    (written : ∀ {machine : Machine} key value, fit machine →
      kept machine (machine.set key value).2) : (throughout permits fit kept).Lenient where
  failed := fun _ fits => Or.inr (refl fits)
  caught := fun halted => halted.resolve_left (by simp)
  written := written

end Throughout

end Discipline
end Run
end Chart
