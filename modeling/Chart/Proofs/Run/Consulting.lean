import Chart.Proofs.Run.OfferedOperations

set_option autoImplicit false

/-!
Choices are asked when they are entered. The decision of a choice answers once, and the transition
that the choice has on file for the answer is requested; it is filed when the name is answered for
the first time. Nothing else a run does touches the files of the choices or adds a transition, so
what is on file stays there, whatever the callbacks do. Only a run that is exhausted may stop
between the answer and the request.
-/

namespace Chart

/-- Tells that a choice was entered, or what a decision answered. -/
def Event.consults (machine : Machine) : Event → Bool
  | .notice (.entered state _) => machine.kindOf? state == some .choice
  | .decided _ _ => true
  | _ => false

namespace Machine

def filed? (machine : Machine) (choice : StateId) (target : String) : Option TransitionId :=
  (machine.state? choice).bind fun node => Dictionary.find? node.choices target

/-- What is told while a choice is asked, `seen` being the machine its decision looks at. Either
the transition on file for the answer is requested, or the answer means no state as seen from the
region of the choice. -/
inductive Consultation (machine : Machine) : List Event → Prop
  | answered {choice : StateId} {node : StateNode} {decision : Decision} {seen : Machine}
      {target : String} {id : TransitionId} (found : machine.state? choice = some node)
      (isChoice : node.kind = .choice) (decides : node.decision = some decision)
      (answer : (decision (seen.view choice)).answer = some target)
      (filed : machine.filed? choice target = some id) :
      Consultation machine (.notice (.entered choice node.name) :: .decided choice (some target) ::
        (decision (seen.view choice)).notes.map .note ++ [.requested id])
  | unanswered {choice : StateId} {node : StateNode} {decision : Decision} {seen : Machine}
      (found : machine.state? choice = some node) (isChoice : node.kind = .choice)
      (decides : node.decision = some decision)
      (nowhere : ∀ target region, (decision (seen.view choice)).answer = some target →
        node.container = some region → machine.resolveState? region target = none) :
      Consultation machine (.notice (.entered choice node.name) ::
        .decided choice (decision (seen.view choice)).answer ::
          (decision (seen.view choice)).notes.map .note)

/-- Choices are entered and asked in consultations only. -/
inductive Consults (machine : Machine) : List Event → Prop
  | nothing : Consults machine []
  | choicesKept {event : Event} {later : List Event} (silent : event.consults machine = false)
      (rest : Consults machine later) : Consults machine (event :: later)
  | asked {events later : List Event} (asked : machine.Consultation events)
      (rest : Consults machine later) : Consults machine (events ++ later)

/-- What a run does to the files of the choices and to the transitions. -/
structure Filing (before after : Machine) : Prop where
  same : SameChart before after
  kept : ∀ choice target id, before.filed? choice target = some id →
    after.filed? choice target = some id
  /-- Only choices file transitions, new ones, and for targets they had none on file for. -/
  filed : ∀ choice target id, after.filed? choice target = some id →
    before.filed? choice target = some id ∨
      before.filed? choice target = none ∧ before.transition? id = none ∧
        before.kindOf? choice = some .choice
  made : ∀ id, before.transition? id = none → (after.transition? id).isSome →
    ∃ choice target, before.filed? choice target = none ∧ after.filed? choice target = some id

structure Consulted (before after : Machine) : Prop extends Filing before after where
  told : ∃ events, Told before after events ∧ after.Consults events

/-- Neither the choices nor the transitions are touched. -/
structure ChoicesKept (before after : Machine) : Prop where
  same : SameChart before after
  transitions : after.transitions = before.transitions
  choices : ∀ state, (after.state? state).map StateNode.choices =
    (before.state? state).map StateNode.choices
  told : ∃ events, Told before after events ∧ ∀ event ∈ events, event.consults before = false

def Decided (machine : Machine) : Prop :=
  ∀ state node, machine.state? state = some node → node.kind = .choice → node.decision.isSome

/-! ### What is told -/

section Telling

variable {before after machine : Machine}

private theorem SameChart.consults (same : SameChart before after) (event : Event) :
    event.consults after = event.consults before := by
  unfold Event.consults
  split
  · rw [same.kindOf?]
  · rfl
  · rfl

private theorem Consultation.later {events : List Event} (asked : before.Consultation events)
    (same : SameChart before after)
    (kept : ∀ choice target id, before.filed? choice target = some id →
      after.filed? choice target = some id) : after.Consultation events := by
  cases asked with
  | @answered choice node decision seen target id found isChoice decides answer filed =>
      obtain ⟨node', found', fixed⟩ := same.state?_forward found
      have name : node'.name = node.name := StateNode.read_eq fixed StateNode.name fun _ => rfl
      have kind : node'.kind = node.kind := StateNode.read_eq fixed StateNode.kind fun _ => rfl
      have decision' : node'.decision = node.decision :=
        StateNode.read_eq fixed StateNode.decision fun _ => rfl
      rw [← name]
      exact .answered found' (kind.trans isChoice) (decision'.trans decides) answer
        (kept choice target id filed)
  | @unanswered choice node decision seen found isChoice decides nowhere =>
      obtain ⟨node', found', fixed⟩ := same.state?_forward found
      have name : node'.name = node.name := StateNode.read_eq fixed StateNode.name fun _ => rfl
      have kind : node'.kind = node.kind := StateNode.read_eq fixed StateNode.kind fun _ => rfl
      have decision' : node'.decision = node.decision :=
        StateNode.read_eq fixed StateNode.decision fun _ => rfl
      have container : node'.container = node.container :=
        StateNode.read_eq fixed StateNode.container fun _ => rfl
      rw [← name]
      apply Consultation.unanswered found' (kind.trans isChoice) (decision'.trans decides)
      intro target region answer contained
      rw [same.resolveState?]
      exact nowhere target region answer (container.symm.trans contained)

private theorem Consults.later {events : List Event} (consults : before.Consults events)
    (same : SameChart before after)
    (kept : ∀ choice target id, before.filed? choice target = some id →
      after.filed? choice target = some id) : after.Consults events := by
  induction consults with
  | nothing => exact .nothing
  | @choicesKept event _ silent _ ih => exact .choicesKept ((same.consults event).trans silent) ih
  | asked asked _ ih => exact .asked (asked.later same kept) ih

private theorem Consults.append {early late : List Event} (first : machine.Consults early)
    (second : machine.Consults late) : machine.Consults (early ++ late) := by
  induction first with
  | nothing => exact second
  | choicesKept silent _ ih => exact .choicesKept silent ih
  | asked asked _ ih =>
      rw [List.append_assoc]
      exact .asked asked ih

private theorem Consults.of_silent {events : List Event}
    (silent : ∀ event ∈ events, event.consults machine = false) : machine.Consults events := by
  induction events with
  | nil => exact .nothing
  | cons event rest ih =>
      apply Consults.choicesKept (silent event (List.mem_cons_self ..))
      exact ih fun other member => silent other (List.mem_cons_of_mem _ member)

@[simp] theorem transitions_notedAll (machine : Machine) (texts : List String) :
    (machine.notedAll texts).transitions = machine.transitions := by
  induction texts generalizing machine with
  | nil => rfl
  | cons text rest ih => exact ih (machine.note (.note text))

theorem told_notedAll (machine : Machine) (texts : List String) :
    Told machine (machine.notedAll texts) (texts.map .note) := by
  induction texts generalizing machine with
  | nil => exact Told.refl machine
  | cons text rest ih => exact (told_note machine (.note text)).trans (ih _)

end Telling

/-! ### What is on file -/

section Files

variable {before middle after machine : Machine}

private theorem filed?_of_choices (same : ∀ state, (after.state? state).map StateNode.choices =
    (before.state? state).map StateNode.choices) (choice : StateId) (target : String) :
    after.filed? choice target = before.filed? choice target := by
  have read (machine : Machine) : machine.filed? choice target =
      ((machine.state? choice).map StateNode.choices).bind
        fun choices => Dictionary.find? choices target := by
    unfold filed?
    cases machine.state? choice <;> rfl
  rw [read, read, same]

theorem Filing.refl (machine : Machine) : Filing machine machine where
  same := SameChart.refl machine
  kept := fun _ _ _ filed => filed
  filed := fun _ _ _ filed => Or.inl filed
  made := by
    intro id absent present
    rw [absent] at present
    cases present

theorem Filing.trans (first : Filing before middle) (second : Filing middle after) :
    Filing before after where
  same := first.same.trans second.same
  kept := fun choice target id filed => second.kept choice target id
    (first.kept choice target id filed)
  filed := by
    intro choice target id filed
    rcases second.filed choice target id filed with earlier | ⟨unfiled, absent, isChoice⟩
    · exact first.filed choice target id earlier
    · right
      refine ⟨?_, ?_, ?_⟩
      · cases known : before.filed? choice target with
        | none => rfl
        | some other =>
            rw [first.kept choice target other known] at unfiled
            cases unfiled
      · cases known : before.transition? id with
        | none => rfl
        | some found =>
            rw [first.same.kept id found known] at absent
            cases absent
      · rw [← first.same.kindOf?]
        exact isChoice
  made := by
    intro id absent present
    cases between : middle.transition? id with
    | some found =>
        obtain ⟨choice, target, unfiled, filed⟩ := first.made id absent (by rw [between]; rfl)
        exact ⟨choice, target, unfiled, second.kept choice target id filed⟩
    | none =>
        obtain ⟨choice, target, unfiled, filed⟩ := second.made id between present
        refine ⟨choice, target, ?_, filed⟩
        cases known : before.filed? choice target with
        | none => rfl
        | some other =>
            rw [first.kept choice target other known] at unfiled
            cases unfiled

theorem Consulted.refl (machine : Machine) : Consulted machine machine :=
  { Filing.refl machine with told := ⟨[], Told.refl machine, .nothing⟩ }

theorem Consulted.trans (first : Consulted before middle) (second : Consulted middle after) :
    Consulted before after where
  toFiling := first.toFiling.trans second.toFiling
  told := by
    obtain ⟨early, toldEarly, consultsEarly⟩ := first.told
    obtain ⟨late, toldLate, consultsLate⟩ := second.told
    exact ⟨early ++ late, toldEarly.trans toldLate,
      (consultsEarly.later second.same second.kept).append consultsLate⟩

private theorem Filing.of_choices (same : SameChart before after)
    (transitions : after.transitions = before.transitions)
    (choices : ∀ state, (after.state? state).map StateNode.choices =
      (before.state? state).map StateNode.choices) : Filing before after where
  same := same
  kept := by
    intro choice target id filed
    rw [filed?_of_choices choices]
    exact filed
  filed := by
    intro choice target id filed
    rw [filed?_of_choices choices] at filed
    exact Or.inl filed
  made := by
    intro id absent present
    rw [transition?, transitions] at present
    rw [transition?] at absent
    rw [absent] at present
    cases present

private theorem ChoicesKept.filing (choicesKept : ChoicesKept before after) : Filing before after :=
  Filing.of_choices choicesKept.same choicesKept.transitions choicesKept.choices

theorem ChoicesKept.consulted (choicesKept : ChoicesKept before after) :
    Consulted before after where
  toFiling := choicesKept.filing
  told := by
    obtain ⟨events, told, silent⟩ := choicesKept.told
    refine ⟨events, told, Consults.of_silent fun event member => ?_⟩
    rw [choicesKept.same.consults]
    exact silent event member

theorem filed?_transitionChosen {choice : StateId} {node : StateNode} {region : RegionId}
    {target : String} (found : machine.state? choice = some node) (name : String)
    (other : StateId) (key : String) :
    (machine.transitionChosen choice name target region).2.filed? other key =
      if choice = other ∧ target = key then some machine.nextTransition
      else machine.filed? other key := by
  unfold filed?
  rw [state?_transitionChosen]
  by_cases here : choice = other
  · subst here
    rw [if_pos rfl, found]
    simp only [Option.map_some, Option.bind_some, Dictionary.find?_insert, true_and]
  · simp [here]

theorem Filing.transitionChosen {choice : StateId} {node : StateNode} {region : RegionId}
    {target : String} (found : machine.state? choice = some node) (isChoice : node.kind = .choice)
    (name : String) (fresh : machine.filed? choice target = none) :
    Filing machine (machine.transitionChosen choice name target region).2 where
  same := sameChart_transitionChosen machine choice name target region
  kept := by
    intro other key id filed
    rw [filed?_transitionChosen found, if_neg]
    · exact filed
    · rintro ⟨rfl, rfl⟩
      rw [fresh] at filed
      cases filed
  filed := by
    intro other key id filed
    rw [filed?_transitionChosen found] at filed
    split at filed
    · rename_i here
      obtain ⟨rfl, rfl⟩ := here
      obtain rfl := Option.some.inj filed
      exact Or.inr ⟨fresh, Array.getElem?_size, kindOf?_eq_some.mpr ⟨node, found, isChoice⟩⟩
    · exact Or.inl filed
  made := by
    intro id absent present
    rw [transition?_transitionChosen] at present
    split at present
    · rename_i here
      refine ⟨choice, target, fresh, ?_⟩
      rw [filed?_transitionChosen found, if_pos ⟨rfl, rfl⟩, here]
    · rw [absent] at present
      cases present

end Files

/-! ### What does not concern the choices -/

namespace ChoicesKept

variable (machine : Machine)

theorem note {event : Event} (silent : event.consults machine = false) :
    ChoicesKept machine (machine.note event) :=
  ⟨sameChart_note machine event, rfl, fun _ => rfl, _,
    told_note machine event, by simpa using silent⟩

private theorem notedAll (texts : List String) : ChoicesKept machine (machine.notedAll texts) where
  same := Changes.sameChart (changes_notedAll machine texts)
  transitions := transitions_notedAll machine texts
  choices := fun state => by simp only [state?, states_notedAll]
  told := ⟨_, told_notedAll machine texts, by simp [Event.consults]⟩

theorem modifyState (frames : FrameQueue) (state : StateId) (change : StateNode → StateNode)
    (fixed : ∀ node, (change node).fixed = node.fixed)
    (choices : ∀ node, (change node).choices = node.choices) :
    ChoicesKept machine ({ machine with frames }.modifyState state change) where
  same := by
    have queued : SameChart machine { machine with frames } := SameChart.of_stores rfl rfl rfl
    exact queued.trans (SameChart.modifyState _ state change fixed)
  transitions := rfl
  choices := readState_modifyState StateNode.choices { machine with frames } state change choices
  told := ⟨[], Told.refl machine, by simp⟩

theorem entered (state : StateId) (name : String) (other : machine.kindOf? state ≠ some .choice) :
    ChoicesKept machine (machine.entered state name) where
  same := sameChart_entered machine state name
  transitions := rfl
  choices := readState_modifyState StateNode.choices machine state _ fun _ => rfl
  told := ⟨_, told_entered machine state name, by simpa [Event.consults] using other⟩

theorem left (state : StateId) (node : StateNode) :
    ChoicesKept machine (machine.left state node) where
  same := sameChart_left machine state node
  transitions := transitions_left machine state node
  choices := readState_left StateNode.choices machine state node fun _ _ _ => rfl
  told := ⟨_, told_left state node, by simp [Event.consults]⟩

theorem opened (region : RegionId) (name : String) :
    ChoicesKept machine (machine.opened region name) where
  same := (sameChart_setRegionStatus machine region .active).trans (sameChart_note _ _)
  transitions := rfl
  choices := fun _ => rfl
  told := ⟨_, told_opened machine region name, by simp [Event.consults]⟩

theorem closed (region : RegionId) (name : String) :
    ChoicesKept machine (machine.closed region name) where
  same := (sameChart_setRegionStatus machine region .inactive).trans (sameChart_note _ _)
  transitions := rfl
  choices := fun _ => rfl
  told := ⟨_, told_closed machine region name, by simp [Event.consults]⟩

theorem recorded (id : TransitionId) (firing : Firing) :
    ChoicesKept machine (machine.recorded id firing) where
  same := SameChart.of_stores rfl rfl rfl
  transitions := rfl
  choices := fun _ => rfl
  told := ⟨_, told_note _ (.recorded id firing), by simp [Event.consults]⟩

theorem queued (frames : FrameQueue) : ChoicesKept machine { machine with frames } where
  same := SameChart.of_stores rfl rfl rfl
  transitions := rfl
  choices := fun _ => rfl
  told := ⟨[], Told.refl machine, by simp⟩

end ChoicesKept

/-! ### Asking a choice -/

section Choices

variable {machine : Machine} {choice : StateId} {node : StateNode}

def asked (machine : Machine) (choice : StateId) (node : StateNode)
    (verdict : Verdict (Option String)) : Machine :=
  ((machine.entered choice node.name).note (.decided choice verdict.answer)).notedAll verdict.notes

theorem told_asked (verdict : Verdict (Option String)) :
    Told machine (machine.asked choice node verdict) (.notice (.entered choice node.name) ::
      .decided choice verdict.answer :: verdict.notes.map .note) :=
  ((told_entered machine choice node.name).trans (told_note _ _)).trans
    (told_notedAll _ verdict.notes)

theorem filing_asked (verdict : Verdict (Option String)) :
    Filing machine (machine.asked choice node verdict) := by
  have noted := sameChart_note (machine.entered choice node.name)
    (.decided choice verdict.answer)
  have same := (sameChart_entered machine choice node.name).trans noted
  apply Filing.of_choices (same.trans (ChoicesKept.notedAll _ verdict.notes).same)
  · exact transitions_notedAll _ verdict.notes
  · intro state
    rw [(ChoicesKept.notedAll _ verdict.notes).choices, state?_note, entered, state?_note,
      setStateStatus]
    apply readState_modifyState
    exact fun _ => rfl

variable (found : machine.state? choice = some node)
include found

theorem state?_asked (verdict : Verdict (Option String)) :
    (machine.asked choice node verdict).state? choice = some { node with status := .active } := by
  have present := state?_entered found node.name
  rw [← present]
  simp [asked, state?, note]

theorem filed?_asked (verdict : Verdict (Option String)) (target : String) :
    (machine.asked choice node verdict).filed? choice target =
      Dictionary.find? node.choices target := by
  rw [filed?, state?_asked found]
  rfl

variable (isChoice : node.kind = .choice)
include isChoice

theorem consulted_unanswered {decision : Decision} (seen : Machine)
    (decides : node.decision = some decision)
    (nowhere : ∀ target region, (decision (seen.view choice)).answer = some target →
      node.container = some region → machine.resolveState? region target = none) :
    Consulted machine (machine.asked choice node (decision (seen.view choice))) where
  toFiling := filing_asked _
  told := by
    have filing : Filing machine (machine.asked choice node (decision (seen.view choice))) :=
      filing_asked _
    have consultation : machine.Consultation _ := .unanswered found isChoice decides nowhere
    have consults := Consults.asked consultation .nothing
    rw [List.append_nil] at consults
    exact ⟨_, told_asked _, consults.later filing.same filing.kept⟩

theorem consulted_answered {decision : Decision} {seen after : Machine} {target : String}
    {id : TransitionId} (decides : node.decision = some decision)
    (answer : (decision (seen.view choice)).answer = some target) (filing : Filing machine after)
    (told : Told machine after (.notice (.entered choice node.name) ::
      .decided choice (some target) :: (decision (seen.view choice)).notes.map .note))
    (filed : after.filed? choice target = some id) :
    Consulted machine (after.note (.requested id)) where
  toFiling := filing.trans (ChoicesKept.note after rfl).filing
  told := by
    obtain ⟨node', found', fixed⟩ := filing.same.state?_forward found
    have name : node'.name = node.name := StateNode.read_eq fixed StateNode.name fun _ => rfl
    have kind : node'.kind = node.kind := StateNode.read_eq fixed StateNode.kind fun _ => rfl
    have decision' : node'.decision = node.decision :=
      StateNode.read_eq fixed StateNode.decision fun _ => rfl
    have consultation : (after.note (.requested id)).Consultation _ :=
      .answered found' (kind.trans isChoice) (decision'.trans decides) answer filed
    have consults := Consults.asked consultation .nothing
    rw [List.append_nil, name] at consults
    exact ⟨_, told.trans (told_note after _), consults⟩

end Choices

theorem Decided.of_sameChart {before after : Machine} (decided : before.Decided)
    (same : SameChart before after) : after.Decided := by
  intro state node found isChoice
  obtain ⟨node', found', fixed⟩ := same.state?_backward found
  have kind : node'.kind = node.kind := StateNode.read_eq fixed StateNode.kind fun _ => rfl
  have decision : node'.decision = node.decision :=
    StateNode.read_eq fixed StateNode.decision fun _ => rfl
  rw [← decision]
  exact decided state node' found' (kind.trans isChoice)

end Machine

end Chart
