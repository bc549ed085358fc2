import Chart.Proofs.Run.RegionAgreement

set_option autoImplicit false

/-!
Runs on machines that agree in a region. In a mechanical machine an operation inside the region does
the same to both machines, whatever is active elsewhere, as long as the region itself is not closed:
only then does the run look around. Each operation is taken in turn, over calls that run alike
themselves; the operations at all depths follow by induction on the depth.
-/

namespace Chart.Run

open Discipline (kept_completeState kept_pure kept_fail)
open Machine (AgreeIn Mechanical)

/-- The region has not been closed since the machine was `base`. -/
def Unclosed (base : Machine) (region : RegionId) (after : Machine) : Prop :=
  ∀ early name, early ++ [.notice (.regionDeactivated region name)] <+: after.journal.toList →
    early.length < base.journal.toList.length

/-- When the left run finishes within the limit, the right one finishes with the same answer and the
machines agree again. -/
def AgreesUpTo {Answer : Type} (base image : Machine) (region : RegionId) (limit : Machine → Prop)
    (left right : Run Answer) (one other : Machine) : Prop :=
  ∀ answer after, left one = .ok answer after → limit after →
    ∃ after', right other = .ok answer after' ∧ AgreeIn base image region after after'

/-- The right run does what the left one does wherever that finishes. -/
abbrev AgreesAlways {Answer : Type} (base image : Machine) (region : RegionId) :=
  @AgreesUpTo Answer base image region fun _ => True

/-- The right run does what the left one does unless that closes the region. -/
abbrev AgreesUnclosed {Answer : Type} (base image : Machine) (region : RegionId) :=
  @AgreesUpTo Answer base image region (Unclosed base region)

structure Calls.Agreeing (base image : Machine) (region : RegionId) (calls : Calls) : Prop where
  trigger : ∀ one other id memo found inner, AgreeIn base image region one other →
    base.transition? id = some found → found.container = some inner → base.Within region inner →
    AgreesUnclosed base image region (calls.trigger id memo) (calls.trigger id memo) one other
  enter : ∀ one other state, AgreeIn base image region one other → base.Inside region state →
    AgreesUnclosed base image region (calls.enter state) (calls.enter state) one other
  activate : ∀ one other state, AgreeIn base image region one other → base.Inside region state →
    AgreesUnclosed base image region (calls.activate state) (calls.activate state) one other
  completeRegion : ∀ one other inner, AgreeIn base image region one other →
    base.Within region inner →
    AgreesUnclosed base image region (calls.completeRegion inner)
    (calls.completeRegion inner) one other

section Rules

variable {Answer Other : Type} {base image one other one' other' : Machine} {region : RegionId}
variable {limit : Machine → Prop}

theorem AgreesUpTo.of_eq {left right left' right' : Run Answer} (isLeft : left one = left' one')
    (isRight : right other = right' other')
    (agreesUpTo : AgreesUpTo base image region limit left' right' one' other') :
    AgreesUpTo base image region limit left right one other := by
  intro answer after result within
  rw [isLeft] at result
  rw [isRight]
  exact agreesUpTo answer after result within

private theorem AgreesAlways.agreesUpTo {left right : Run Answer}
    (agreesAlways : AgreesAlways base image region left right one other) :
    AgreesUpTo base image region limit left right one other :=
  fun answer after result _ => agreesAlways answer after result trivial

private theorem agreesUpTo_pure (agree : AgreeIn base image region one other) (answer : Answer) :
    AgreesUpTo base image region limit (pure answer) (pure answer) one other := by
  rintro _ _ ⟨⟩ _
  exact ⟨other, rfl, agree⟩

private theorem agreesUpTo_of_error {left right : Run Answer} {halt : Halt} {after : Machine}
    (fails : left one = .error halt after) :
    AgreesUpTo base image region limit left right one other := by
  intro answer after' result
  rw [fails] at result
  cases result

private theorem AgreesUpTo.get {left right : Machine → Run Answer}
    (agreesUpTo : AgreesUpTo base image region limit (left one) (right other) one other) :
    AgreesUpTo base image region limit (get >>= left) (get >>= right) one other := agreesUpTo

private theorem AgreesUpTo.bind_of {first first' : Run Other} {next next' : Other → Run Answer}
    {earlier : Machine → Prop}
    (agreesUpTo : AgreesUpTo base image region earlier first first' one other)
    (back : ∀ answer middle last after, next answer middle = .ok last after → limit after →
      earlier middle)
    (continues : ∀ answer middle middle', first one = .ok answer middle →
      AgreeIn base image region middle middle' →
      AgreesUpTo base image region limit (next answer) (next' answer) middle middle') :
    AgreesUpTo base image region limit (first >>= next) (first' >>= next') one other := by
  intro answer after result within
  simp only [bind, EStateM.bind] at result ⊢
  cases isFirst : first one with
  | error halt middle =>
      rw [isFirst] at result
      cases result
  | ok found middle =>
      rw [isFirst] at result
      obtain ⟨middle', isFirst', agree⟩ :=
        agreesUpTo found middle isFirst (back found middle answer after result within)
      rw [isFirst']
      exact continues found middle middle' isFirst agree answer after result within

private theorem AgreesAlways.bind_of {first first' : Run Other} {next next' : Other → Run Answer}
    (agreesAlways : AgreesAlways base image region first first' one other)
    (continues : ∀ answer middle middle', first one = .ok answer middle →
      AgreeIn base image region middle middle' →
      AgreesUpTo base image region limit (next answer) (next' answer) middle middle') :
    AgreesUpTo base image region limit (first >>= next) (first' >>= next') one other :=
  AgreesUpTo.bind_of agreesAlways (fun _ _ _ _ _ _ => trivial) continues

private theorem AgreesAlways.bind {first first' : Run Other} {next next' : Other → Run Answer}
    (agreesAlways : AgreesAlways base image region first first' one other)
    (continues : ∀ answer middle middle', AgreeIn base image region middle middle' →
      AgreesUpTo base image region limit (next answer) (next' answer) middle middle') :
    AgreesUpTo base image region limit (first >>= next) (first' >>= next') one other :=
  agreesAlways.bind_of fun answer middle middle' _ => continues answer middle middle'

private theorem Unclosed.before {before after : Machine} (unclosed : Unclosed base region after)
    (journal : before.journal.toList <+: after.journal.toList) : Unclosed base region before :=
  fun early name closes => unclosed early name (closes.trans journal)

private theorem journal_of_changing {run : Run Answer} (kept : (changing True).Kept run)
    {answer : Answer}
    {machine after : Machine} (result : run machine = .ok answer after) :
    machine.journal.toList <+: after.journal.toList := by
  have steps := kept machine (Or.inl trivial)
  unfold Discipline.KeptFrom Ends at steps
  rw [result] at steps
  obtain ⟨events, told⟩ := Machine.Changes.told steps
  exact ⟨events, told.symm⟩

private theorem AgreesUnclosed.bind {first first' : Run Other} {next next' : Other → Run Answer}
    (agreesUnclosed : AgreesUnclosed base image region first first' one other)
    (grows : ∀ answer, (changing True).Kept (next answer))
    (continues : ∀ answer middle middle', AgreeIn base image region middle middle' →
      AgreesUnclosed base image region (next answer) (next' answer) middle middle') :
    AgreesUnclosed base image region (first >>= next) (first' >>= next') one other :=
  AgreesUpTo.bind_of agreesUnclosed
    (fun answer _ _ _ result unclosed => unclosed.before
      (journal_of_changing (grows answer) result))
    fun answer middle middle' _ => continues answer middle middle'

private theorem agreesUpTo_discard {left right : Run Answer}
    (agreesUpTo : AgreesUpTo base image region limit left right one other) :
    AgreesUpTo base image region limit (discard left) (discard right) one other := by
  intro answer after result within
  simp only [discard, Functor.discard, Functor.mapConst, EStateM.map, Function.comp] at result ⊢
  cases isLeft : left one with
  | error halt middle =>
      rw [isLeft] at result
      cases result
  | ok found middle =>
      rw [isLeft] at result
      cases result
      obtain ⟨after', isRight, agree⟩ := agreesUpTo found after isLeft within
      rw [isRight]
      exact ⟨after', rfl, agree⟩

end Rules

/-! ### Single steps -/

section Steps

variable {base image one other : Machine} {region inner : RegionId} {state : StateId}
variable {limit : Machine → Prop} {calls : Calls}
variable (agree : AgreeIn base image region one other)
include agree

private theorem agreesUpTo_note {event : Event} (plain : event.isPlain = true) (event' : Event) :
    AgreesUpTo base image region limit (note event) (note event') one other :=
  AgreesUpTo.of_eq rfl rfl (agreesUpTo_pure (agree.note plain event') ())

private theorem agreesUpTo_forM (steps : List Machine.Step)
    (lies : ∀ step ∈ steps, step.Lies base region)
    (run : Machine.Step → Run PUnit)
    (agreesAlways : ∀ step one other, step.Lies base region → AgreeIn base image region one other →
      AgreesAlways base image region (run step) (run step) one other) :
    AgreesAlways base image region (steps.forM run) (steps.forM run) one other := by
  induction steps generalizing one other with
  | nil => exact agreesUpTo_pure agree _
  | cons step rest ih =>
      refine AgreesAlways.bind
        (agreesAlways step one other (lies step (List.mem_cons_self ..)) agree)
        fun _ middle middle' agree' => ih agree' fun other member =>
          lies other (List.mem_cons_of_mem _ member)

variable (wired : base.Wired) (mechanical : base.Mechanical)
include wired mechanical

private theorem agreesAlways_deactivate (inside : base.Inside region state) :
    AgreesAlways base image region (deactivate calls state) (deactivate calls state) one other := by
  obtain ⟨node, node', _, found, found', fixed, status, _⟩ := agree.state?_inside inside
  have bare := (mechanical.of_sameChart agree.changes.sameChart).states state node found
  have leaves {machine : Machine} {node : StateNode} (found : machine.state? state = some node)
      (active : node.status.isActive = true) (exit : node.exit = none) :
      deactivate calls state machine = (pure () : Run Unit) (machine.left state node) := by
    refine eq_of_ends fun ended failed => (ends_deactivate found active).trans ?_
    rw [exit]
    split <;> exact Iff.rfl
  by_cases active : node.status.isActive = true
  · exact AgreesUpTo.of_eq (leaves found active bare.exit)
      (leaves found' (status.trans active) (bare.of_fixed fixed).exit)
      (agreesUpTo_pure (agree.left wired inside found fixed active) ())
  · refine AgreesUpTo.get ?_
    rw [found, found']
    simp only [status, active]
    exact agreesUpTo_note agree rfl _

omit mechanical wired in
private theorem agreesAlways_deactivateRegion (within : base.Within region inner) :
    AgreesAlways base image region (deactivateRegion inner) (deactivateRegion inner) one other := by
  refine AgreesUpTo.get ?_
  rw [agree.regions inner within]
  cases found : one.region? inner with
  | none => exact agreesUpTo_pure agree _
  | some members =>
      by_cases active : members.status.isActive = true
      · simp only [active, if_true]
        exact AgreesUpTo.of_eq rfl rfl (agreesUpTo_pure (agree.closed found active) _)
      · simp only [active]
        exact AgreesUpTo.of_eq rfl rfl (agreesUpTo_pure (agree.note rfl _) _)

private theorem agreesAlways_exitStep {step : Machine.Step} (lies : step.Lies base region) :
    AgreesAlways base image region (exitStep calls step) (exitStep calls step) one other := by
  cases step with
  | state state => exact agreesAlways_deactivate agree wired mechanical lies
  | region inner => exact agreesUpTo_discard (agreesAlways_deactivateRegion agree lies)

private theorem agreesAlways_exit (inside : base.Inside region state) :
    AgreesAlways base image region (exit calls state) (exit calls state) one other := by
  obtain ⟨plan, lies⟩ := agree.exitPlan wired inside
  refine AgreesUpTo.get ?_
  rw [plan]
  exact agreesUpTo_forM agree _ lies _ fun step one other lies agree =>
    agreesAlways_exitStep agree wired mechanical lies

end Steps

/-! ### Operations -/

section Operations

variable {base image one other : Machine} {region inner : RegionId} {state : StateId}
variable {limit : Machine → Prop} {calls : Calls}

private theorem closed_of_completeRegion (changes : calls.Changing True) {members : Region}
    {after : Machine} (found : one.region? inner = some members)
    (active : members.status.isActive = true)
    (result : completeRegion calls inner one = .ok () after) :
    (one.closed inner members.name).journal.toList <+: after.journal.toList := by
  have ends : Ends (completeRegion calls inner) one
      (fun _ after => Steps True (one.closed inner members.name) after) fun _ _ => True := by
    unfold completeRegion deactivateRegion
    rw [ends_bind, ends_bind, ends_get, found]
    dsimp only
    rw [if_pos active, ends_bind, ends_modify, ends_bind, ends_report, ends_pure, if_pos rfl,
      ends_bind, ends_get]
    split
    · exact Relation.ReflTransGen.refl
    · split
      · rename_i members' _ inactive
        rw [ends_bind, ends_report]
        have joins := @Machine.Change.join True _ members'.owner fun region listed =>
          (Bool.not_eq_true' _).mp (List.all_eq_true.mp inactive region listed)
        exact (kept_completeState (sound_changing True) changes.toKeptBy _ _ (Or.inl trivial)).mono
          (fun _ _ steps => joins.one.trans steps) fun _ _ _ => trivial
      · exact Relation.ReflTransGen.refl
  unfold Ends at ends
  rw [result] at ends
  obtain ⟨events, told⟩ := Machine.Changes.told ends
  exact ⟨events, told.symm⟩

private theorem active_of_deactivateRegion {after : Machine}
    (result : deactivateRegion inner one = .ok true after) : one.isRegionActive inner = true := by
  have ends : Ends (deactivateRegion inner) one
      (fun answer _ => answer = true → one.isRegionActive inner = true) fun _ _ => True := by
    unfold deactivateRegion
    rw [ends_bind, ends_get]
    split
    · exact fun impossible => absurd impossible Bool.false_ne_true
    · rename_i members found
      split
      · rename_i active
        exact fun _ => Machine.isRegionActive_iff.mpr ⟨members, found, active⟩
      · exact fun impossible => absurd impossible Bool.false_ne_true
  exact ends_of_finished ends result rfl

variable (agree : AgreeIn base image region one other)
include agree

private theorem agreesAlways_enterNormal {node node' current : StateNode}
    (inside : base.Inside region state)
    (mechanical : node.Mechanical) (fixed : node'.fixed = node.fixed)
    (found : one.state? state = some current) (same : current.fixed = node.fixed)
    (active : current.status.isActive = true) (normal : node.kind = .normal) :
    AgreesAlways base image region (enterNormal calls state node)
    (enterNormal calls state node') one
      other := by
  have arms {machine : Machine} {node : StateNode} (bare : node.Mechanical) :
      enterNormal calls state node machine =
        (if machine.isStateActive state then if node.config.timer then startTimer state else pure ()
          else pure () : Run Unit) machine := by
    have finishes : finishEntry calls state node = pure () := by
      unfold finishEntry startBehavior
      rw [bare.activity, bare.enduring]
      funext machine
      simp only [Bool.and_false]
      rfl
    unfold enterNormal startBehavior
    rw [bare.entry, finishes]
    rfl
  have config : node'.config = node.config := StateNode.read_eq fixed StateNode.config fun _ => rfl
  refine AgreesUpTo.of_eq (arms mechanical) (arms (mechanical.of_fixed fixed)) ?_
  rw [agree.isStateActive inside, config]
  split
  · split
    · rename_i timed
      have kind : current.kind = node.kind := StateNode.read_eq same StateNode.kind fun _ => rfl
      have timer : current.config = node.config :=
        StateNode.read_eq same StateNode.config fun _ => rfl
      have armed := agree.timerArmed found active (kind.trans normal) (by rw [timer]; exact timed)
      exact AgreesUpTo.of_eq rfl rfl (agreesUpTo_pure (armed.note rfl _) ())
    · exact agreesUpTo_pure agree ()
  · exact agreesUpTo_pure agree ()

private theorem agreesAlways_activateRegion (within : base.Within region inner) :
    AgreesAlways base image region (activateRegion inner) (activateRegion inner) one other := by
  refine AgreesUpTo.get ?_
  rw [agree.regions inner within]
  cases found : one.region? inner with
  | none => exact agreesUpTo_pure agree _
  | some members =>
      by_cases active : members.status.isActive = true
      · simp only [active, if_true]
        exact agreesUpTo_note agree rfl _
      · simp only [active]
        exact AgreesUpTo.of_eq rfl rfl
          (agreesUpTo_pure (agree.opened found (by simpa using active)) _)

variable (formed : base.Formed) (linked : base.Linked) (mechanical : base.Mechanical)
variable (changes : calls.Changing True) (agreeing : Calls.Agreeing base image region calls)
include formed agreeing

private theorem agreesUnclosed_followInitial (within : base.Within region inner) :
    AgreesUnclosed base image region (followInitial calls inner)
    (followInitial calls inner) one other := by
  obtain ⟨equal, registered⟩ := @AgreeIn.find?_transitions _ _ _ _ _ inner agree formed.toWired
    fun found => found.source == none
  refine AgreesUpTo.get ?_
  unfold firstSourceless?
  rw [equal]
  split
  · exact agreesUpTo_of_error rfl
  · rename_i id first
    obtain ⟨found, known, contained⟩ := registered id first
    refine AgreesUnclosed.bind
      (agreeing.trigger one other id .null found inner agree known contained within)
      (fun answer => ?_) fun answer middle middle' agree' => ?_
    · split
      · exact kept_pure (lawful_changing True) ()
      · exact kept_fail (lawful_changing True) _
    · split
      · exact agreesUpTo_pure agree' ()
      · exact agreesUpTo_of_error rfl

include linked mechanical in
private theorem agreesUnclosed_resumeHistory (inside : base.Inside region state)
    (within : base.Within region inner) :
    AgreesUnclosed base image region (resumeHistory calls state inner)
    (resumeHistory calls state inner) one
      other := by
  refine AgreesAlways.bind (agreesAlways_deactivate agree formed.toWired mechanical inside)
    fun _ middle middle' agree' => AgreesUpTo.get ?_
  rw [agree'.regions inner within]
  cases stored : middle.region? inner with
  | none => exact agreesUpTo_pure agree' ()
  | some members =>
      have same := agree'.changes.sameChart
      cases remembered : members.lastActive with
      | none =>
          dsimp only
          rw [remembered]
          have contained :=
            (((formed.of_sameChart same).initial inner members members.initial stored).mpr rfl).1
          rw [same.containerOf?] at contained
          exact agreeing.activate middle middle' members.initial agree'
            (Machine.inside_iff.mpr ⟨inner, contained, within⟩)
      | some last =>
          dsimp only
          rw [remembered]
          have contained :=
            ((agree'.changes.linked linked).lastActive inner members last stored remembered).1
          rw [same.containerOf?] at contained
          refine AgreesAlways.bind (agreesUpTo_note agree' rfl _) fun _ noted noted' told => ?_
          exact agreeing.enter noted noted' last told
            (Machine.inside_iff.mpr ⟨inner, contained, within⟩)

include mechanical in
private theorem agreesUnclosed_completeState (inside : base.Inside region state) :
    AgreesUnclosed base image region (completeState calls state)
    (completeState calls state) one other := by
  obtain ⟨node, node', inner, found, found', fixed, _, container, within⟩ :=
    agree.state?_inside inside
  have container' : node'.container = node.container :=
    StateNode.read_eq fixed StateNode.container fun _ => rfl
  have name : node'.name = node.name := StateNode.read_eq fixed StateNode.name fun _ => rfl
  obtain ⟨equal, registered⟩ := @AgreeIn.find?_transitions _ _ _ _ _ inner agree formed.toWired
    fun found => found.source == some node.name
  refine AgreesUpTo.get ?_
  rw [found, found']
  dsimp only
  rw [container', container, name]
  dsimp only
  unfold firstOutgoing?
  rw [equal]
  split
  · rename_i id first
    obtain ⟨transition, known, containedTransition⟩ := registered id first
    exact agreesUpTo_discard (agreeing.trigger one other id .null transition inner agree known
      containedTransition within)
  · exact AgreesAlways.bind (agreesAlways_exit agree formed.toWired mechanical inside)
      fun _ middle middle' agree' => agreeing.completeRegion middle middle' inner agree' within

include mechanical changes in
/-- The owner of a region that lies deeper lies inside the region; if the region itself is closed,
nothing is said of the other machine. -/
theorem agreesUnclosed_completeRegion (within : base.Within region inner) :
    AgreesUnclosed base image region (completeRegion calls inner)
    (completeRegion calls inner) one other := by
  by_cases own : inner = region ∧ one.isRegionActive inner = true
  · obtain ⟨rfl, active⟩ := own
    obtain ⟨members, found, isActive⟩ := Machine.isRegionActive_iff.mp active
    intro answer after result unclosed
    obtain ⟨rest, told⟩ := closed_of_completeRegion changes found isActive result
    obtain ⟨events, before⟩ := agree.changes.told
    have closes := unclosed one.journal.toList members.name ⟨rest, by
      rw [← told, Machine.told_closed]⟩
    rw [before, List.length_append] at closes
    omega
  · refine AgreesAlways.bind_of (agreesAlways_deactivateRegion agree within)
      fun answer middle middle' result agree' => ?_
    split
    · rename_i closed
      subst closed
      refine AgreesUpTo.get ?_
      rw [agree'.regions inner within]
      cases found : middle.region? inner with
      | none => exact agreesUpTo_pure agree' ()
      | some members =>
          have same := agree'.changes.sameChart
          have owned : base.ownerOf? inner = some members.owner := by
            rw [← same.ownerOf?]
            exact Machine.ownerOf?_eq_some.mpr ⟨members, found, rfl⟩
          have inside : base.Inside region members.owner := by
            rcases within.inside_owner owned with here | insideOwner
            · exact absurd ⟨here, active_of_deactivateRegion result⟩ own
            · exact insideOwner
          dsimp only
          rw [agree'.all_inactive formed.toWired inside]
          split
          · rename_i inactive
            refine AgreesAlways.bind
              (AgreesUpTo.of_eq rfl rfl
                (agreesUpTo_pure (agree'.noted (.join fun sibling listed => ?_) _) ()))
              fun _ joined joined' told =>
                agreesUnclosed_completeState told formed mechanical agreeing inside
            exact (Bool.not_eq_true' _).mp (List.all_eq_true.mp inactive sibling listed)
          · exact agreesUpTo_pure agree' ()
    · exact agreesUpTo_pure agree' ()

include linked mechanical changes

private theorem agreesUnclosed_activate (inside : base.Inside region state) :
    AgreesUnclosed base image region (activate calls state) (activate calls state) one other := by
  obtain ⟨node, node', inner, found, found', fixed, status, container, within⟩ :=
    agree.state?_inside inside
  have container' : node'.container = node.container :=
    StateNode.read_eq fixed StateNode.container fun _ => rfl
  have kind' : node'.kind = node.kind := StateNode.read_eq fixed StateNode.kind fun _ => rfl
  have bare := (mechanical.of_sameChart agree.changes.sameChart).states state node found
  by_cases active : node.status.isActive = true
  · refine AgreesUpTo.get ?_
    rw [found, found']
    simp only [status, active, if_true]
    exact agreesUpTo_note agree rfl _
  · have inactive : node.status.isActive = false := by simpa using active
    have entered := agree.entered found found' inactive
    refine AgreesUpTo.of_eq (eq_of_ends fun ended failed => ends_activate found inactive)
      (eq_of_ends fun ended failed => ends_activate found' (status.trans inactive)) ?_
    rw [kind', container', container]
    split
    · rename_i normal
      have present := Machine.state?_entered found node.name
      exact (agreesAlways_enterNormal entered inside bare fixed present rfl rfl normal).agreesUpTo
    · rename_i here
      cases here
      exact agreesUnclosed_followInitial entered formed agreeing within
    · rename_i here
      cases here
      exact agreesUnclosed_resumeHistory entered formed linked mechanical agreeing inside within
    · exact agreesUpTo_pure entered ()
    · exact agreesUpTo_pure entered ()
    · rename_i choice
      exact absurd choice bare.determined
    · refine AgreesAlways.bind (agreesAlways_deactivate entered formed.toWired mechanical inside)
        fun _ middle middle' agree' => ?_
      rw [container', container]
      exact agreesUnclosed_completeRegion agree' formed mechanical changes agreeing within
    · exact agreesUpTo_pure entered ()

private theorem agreesUnclosed_entryStep {step : Machine.Step} (lies : step.Lies base region) :
    AgreesUnclosed base image region (entryStep calls step) (entryStep calls step) one other := by
  cases step with
  | state state =>
      obtain ⟨inner, contained, within⟩ := Machine.inside_iff.mp lies
      refine AgreesUpTo.get ?_
      rw [agree.sameChart.containerOf?, agree.changes.sameChart.containerOf?, contained]
      dsimp only
      rw [agree.isRegionActive within]
      split
      · exact agreesUnclosed_activate agree formed linked mechanical changes agreeing lies
      · exact agreesUpTo_note agree rfl _
  | region inner =>
      refine AgreesUpTo.get ?_
      rw [agree.regions inner lies]
      cases found : one.region? inner with
      | none => exact agreesUpTo_pure agree ()
      | some members =>
          have owned : base.ownerOf? inner = some members.owner := by
            rw [← agree.changes.sameChart.ownerOf?]
            exact Machine.ownerOf?_eq_some.mpr ⟨members, found, rfl⟩
          have near : base.Local region members.owner := by
            rcases lies.inside_owner owned with rfl | insideOwner
            · exact Or.inr owned
            · exact Or.inl insideOwner
          dsimp only
          rw [agree.states members.owner near]
          split
          · exact (agreesAlways_activateRegion agree lies).agreesUpTo
          · exact agreesUpTo_note agree rfl _

private theorem agreesUnclosed_enterBy {plan : List Machine.Step}
    (lies : ∀ step ∈ plan, step.Lies base region) :
    AgreesUnclosed base image region (enterBy calls plan) (enterBy calls plan) one other := by
  -- By induction on the plan.
  induction plan generalizing one other with
  | nil => exact agreesUpTo_pure agree _
  | cons step rest ih =>
      refine AgreesUnclosed.bind
        (agreesUnclosed_entryStep agree formed linked mechanical changes agreeing
        (lies step (List.mem_cons_self ..))) (fun _ machine sound => ?_)
        fun _ middle middle' agree' => ih agree' fun other member =>
          lies other (List.mem_cons_of_mem _ member)
      exact changing_enterBy changes (Or.inl trivial) (Or.inr trivial)

private theorem agreesUnclosed_enterDefault (inside : base.Inside region state) :
    AgreesUnclosed base image region (enterDefault calls state)
    (enterDefault calls state) one other := by
  obtain ⟨plan, lies⟩ := agree.defaultEntryPlan formed inside
  refine AgreesUpTo.get ?_
  rw [plan]
  exact agreesUnclosed_enterBy agree formed linked mechanical changes agreeing lies

private theorem agreesUnclosed_enterExplicit (inside : base.Inside region state) :
    AgreesUnclosed base image region (enterExplicit calls state)
    (enterExplicit calls state) one other := by
  obtain ⟨plan, lies⟩ := agree.explicitEntryPlan formed inside
  refine AgreesUpTo.get ?_
  rw [plan]
  exact agreesUnclosed_enterBy agree formed linked mechanical changes agreeing lies

end Operations

section Firing

variable {base image one other : Machine} {region : RegionId} {calls : Calls}
variable (agree : AgreeIn base image region one other)
variable (formed : base.Formed) (linked : base.Linked) (mechanical : base.Mechanical)
variable (changes : calls.Changing True) (agreeing : Calls.Agreeing base image region calls)
include agree formed linked mechanical changes agreeing

private theorem agreesUnclosed_fireExternal {id : TransitionId} {transition : Transition}
    {ends : Machine.Endpoints} (sourceName targetName : String) (memo : Value)
    (effect : transition.effect = none) (source : base.Inside region ends.source)
    (target : base.Inside region ends.target) :
    AgreesUnclosed base image region
      (fireExternal calls id transition ends sourceName targetName memo)
      (fireExternal calls id transition ends sourceName targetName memo) one other := by
  refine AgreesAlways.bind (agreesUpTo_note agree rfl _) fun _ one other agree => ?_
  refine AgreesAlways.bind (agreesAlways_exit agree formed.toWired mechanical source)
    fun _ one other agree => ?_
  unfold runEffect
  rw [effect]
  refine AgreesAlways.bind (agreesUpTo_pure agree ()) fun _ one other agree => ?_
  refine AgreesAlways.bind (AgreesUpTo.of_eq rfl rfl (agreesUpTo_pure (agree.recorded _ _) ()))
    fun _ one other agree => AgreesUpTo.get ?_
  rw [agree.sameChart.level, agree.sameChart.level]
  split
  · exact AgreesUnclosed.bind
      (agreesUnclosed_enterExplicit agree formed linked mechanical changes agreeing target)
      (fun _ => kept_pure (lawful_changing True) _) fun _ one other agree => agreesUpTo_pure agree _
  · exact AgreesUnclosed.bind
      (agreesUnclosed_enterDefault agree formed linked mechanical changes agreeing target)
      (fun _ => kept_pure (lawful_changing True) _) fun _ one other agree => agreesUpTo_pure agree _

private theorem agreesUnclosed_fireResolved {id : TransitionId} {transition : Transition}
    {ends : Machine.Endpoints} (memo : Value) (guard : transition.guard = none)
    (effect : transition.effect = none) (source : base.Inside region ends.source)
    (target : base.Inside region ends.target) :
    AgreesUnclosed base image region (fireResolved calls id transition ends memo)
      (fireResolved calls id transition ends memo) one other := by
  refine AgreesUpTo.get ?_
  dsimp only
  rw [agree.isStateActive source, agree.sameChart.stateName, agree.sameChart.stateName ends.target]
  split
  · exact AgreesAlways.bind (agreesUpTo_note agree rfl _) fun _ one other agree =>
      agreesUpTo_pure agree _
  · unfold guardAccepts
    rw [guard]
    refine AgreesAlways.bind (agreesUpTo_pure agree true) fun accepted one other agree => ?_
    split
    · exact AgreesAlways.bind (agreesUpTo_note agree rfl _) fun _ one other agree =>
        agreesUpTo_pure agree _
    · split
      · unfold fireInternal runEffect
        rw [effect]
        refine AgreesAlways.bind (agreesUpTo_note agree rfl _) fun _ one other agree => ?_
        refine AgreesAlways.bind (agreesUpTo_pure agree ()) fun _ one other agree => ?_
        exact AgreesAlways.bind (AgreesUpTo.of_eq rfl rfl (agreesUpTo_pure (agree.recorded _ _) ()))
          fun _ one other agree => agreesUpTo_pure agree _
      · exact agreesUnclosed_fireExternal agree formed linked mechanical changes agreeing
          _ _ memo effect
          source target

private theorem agreesUnclosed_trigger {id : TransitionId} {found : Transition}
    {inner : RegionId} (memo : Value)
    (known : base.transition? id = some found) (contained : found.container = some inner)
    (within : base.Within region inner) :
    AgreesUnclosed base image region (trigger calls id memo) (trigger calls id memo) one other := by
  refine AgreesAlways.bind (agreesUpTo_note agree rfl _) fun _ one other agree => AgreesUpTo.get ?_
  obtain ⟨guard, effect⟩ := mechanical.transitions id found known
  have present := agree.changes.sameChart.kept id found known
  rw [agree.endpoints known contained within, agree.transition?_eq, present]
  cases resolved : one.endpoints id with
  | error error => exact agreesUpTo_of_error rfl
  | ok ends =>
      have formedNow := formed.of_sameChart agree.changes.sameChart
      obtain ⟨_, source, target⟩ := Machine.endpoints_spec formedNow present contained resolved
      rw [agree.changes.sameChart.containerOf?] at source
      rw [agree.changes.sameChart.inside] at target
      refine AgreesUnclosed.bind
        (agreesUnclosed_fireResolved agree formed linked mechanical changes agreeing memo
        guard effect (Machine.inside_iff.mpr ⟨inner, source, within⟩) (target.of_within within))
        (fun outcome _ sound => (fires_changing True).settled id outcome sound)
        fun outcome one other agree => ?_
      exact AgreesAlways.bind (agreesUpTo_note agree rfl _) fun _ one other agree =>
        agreesUpTo_pure agree _

end Firing

theorem agreeing_calls {base image : Machine} {region : RegionId} (formed : base.Formed)
    (linked : base.Linked) (mechanical : base.Mechanical) (depth : Nat) :
    (calls depth).Agreeing base image region := by
  -- By induction on the depth.
  induction depth with
  | zero =>
      exact {
        trigger := fun _ _ _ _ _ _ _ _ _ _ => agreesUpTo_of_error rfl
        enter := fun _ _ _ _ _ => agreesUpTo_of_error rfl
        activate := fun _ _ _ _ _ => agreesUpTo_of_error rfl
        completeRegion := fun _ _ _ _ _ => agreesUpTo_of_error rfl }
  | succ depth ih =>
      have changes := calls_changing True depth
      exact {
        trigger := fun _ _ _ memo _ _ agree known contained within =>
          agreesUnclosed_trigger agree formed linked mechanical changes ih memo known
          contained within
        enter := fun _ _ _ agree inside =>
          agreesUnclosed_enterDefault agree formed linked mechanical changes ih inside
        activate := fun _ _ _ agree inside =>
          agreesUnclosed_activate agree formed linked mechanical changes ih inside
        completeRegion := fun _ _ _ agree within =>
          agreesUnclosed_completeRegion agree formed mechanical changes ih within }

end Chart.Run
