import Chart.Proofs.Run.StandingAlone

set_option autoImplicit false

/-!
Firings before entries. Whatever a trigger enters it enters after the firing of a transition has
been recorded, and whatever it enters beside a state that it has entered before, after two. For a
plan by itself enters no two states beside each other: what it names lies at one state after the
other, or in different regions of one. So the other one was entered by a trigger of a callback.
-/

namespace Chart

/-- Tells that a transition left its source and ran its effect. -/
def Event.isFiring : Event → Bool
  | .recorded _ firing => !firing.internal
  | _ => false

def firings (events : List Event) : Nat :=
  events.countP Event.isFiring

@[simp] theorem firings_append (early late : List Event) :
    firings (early ++ late) = firings early + firings late :=
  List.countP_append

namespace Machine

/-- So many firings were recorded before each entry, and one more before an entry beside a state
that had been entered and not been left. -/
def Spaced (machine : Machine) (count : Nat) (events : List Event) : Prop :=
  ∀ early other, EnteredAfter events early other → count ≤ firings early ∧
    ∀ one, machine.Beside one other → replay (Event.sets one) early = true →
      count + 1 ≤ firings early

/-- Before a firing is recorded only states of the scope are entered. -/
def Scoped (scope : StateId → Prop) (events : List Event) : Prop :=
  ∀ early other, EnteredAfter events early other → firings early = 0 → scope other

section Spaced

variable {machine : Machine} {count : Nat} {early late events : List Event}
  {scope first second : StateId → Prop}

private theorem exists_enteredAfter {state : StateId}
    (stays : replay (Event.sets state) events = true) :
    ∃ early, EnteredAfter events early state ∧ firings early ≤ firings events := by
  obtain ⟨early, late, name, rfl, _⟩ := exists_entry_of_replay stays
  exact ⟨early, ⟨name, late, by simp⟩, by simp⟩

private theorem spaced_of_unentered (unentered : ∀ event ∈ events, ∀ other,
    event.sets other ≠ some true) : machine.Spaced count events := by
  intro early other entered
  obtain ⟨event, member, enters⟩ := entered.mem
  exact absurd enters (unentered event member other)

theorem Spaced.weaken (spaced : machine.Spaced 1 events) : machine.Spaced 0 events :=
  fun early other entered => ⟨Nat.zero_le _, fun one beside stays => by
    have both := (spaced early other entered).2 one beside stays
    omega⟩

private theorem Spaced.toScoped (spaced : machine.Spaced 1 events) : Scoped scope events := by
  intro early other entered none
  have one := (spaced early other entered).1
  omega

theorem stays_cases {state : StateId} (stays : replay (Event.sets state) (early ++ late) = true) :
    replay (Event.sets state) late = true ∨ replay (Event.sets state) early = true := by
  cases before : replay (Event.sets state) early with
  | true => exact Or.inr rfl
  | false =>
      have off : replay (Event.sets state) (early ++ []) = false := by simpa using before
      have same : _ = replay (Event.sets state) ([] ++ late) := replay_append_of_off off
      simp only [List.append_nil, List.nil_append] at same
      exact Or.inl (by rw [← same]; exact stays)

/-- What stays from a part before whose entries firings were recorded needs one firing itself. -/
theorem Spaced.firings_of_stays (spaced : machine.Spaced 1 events) {state : StateId}
    (stays : replay (Event.sets state) events = true) : 1 ≤ firings events := by
  obtain ⟨early, entered, fewer⟩ := exists_enteredAfter stays
  exact (spaced early state entered).1.trans fewer

private theorem Spaced.append (first : machine.Spaced 1 early) (second : machine.Spaced 1 late) :
    machine.Spaced 1 (early ++ late) := by
  intro before other entered
  rcases entered.cases with within | ⟨since, rfl, within⟩
  · exact first before other within
  · obtain ⟨one, two⟩ := second since other within
    rw [firings_append]
    refine ⟨by omega, fun another beside stays => ?_⟩
    rcases stays_cases stays with staysSince | staysEarly
    · have enough := two another beside staysSince
      omega
    · have enough := first.firings_of_stays staysEarly
      omega

private theorem Spaced.append_firing (first : machine.Spaced 1 early) {event : Event}
    (fires : event.isFiring = true) (second : machine.Spaced 0 late) :
    machine.Spaced 1 (early ++ [event] ++ late) := by
  have one : firings [event] = 1 := by
    unfold firings
    rw [List.countP_singleton, if_pos fires]
  have silent (state : StateId) : event.sets state = none := by
    cases event with
    | recorded _ _ => rfl
    | _ => cases fires
  have begins : machine.Spaced 1 (early ++ [event]) :=
    first.append (spaced_of_unentered (by simp [silent]))
  intro before other entered
  rcases entered.cases with within | ⟨since, rfl, within⟩
  · exact begins before other within
  · obtain ⟨_, two⟩ := second since other within
    rw [firings_append, firings_append, one]
    refine ⟨by omega, fun another beside stays => ?_⟩
    rcases stays_cases stays with staysSince | staysEarly
    · have enough := two another beside staysSince
      omega
    · rw [replay_append_singleton, silent] at staysEarly
      have enough := first.firings_of_stays staysEarly
      omega

/-- Without a firing in between, nothing is entered in the second part beside what stays from the
first one. -/
theorem spaced_append (spaced : machine.Spaced 0 early) (spacedLate : machine.Spaced 0 late)
    (kept : Scoped first early) (scopedLate : Scoped second late)
    (apart : ∀ one other, replay (Event.sets one) early = true → first one → second other →
      ¬machine.Beside one other) :
    machine.Spaced 0 (early ++ late) := by
  intro before other entered
  refine ⟨Nat.zero_le _, fun one beside stays => ?_⟩
  rcases entered.cases with within | ⟨since, rfl, within⟩
  · exact (spaced before other within).2 one beside stays
  · rw [firings_append]
    rcases stays_cases stays with staysSince | staysEarly
    · have enough := (spacedLate since other within).2 one beside staysSince
      omega
    · by_contra few
      obtain ⟨entry, enteredOne, fewer⟩ := exists_enteredAfter staysEarly
      exact apart one other staysEarly (kept entry one enteredOne (by omega))
        (scopedLate since other within (by omega)) beside

private theorem Scoped.append (kept : Scoped first early) (scopedLate : Scoped second late) :
    Scoped (fun state => first state ∨ second state) (early ++ late) := by
  intro before other entered none
  rcases entered.cases with within | ⟨since, rfl, within⟩
  · exact Or.inl (kept before other within none)
  · rw [firings_append] at none
    exact Or.inr (scopedLate since other within (by omega))

theorem Scoped.mono (kept : Scoped first events) (wider : ∀ state, first state → second state) :
    Scoped second events :=
  fun early other entered none => wider other (kept early other entered none)

private theorem SameChart.spaced {before after : Machine} (same : SameChart before after)
    (spaced : after.Spaced count events) : before.Spaced count events := by
  intro early other entered
  obtain ⟨enough, more⟩ := spaced early other entered
  exact ⟨enough, fun one beside => more one (same.beside.mpr beside)⟩

end Spaced

/-! ### What changes enter -/

structure FiresFirst (before after : Machine) : Prop where
  changes : Changes before after
  spaced : ∃ events, Told before after events ∧ before.Spaced 1 events

/-- Without a firing, only states of the scope were entered, and none beside one that stayed. -/
structure EntersWithin (scope : StateId → Prop) (before after : Machine) : Prop where
  changes : Changes before after
  within : ∃ events, Told before after events ∧ before.Spaced 0 events ∧ Scoped scope events

section Relations

variable {before middle after machine : Machine} {scope first second : StateId → Prop}
  {events : List Event}

theorem FiresFirst.of_told (changes : Changes before after) (told : Told before after events)
    (unentered : ∀ event ∈ events, ∀ other, event.sets other ≠ some true) :
    FiresFirst before after :=
  ⟨changes, events, told, spaced_of_unentered unentered⟩

theorem FiresFirst.refl (machine : Machine) : FiresFirst machine machine :=
  .of_told Relation.ReflTransGen.refl (Told.refl machine) (by simp)

theorem FiresFirst.trans (first : FiresFirst before middle) (second : FiresFirst middle after) :
    FiresFirst before after := by
  obtain ⟨early, toldEarly, spacedEarly⟩ := first.spaced
  obtain ⟨late, toldLate, spacedLate⟩ := second.spaced
  exact ⟨first.changes.trans second.changes, early ++ late, toldEarly.trans toldLate,
    spacedEarly.append (first.changes.sameChart.spaced spacedLate)⟩

theorem FiresFirst.entersWithin (fires : FiresFirst before after) :
    EntersWithin scope before after := by
  obtain ⟨events, told, spaced⟩ := fires.spaced
  exact ⟨fires.changes, events, told, spaced.weaken, spaced.toScoped⟩

theorem EntersWithin.mono (enters : EntersWithin first before after)
    (wider : ∀ state, first state → second state) : EntersWithin second before after := by
  obtain ⟨events, told, spaced, kept⟩ := enters.within
  exact ⟨enters.changes, events, told, spaced, kept.mono wider⟩

theorem EntersWithin.trans (one : EntersWithin first before middle)
    (other : EntersWithin second middle after)
    (apart : ∀ early late, first early → second late → ¬before.Beside early late) :
    EntersWithin (fun state => first state ∨ second state) before after := by
  obtain ⟨early, toldEarly, spacedEarly, scopedEarly⟩ := one.within
  obtain ⟨late, toldLate, spacedLate, scopedLate⟩ := other.within
  exact ⟨one.changes.trans other.changes, early ++ late, toldEarly.trans toldLate,
    spaced_append spacedEarly (one.changes.sameChart.spaced spacedLate) scopedEarly scopedLate
      fun state state' _ inFirst inSecond => apart state state' inFirst inSecond,
    scopedEarly.append scopedLate⟩

theorem EntersWithin.trans_fires (one : EntersWithin scope before middle)
    (other : FiresFirst middle after) : EntersWithin scope before after :=
  have nothing : EntersWithin (fun _ => False) middle after := other.entersWithin
  (one.trans nothing fun _ _ _ impossible => impossible.elim).mono fun _ either =>
    either.resolve_right id

theorem FiresFirst.trans_enters (one : FiresFirst before middle)
    (other : EntersWithin scope middle after) : EntersWithin scope before after :=
  have nothing : EntersWithin (fun _ => False) before middle := one.entersWithin
  (nothing.trans other fun _ _ impossible => impossible.elim).mono fun _ either =>
    either.resolve_left id

theorem FiresFirst.trans_recorded (one : FiresFirst before middle) {id : TransitionId}
    {firing : Firing} (external : firing.internal = false)
    (other : EntersWithin scope (middle.recorded id firing) after) : FiresFirst before after := by
  have records : Changes middle (middle.recorded id firing) := (Change.record id firing).one
  obtain ⟨early, toldEarly, spacedEarly⟩ := one.spaced
  obtain ⟨late, toldLate, spacedLate, _⟩ := other.within
  have toldRecord : Told middle (middle.recorded id firing) [.recorded id firing] :=
    told_note _ (.recorded id firing)
  have changes := one.changes.trans records
  exact ⟨Relation.ReflTransGen.trans changes other.changes, _,
    (toldEarly.trans toldRecord).trans toldLate,
    spacedEarly.append_firing (by simp [Event.isFiring, external])
      ((Changes.sameChart changes).spaced spacedLate)⟩

theorem entersWithin_entered {state : StateId} {node : StateNode}
    (found : machine.state? state = some node) (inactive : node.status.isActive = false) :
    EntersWithin (· = state) machine (machine.entered state node.name) := by
  have only {early : List Event} {other : StateId}
      (entered : EnteredAfter [.notice (.entered state node.name)] early other) :
      early = [] ∧ other = state := by
    obtain ⟨name, rest, split⟩ := entered
    cases early with
    | nil =>
        simp only [List.nil_append, List.cons_append, List.cons.injEq] at split
        cases split.1
        exact ⟨rfl, rfl⟩
    | cons event early => simp at split
  refine ⟨(Change.enter found inactive (Or.inr (Or.inr trivial))).one, _,
    told_entered machine state node.name, fun early other entered => ?_,
    fun early other entered _ => (only entered).2⟩
  rw [(only entered).1]
  exact ⟨Nat.zero_le _, fun one _ stays => by cases stays⟩

theorem EntersWithin.after_passing {state : StateId} {node node' : StateNode}
    (found : machine.state? state = some node) (inactive : node.status.isActive = false)
    (leaves : Changes (machine.entered state node.name)
      ((machine.entered state node.name).left state node'))
    (other : EntersWithin scope ((machine.entered state node.name).left state node') after) :
    EntersWithin (fun one => one = state ∨ scope one) machine after := by
  have told := (told_entered machine state node.name).trans (told_left state node')
  have passes : EntersWithin (· = state) machine
    ((machine.entered state node.name).left state node') :=
    (entersWithin_entered found inactive).trans_fires
      (.of_told leaves (told_left state node') (by simp [Event.sets]))
  obtain ⟨events, told', spacedEarly, keptEarly⟩ := passes.within
  obtain rfl := told'.unique told
  obtain ⟨late, toldLate, spacedLate, keptLate⟩ := other.within
  refine ⟨passes.changes.trans other.changes, _, told.trans toldLate,
    spaced_append spacedEarly (passes.changes.sameChart.spaced spacedLate) keptEarly keptLate ?_,
    keptEarly.append keptLate⟩
  intro one _ stays
  rw [replay_append_singleton, ← List.nil_append [Event.notice (.entered state node.name)],
    replay_append_singleton, Event.sets_left, Event.sets_entered] at stays
  split at stays <;> cases stays

end Relations

end Machine

end Chart
