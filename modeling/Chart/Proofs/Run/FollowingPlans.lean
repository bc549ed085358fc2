import Chart.Proofs.Run.Joining

set_option autoImplicit false

/-!
Plans are followed. A plan is made before it is carried out, and what the earlier steps lead to
could upset the later ones. In an answered call to a calm machine it never does: no step is skipped
and nothing is already as a step would make it, a state is entered while its region is active, a
region is opened while its owner is, and whatever is entered below a state that the call has entered
comes after all regions of that state. The last one rests on the record of the joins: a state that
was entered and has an active region has opened all of them.
-/

namespace Chart

namespace Machine

variable {start before after machine : Machine} {events late : List Event}

/-- The moment is right to enter the state: its region is active, and of every state around it that
was entered earlier in the call all regions have been opened since. -/
structure MayEnter (machine : Machine) (earlier told : List Event) (state : StateId) : Prop where
  contained : state ≠ root → ∃ region, machine.containerOf? state = some region ∧
    replay (Event.setsRegion region) (earlier ++ told) = true
  opened : ∀ owner, machine.Below owner state → state ≠ owner →
    (∃ event ∈ told, event.enters owner = true) →
    ∀ region ∈ machine.regionsOf owner, OpenedSince (earlier ++ told) owner region

/-- How the events of a call that began with the first machine show that its plans were followed. -/
structure PlansFollowed (start machine : Machine) (events : List Event) : Prop where
  same : SameChart start machine
  told : Told start machine events
  noMisstep : ∀ event ∈ events, event.isMisstep = false
  entered : ∀ early late state name, events = early ++ .notice (.entered state name) :: late →
    start.MayEnter start.journal.toList early state
  activated : ∀ early late region name,
    events = early ++ .notice (.regionActivated region name) :: late →
    ∃ owner, start.ownerOf? region = some owner ∧
      replay (Event.sets owner) (start.journal.toList ++ early) = true

private theorem split_cases {rest early : List Event} {event : Event}
    (split : events ++ late = early ++ event :: rest) :
    (∃ rest', events = early ++ event :: rest') ∨
      ∃ first, early = events ++ first ∧ late = first ++ event :: rest := by
  by_cases absent : event ∈ late
  · rcases List.append_eq_append_iff.mp split with ⟨first, isEarly, isLate⟩ |
      ⟨between, isEvents, isRest⟩
    · exact Or.inr ⟨first, isEarly, isLate⟩
    · cases between with
      | nil =>
          rw [List.append_nil] at isEvents
          exact Or.inr ⟨[], by rw [isEvents, List.append_nil], isRest.symm⟩
      | cons first between =>
          obtain ⟨rfl, _⟩ := List.cons.inj isRest
          exact Or.inl ⟨between, isEvents⟩
  · exact Or.inl (exists_split_of_append absent split)

private theorem noMisstep_closed (machine : Machine) (region : RegionId) (name : String) :
    NoMisstep machine (machine.closed region name) :=
  ⟨_, told_closed machine region name, by simp [Event.isMisstep]⟩

namespace PlansFollowed

theorem refl (machine : Machine) : PlansFollowed machine machine [] where
  same := SameChart.refl machine
  told := Told.refl machine
  noMisstep := by simp
  entered := by simp
  activated := by simp

variable (plansFollowed : PlansFollowed start before events)
include plansFollowed

private theorem after_ends (same : SameChart before after) (told : Told before after late)
    (noMisstep : ∀ event ∈ late, event.isMisstep = false)
    (enters : ∀ event ∈ late, ∀ state, event.enters state = false)
    (opens : ∀ event ∈ late, ∀ region, event.opens region = false) :
    PlansFollowed start after (events ++ late) where
  same := plansFollowed.same.trans same
  told := plansFollowed.told.trans told
  noMisstep := List.forall_mem_append.mpr ⟨plansFollowed.noMisstep, noMisstep⟩
  entered := by
    intro early rest state name split
    have absent : Event.notice (.entered state name) ∉ late := by
      intro member
      have silent := enters _ member state
      simp at silent
    obtain ⟨rest', earlier⟩ := exists_split_of_append absent split
    exact plansFollowed.entered early rest' state name earlier
  activated := by
    intro early rest region name split
    have absent : Event.notice (.regionActivated region name) ∉ late := by
      intro member
      have silent := opens _ member region
      simp at silent
    obtain ⟨rest', earlier⟩ := exists_split_of_append absent split
    exact plansFollowed.activated early rest' region name earlier

theorem after_noneBegun (noneBegun : NoneBegun late before after)
    (noMisstep : NoMisstep before after) :
    PlansFollowed start after (events ++ late) := by
  obtain ⟨others, also, noMisstep⟩ := noMisstep
  obtain rfl := noneBegun.told.unique also
  apply plansFollowed.after_ends noneBegun.same noneBegun.told noMisstep
  · intro event member state
    exact Event.enters_of_begins (noneBegun.ends event member) state
  · intro event member region
    exact Event.opens_of_begins (noneBegun.ends event member) region

/-- The regions around a state that is ready to be entered are active, so all regions of their
owners have been opened. -/
theorem after_entered {state : StateId} {node : StateNode} (joining : Joining start before events)
    (retold : before.Retold) (coherent : before.Coherent) (wired : before.Wired)
    (ready : before.Ready state) :
    PlansFollowed start (before.entered state node.name)
      (events ++ [.notice (.entered state node.name)]) where
  same := plansFollowed.same.trans (sameChart_entered before state node.name)
  told := plansFollowed.told.trans (told_entered before state node.name)
  noMisstep := List.forall_mem_append.mpr ⟨plansFollowed.noMisstep, by simp [Event.isMisstep]⟩
  entered := by
    intro early rest other name split
    rcases split_cases split with ⟨rest', earlier⟩ | ⟨first, isEarly, isLast⟩
    · exact plansFollowed.entered early rest' other name earlier
    · obtain ⟨rfl, isEntry⟩ : first = [] ∧
          Event.notice (.entered state node.name) = .notice (.entered other name) := by
        cases first with
        | nil => exact ⟨rfl, (List.cons.inj isLast).1⟩
        | cons _ _ => simp at isLast
      obtain rfl : state = other := by
        cases isEntry
        rfl
      rw [List.append_nil] at isEarly
      rw [isEarly]
      have journal : before.journal.toList = start.journal.toList ++ events := plansFollowed.told
      constructor
      · intro notRoot
        rcases ready with ⟨isRoot, _⟩ | ⟨region, contained, idle⟩
        · exact absurd isRoot notRoot
        · refine ⟨region, ?_, ?_⟩
          · rw [← plansFollowed.same.containerOf?]
            exact contained
          · rw [← journal, retold.regions]
            exact idle.1
      · intro owner below different entered region listed
        rw [← plansFollowed.same.regionsOf] at listed
        rw [← journal]
        refine joining.opened owner entered ?_ region listed
        rcases plansFollowed.same.below.mpr below with same | ⟨outer, owned, inside⟩
        · exact absurd same different
        · have active : before.isRegionActive outer = true := by
            rcases ready with ⟨isRoot, _⟩ | ⟨container, contained, idle⟩
            · exact absurd isRoot (wired.not_inside_root inside)
            · obtain ⟨inner, containedInner, within⟩ := inside_iff.mp inside
              rw [contained] at containedInner
              obtain rfl := Option.some.inj containedInner
              exact coherent.active_outside wired within idle.1
          exact Or.inr (Or.inr ⟨outer, (wired.owned outer owner).mp owned, Or.inl active⟩)
  activated := by
    intro early rest region name split
    obtain ⟨rest', earlier⟩ := exists_split_of_append (by simp) split
    exact plansFollowed.activated early rest' region name earlier

private theorem after_opened {owner : StateId} (retold : before.Retold) (wired : before.Wired)
    (active : before.isStateActive owner = true)
    (opens : Opened (before.regionsOf owner) before after) :
    PlansFollowed start after (events ++ (before.regionsOf owner).map fun region =>
      .notice (.regionActivated region (before.regionName region))) where
  same := plansFollowed.same.trans opens.changes.sameChart
  told := plansFollowed.told.trans opens.told
  noMisstep := List.forall_mem_append.mpr ⟨plansFollowed.noMisstep, by simp [Event.isMisstep]⟩
  entered := by
    intro early rest state name split
    obtain ⟨rest', earlier⟩ := exists_split_of_append (by simp) split
    exact plansFollowed.entered early rest' state name earlier
  activated := by
    intro early rest region name split
    rcases split_cases split with ⟨rest', earlier⟩ | ⟨first, isEarly, isLate⟩
    · exact plansFollowed.activated early rest' region name earlier
    · have member : Event.notice (.regionActivated region name) ∈
          (before.regionsOf owner).map fun region =>
            .notice (.regionActivated region (before.regionName region)) := by
        rw [isLate]
        exact List.mem_append_right _ (List.mem_cons_self ..)
      obtain ⟨other, listed, isEvent⟩ := List.mem_map.mp member
      obtain rfl : other = region := by
        cases isEvent
        rfl
      refine ⟨owner, ?_, ?_⟩
      · rw [← plansFollowed.same.ownerOf?]
        exact (wired.owned other owner).mpr listed
      · have silent : ∀ event ∈ first, Event.sets owner event = none := by
          intro event among
          have inLate : event ∈ (before.regionsOf owner).map fun region =>
              .notice (.regionActivated region (before.regionName region)) := by
            rw [isLate]
            exact List.mem_append_left _ among
          obtain ⟨_, _, rfl⟩ := List.mem_map.mp inLate
          rfl
        rw [isEarly, ← List.append_assoc, replay_append_silent silent, ← plansFollowed.told,
          retold.states]
        exact active

end PlansFollowed

end Machine

namespace Run

open Machine (Joining PlansFollowed)

/-- What the operations of a machine keep, as seen from the start of a call. -/
def KeepsPlans (start before after : Machine) : Prop :=
  ((∃ events, Joining start before events ∧ PlansFollowed start before events) ∧
      ∀ owner, before.Due owner) →
    (∃ events, Joining start after events ∧ PlansFollowed start after events) ∧
    ∀ owner, after.Due owner

section KeepsPlans

variable {mayFail : Prop} {start before after machine : Machine}

private theorem KeepsPlans.of_keepsJoins (keepsJoins : KeepsJoins start before after)
    (keepsPlans : ∀ events, Joining start before events → PlansFollowed start before events →
      ∃ events', PlansFollowed start after events') : KeepsPlans start before after := by
  rintro ⟨⟨events, joining, plansFollowed⟩, due⟩
  obtain ⟨⟨events', joining'⟩, due'⟩ := keepsJoins ⟨⟨events, joining⟩, due⟩
  obtain ⟨others, plansFollowed'⟩ := keepsPlans events joining plansFollowed
  obtain rfl := joining'.told.unique plansFollowed'.told
  exact ⟨⟨events', joining', plansFollowed'⟩, due'⟩

private theorem keepsPlans_entered {state : StateId} {node : StateNode}
    (orderly : machine.Orderly mayFail)
    (coherent : machine.Coherent) (found : machine.state? state = some node)
    (ready : machine.Ready state) : KeepsPlans start machine (machine.entered state node.name) := by
  apply KeepsPlans.of_keepsJoins (keepsJoins_entered orderly coherent found ready)
  intro events joining plansFollowed
  exact ⟨_, plansFollowed.after_entered joining orderly.linked.retold coherent
    orderly.toWired ready⟩

theorem respects_keepsPlans (mayFail : Prop) (start : Machine) :
    Respects mayFail (KeepsPlans start) where
  refl := fun _ holds => holds
  trans := fun first second holds => second (first holds)
  still := by
    intro before after uneventful
    apply KeepsPlans.of_keepsJoins (keepsJoins_still uneventful.toStill)
    intro events _ plansFollowed
    obtain ⟨late, noneBegun⟩ := uneventful.toStill.noneBegun
    exact ⟨_, plansFollowed.after_noneBegun noneBegun uneventful.noMisstep⟩
  emptied := by
    intro before after state orderly coherent _ bare passing emptied
    apply KeepsPlans.of_keepsJoins (keepsJoins_emptied orderly coherent bare passing emptied)
    intro events _ plansFollowed
    obtain ⟨late, noneBegun⟩ := emptied.noneBegun
    exact ⟨_, plansFollowed.after_noneBegun noneBegun emptied.noMisstep⟩
  opened := by
    intro machine after owner orderly coherent active inactive fresh opens
    apply KeepsPlans.of_keepsJoins
      ((respects_keepsJoins mayFail start).opened orderly coherent active inactive fresh opens)
    intro events _ plansFollowed
    exact ⟨_, plansFollowed.after_opened orderly.linked.retold orderly.toWired active opens⟩
  closed := by
    intro machine region members orderly coherent found idle reachedTerminal sibling
    apply KeepsPlans.of_keepsJoins
      (keepsJoins_closed orderly found idle reachedTerminal.vacated sibling)
    intro events _ plansFollowed
    exact ⟨_, plansFollowed.after_noneBegun (Machine.noneBegun_closed found idle.1)
      (Machine.noMisstep_closed machine region members.name)⟩
  joined := by
    intro machine region members orderly coherent found idle reachedTerminal inactive
    apply KeepsPlans.of_keepsJoins
      (keepsJoins_joined orderly coherent found idle reachedTerminal.vacated inactive)
    intro events _ plansFollowed
    have closed := plansFollowed.after_noneBegun (Machine.noneBegun_closed found idle.1)
      (Machine.noMisstep_closed machine region members.name)
    exact ⟨_, closed.after_ends (Machine.sameChart_note _ _) (Machine.told_note _ _)
      (by simp [Event.isMisstep]) (by simp [Event.enters, Event.sets])
      (by simp [Event.opens, Event.setsRegion])⟩
  entered := fun orderly coherent found ready _ => keepsPlans_entered orderly coherent found ready
  resumed := fun orderly coherent found ready _ _ relates holds =>
    relates (keepsPlans_entered orderly coherent found ready holds)

end KeepsPlans

end Run

end Chart
