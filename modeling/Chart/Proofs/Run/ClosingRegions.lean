import Chart.Proofs.Run.Settling

set_option autoImplicit false

/-!
How regions are closed in a cascade. A cascade leaves no state that has an active region, so each
region that it closes has completed: a terminal child of it was left, and nothing has begun since.
-/

namespace Chart

theorem exists_split_of_prefix {base events early : List Event} {event : Event}
    (told : early ++ [event] <+: base ++ events) (later : base.length ≤ early.length) :
    ∃ before after, events = before ++ event :: after ∧ early = base ++ before := by
  obtain ⟨rest, whole⟩ := told
  rw [List.append_assoc, List.singleton_append] at whole
  rcases List.append_eq_append_iff.mp whole with ⟨between, isBase, isRest⟩ | ⟨between,
    isEarly, isEvents⟩
  · have none' : between = [] := by
      rw [isBase, List.length_append] at later
      exact List.length_eq_zero_iff.mp (by omega)
    subst none'
    exact ⟨[], rest, isRest.symm, by rw [isBase, List.append_nil, List.append_nil]⟩
  · exact ⟨between, rest, isEvents, isEarly⟩

namespace Machine

variable {start before middle after : Machine} {region : RegionId}

/-- Every region that was closed on the way had completed. -/
structure Concludes (before after : Machine) : Prop where
  same : SameChart before after
  journal : before.journal.toList <+: after.journal.toList
  reachedTerminal : ∀ early region name,
    early ++ [.notice (.regionDeactivated region name)] <+: after.journal.toList →
    before.journal.toList.length ≤ early.length → before.ReachedTerminal region early

namespace Concludes

theorem trans (first : Concludes before middle) (second : Concludes middle after) :
    Concludes before after where
  same := first.same.trans second.same
  journal := first.journal.trans second.journal
  reachedTerminal := by
    intro early region name told later
    by_cases afterMiddle : middle.journal.toList.length ≤ early.length
    · exact (second.reachedTerminal early region name told afterMiddle).before_sameChart first.same
    · refine first.reachedTerminal early region name ?_ later
      refine List.prefix_of_prefix_length_le told second.journal ?_
      rw [List.length_append, List.length_singleton]
      omega

theorem of_open {events : List Event} (same : SameChart before after)
    (told : Told before after events)
    (none' : ∀ region name, .notice (.regionDeactivated region name) ∉ events) :
    Concludes before after where
  same := same
  journal := ⟨events, told.symm⟩
  reachedTerminal := by
    intro early region name closes later
    rw [told] at closes
    obtain ⟨first, last, split, _⟩ := exists_split_of_prefix closes later
    refine absurd ?_ (none' region name)
    rw [split]
    exact List.mem_append_right _ (List.mem_cons_self ..)

theorem refl (machine : Machine) : Concludes machine machine :=
  of_open (SameChart.refl machine) (Told.refl machine) (by simp)

theorem of_still (still : Still before after) : Concludes before after := by
  obtain ⟨events, told, quiet⟩ := still.told
  refine of_open still.sameChart told fun region name member => ?_
  cases quiet _ member

theorem of_emptied {state : StateId} (wired : before.Wired) (coherent : before.Coherent)
    (bare : ∀ region, before.ownerOf? region = some state → before.isRegionActive region = false)
    (emptied : Emptied (before.Below state) (before.Beneath state) before after) :
    Concludes before after := by
  obtain ⟨events, told, _, shuts⟩ := emptied.told
  refine of_open emptied.changes.sameChart told fun region name member => ?_
  obtain ⟨beneath, active⟩ := shuts _ member region (by simp)
  obtain ⟨outer, owned, within⟩ := beneath_iff.mp beneath
  have around := coherent.active_outside wired within active
  rw [bare outer owned] at around
  cases around

theorem of_closed (name : String)
    (reachedTerminal : before.ReachedTerminal region before.journal.toList) :
    Concludes before (before.closed region name) where
  same := (sameChart_setRegionStatus before region .inactive).trans (sameChart_note _ _)
  journal := ⟨_, (told_closed before region name).symm⟩
  reachedTerminal := by
    intro early other otherName closes later
    rw [told_closed] at closes
    obtain ⟨first, last, split, isEarly⟩ := exists_split_of_prefix closes later
    cases first with
    | nil =>
        obtain ⟨here, _⟩ := List.cons.inj split
        obtain ⟨rfl, _⟩ : region = other ∧ name = otherName := by simpa using here
        rw [isEarly, List.append_nil]
        exact reachedTerminal
    | cons event rest =>
        have longer := congrArg List.length split
        simp at longer

theorem exists_reachedTerminal (concludes : Concludes before after) (retold : before.Retold)
    (retoldAfter : after.Retold) (active : before.isRegionActive region = true)
    (inactive : after.isRegionActive region = false) :
    ∃ early name, early ++ [.notice (.regionDeactivated region name)] <+: after.journal.toList ∧
      before.journal.toList.length ≤ early.length ∧ before.ReachedTerminal region early := by
  obtain ⟨events, told⟩ := concludes.journal
  obtain ⟨event, member, closes⟩ : ∃ event ∈ events, event.setsRegion region = some false := by
    by_contra none'
    have still := @replay_append_of_true _ _ events ((retold.regions region).trans active)
      fun event member closes => none' ⟨event, member, closes⟩
    rw [told, retoldAfter.regions, inactive] at still
    cases still
  obtain ⟨name, rfl⟩ := Event.eq_deactivated_of_setsRegion closes
  obtain ⟨first, last, split⟩ := List.append_of_mem member
  have closed : before.journal.toList ++ first ++ [.notice (.regionDeactivated region name)] <+:
      after.journal.toList := by
    refine ⟨last, ?_⟩
    rw [← told, split]
    simp
  have later : before.journal.toList.length ≤ (before.journal.toList ++ first).length := by
    rw [List.length_append]
    omega
  exact ⟨_, name, closed, later, concludes.reachedTerminal _ region name closed later⟩

end Concludes

/-- The events tell that the region completed: a terminal child of it was left, nothing began, and
then the region was closed. -/
def Completes (machine : Machine) (region : RegionId) (events : List Event) : Prop :=
  ∃ child childName regionName early between late, machine.containerOf? child = some region ∧
    machine.Terminal region child ∧
    events = early ++ .notice (.left child childName) ::
      (between ++ .notice (.regionDeactivated region regionName) :: late) ∧
    ∀ event ∈ between, event.begins = false

theorem Completes.append {events : List Event} (completes : start.Completes region events)
    (more : List Event) : start.Completes region (events ++ more) := by
  obtain ⟨child, childName, regionName, early, between, late, contained, terminal, rfl, quiet⟩ :=
    completes
  exact ⟨child, childName, regionName, early, between, late ++ more, contained, terminal, by simp,
    quiet⟩

theorem Completes.prepend {events : List Event} (completes : middle.Completes region events)
    (same : SameChart start middle) (before : List Event) :
    start.Completes region (before ++ events) := by
  obtain ⟨child, childName, regionName, early, between, late, contained, terminal, rfl, quiet⟩ :=
    completes
  rw [same.containerOf?] at contained
  exact ⟨child, childName, regionName, before ++ early, between, late, contained,
    terminal.before_sameChart same, by simp, quiet⟩

theorem ReachedTerminal.completes {early begun events : List Event} {name : String} {event : Event}
    (reachedTerminal : start.ReachedTerminal region early) (told : Told start after events)
    (closes : early ++ [.notice (.regionDeactivated region name)] <+: after.journal.toList)
    (since : start.journal.toList ++ begun <+: early) (member : event ∈ begun)
    (begins : event.begins = true) : start.Completes region events := by
  obtain ⟨child, first, last, contained, terminal, split, active, inactive, quiet⟩ :=
    reachedTerminal
  obtain ⟨rest, whole⟩ := since
  rw [told] at closes
  have later : start.journal.toList.length ≤ early.length := by
    rw [← whole, List.append_assoc, List.length_append]
    omega
  obtain ⟨before, late, isEvents, isEarly⟩ := exists_split_of_prefix closes later
  have isBefore : before = begun ++ rest := by
    rw [← whole, List.append_assoc] at isEarly
    exact (List.append_cancel_left isEarly).symm
  -- The child was active after something had begun, and so after the start.
  obtain ⟨between, isFirst, isBetween⟩ : ∃ between, first = start.journal.toList ++ between ∧
      before = between ++ last := by
    rcases List.append_eq_append_iff.mp (isEarly.symm.trans split) with
      ⟨between, isFirst, isBetween⟩ | ⟨between, _, isLast⟩
    · exact ⟨between, isFirst, isBetween⟩
    · have ended := quiet event (by
        rw [isLast, isBefore]
        exact List.mem_append_right _ (List.mem_append_left _ member))
      rw [begins] at ended
      cases ended
  obtain ⟨leaving, memberLast, leaves⟩ : ∃ leaving ∈ last, leaving.sets child = some false := by
    by_contra none'
    have still := @replay_append_of_true _ _ last active
      fun leaving member leaves => none' ⟨leaving, member, leaves⟩
    rw [← split, inactive] at still
    cases still
  obtain ⟨childName, rfl⟩ := Event.eq_left_of_sets leaves
  obtain ⟨leadIn, tail, isLast⟩ := List.append_of_mem memberLast
  refine ⟨child, childName, name, between ++ leadIn, tail, late, contained, terminal, ?_,
    fun other member => quiet other ?_⟩
  · rw [isEvents, isBetween, isLast]
    simp
  · rw [isLast]
    exact List.mem_append_right _ (List.mem_cons_of_mem _ member)

end Machine

namespace Run

open Machine (Concludes)

theorem respects_concludes (mayFail : Prop) : Respects mayFail Concludes where
  refl := Concludes.refl
  trans := Concludes.trans
  still := fun uneventful => Concludes.of_still uneventful.toStill
  emptied := fun orderly coherent _ bare _ emptied =>
    Concludes.of_emptied orderly.toWired coherent bare emptied
  opened := by
    intro machine after owner _ _ _ _ _ opened
    refine Concludes.of_open opened.changes.sameChart opened.told fun region name member => ?_
    obtain ⟨other, _, impossible⟩ := List.mem_map.mp member
    cases impossible
  closed := fun _ _ _ _ reachedTerminal _ => Concludes.of_closed _ reachedTerminal
  joined := by
    intro machine region members orderly coherent found idle reachedTerminal _
    refine (Concludes.of_closed members.name reachedTerminal).trans ?_
    exact Concludes.of_open (Machine.sameChart_note _ _) (Machine.told_note _ _) (by simp)
  entered := by
    intro machine state node _ _ _ _ _
    exact Concludes.of_open (Machine.sameChart_entered machine state node.name)
      (Machine.told_entered machine state node.name) (by simp)
  resumed := by
    intro machine after state node _ _ _ _ _ _ _ _ relates
    refine Concludes.trans ?_ relates
    exact Concludes.of_open (Machine.sameChart_entered machine state node.name)
      (Machine.told_entered machine state node.name) (by simp)

end Run
end Chart
