import Chart.Proofs.Run.Leaving

set_option autoImplicit false

/-!
Changes that stay within a region. A change is confined to a region when nothing outside of it
differs afterwards, but for the data of the root, and no region outside of it was opened or closed
meanwhile. The single steps of a run are confined to the regions around the place where they happen.
-/

namespace Chart.Machine

structure Confined (outer : RegionId) (before after : Machine) : Prop where
  states : ∀ state, ¬before.Inside outer state → state ≠ root →
    after.state? state = before.state? state
  regions : ∀ region, ¬before.Within outer region → after.region? region = before.region? region
  told : ∃ events, Told before after events ∧ ∀ event ∈ events, ∀ region,
    event.setsRegion region ≠ none → before.Within outer region

/-- The owner of the region has another region that is active. -/
def Guarded (outer : RegionId) (machine : Machine) : Prop :=
  ∃ owner sibling, machine.ownerOf? outer = some owner ∧ machine.ownerOf? sibling = some owner ∧
    machine.Apart outer sibling ∧ machine.isRegionActive sibling = true

namespace Confined

variable {outer region : RegionId} {before middle after machine : Machine} {state : StateId}

theorem refl (outer : RegionId) (machine : Machine) : Confined outer machine machine where
  states := fun _ _ _ => rfl
  regions := fun _ _ => rfl
  told := ⟨[], Told.refl machine, by simp⟩

theorem trans (first : Confined outer before middle) (second : Confined outer middle after)
    (same : SameChart before middle) : Confined outer before after where
  states := fun state outside notRoot =>
    (second.states state (fun inside => outside (same.inside.mp inside)) notRoot).trans
      (first.states state outside notRoot)
  regions := fun region outside =>
    (second.regions region fun within => outside (same.within.mp within)).trans
      (first.regions region outside)
  told := by
    obtain ⟨early, toldEarly, insideEarly⟩ := first.told
    obtain ⟨late, toldLate, insideLate⟩ := second.told
    refine ⟨early ++ late, toldEarly.trans toldLate, fun event member region sets => ?_⟩
    rcases List.mem_append.mp member with inEarly | inLate
    · exact insideEarly event inEarly region sets
    · exact same.within.mp (insideLate event inLate region sets)

theorem widen {inner : RegionId} (confined : Confined inner before after)
    (within : before.Within outer inner) : Confined outer before after where
  states := fun state outside => confined.states state fun inside =>
    outside (inside.of_within within)
  regions := fun region outside => confined.regions region fun nested =>
    outside (within.trans nested)
  told := by
    obtain ⟨events, told, inside⟩ := confined.told
    exact ⟨events, told, fun event member region sets =>
      within.trans (inside event member region sets)⟩

theorem of_touches (touches : TouchesOnly state before after) (inside : before.Inside outer state) :
    Confined outer before after where
  states := by
    intro other outside notRoot
    refine touches.others other ?_ notRoot
    rintro rfl
    exact outside inside
  regions := fun region _ => touches.region? region
  told := by
    obtain ⟨events, told, still⟩ := touches.told
    exact ⟨events, told, fun event member region sets =>
      absurd (Event.setsRegion_of_still (still event member) region) sets⟩

theorem of_emptied {gone : StateId → Prop} {shut : RegionId → Prop}
    (emptied : Emptied gone shut before after)
    (inside : ∀ state, gone state → before.Inside outer state)
    (within : ∀ region, shut region → before.Within outer region) :
    Confined outer before after where
  states := fun other outside => emptied.states other fun isGone => outside (inside other isGone)
  regions := by
    intro region outside
    refine emptied.regions region (fun isShut => outside (within region isShut))
      fun other isGone contained => ?_
    exact outside ((inside other isGone).within_container contained)
  told := by
    obtain ⟨events, told, _, shuts⟩ := emptied.told
    exact ⟨events, told, fun event member region sets =>
      within region (shuts event member region sets).1⟩

theorem of_entered (name : String) (inside : machine.Inside outer state) :
    Confined outer machine (machine.entered state name) where
  states := by
    intro other outside _
    have different : state ≠ other := by
      rintro rfl
      exact outside inside
    rw [entered, state?_note, setStateStatus, state?_modifyState, if_neg different]
  regions := fun _ _ => rfl
  told := ⟨_, told_entered machine state name, by simp [Event.setsRegion]⟩

theorem of_closed (name : String) (within : machine.Within outer region) :
    Confined outer machine (machine.closed region name) where
  states := fun _ _ _ => rfl
  regions := by
    intro other outside
    refine region?_closed_of_ne name ?_
    rintro rfl
    exact outside within
  told := by
    refine ⟨_, told_closed machine region name, fun event member other sets => ?_⟩
    rw [List.mem_singleton.mp member, Event.setsRegion_deactivated] at sets
    obtain rfl : region = other := by
      by_contra different
      exact sets (if_neg different)
    exact within

theorem of_joined (outer : RegionId) (machine : Machine) (owner : StateId) :
    Confined outer machine (machine.joined owner) where
  states := fun _ _ _ => rfl
  regions := fun _ _ => rfl
  told := ⟨_, told_note machine _, by simp [Event.setsRegion]⟩

end Confined

/-- The region itself was neither opened nor closed on the way. -/
def Silent (region : RegionId) (before after : Machine) : Prop :=
  ∃ events, Told before after events ∧ ∀ event ∈ events, event.setsRegion region = none

namespace Silent

variable {region : RegionId} {before middle after : Machine}

theorem trans (first : Silent region before middle) (second : Silent region middle after) :
    Silent region before after := by
  obtain ⟨early, toldEarly, silentEarly⟩ := first
  obtain ⟨late, toldLate, silentLate⟩ := second
  refine ⟨early ++ late, toldEarly.trans toldLate, fun event member => ?_⟩
  rcases List.mem_append.mp member with inEarly | inLate
  · exact silentEarly event inEarly
  · exact silentLate event inLate

theorem of_confined {inner : RegionId} (confined : Confined inner before after)
    (outside : ¬before.Within inner region) : Silent region before after := by
  obtain ⟨events, told, within⟩ := confined.told
  refine ⟨events, told, fun event member => ?_⟩
  by_contra sets
  exact outside (within event member region sets)

theorem of_touches {state : StateId} (touches : TouchesOnly state before after) :
    Silent region before after := by
  obtain ⟨events, told, still⟩ := touches.told
  exact ⟨events, told, fun event member => Event.setsRegion_of_still (still event member) region⟩

end Silent
end Chart.Machine
