import Chart.Proofs.Run.QuietCallbacks

set_option autoImplicit false

/-!
Leaving a state as a whole. `Emptied` says what it means that a set of states has been left and a
set of regions closed: they are inactive, their regions remember the normal children that were
active, and nothing else is touched. The exit plan of a state visits its active regions and
whatever is active in them, innermost first; following it empties exactly what lies at the state.
-/

namespace Chart

namespace Machine

/-- The child a region resumes when it is entered through its history. -/
def lastActive? (machine : Machine) (region : RegionId) : Option StateId :=
  (machine.region? region).bind Region.lastActive

structure Emptied (gone : StateId → Prop) (shut : RegionId → Prop) (before after : Machine) :
    Prop where
  changes : Changes before after
  coherent : after.Coherent
  left : ∀ state, gone state → after.isStateActive state = false
  closed : ∀ region, shut region → after.isRegionActive region = false
  statuses : ∀ state, ¬gone state → after.isStateActive state = before.isStateActive state
  states : ∀ state, ¬gone state → state ≠ root → after.state? state = before.state? state
  regionStatuses : ∀ region, ¬shut region →
    after.isRegionActive region = before.isRegionActive region
  regions : ∀ region, ¬shut region →
    (∀ state, gone state → before.containerOf? state ≠ some region) →
    after.region? region = before.region? region
  remembered : ∀ region state, before.containerOf? state = some region → gone state →
    before.isStateActive state = true → before.kindOf? state = some .normal →
    after.lastActive? region = some state
  kept : ∀ region, (∀ state, before.containerOf? state = some region → gone state →
      before.isStateActive state = true → before.kindOf? state ≠ some .normal) →
    after.lastActive? region = before.lastActive? region
  told : ∃ events, Told before after events ∧ (∀ event ∈ events, event.begins = false) ∧
    ∀ event ∈ events, ∀ region, event.setsRegion region ≠ none →
      shut region ∧ before.isRegionActive region = true
  noMisstep : NoMisstep before after

namespace Emptied

variable {gone more : StateId → Prop} {shut closer : RegionId → Prop}
variable {before middle after : Machine}

theorem widen (emptied : Emptied gone shut before after) (wider : ∀ state, gone state → more state)
    (inactive : ∀ state, more state → ¬gone state → before.isStateActive state = false)
    (widerRegions : ∀ region, shut region → closer region)
    (inactiveRegions : ∀ region, closer region → ¬shut region →
      before.isRegionActive region = false) :
    Emptied more closer before after where
  changes := emptied.changes
  coherent := emptied.coherent
  left := by
    intro state isMore
    by_cases isGone : gone state
    · exact emptied.left state isGone
    · rw [emptied.statuses state isGone]
      exact inactive state isMore isGone
  closed := by
    intro region isCloser
    by_cases isShut : shut region
    · exact emptied.closed region isShut
    · rw [emptied.regionStatuses region isShut]
      exact inactiveRegions region isCloser isShut
  statuses := fun state notMore => emptied.statuses state fun isGone => notMore (wider state isGone)
  states := fun state notMore => emptied.states state fun isGone => notMore (wider state isGone)
  regionStatuses := fun region notCloser => emptied.regionStatuses region fun isShut =>
    notCloser (widerRegions region isShut)
  regions := fun region notCloser noMember => emptied.regions region
    (fun isShut => notCloser (widerRegions region isShut))
    (fun state isGone => noMember state (wider state isGone))
  remembered := by
    intro region state contained isMore active normal
    by_cases isGone : gone state
    · exact emptied.remembered region state contained isGone active normal
    · rw [inactive state isMore isGone] at active
      cases active
  kept := fun region noNormal => emptied.kept region fun state contained isGone active =>
    noNormal state contained (wider state isGone) active
  told := by
    obtain ⟨events, told, ends, shuts⟩ := emptied.told
    exact ⟨events, told, ends, fun event member region sets =>
      (shuts event member region sets).imp_left (widerRegions region)⟩
  noMisstep := emptied.noMisstep

theorem trans (first : Emptied gone shut before middle) (second : Emptied more closer middle after)
    (coherent : before.Coherent) :
    Emptied (fun state => gone state ∨ more state) (fun region => shut region ∨ closer region)
      before after := by
  have same := first.changes.sameChart
  have wasActive {state : StateId} (active : middle.isStateActive state = true) :
      before.isStateActive state = true := by
    by_cases isGone : gone state
    · rw [first.left state isGone] at active
      cases active
    · rw [← first.statuses state isGone]
      exact active
  refine
    { changes := first.changes.trans second.changes, coherent := second.coherent, left := ?_
      closed := ?_, statuses := ?_, states := ?_, regionStatuses := ?_, regions := ?_
      remembered := ?_, kept := ?_, told := ?_, noMisstep :=
        first.noMisstep.trans second.noMisstep }
  · intro state either
    by_cases isMore : more state
    · exact second.left state isMore
    · rw [second.statuses state isMore]
      exact first.left state (either.resolve_right isMore)
  · intro region either
    by_cases isCloser : closer region
    · exact second.closed region isCloser
    · rw [second.regionStatuses region isCloser]
      exact first.closed region (either.resolve_right isCloser)
  · intro state neither
    obtain ⟨notGone, notMore⟩ := not_or.mp neither
    exact (second.statuses state notMore).trans (first.statuses state notGone)
  · intro state neither notRoot
    obtain ⟨notGone, notMore⟩ := not_or.mp neither
    exact (second.states state notMore notRoot).trans (first.states state notGone notRoot)
  · intro region neither
    obtain ⟨notShut, notCloser⟩ := not_or.mp neither
    exact (second.regionStatuses region notCloser).trans (first.regionStatuses region notShut)
  · intro region neither noMember
    obtain ⟨notShut, notCloser⟩ := not_or.mp neither
    refine (second.regions region notCloser fun state isMore => ?_).trans
      (first.regions region notShut fun state isGone => noMember state (Or.inl isGone))
    rw [same.containerOf?]
    exact noMember state (Or.inr isMore)
  · intro region state contained either active normal
    by_cases isGone : gone state
    · have remembers := first.remembered region state contained isGone active normal
      rw [← remembers]
      refine second.kept region fun other contained' _ active' _ => ?_
      -- The middle machine has no active child there, because the only one was left.
      rw [same.containerOf?] at contained'
      have equal := coherent.single region other state contained' contained (wasActive active')
        active
      rw [equal, first.left state isGone] at active'
      cases active'
    · refine second.remembered region state ?_ (either.resolve_left isGone) ?_ ?_
      · rw [same.containerOf?]
        exact contained
      · rw [first.statuses state isGone]
        exact active
      · rw [same.kindOf?]
        exact normal
  · intro region noNormal
    refine (second.kept region fun state contained isMore active => ?_).trans
      (first.kept region fun state contained isGone => noNormal state contained (Or.inl isGone))
    rw [same.containerOf?] at contained
    rw [same.kindOf?]
    exact noNormal state contained (Or.inr isMore) (wasActive active)
  · obtain ⟨early, toldEarly, quietEarly, shutsEarly⟩ := first.told
    obtain ⟨late, toldLate, quietLate, shutsLate⟩ := second.told
    refine ⟨early ++ late, toldEarly.trans toldLate, fun event member => ?_,
      fun event member region sets => ?_⟩
    · rcases List.mem_append.mp member with inEarly | inLate
      · exact quietEarly event inEarly
      · exact quietLate event inLate
    · rcases List.mem_append.mp member with inEarly | inLate
      · exact (shutsEarly event inEarly region sets).imp_left Or.inl
      · obtain ⟨isCloser, active⟩ := shutsLate event inLate region sets
        refine ⟨Or.inr isCloser, ?_⟩
        by_cases isShut : shut region
        · rw [first.closed region isShut] at active
          cases active
        · rw [← first.regionStatuses region isShut]
          exact active

theorem nothing {machine : Machine} (coherent : machine.Coherent) :
    Emptied (fun _ => False) (fun _ => False) machine machine where
  changes := Relation.ReflTransGen.refl
  coherent := coherent
  left := fun _ impossible => impossible.elim
  closed := fun _ impossible => impossible.elim
  statuses := fun _ _ => rfl
  states := fun _ _ _ => rfl
  regionStatuses := fun _ _ => rfl
  regions := fun _ _ _ => rfl
  remembered := fun _ _ _ impossible => impossible.elim
  kept := fun _ _ => rfl
  told := ⟨[], Told.refl machine, by simp, by simp⟩
  noMisstep := NoMisstep.refl machine

theorem of_touches {state : StateId} (touches : TouchesOnly state before after)
    (coherent : before.Coherent)
    (inactive : before.isStateActive state = false) :
    Emptied (fun other => other = state) (fun _ => False) before after where
  changes := touches.changes
  coherent := touches.coherent coherent
  left := by
    rintro other rfl
    rw [touches.toStill.states]
    exact inactive
  closed := fun _ impossible => impossible.elim
  statuses := fun other _ => touches.toStill.states other
  states := fun other different notRoot => touches.others other different notRoot
  regionStatuses := fun region _ => touches.isRegionActive region
  regions := fun region _ _ => touches.region? region
  remembered := by
    rintro region other _ rfl active _
    rw [inactive] at active
    cases active
  kept := fun region _ => by rw [lastActive?, lastActive?, touches.region?]
  told := by
    obtain ⟨events, told, still⟩ := touches.told
    exact ⟨events, told, fun event member => Event.begins_of_moves (still event member),
      fun event member region sets =>
        absurd (Event.setsRegion_of_still (still event member) region) sets⟩
  noMisstep := touches.noMisstep

end Emptied

/-! ### Leaving one state, closing one region -/

section Steps

variable {machine : Machine}

private theorem state?_left_of_ne {state other : StateId} (node : StateNode)
    (different : other ≠ state) :
    (machine.left state node).state? other = machine.state? other := by
  have departs : (machine.departed state node.name).state? other = machine.state? other := by
    rw [departed, state?_note, setStateStatus, state?_modifyState, if_neg different.symm]
  unfold left
  split
  · rw [state?_remembered, timerStopped, state?_modifyState, if_neg different.symm, departs]
  · exact departs

theorem region?_left (state : StateId) (node : StateNode) (region : RegionId) :
    (machine.left state node).region? region =
      if node.kind = .normal ∧ node.container = some region then
        (machine.region? region).map fun members => { members with lastActive := some state }
      else machine.region? region := by
  unfold left
  by_cases normal : node.kind = .normal
  · rw [if_pos normal]
    cases contained : node.container with
    | none =>
        rw [if_neg (by simp)]
        rfl
    | some container =>
        rw [remembered, region?_modifyRegion]
        by_cases here : container = region
        · rw [if_pos here, if_pos ⟨normal, congrArg some here⟩]
          rfl
        · rw [if_neg here, if_neg fun both => here (Option.some.inj both.2)]
          rfl
  · rw [if_neg normal, if_neg fun both => normal both.1]
    rfl

theorem emptied_left {state : StateId} {node : StateNode} (wired : machine.Wired)
    (coherent : machine.Coherent) (found : machine.state? state = some node)
    (active : node.status.isActive = true)
    (bare : ∀ region, machine.ownerOf? region = some state →
      machine.isRegionActive region = false) :
    Emptied (fun other => other = state) (fun _ => False) machine (machine.left state node) where
  changes := (Change.leave found active).one
  coherent := coherent.left bare
  left := by
    rintro other rfl
    cases result : (machine.left other node).isStateActive other with
    | false => rfl
    | true => exact absurd rfl ((isStateActive_left other).mp result).1
  closed := fun _ impossible => impossible.elim
  statuses := by
    intro other different
    rw [Bool.eq_iff_iff, isStateActive_left]
    exact ⟨fun both => both.2, fun isActive => ⟨different, isActive⟩⟩
  states := fun other different _ => state?_left_of_ne node different
  regionStatuses := fun region _ => isRegionActive_left state node region
  regions := by
    intro region _ noMember
    rw [region?_left, if_neg]
    rintro ⟨_, contained⟩
    exact noMember state rfl (containerOf?_eq_some.mpr ⟨node, found, contained⟩)
  remembered := by
    rintro region other contained rfl _ normal
    obtain ⟨node', found', contained'⟩ := containerOf?_eq_some.mp contained
    obtain ⟨node'', found'', normal'⟩ := kindOf?_eq_some.mp normal
    rw [found] at found' found''
    obtain rfl := Option.some.inj found'
    obtain rfl := Option.some.inj found''
    obtain ⟨owner, owned⟩ := wired.exists_owner contained
    obtain ⟨members, stored, _⟩ := ownerOf?_eq_some.mp owned
    rw [lastActive?, region?_left, if_pos ⟨normal', contained'⟩, stored]
    rfl
  kept := by
    intro region noNormal
    rw [lastActive?, lastActive?, region?_left]
    split
    · rename_i both
      exact absurd (kindOf?_eq_some.mpr ⟨node, found, both.1⟩)
        (noNormal state (containerOf?_eq_some.mpr ⟨node, found, both.2⟩) rfl
          (isStateActive_iff.mpr ⟨node, found, active⟩))
    · rfl
  told := ⟨_, told_left state node, by simp [Event.begins], by simp [Event.setsRegion]⟩
  noMisstep := ⟨_, told_left state node, by simp [Event.isMisstep]⟩

theorem region?_closed_of_ne {region other : RegionId} (name : String)
    (different : other ≠ region) :
    (machine.closed region name).region? other = machine.region? other := by
  rw [closed, region?_note, setRegionStatus, region?_modifyRegion, if_neg different.symm]

theorem lastActive?_closed (region other : RegionId) (name : String) :
    (machine.closed region name).lastActive? other = machine.lastActive? other := by
  rw [lastActive?, lastActive?, closed, region?_note, setRegionStatus, region?_modifyRegion]
  split
  · cases machine.region? other <;> rfl
  · rfl

theorem emptied_closed {region : RegionId} {members : Region} (coherent : machine.Coherent)
    (found : machine.region? region = some members) (active : members.status.isActive = true)
    (childless : ∀ child, machine.containerOf? child = some region →
      machine.isStateActive child = false) :
    Emptied (fun _ => False) (fun other => other = region) machine
      (machine.closed region members.name) where
  changes := (Change.closeRegion found active).one
  coherent := coherent.closed childless members.name
  left := fun _ impossible => impossible.elim
  closed := by
    rintro other rfl
    exact isRegionActive_closed_self other members.name
  statuses := fun _ _ => rfl
  states := fun _ _ _ => rfl
  regionStatuses := fun _ different => isRegionActive_closed_of_ne members.name different
  regions := fun other different _ => region?_closed_of_ne members.name different
  remembered := fun _ _ _ impossible => impossible.elim
  kept := fun other _ => lastActive?_closed region other members.name
  told := by
    refine ⟨_, told_note _ _, by simp [Event.begins], fun event member other sets => ?_⟩
    rw [List.mem_singleton.mp member, Event.setsRegion_deactivated] at sets
    obtain rfl : region = other := by
      by_contra different
      exact sets (if_neg different)
    exact ⟨rfl, isRegionActive_iff.mpr ⟨members, found, active⟩⟩
  noMisstep := ⟨_, told_note _ _, by simp [Event.isMisstep]⟩

end Steps

/-! ### What lies at a state -/

def Beneath (machine : Machine) (top : StateId) (region : RegionId) : Prop :=
  ∃ owner, machine.ownerOf? region = some owner ∧ machine.Below top owner

theorem beneath_iff {machine : Machine} {top : StateId} {region : RegionId} :
    machine.Beneath top region ↔
      ∃ outer, machine.ownerOf? outer = some top ∧ machine.Within outer region := by
  constructor
  · rintro ⟨owner, owned, same | ⟨outer, ownedOuter, inside⟩⟩
    · exact ⟨region, by rw [← same]; exact owned, Within.refl machine region⟩
    · exact ⟨outer, ownedOuter, Within.of_owner owned inside⟩
  · rintro ⟨outer, ownedOuter, same | ⟨owner, owned, inside⟩⟩
    · exact ⟨top, by rw [same]; exact ownedOuter, Below.refl machine top⟩
    · exact ⟨owner, owned, Or.inr ⟨outer, ownedOuter, inside⟩⟩

theorem SameChart.below {before after : Machine} (same : SameChart before after)
    {top state : StateId} : after.Below top state ↔ before.Below top state := by
  unfold Below
  simp only [same.ownerOf?, same.inside]

theorem Coherent.below_child {machine : Machine} (coherent : machine.Coherent)
    (wired : machine.Wired) {region : RegionId} {state : StateId}
    (inside : machine.Inside region state) (active : machine.isStateActive state = true) :
    ∃ child, machine.containerOf? child = some region ∧ machine.isStateActive child = true ∧
      machine.Below child state := by
  induction inside with
  | @member state contained => exact ⟨state, contained, active, Below.refl machine state⟩
  | deeper contained owned _ ih =>
      have around := coherent.container_active wired active contained
      obtain ⟨child, containedChild, activeChild, below⟩ :=
        ih (coherent.owner_active around owned)
      refine ⟨child, containedChild, activeChild, ?_⟩
      exact below_iff_parent.mpr
        (Or.inr ⟨_, parentOf?_eq_some.mpr ⟨_, contained, owned⟩, below⟩)

theorem Inside.of_below {machine : Machine} {region : RegionId} {child state : StateId}
    (contained : machine.containerOf? child = some region) (below : machine.Below child state) :
    machine.Inside region state := by
  rcases below with same | ⟨nested, owned, inside⟩
  · rw [same]
    exact .member contained
  · exact inside.of_within (Within.of_member owned contained)

theorem Within.of_beneath {machine : Machine} {region nested : RegionId} {child : StateId}
    (contained : machine.containerOf? child = some region)
    (beneath : machine.Beneath child nested) : machine.Within region nested := by
  obtain ⟨owner, owned, below⟩ := beneath
  exact Within.of_owner owned (Inside.of_below contained below)

end Machine
end Chart
