import Chart.Proofs.Forest.Registration
import Chart.Proofs.Run.Journal

set_option autoImplicit false

/-!
Links made by running. A choice remembers which transition it made for which target, a region which
normal child was active last, the queue for which states frames are pending, and the journal what
has become active and inactive. These links stay right however the machine runs and however its
chart grows.
-/

namespace Chart.Machine

structure Linked (machine : Machine) : Prop where
  choices : ∀ state node target transition, machine.state? state = some node →
    Dictionary.find? node.choices target = some transition →
    ∃ name region, node.container = some region ∧
      machine.transition? transition = some (.ofChoice name node.name target region)
  lastActive : ∀ region members last, machine.region? region = some members →
    members.lastActive = some last →
    machine.containerOf? last = some region ∧ machine.kindOf? last = some .normal
  frames : ∀ handle ∈ machine.frames.pending, (machine.state? handle.state).isSome
  retold : machine.Retold

private theorem Linked.of_sameChart {before after : Machine} (linked : before.Linked)
    (same : SameChart before after) (retold : after.Retold)
    (choices : ∀ state, (after.state? state).map StateNode.choices =
      (before.state? state).map StateNode.choices)
    (lastActive : ∀ region, (after.region? region).map Region.lastActive =
      (before.region? region).map Region.lastActive)
    (frames : ∀ handle ∈ after.frames.pending,
      handle ∈ before.frames.pending ∨ (before.state? handle.state).isSome) :
    after.Linked where
  retold := retold
  choices := by
    intro state node target transition found chosen
    obtain ⟨node', found', fixed⟩ := same.state?_backward found
    have equal := choices state
    rw [found, found'] at equal
    have sameChoices : node.choices = node'.choices := Option.some.inj equal
    rw [sameChoices] at chosen
    obtain ⟨name, region, contained, present⟩ :=
      linked.choices state node' target transition found' chosen
    have sameContainer : node'.container = node.container :=
      StateNode.read_eq fixed StateNode.container fun _ => rfl
    have sameName : node'.name = node.name := StateNode.read_eq fixed StateNode.name fun _ => rfl
    refine ⟨name, region, by rw [← sameContainer]; exact contained, ?_⟩
    rw [← sameName]
    exact same.kept transition _ present
  lastActive := by
    intro region members last found remembered
    obtain ⟨members', found', _⟩ := same.region?_backward found
    have equal := lastActive region
    rw [found, found'] at equal
    have sameLast : members.lastActive = members'.lastActive := Option.some.inj equal
    rw [sameLast] at remembered
    rw [same.containerOf?, same.kindOf?]
    exact linked.lastActive region members' last found' remembered
  frames := by
    intro handle pending
    have stored : (before.state? handle.state).isSome := by
      rcases frames handle pending with earlier | stored
      · exact linked.frames handle earlier
      · exact stored
    have equal := congrArg Option.isSome (same.states handle.state)
    simpa using equal.trans (by simpa using stored)

private theorem choices_modifyState (machine : Machine) (state : StateId)
    (change : StateNode → StateNode) (same : ∀ node, (change node).choices = node.choices)
    (other : StateId) :
    ((machine.modifyState state change).state? other).map StateNode.choices =
      (machine.state? other).map StateNode.choices :=
  readState_modifyState StateNode.choices machine state change same other

private theorem lastActive_modifyRegion (machine : Machine) (region : RegionId)
    (change : Region → Region) (same : ∀ members, (change members).lastActive = members.lastActive)
    (other : RegionId) :
    ((machine.modifyRegion region change).region? other).map Region.lastActive =
      (machine.region? other).map Region.lastActive :=
  readRegion_modifyRegion Region.lastActive machine region change same other

private theorem lastActive_left {machine : Machine} {state : StateId} {node : StateNode}
    {region : RegionId} {members : Region} {last : StateId}
    (found : (machine.left state node).region? region = some members)
    (remembers : members.lastActive = some last) :
    (last = state ∧ node.kind = .normal ∧ node.container = some region) ∨
      ∃ members', machine.region? region = some members' ∧ members'.lastActive = some last := by
  unfold left at found
  split at found
  · rename_i normal
    cases contained : node.container with
    | none =>
        rw [contained] at found
        exact Or.inr ⟨members, found, remembers⟩
    | some container =>
        rw [contained] at found
        rw [remembered, region?_modifyRegion] at found
        split at found
        · rename_i here
          obtain ⟨members', _, result⟩ := Option.map_eq_some_iff.mp found
          rw [← result] at remembers
          rw [here]
          exact Or.inl ⟨(Option.some.inj remembers).symm, normal, rfl⟩
        · exact Or.inr ⟨members, found, remembers⟩
  · exact Or.inr ⟨members, found, remembers⟩

private theorem Linked.left {machine : Machine} (linked : machine.Linked) {state : StateId}
    {node : StateNode} (found : machine.state? state = some node)
    (retold : (machine.left state node).Retold) : (machine.left state node).Linked := by
  have same := sameChart_left machine state node
  have frames := frames_left machine state node
  refine { choices := ?_, lastActive := ?_, frames := ?_, retold := retold }
  · intro other node' target transition found' chosen
    obtain ⟨old, foundOld, fixed⟩ := same.state?_backward found'
    have equal := readState_left StateNode.choices machine state node (fun _ _ _ => rfl) other
    rw [found', foundOld] at equal
    rw [show node'.choices = old.choices from Option.some.inj equal] at chosen
    obtain ⟨name, region, contained, present⟩ :=
      linked.choices other old target transition foundOld chosen
    have sameContainer : old.container = node'.container :=
      StateNode.read_eq fixed StateNode.container fun _ => rfl
    have sameName : old.name = node'.name := StateNode.read_eq fixed StateNode.name fun _ => rfl
    refine ⟨name, region, by rw [← sameContainer]; exact contained, ?_⟩
    rw [← sameName]
    exact same.kept transition _ present
  · intro region members last found' remembers
    rw [same.containerOf?, same.kindOf?]
    rcases lastActive_left found' remembers with ⟨rfl, normal, contained⟩ | ⟨old, foundOld, known⟩
    · exact ⟨containerOf?_eq_some.mpr ⟨node, found, contained⟩,
        kindOf?_eq_some.mpr ⟨node, found, normal⟩⟩
    · exact linked.lastActive region old last foundOld known
  · intro handle pending
    rw [frames] at pending
    have equal := congrArg Option.isSome (same.states handle.state)
    simpa using equal.trans (by simpa using linked.frames handle pending)

private theorem Linked.transitionChosen {machine : Machine} (linked : machine.Linked)
    {choice : StateId} {node : StateNode} {region : RegionId} {target : String}
    (found : machine.state? choice = some node) (contained : node.container = some region)
    (retold : (machine.transitionChosen choice node.name target region).2.Retold) :
    (machine.transitionChosen choice node.name target region).2.Linked := by
  have same := sameChart_transitionChosen machine choice node.name target region
  set after := (machine.transitionChosen choice node.name target region).2 with afterIs
  have lookUp (other : StateId) : after.state? other =
      if choice = other then (machine.state? other).map (fun current =>
        { current with
          choices := Dictionary.insert current.choices target machine.nextTransition })
      else machine.state? other := state?_transitionChosen other
  refine { choices := ?_, lastActive := ?_, frames := ?_, retold := retold }
  · intro other node' wanted transition found' chosen
    obtain ⟨old, foundOld, fixed⟩ := same.state?_backward found'
    have sameContainer : old.container = node'.container :=
      StateNode.read_eq fixed StateNode.container fun _ => rfl
    have sameName : old.name = node'.name := StateNode.read_eq fixed StateNode.name fun _ => rfl
    have known (earlier : Dictionary.find? old.choices wanted = some transition) :
        ∃ name region, node'.container = some region ∧
          after.transition? transition = some (.ofChoice name node'.name wanted region) := by
      obtain ⟨name, container, inRegion, present⟩ :=
        linked.choices other old wanted transition foundOld earlier
      refine ⟨name, container, by rw [← sameContainer]; exact inRegion, ?_⟩
      rw [← sameName]
      exact same.kept transition _ present
    rw [lookUp] at found'
    split at found'
    · rename_i here
      subst here
      rw [found] at found' foundOld
      obtain rfl := Option.some.inj foundOld
      have shape := Option.some.inj found'
      rw [← shape, Dictionary.find?_insert] at chosen
      split at chosen
      · rename_i sameTarget
        refine ⟨machine.generateName.1, region, by rw [← sameContainer]; exact contained, ?_⟩
        rw [← Option.some.inj chosen, ← sameTarget, ← sameName]
        exact Array.getElem?_push_size
      · exact known chosen
    · rw [foundOld] at found'
      rw [← Option.some.inj found'] at chosen
      exact known chosen
  · intro other members last found' remembers
    rw [same.containerOf?, same.kindOf?]
    exact linked.lastActive other members last found' remembers
  · intro handle pending
    have equal := congrArg Option.isSome (same.states handle.state)
    simpa using equal.trans (by simpa using linked.frames handle pending)

private theorem pending_schedule_cases {frames : FrameQueue} {state : StateId}
    {handle : FrameHandle} (pending : handle ∈ (frames.schedule state).2.pending) :
    handle ∈ frames.pending ∨ handle.state = state := by
  rw [FrameQueue.pending_schedule, List.mem_append, List.mem_singleton] at pending
  rcases pending with earlier | new
  · exact Or.inl earlier
  · exact Or.inr (by rw [new]; rfl)

private theorem pending_timerArmed_cases {machine : Machine} {state : StateId}
    {handle : FrameHandle}
    (pending : handle ∈ (machine.timerArmed state).frames.pending) :
    handle ∈ machine.frames.pending ∨ handle.state = state := by
  unfold timerArmed at pending
  simp only [modifyState] at pending
  split at pending
  · exact pending_schedule_cases (FrameQueue.mem_pending_cancel _ _ _ |>.mp pending).1
  · exact pending_schedule_cases pending

theorem Change.linked {outer : Prop} {before after : Machine} (change : Change outer before after)
    (linked : before.Linked) : after.Linked := by
  have same := change.sameChart
  have retold := change.retold linked.retold
  cases change with
  | note event _ =>
      exact linked.of_sameChart same retold (fun _ => rfl) (fun _ => rfl)
        fun _ pending => Or.inl pending
  | write key value =>
      exact linked.of_sameChart same retold (choices_modifyState before root _ fun _ => rfl)
        (fun _ => rfl) fun _ pending => Or.inl pending
  | @enter state node _ _ _ =>
      exact linked.of_sameChart same retold (choices_modifyState before state _ fun _ => rfl)
        (fun _ => rfl) fun _ pending => Or.inl pending
  | leave found _ => exact linked.left found retold
  | @openRegion region members _ _ =>
      exact linked.of_sameChart same retold (fun _ => rfl)
        (lastActive_modifyRegion before region _ fun _ => rfl) fun _ pending => Or.inl pending
  | @closeRegion region members _ _ =>
      exact linked.of_sameChart same retold (fun _ => rfl)
        (lastActive_modifyRegion before region _ fun _ => rfl) fun _ pending => Or.inl pending
  | join _ =>
      exact linked.of_sameChart same retold (fun _ => rfl) (fun _ => rfl)
        fun _ pending => Or.inl pending
  | @armTimer state node found _ _ _ =>
      refine linked.of_sameChart same retold
        (choices_modifyState _ state _ fun _ => rfl) (fun _ => rfl)
        fun handle pending => ?_
      rcases pending_timerArmed_cases pending with earlier | new
      · exact Or.inl earlier
      · exact Or.inr (by rw [new, found]; rfl)
  | @foldFrame handle _ _ _ _ _ =>
      exact linked.of_sameChart same retold (choices_modifyState _ handle.state _ fun _ => rfl)
        (fun _ => rfl) fun _ pending => Or.inl pending
  | @resetTimer state _ _ _ =>
      exact linked.of_sameChart same retold (choices_modifyState before state _ fun _ => rfl)
        (fun _ => rfl) fun _ pending => Or.inl pending
  | @requestFrame state node found _ =>
      refine linked.of_sameChart same retold
        (choices_modifyState _ state _ fun _ => rfl) (fun _ => rfl)
        fun handle pending => ?_
      have scheduled : handle ∈ (before.frames.schedule state).2.pending := pending
      rcases pending_schedule_cases scheduled with earlier | new
      · exact Or.inl earlier
      · exact Or.inr (by rw [new, found]; rfl)
  | cancelFrame handle _ =>
      exact linked.of_sameChart same retold (fun _ => rfl) (fun _ => rfl) fun other pending =>
        Or.inl (FrameQueue.mem_pending_cancel _ _ _ |>.mp pending).1
  | takeFrames _ =>
      refine linked.of_sameChart same retold (fun _ => rfl) (fun _ => rfl) fun handle pending => ?_
      exact absurd pending (List.not_mem_nil)
  | choose found contained _ => exact linked.transitionChosen found contained retold
  | record id firing =>
      exact linked.of_sameChart same retold (fun _ => rfl) (fun _ => rfl)
        fun _ pending => Or.inl pending

theorem Changes.linked {before after : Machine} (changes : Changes before after)
    (linked : before.Linked) : after.Linked := by
  induction changes with
  | refl => exact linked
  | tail _ change ih => exact change.linked ih

/-! ### Lists of transitions -/

private theorem Registry.of_sameChart {before after : Machine} (registry : before.Registry)
    (same : SameChart before after) (transitions : after.transitions = before.transitions)
    (choices : ∀ state, (after.state? state).map StateNode.choices =
      (before.state? state).map StateNode.choices) : after.Registry :=
  registry.of_same (fun region => congrArg (Option.getD · ([], []))
    (same.readRegion (fun members => (members.transitions, members.transitionIndex))
      (fun _ => rfl) region)) transitions (chosen_of_choices choices)

theorem transitions_left (machine : Machine) (state : StateId) (node : StateNode) :
    (machine.left state node).transitions = machine.transitions :=
  read_left Machine.transitions machine state node fun _ _ _ _ => rfl

private theorem Change.registry {outer : Prop} {before after : Machine}
    (change : Change outer before after)
    (registry : before.Registry) : after.Registry := by
  have same := change.sameChart
  cases change with
  | note _ _ | openRegion _ _ | closeRegion _ _ | join _ | cancelFrame _ _ | takeFrames _
  | record _ _ => exact registry.of_sameChart same rfl fun _ => rfl
  | write _ _ =>
      exact registry.of_sameChart same rfl (choices_modifyState before root _ fun _ => rfl)
  | @enter state _ _ _ _ =>
      exact registry.of_sameChart same rfl (choices_modifyState before state _ fun _ => rfl)
  | leave _ _ =>
      exact registry.of_sameChart same (transitions_left before _ _)
        (readState_left StateNode.choices before _ _ fun _ _ _ => rfl)
  | @armTimer state _ _ _ _ _ =>
      exact registry.of_sameChart same rfl (choices_modifyState _ state _ fun _ => rfl)
  | @foldFrame handle _ _ _ _ _ =>
      exact registry.of_sameChart same rfl (choices_modifyState _ handle.state _ fun _ => rfl)
  | @resetTimer state _ _ _ =>
      exact registry.of_sameChart same rfl (choices_modifyState before state _ fun _ => rfl)
  | @requestFrame state _ _ _ =>
      exact registry.of_sameChart same rfl (choices_modifyState _ state _ fun _ => rfl)
  | choose found _ fresh => exact registry.transitionChosen found fresh

theorem Changes.registry {before after : Machine} (changes : Changes before after)
    (registry : before.Registry) : after.Registry := by
  induction changes with
  | refl => exact registry
  | tail _ change ih => exact change.registry ih

/-! ### Growing keeps the links -/

theorem Grown.normal_iff {before after : Machine} (grown : Grown before after) {state : StateId}
    (old : (before.state? state).isSome) :
    after.kindOf? state = some .normal ↔ before.kindOf? state = some .normal := by
  obtain ⟨node, found⟩ := Option.isSome_iff_exists.mp old
  obtain ⟨node', found', grownNode⟩ := grown.states state node found
  simp only [Machine.kindOf?, found, found', Option.map_some, Option.some.injEq]
  exact grownNode.kind.normal_iff

theorem Grown.linked {before after : Machine} (grown : Grown before after)
    (linked : before.Linked) : after.Linked where
  retold := by
    have told : Told before after [] := by
      rw [Told, grown.journal, List.append_nil]
    exact linked.retold.of_still told (by simp) (fun _ => grown.isStateActive)
      fun _ => grown.isRegionActive
  choices := by
    intro state node' target transition found' chosen
    cases found : before.state? state with
    | none =>
        rw [(grown.newStates state node' found found').2.1] at chosen
        cases chosen
    | some node =>
        have grownNode := grown.grownNode found found'
        have choices : node'.choices = node.choices :=
          StateNode.read_lasting grownNode.lasting StateNode.choices fun _ => rfl
        have name : node'.name = node.name :=
          StateNode.read_lasting grownNode.lasting StateNode.name fun _ => rfl
        rw [choices] at chosen
        obtain ⟨transitionName, region, contained, known⟩ :=
          linked.choices state node target transition found chosen
        obtain ⟨after', known', grownTransition⟩ := grown.transitions transition _ known
        refine ⟨transitionName, region, grownNode.container region contained, ?_⟩
        rw [known', grownTransition.container rfl, name]
  lastActive := by
    intro region members' last found' remembered
    cases found : before.region? region with
    | none =>
        rw [(grown.newRegions region members' found found').2] at remembered
        cases remembered
    | some members =>
        obtain ⟨same, present, grownRegion⟩ := grown.regions region members found
        rw [found'] at present
        obtain rfl := Option.some.inj present
        have lastActive : members'.lastActive = members.lastActive :=
          Region.read_lasting grownRegion.lasting Region.lastActive fun _ => rfl
        rw [lastActive] at remembered
        obtain ⟨contained, normal⟩ := linked.lastActive region members last found remembered
        have old : (before.state? last).isSome := by
          obtain ⟨node, stored, _⟩ := kindOf?_eq_some.mp normal
          rw [stored]
          rfl
        exact ⟨grown.containerOf? contained, (grown.normal_iff old).mpr normal⟩
  frames := by
    intro handle pending
    rw [grown.frames] at pending
    obtain ⟨node, found⟩ := Option.isSome_iff_exists.mp (linked.frames handle pending)
    obtain ⟨node', found', _⟩ := grown.states handle.state node found
    rw [found']
    rfl

end Chart.Machine
