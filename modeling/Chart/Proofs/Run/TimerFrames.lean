import Chart.Proofs.Run.Links

set_option autoImplicit false

/-!
Timers and their frames. A timer runs only while its state is a normal one and active, and the frame
a state waits for is its own and has been handed out; states of other kinds have neither. In a
cascade no running timer loses its frame: the frame is pending, or it has been taken from the queue
and is still to be delivered.
-/

namespace Chart

/-- What is right about the timer of a state, when the next frame has the given number. -/
structure StateNode.Clocked (state : StateId) (next : Nat) (node : StateNode) : Prop where
  active : node.timer.running = true → node.status.isActive = true
  normal : node.timer.running = true → node.kind = .normal
  issued : ∀ handle, node.frame = some handle → handle.state = state ∧ handle.sequence < next
  untimed : node.kind ≠ .normal → node.timer = .idle ∧ node.frame = none

namespace StateNode.Clocked

variable {state : StateId} {next : Nat} {node node' : StateNode}

theorem of_eq (clocked : node.Clocked state next) (timer : node'.timer = node.timer)
    (frame : node'.frame = node.frame) (kind : node'.kind = node.kind)
    (status : node.status.isActive = true → node'.status.isActive = true) :
    node'.Clocked state next where
  active := by
    rw [timer]
    exact fun running => status (clocked.active running)
  normal := by
    rw [timer, kind]
    exact clocked.normal
  issued := by
    rw [frame]
    exact clocked.issued
  untimed := by
    rw [timer, frame, kind]
    exact clocked.untimed

theorem of_stopped (stopped : node.timer.running = false)
    (issued : ∀ handle, node.frame = some handle → handle.state = state ∧ handle.sequence < next)
    (untimed : node.kind ≠ .normal → node.timer = .idle ∧ node.frame = none) :
    node.Clocked state next where
  active := by
    rw [stopped]
    intro impossible
    cases impossible
  normal := by
    rw [stopped]
    intro impossible
    cases impossible
  issued := issued
  untimed := untimed

private theorem later (clocked : node.Clocked state next) {after : Nat} (later : next ≤ after) :
    node.Clocked state after where
  active := clocked.active
  normal := clocked.normal
  issued := fun handle waits =>
    ⟨(clocked.issued handle waits).1, Nat.lt_of_lt_of_le (clocked.issued handle waits).2 later⟩
  untimed := clocked.untimed

end StateNode.Clocked

namespace Machine

def Clocked (machine : Machine) : Prop :=
  ∀ state node, machine.state? state = some node →
    node.Clocked state machine.frames.nextSequence

/-- Every running timer has its frame among the pending ones or those taken. -/
def Awaited (taken : List FrameHandle) (machine : Machine) : Prop :=
  ∀ state node, machine.state? state = some node → node.timer.running = true →
    ∃ handle, node.frame = some handle ∧ (handle ∈ machine.frames.pending ∨ handle ∈ taken)

def Altered (state : StateId) (change : StateNode → StateNode) (before after : Machine) : Prop :=
  ∀ other, after.state? other =
    if state = other then (before.state? other).map change else before.state? other

theorem altered_modifyState (machine : Machine) (state : StateId)
    (change : StateNode → StateNode) : Altered state change machine
    (machine.modifyState state change) :=
  fun other => state?_modifyState machine state other change

def departure (node : StateNode) : StateNode :=
  { node with
    status := .inactive
    timer := if node.kind = .normal ∧ node.timer.running then node.timer.stopped else node.timer }

theorem altered_left {machine : Machine} {state : StateId} {node : StateNode}
    (found : machine.state? state = some node) :
    Altered state departure machine (machine.left state node) := by
  intro other
  have departs : (machine.departed state node.name).state? other = if state = other then
      (machine.state? other).map fun current => { current with status := .inactive }
      else machine.state? other := state?_modifyState machine state other _
  unfold left
  by_cases here : state = other
  · subst here
    rw [if_pos rfl] at departs ⊢
    rw [found] at departs ⊢
    unfold departure
    by_cases normal : node.kind = .normal
    · rw [if_pos normal, state?_remembered, timerStopped, state?_modifyState, if_pos rfl, departs]
      by_cases running : node.timer.running = true
      · simp [normal, running]
      · simp [running]
    · rw [if_neg normal, departs]
      simp [normal]
  · rw [if_neg here] at departs ⊢
    rw [← departs]
    split
    · rw [state?_remembered, timerStopped, state?_modifyState, if_neg here]
    · rfl

/-! ### Clocks stay right -/

section Clocked

variable {before after : Machine} {state : StateId} {change : StateNode → StateNode}

private theorem Clocked.of_altered (clocked : before.Clocked)
    (altered : Altered state change before after)
    (frames : before.frames.nextSequence ≤ after.frames.nextSequence)
    (keeps : ∀ node, before.state? state = some node →
      node.Clocked state before.frames.nextSequence →
      (change node).Clocked state after.frames.nextSequence) : after.Clocked := by
  intro other node found
  rw [altered] at found
  split at found
  · rename_i here
    subst here
    obtain ⟨node', found', rfl⟩ := Option.map_eq_some_iff.mp found
    exact keeps node' found' (clocked state node' found')
  · exact (clocked other node found).later frames

private theorem Clocked.of_states (clocked : before.Clocked) (states : after.states = before.states)
    (frames : before.frames.nextSequence ≤ after.frames.nextSequence) : after.Clocked := by
  intro state node found
  rw [state?, states] at found
  exact (clocked state node found).later frames

private theorem nextSequence_timerArmed (machine : Machine) (state : StateId) :
    (machine.timerArmed state).frames.nextSequence = machine.frames.nextSequence + 1 := by
  unfold timerArmed
  cases (machine.state? state).bind StateNode.frame <;> rfl

theorem altered_timerArmed (machine : Machine) (state : StateId) :
    Altered state (fun node =>
      { node with timer := .armed, frame := some (machine.frames.schedule state).1 }) machine
      (machine.timerArmed state) := by
  intro other
  unfold timerArmed
  rw [state?_modifyState]
  rfl

theorem Change.clocked {outer : Prop} (change : Change outer before after)
    (clocked : before.Clocked) : after.Clocked := by
  cases change with
  | note event _ => exact clocked.of_states rfl (Nat.le_refl _)
  | write key value =>
      exact clocked.of_altered (altered_modifyState before root _) (Nat.le_refl _)
        fun node _ right => right.of_eq rfl rfl rfl fun active => active
  | @enter state node _ _ _ =>
      exact clocked.of_altered (altered_modifyState before state _) (Nat.le_refl _)
        fun node _ right => right.of_eq rfl rfl rfl fun _ => rfl
  | @leave state node found _ =>
      have frames := frames_left before state node
      refine clocked.of_altered (altered_left found) (by rw [frames]) fun current _ right => ?_
      rw [frames]
      refine StateNode.Clocked.of_stopped ?_ right.issued fun notNormal => ?_
      · unfold departure
        by_cases running : current.timer.running = true
        · rw [if_pos ⟨right.normal running, running⟩]
          rfl
        · simp [running]
      · unfold departure
        rw [if_neg fun both => notNormal both.1]
        exact right.untimed notNormal
  | openRegion _ _ => exact clocked.of_states rfl (Nat.le_refl _)
  | closeRegion _ _ => exact clocked.of_states rfl (Nat.le_refl _)
  | join _ => exact clocked.of_states rfl (Nat.le_refl _)
  | @armTimer state node found active normal _ =>
      have frames := nextSequence_timerArmed before state
      refine clocked.of_altered (altered_timerArmed before state)
        (by omega) fun current found' _ => ?_
      rw [found] at found'
      obtain rfl := Option.some.inj found'
      refine ⟨fun _ => active, fun _ => normal, fun handle waits => ?_,
        fun notNormal => absurd normal notNormal⟩
      obtain rfl := Option.some.inj waits
      exact ⟨rfl, by rw [frames]; exact Nat.lt_succ_self _⟩
  | @foldFrame handle node found _ running now =>
      refine clocked.of_altered (altered_modifyState _ handle.state _) (Nat.le_refl _)
        fun current found' right => ?_
      rw [found] at found'
      obtain rfl := Option.some.inj found'
      exact ⟨fun _ => right.active running, fun _ => right.normal running, right.issued,
        fun notNormal => absurd (right.normal running) notNormal⟩
  | @resetTimer state node _ _ =>
      refine clocked.of_altered (altered_modifyState before state _) (Nat.le_refl _)
        fun current _ _ => StateNode.Clocked.of_stopped rfl (fun handle waits => ?_)
          fun _ => ⟨rfl, rfl⟩
      cases waits
  | @requestFrame state node found running =>
      refine clocked.of_altered (altered_modifyState _ state _) (Nat.le_succ _)
        fun current found' right => ⟨right.active, right.normal, fun handle waits => ?_,
          fun notNormal => ?_⟩
      · obtain rfl := Option.some.inj waits
        exact ⟨rfl, Nat.lt_succ_self _⟩
      · rw [found] at found'
        obtain rfl := Option.some.inj found'
        exact absurd (right.normal running) notNormal
  | cancelFrame handle _ => exact clocked.of_states rfl (Nat.le_refl _)
  | takeFrames _ => exact clocked.of_states rfl (Nat.le_refl _)
  | @choose choice node region target _ _ _ =>
      exact clocked.of_altered (altered_modifyState _ choice _) (Nat.le_refl _)
        fun current _ right => right.of_eq rfl rfl rfl fun active => active
  | record id firing => exact clocked.of_states rfl (Nat.le_refl _)

theorem Changes.clocked (changes : Changes before after) (clocked : before.Clocked) :
    after.Clocked := by
  induction changes with
  | refl => exact clocked
  | tail _ change ih => exact change.clocked ih

theorem Grown.clocked (grown : Grown before after) (clocked : before.Clocked) : after.Clocked := by
  intro state node' found'
  rw [grown.frames]
  cases found : before.state? state with
  | none =>
      obtain ⟨_, _, frame, timer⟩ := grown.newStates state node' found found'
      refine StateNode.Clocked.of_stopped (by rw [timer]; rfl) (fun handle waits => ?_)
        fun _ => ⟨timer, frame⟩
      rw [frame] at waits
      cases waits
  | some node =>
      have grownNode := grown.grownNode found found'
      have right := clocked state node found
      have timer : node'.timer = node.timer :=
        StateNode.read_lasting grownNode.lasting StateNode.timer fun _ => rfl
      have frame : node'.frame = node.frame :=
        StateNode.read_lasting grownNode.lasting StateNode.frame fun _ => rfl
      have status : node'.status = node.status :=
        StateNode.read_lasting grownNode.lasting StateNode.status fun _ => rfl
      refine ⟨?_, ?_, ?_, ?_⟩
      · rw [timer, status]
        exact right.active
      · rw [timer, grownNode.kind.normal_iff]
        exact right.normal
      · rw [frame]
        exact right.issued
      · rw [timer, frame, Ne, grownNode.kind.normal_iff]
        exact right.untimed

end Clocked

/-! ### Frames that are waited for -/

section Awaited

variable {taken : List FrameHandle} {before after : Machine} {state : StateId}
variable {change : StateNode → StateNode}

/-- A change of one state and of the queue that keeps the pending frames of all other states. -/
theorem Awaited.of_altered (awaited : before.Awaited taken) (clocked : before.Clocked)
    (altered : Altered state change before after)
    (kept : ∀ handle ∈ before.frames.pending, handle.state ≠ state →
      handle ∈ after.frames.pending)
    (here : ∀ node, before.state? state = some node → (change node).timer.running = true →
      ∃ handle, (change node).frame = some handle ∧
        (handle ∈ after.frames.pending ∨ handle ∈ taken)) : after.Awaited taken := by
  intro other node found running
  rw [altered] at found
  split at found
  · obtain ⟨node', found', rfl⟩ := Option.map_eq_some_iff.mp found
    rename_i same
    subst same
    exact here node' found' running
  · rename_i different
    obtain ⟨handle, waits, known⟩ := awaited other node found running
    refine ⟨handle, waits, known.imp_left fun pending => kept handle pending ?_⟩
    rw [((clocked other node found).issued handle waits).1]
    exact Ne.symm different

theorem Awaited.of_quieter (awaited : before.Awaited taken) (clocked : before.Clocked)
    (altered : Altered state change before after)
    (kept : after.frames.pending = before.frames.pending)
    (quieter : ∀ node, before.state? state = some node → (change node).timer.running = true →
      node.timer.running = true ∧ (change node).frame = node.frame) : after.Awaited taken := by
  refine awaited.of_altered clocked altered (fun handle pending _ => ?_)
    fun node found running => ?_
  · rw [kept]
    exact pending
  · obtain ⟨ran, frame⟩ := quieter node found running
    rw [frame, kept]
    exact awaited state node found ran

private theorem Awaited.of_states (awaited : before.Awaited taken)
    (states : after.states = before.states)
    (kept : after.frames.pending = before.frames.pending) : after.Awaited taken := by
  intro state node found running
  rw [state?, states] at found
  rw [kept]
  exact awaited state node found running

private theorem pending_timerArmed {node : StateNode} (found : before.state? state = some node)
    (clocked : node.Clocked state before.frames.nextSequence) :
    (before.frames.schedule state).1 ∈ (before.timerArmed state).frames.pending ∧
      ∀ handle ∈ before.frames.pending, handle.state ≠ state →
        handle ∈ (before.timerArmed state).frames.pending := by
  cases waits : node.frame with
  | none =>
      have frames : (before.timerArmed state).frames = (before.frames.schedule state).2 := by
        unfold timerArmed
        rw [found, Option.bind_some, waits]
        rfl
      rw [frames]
      exact ⟨List.mem_append_right _ (List.mem_singleton_self _),
        fun handle pending _ => List.mem_append_left _ pending⟩
  | some old =>
      obtain ⟨named, earlier⟩ := clocked.issued old waits
      have frames : (before.timerArmed state).frames =
          (before.frames.schedule state).2.cancel old := by
        unfold timerArmed
        rw [found, Option.bind_some, waits]
        rfl
      rw [frames]
      refine ⟨(FrameQueue.mem_pending_cancel _ _ _).mpr ⟨?_, ?_⟩, fun handle pending different =>
        (FrameQueue.mem_pending_cancel _ _ _).mpr ⟨List.mem_append_left _ pending, ?_⟩⟩
      · exact List.mem_append_right _ (List.mem_singleton_self _)
      · rintro rfl
        exact Nat.lt_irrefl _ earlier
      · rintro rfl
        exact different named

theorem Change.awaited (change : Change False before after) (clocked : before.Clocked)
    (awaited : before.Awaited taken) : after.Awaited taken := by
  cases change with
  | note event _ => exact awaited.of_states rfl rfl
  | write key value =>
      exact awaited.of_quieter clocked (altered_modifyState before root _) rfl
        fun node _ running => ⟨running, rfl⟩
  | @enter state node _ _ _ =>
      exact awaited.of_quieter clocked (altered_modifyState before state _) rfl
        fun node _ running => ⟨running, rfl⟩
  | @leave state node found _ =>
      refine awaited.of_quieter clocked (altered_left found) (by rw [frames_left])
        fun current _ running => ⟨?_, rfl⟩
      unfold departure at running
      split at running
      · cases running
      · exact running
  | openRegion _ _ => exact awaited.of_states rfl rfl
  | closeRegion _ _ => exact awaited.of_states rfl rfl
  | join _ => exact awaited.of_states rfl rfl
  | @armTimer state node found active normal _ =>
      obtain ⟨pending, kept⟩ := pending_timerArmed found (clocked state node found)
      exact awaited.of_altered clocked (altered_timerArmed before state) kept
        fun _ _ _ => ⟨_, rfl, Or.inl pending⟩
  | @foldFrame handle node found _ running now =>
      refine awaited.of_quieter clocked (altered_modifyState _ handle.state _) rfl
        fun current found' _ => ⟨?_, rfl⟩
      rw [found] at found'
      rw [← Option.some.inj found']
      exact running
  | @resetTimer state node _ _ =>
      refine awaited.of_quieter clocked (altered_modifyState before state _) rfl
        fun current _ running => ?_
      cases running
  | @requestFrame state node _ _ =>
      exact awaited.of_altered clocked (altered_modifyState _ state _)
        (fun handle pending _ => List.mem_append_left _ pending)
        fun _ _ _ => ⟨_, rfl, Or.inl (List.mem_append_right _ (List.mem_singleton_self _))⟩
  | cancelFrame handle stale =>
      intro state node found running
      obtain ⟨waited, waits, known⟩ := awaited state node found running
      refine ⟨waited, waits, known.imp_left fun pending =>
        (FrameQueue.mem_pending_cancel _ _ _).mpr ⟨pending, ?_⟩⟩
      rintro rfl
      have named := ((clocked state node found).issued waited waits).1
      exact stale node (by rw [named]; exact found) waits
  | takeFrames impossible => exact impossible.elim
  | @choose choice node region target _ _ _ =>
      exact awaited.of_quieter clocked (altered_modifyState _ choice _) rfl
        fun node _ running => ⟨running, rfl⟩
  | record id firing => exact awaited.of_states rfl rfl

theorem Cascade.awaited (cascade : Cascade before after) (clocked : before.Clocked)
    (awaited : before.Awaited taken) : after.Awaited taken := by
  -- By induction on the cascade.
  induction cascade with
  | refl => exact awaited
  | tail earlier change ih =>
      exact change.awaited ((changes_of_steps earlier).clocked clocked) ih

theorem Grown.awaited (grown : Grown before after) (awaited : before.Awaited taken) :
    after.Awaited taken := by
  intro state node' found' running
  rw [grown.frames]
  cases found : before.state? state with
  | none =>
      obtain ⟨_, _, _, timer⟩ := grown.newStates state node' found found'
      rw [timer] at running
      cases running
  | some node =>
      have grownNode := grown.grownNode found found'
      have timer : node'.timer = node.timer :=
        StateNode.read_lasting grownNode.lasting StateNode.timer fun _ => rfl
      have frame : node'.frame = node.frame :=
        StateNode.read_lasting grownNode.lasting StateNode.frame fun _ => rfl
      rw [frame]
      exact awaited state node found (by rw [← timer]; exact running)

theorem Awaited.framesTaken (awaited : before.Awaited []) :
    before.framesTaken.Awaited before.frames.pending := by
  intro state node found running
  obtain ⟨handle, waits, pending | impossible⟩ := awaited state node found running
  · exact ⟨handle, waits, Or.inr pending⟩
  · cases impossible

theorem Awaited.drop {handle : FrameHandle} (awaited : before.Awaited (handle :: taken))
    (clocked : before.Clocked)
    (useless : ∀ node, before.state? handle.state = some node → node.timer.running = true →
      node.frame ≠ some handle) : before.Awaited taken := by
  intro state node found running
  obtain ⟨waited, waits, pending | member⟩ := awaited state node found running
  · exact ⟨waited, waits, Or.inl pending⟩
  · rcases List.mem_cons.mp member with rfl | later
    · have named := ((clocked state node found).issued waited waits).1
      exact absurd waits (useless node (by rw [named]; exact found) running)
    · exact ⟨waited, waits, Or.inr later⟩

theorem Awaited.drop_reset {handle : FrameHandle} {node : StateNode}
    (awaited : before.Awaited (handle :: taken)) (clocked : before.Clocked)
    (found : before.state? handle.state = some node) (stopped : node.timer.running = false) :
    (before.timerReset handle.state).Awaited taken := by
  have resets : Change False before (before.timerReset handle.state) := .resetTimer found stopped
  refine (resets.awaited clocked awaited).drop (resets.clocked clocked)
    fun current foundNow running => ?_
  unfold timerReset at foundNow
  rw [state?_modifyState, if_pos rfl] at foundNow
  obtain ⟨_, _, rfl⟩ := Option.map_eq_some_iff.mp foundNow
  cases running

theorem Awaited.drop_requested {handle : FrameHandle} {node : StateNode}
    (awaited : before.Awaited (handle :: taken)) (clocked : before.Clocked)
    (found : before.state? handle.state = some node) (running : node.timer.running = true)
    (waits : node.frame = some handle) :
    (before.frameRequested handle.state).Awaited taken := by
  have requests : Change False before (before.frameRequested handle.state) :=
    .requestFrame found running
  refine (requests.awaited clocked awaited).drop (requests.clocked clocked)
    fun current foundNow _ same => ?_
  unfold frameRequested at foundNow
  rw [state?_modifyState, if_pos rfl] at foundNow
  obtain ⟨_, _, rfl⟩ := Option.map_eq_some_iff.mp foundNow
  have earlier := ((clocked handle.state node found).issued handle waits).2
  have number : before.frames.nextSequence = handle.sequence :=
    congrArg FrameHandle.sequence (Option.some.inj same)
  omega

end Awaited

end Machine

end Chart
