import Chart.Proofs.Run.UnfailingCallbacks

set_option autoImplicit false

/-!
Delivering frames. When a frame has been delivered without an error, its state waits for a new frame
or not at all, whatever the callbacks did meanwhile. So no frame is owed when all that were taken
have been delivered. With callbacks that do not fail by themselves a frame of a known state is
always delivered, unless an error is passed on; and one that the state does not wait for has no
effect but its own end.
-/

namespace Chart.Run

open Machine (Awaited Clocked BetweenFrames KeepsTimers Told)

variable {calls : Calls} {machine : Machine} {handle : FrameHandle} {rest : List FrameHandle}
variable {now : Duration} {failed : Halt → Machine → Prop}

private theorem ends_renewFrame_awaited (clocked : machine.Clocked)
    (awaited : machine.Awaited (handle :: rest)) :
    Ends (renewFrame handle) machine (fun _ after => after.Awaited rest) failed := by
  unfold renewFrame
  rw [ends_bind, ends_get]
  split
  · rename_i missing
    refine awaited.drop clocked fun node found => ?_
    rw [missing] at found
    cases found
  · rename_i node found
    split
    · rename_i waits
      split
      · rename_i running
        exact awaited.drop_requested clocked found running waits
      · rename_i stopped
        exact awaited.drop_reset clocked found (by simpa using stopped)
    · rename_i other
      have stale : ∀ current, machine.state? handle.state = some current →
          current.frame ≠ some handle := by
        simpa [found] using other
      exact awaited.drop clocked fun current foundNow _ => stale current foundNow

private theorem ends_deliverFrame_awaited (changing : calls.Changing False)
    (formed : machine.Formed)
    (linked : machine.Linked) (clocked : machine.Clocked)
    (awaited : machine.Awaited (handle :: rest)) :
    Ends (deliverFrame calls handle now) machine (fun _ after => after.Awaited rest)
      (fun _ _ => True) := by
  unfold deliverFrame
  rw [ends_bind, ends_get]
  split
  · rw [ends_fail]
    trivial
  · rename_i node found
    split
    · rename_i other
      have stale : ∀ current, machine.state? handle.state = some current →
          current.frame ≠ some handle := by
        simpa [found] using other
      have cancels : Machine.Change False machine (machine.frameCancelled handle) :=
        .cancelFrame handle stale
      exact (cancels.awaited clocked awaited).drop (cancels.clocked clocked)
        fun current foundNow _ => stale current foundNow
    · rename_i waits
      split
      · rename_i running
        have folds : Machine.Change False machine (machine.frameFolded handle node now) :=
          .foldFrame found (not_not.mp waits) running now
        have changed := Machine.changes_of_steps folds.one
        unfold foldFrame
        dsimp only
        rw [ends_bind, ends_note, ends_bind, ends_modify]
        have renews {current : Machine}
            (cascade : Machine.Cascade (machine.frameFolded handle node now) current) :
            Ends (renewFrame handle) current (fun _ after => after.Awaited rest)
              (fun _ _ => True) := by
          have folded := folds.clocked clocked
          exact ends_renewFrame_awaited ((Machine.changes_of_steps cascade).clocked folded)
            (Machine.Cascade.awaited cascade folded (folds.awaited clocked awaited))
        split
        · rw [ends_bind]
          have right : Sound False (machine.frameFolded handle node now) :=
            Or.inr ⟨formed.of_sameChart (Machine.Changes.sameChart changed),
              Machine.Changes.linked changed linked⟩
          exact (changing_startBehavior changing handle.state .activity node.activity _ right).mono
            (fun _ _ cascade => renews cascade) fun _ _ _ => trivial
        · exact renews Relation.ReflTransGen.refl
      · rename_i stopped
        exact awaited.drop_reset clocked found (by simpa using stopped)

private theorem ends_deliverAll_awaited {due : List FrameHandle} (changing : calls.Changing False)
    (formed : machine.Formed) (linked : machine.Linked) (clocked : machine.Clocked)
    (awaited : machine.Awaited due) :
    Ends (due.forM fun handle => deliverFrame calls handle now) machine
      (fun _ after => after.Awaited []) (fun _ _ => True) := by
  -- By induction on the frames that were taken.
  induction due generalizing machine with
  | nil => exact awaited
  | cons first rest ih =>
      rw [ends_forM_cons]
      have delivers := Discipline.kept_deliverFrame (ticks_changing False) (lawful_changing False)
        (acts_changing changing) first now machine (Or.inr ⟨formed, linked⟩)
      refine ((ends_deliverFrame_awaited changing formed linked clocked awaited).and delivers).mono
        (fun _ middle delivered => ?_) fun _ _ _ => trivial
      have changes := Machine.changes_of_steps delivered.2
      exact ih (formed.of_sameChart changes.sameChart) (changes.linked linked)
        (changes.clocked clocked) delivered.1

theorem ends_advance_awaited {depth : Nat} (formed : machine.Formed) (linked : machine.Linked)
    (clocked : machine.Clocked) (awaited : machine.Awaited []) :
    Ends (advance depth now) machine (fun _ after => after.Awaited []) (fun _ _ => True) := by
  have takes : Machine.Changes machine machine.framesTaken :=
    (Machine.Change.takeFrames trivial).one
  unfold advance
  rw [ends_bind, ends_modifyGet, ends_bind]
  exact ends_deliverAll_awaited (calls_changing False depth)
    (formed.of_sameChart takes.sameChart) (takes.linked linked) (takes.clocked clocked)
    awaited.framesTaken

/-! ### Frames that no state waits for -/

theorem attempt_frame_stale (depth : Nat) (now : Duration)
    (stale : ∀ node, machine.state? handle.state = some node → node.frame ≠ some handle) :
    ∃ answer after, attempt (frame depth handle now) machine = .ok answer after ∧
      (after = machine.frameCancelled handle ∨
        after = machine.note (.notice (.misconfiguration (.unknownState handle.state))) ∧
          machine.state? handle.state = none) := by
  have ends : Ends (attempt (frame depth handle now)) machine
      (fun _ after => after = machine.frameCancelled handle ∨
        after = machine.note (.notice (.misconfiguration (.unknownState handle.state))) ∧
          machine.state? handle.state = none) (fun _ _ => False) := by
    unfold frame deliverFrame
    rw [ends_attempt, ends_bind, ends_get]
    split
    · rename_i missing
      exact Or.inr ⟨rfl, missing⟩
    · rename_i node found
      rw [if_pos (stale node found)]
      exact Or.inl rfl
  cases result : attempt (frame depth handle now) machine with
  | ok answer after => exact ⟨answer, after, rfl, ends_of_finished ends result⟩
  | error halt after => exact (ends_of_failed ends result).elim

theorem reading_eq_some {Answer : Type} {state : StateId} {node : StateNode}
    {read : Timer → Option Answer} {value : Answer} {after : Machine}
    (found : machine.state? state = some node)
    (result : reading state read machine = .ok (some value) after) :
    read node.timer = some value := by
  have ends : Ends (reading state read) machine (fun answer _ => answer = read node.timer)
      (fun _ _ => True) := by
    unfold reading
    rw [ends_bind, ends_get, found]
    dsimp only
    split
    · rw [ends_bind, ends_warn]
      rfl
    · rfl
  exact (ends_of_finished ends result).symm

theorem reading_of_available {Answer : Type} {state : StateId} {node : StateNode}
    {read : Timer → Option Answer} {value : Answer} (found : machine.state? state = some node)
    (available : read node.timer = some value) :
    reading state read machine = .ok (some value) machine := by
  have ends : Ends (reading state read) machine
      (fun answer after => answer = some value ∧ after = machine) fun _ _ => False := by
    unfold reading
    rw [ends_bind, ends_get, found]
    dsimp only
    rw [available]
    exact ⟨rfl, rfl⟩
  unfold Ends at ends
  split at ends
  · rename_i result
    rw [result, ends.1, ends.2]
  · exact ends.elim

/-! ### With callbacks that do not fail by themselves -/

section Unfailing

variable {passes : Prop}

private theorem ends_renewFrame_betweenFrames :
    Ends (renewFrame handle) machine (fun _ after => BetweenFrames passes machine after)
      (fun _ _ => False) := by
  unfold renewFrame
  rw [ends_bind, ends_get]
  split
  · exact BetweenFrames.refl machine
  · rename_i node found
    split
    · split
      · rename_i running
        exact BetweenFrames.frameRequested found running
      · rename_i notRunning
        exact (BetweenFrames.timerReset found (by simpa using notRunning)).trans
          (BetweenFrames.note _ rfl rfl)
    · exact BetweenFrames.refl machine

variable (keeps : (keepingTimers passes).KeptAnywhere calls) (unfailing : machine.Unfailing passes)
  (clocked : machine.Clocked)
include keeps unfailing clocked

/-- A frame that a running timer waits for is folded into it; its activity finds its state
active. -/
theorem ends_deliverFrame_folded {node : StateNode}
    (found : machine.state? handle.state = some node) (waits : node.frame = some handle)
    (running : node.timer.running = true) :
    Ends (deliverFrame calls handle now) machine
      (fun _ after => BetweenFrames passes (machine.frameFolded handle node now) after)
      (PassedOn passes (machine.frameFolded handle node now)) := by
  unfold deliverFrame
  rw [ends_bind, ends_get, found]
  dsimp only
  rw [if_neg (not_not.mpr waits), if_pos running]
  unfold foldFrame
  dsimp only
  rw [ends_bind, ends_note, ends_bind, ends_modify]
  have folds : KeepsTimers passes machine (machine.frameFolded handle node now) :=
    KeepsTimers.frameFolded found waits running now
  obtain ⟨current, foundNow, fixed⟩ := folds.changes.sameChart.state?_forward found
  have active : (machine.frameFolded handle node now).isStateActive handle.state = true := by
    have altered := Machine.altered_frameFolded machine handle node now handle.state
    rw [if_pos rfl, found] at altered
    exact Machine.isStateActive_iff.mpr
      ⟨_, altered, (clocked handle.state node found).active running⟩
  have activity : current.activity = node.activity :=
    StateNode.read_eq fixed StateNode.activity fun _ => rfl
  split
  · rw [ends_bind]
    refine (ends_startBehavior_betweenFrames keeps.toKeptBy
      (unfailing.of_sameChart folds.changes.sameChart)
      foundNow (fun present isActivity => Or.inr (Or.inr (activity.trans isActivity)))
      fun _ => active).mono (fun _ middle acted => ?_) fun _ _ passed => passed
    exact ends_renewFrame_betweenFrames.mono (fun _ _ renewed => acted.trans renewed)
      fun _ _ impossible => impossible.elim
  · exact ends_renewFrame_betweenFrames.mono (fun _ _ renewed => renewed)
      fun _ _ impossible => impossible.elim

theorem ends_deliverFrame_keepsTimers :
    Ends (deliverFrame calls handle now) machine (fun _ after => KeepsTimers passes machine after)
      (fun halt after => halt = .exhausted ∨ KeepsTimers passes machine after ∧
        (passes ∧ after.Mistaken ∨ machine.state? handle.state = none)) := by
  cases found : machine.state? handle.state with
  | none =>
      unfold deliverFrame
      rw [ends_bind, ends_get, found, ends_fail]
      exact Or.inr ⟨(BetweenFrames.note machine rfl rfl).toKeepsTimers, Or.inr rfl⟩
  | some node =>
      by_cases waits : node.frame = some handle
      · by_cases running : node.timer.running = true
        · have folds : KeepsTimers passes machine (machine.frameFolded handle node now) :=
            KeepsTimers.frameFolded found waits running now
          exact (ends_deliverFrame_folded keeps unfailing clocked found waits running).mono
            (fun _ _ betweenFrames => folds.trans betweenFrames.toKeepsTimers) fun _ _ passed =>
              passed.imp_right fun both => ⟨folds.trans both.1.toKeepsTimers, Or.inl both.2⟩
        · unfold deliverFrame
          rw [ends_bind, ends_get, found]
          dsimp only
          rw [if_neg (not_not.mpr waits), if_neg running]
          exact ((BetweenFrames.timerReset found (by simpa using running)).trans
            (BetweenFrames.note _ rfl rfl)).toKeepsTimers
      · unfold deliverFrame
        rw [ends_bind, ends_get, found]
        dsimp only
        rw [if_pos waits]
        exact (BetweenFrames.frameCancelled (by simpa [found] using waits)).toKeepsTimers

private theorem ends_deliverAll_keepsTimers {due : List FrameHandle}
    (known : ∀ handle ∈ due, (machine.state? handle.state).isSome) :
    Ends (due.forM fun handle => deliverFrame calls handle now) machine
      (fun _ after => KeepsTimers passes machine after)
      (fun halt after => halt = .exhausted ∨
        KeepsTimers passes machine after ∧ passes ∧ after.Mistaken) := by
  -- By induction on the frames that were taken, which all name states.
  induction due generalizing machine with
  | nil => exact KeepsTimers.refl machine
  | cons first rest ih =>
      rw [ends_forM_cons]
      refine (ends_deliverFrame_keepsTimers keeps unfailing clocked).mono
        (fun _ middle delivered => ?_) fun halt after failure => ?_
      · have same := delivered.changes.sameChart
        refine (ih (unfailing.of_sameChart same) (delivered.changes.clocked clocked)
          fun handle member => ?_).mono (fun _ _ later => delivered.trans later)
          fun _ _ failure => failure.imp_right (And.imp_left delivered.trans)
        obtain ⟨node, found⟩ :=
          Option.isSome_iff_exists.mp (known handle (List.mem_cons_of_mem _ member))
        obtain ⟨node', found', _⟩ := same.state?_forward found
        rw [found']
        rfl
      · refine failure.imp_right
          (And.imp_right fun reason => reason.resolve_right fun missing => ?_)
        have present := known first (List.mem_cons_self ..)
        rw [missing] at present
        cases present

omit keeps in
theorem ends_advance_keepsTimers (linked : machine.Linked) (depth : Nat) :
    Ends (advance depth now) machine (fun _ after => KeepsTimers passes machine after)
      (fun halt after => halt = .exhausted ∨
        KeepsTimers passes machine after ∧ passes ∧ after.Mistaken) := by
  have takes : KeepsTimers passes machine machine.framesTaken :=
    (BetweenFrames.framesTaken machine).toKeepsTimers
  unfold advance
  rw [ends_bind, ends_modifyGet, ends_bind]
  refine (ends_deliverAll_keepsTimers (calls_keepingTimers depth)
    (unfailing.of_sameChart takes.changes.sameChart) (takes.changes.clocked clocked)
    fun handle member => ?_).mono (fun _ _ delivered => ?_)
    fun _ _ failure => failure.imp_right (And.imp_left takes.trans)
  · exact linked.frames handle member
  · exact takes.trans delivered

end Unfailing

end Chart.Run
