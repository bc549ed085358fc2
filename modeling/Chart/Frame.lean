import Chart.Handle

set_option autoImplicit false

/-!
Frames requested by timed states. A handle names the state that waits and carries the number of
the request; the queue hands out the numbers in order and keeps the handles that were neither
delivered nor cancelled, oldest first.
-/

namespace Chart

structure FrameHandle where
  state : StateId
  sequence : Nat
deriving DecidableEq, Repr

structure FrameQueue where
  nextSequence : Nat
  pending : List FrameHandle
deriving DecidableEq, Repr

namespace FrameQueue

def empty : FrameQueue := ⟨0, []⟩

instance : Inhabited FrameQueue := ⟨empty⟩

def schedule (queue : FrameQueue) (state : StateId) : FrameHandle × FrameQueue :=
  let handle : FrameHandle := ⟨state, queue.nextSequence⟩
  (handle, ⟨queue.nextSequence + 1, queue.pending ++ [handle]⟩)

def cancel (queue : FrameQueue) (handle : FrameHandle) : FrameQueue :=
  { queue with pending := queue.pending.filter fun other => other != handle }

/-- Empties the queue and hands over what it held. -/
def takePending (queue : FrameQueue) : List FrameHandle × FrameQueue :=
  (queue.pending, { queue with pending := [] })

@[simp] theorem pending_schedule (queue : FrameQueue) (state : StateId) :
    (queue.schedule state).2.pending = queue.pending ++ [(queue.schedule state).1] := rfl

@[simp] theorem mem_pending_cancel (queue : FrameQueue) (handle other : FrameHandle) :
    other ∈ (queue.cancel handle).pending ↔ other ∈ queue.pending ∧ other ≠ handle := by
  simp [cancel]

end FrameQueue
end Chart
