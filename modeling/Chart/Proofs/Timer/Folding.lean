import Chart.Timer
import Mathlib.Data.List.Chain

set_option autoImplicit false

/-!
What the counters of a timer say after a stream of frames. The activity misses no multiple of the
interval when the frames come at most one interval apart, also where the next multiple is out of
range. It never runs ahead of the elapsed time either, up to the greatest boundary; there the
boundary stands still, and from then on every frame makes the activity due.
-/

namespace Chart

namespace Duration

private theorem le_iff (left right : Duration) : left ≤ right ↔ left.nanos ≤ right.nanos :=
  Iff.rfl

@[simp] theorem since_nanos (later earlier : Duration) :
    (later.since earlier).nanos = later.nanos - earlier.nanos :=
  rfl

instance : @Trans Duration Duration Duration (· ≤ ·) (· ≤ ·) (· ≤ ·) :=
  ⟨fun {_ _ _} first second => Nat.le_trans first second⟩

private theorem nanos_pos {duration : Duration} (nonzero : duration.isZero = false) :
    0 < duration.nanos :=
  Nat.pos_of_ne_zero (by simpa [isZero] using nonzero)

end Duration

namespace Timer

variable {interval now first last : Duration} {frames : List Duration}

private theorem isDue_iff (interval elapsed : Duration) (boundary : Nat) :
    isDue interval elapsed boundary = true ↔ interval.nanos * boundary ≤ elapsed.nanos := by
  unfold isDue Duration.times? Duration.ofNanos?
  by_cases within : interval.nanos * boundary < durationLimit
  · rw [dif_pos within, decide_eq_true_eq]
    exact Duration.le_iff _ _
  · rw [dif_neg within]
    have short := elapsed.inRange
    exact iff_of_false Bool.false_ne_true (by omega)

def folded (interval : Duration) (frames : List Duration) : Timer :=
  frames.foldl (fun timer now => (timer.step now interval).1) .armed

private theorem folded_append (interval : Duration) (frames : List Duration) (now : Duration) :
    folded interval (frames ++ [now]) = ((folded interval frames).step now interval).1 :=
  List.foldl_append

private theorem startedAt_folded (interval : Duration) (frames : List Duration) :
    (folded interval frames).startedAt = frames.head? := by
  induction frames using List.reverseRecOn with
  | nil => rfl
  | append_singleton frames now ih =>
      rw [folded_append, step, ih]
      cases frames <;> rfl

private theorem elapsedTime_folded (begins : frames.head? = some first)
    (ends : frames.getLast? = some last) :
    (folded interval frames).elapsedTime = last.since first := by
  induction frames using List.reverseRecOn with
  | nil => cases begins
  | append_singleton frames now =>
      obtain rfl : now = last := by simpa using ends
      rw [folded_append, step, startedAt_folded]
      cases frames with
      | nil =>
          obtain rfl : now = first := by simpa using begins
          rfl
      | cons head rest =>
          obtain rfl : head = first := by simpa using begins
          rfl

private theorem boundary_folded (interval : Duration) (frames : List Duration) :
    (folded interval frames).boundary =
      min ((folded interval frames).invocationCount + 1) greatestBoundary := by
  induction frames using List.reverseRecOn with
  | nil => rfl
  | append_singleton frames now ih =>
      rw [folded_append, step]
      simp only [ih]
      split <;> omega

/-- Whether the activity is due at each frame of a stream that the timer still has to fold in. -/
def duesFrom (interval : Duration) : Timer → List Duration → List Bool
  | _, [] => []
  | timer, now :: later =>
      (timer.step now interval).2 :: duesFrom interval (timer.step now interval).1 later

/-- Whether the activity is due at each frame of a stream. -/
def dues (interval : Duration) (frames : List Duration) : List Bool :=
  duesFrom interval .armed frames

private theorem dues_append (interval : Duration) (frames : List Duration) (now : Duration) :
    dues interval (frames ++ [now]) =
      dues interval frames ++ [((folded interval frames).step now interval).2] := by
  have goesOn (timer : Timer) : duesFrom interval timer (frames ++ [now]) =
      duesFrom interval timer frames ++
        [((frames.foldl (fun timer now => (timer.step now interval).1) timer).step now
          interval).2] := by
    induction frames generalizing timer with
    | nil => rfl
    | cons first rest ih => exact congrArg (_ :: ·) (ih _)
  exact goesOn .armed

private theorem count_dues (interval : Duration) (frames : List Duration) :
    (dues interval frames).count true = (folded interval frames).invocationCount := by
  induction frames using List.reverseRecOn with
  | nil => rfl
  | append_singleton frames now ih =>
      rw [dues_append, List.count_append, ih, folded_append, step]
      cases isDue interval (now.since ((folded interval frames).startedAt.getD now))
        (folded interval frames).boundary <;> rfl

/-- From the first frame on there are readings: the time since that frame, and the number of frames
at which the activity was due. -/
theorem readings_folded (interval : Duration) {early : List Duration}
    (seen : early ++ [now] <+: frames) :
    ∃ first, frames.head? = some first ∧
      (folded interval (early ++ [now])).elapsedTime = now.since first ∧
      (folded interval (early ++ [now])).elapsed? = some (now.since first) ∧
      (folded interval (early ++ [now])).invocations? =
        some (folded interval (early ++ [now])).invocationCount := by
  obtain ⟨late, rfl⟩ := seen
  obtain ⟨first, begins⟩ : ∃ first, (early ++ [now]).head? = some first := by
    cases early <;> exact ⟨_, rfl⟩
  have started := (startedAt_folded interval (early ++ [now])).trans begins
  have elapsed := @elapsedTime_folded interval _ _ _ begins List.getLast?_concat
  refine ⟨first, ?_, elapsed, ?_, ?_⟩
  · rw [List.head?_append, begins, Option.some_or]
  · rw [elapsed?, started, Option.map_some, elapsed]
  · rw [invocations?, started, Option.map_some]

private theorem invocationCount_step (interval : Duration) (frames : List Duration)
    (now : Duration) :
    (folded interval (frames ++ [now])).invocationCount =
      (folded interval frames).invocationCount +
        if interval.nanos * min ((folded interval frames).invocationCount + 1) greatestBoundary ≤
          (folded interval (frames ++ [now])).elapsedTime.nanos then 1 else 0 := by
  have counted : (folded interval (frames ++ [now])).invocationCount =
      (folded interval frames).invocationCount +
        if isDue interval (folded interval (frames ++ [now])).elapsedTime
          (folded interval frames).boundary then 1 else 0 := by
    rw [folded_append]
    rfl
  rw [counted, if_congr (isDue_iff _ _ _) rfl rfl, boundary_folded]

private theorem invocationCount_le (nonzero : interval.isZero = false) (frames : List Duration) :
    (folded interval frames).invocationCount ≤ frames.length - 1 := by
  induction frames using List.reverseRecOn with
  | nil => exact Nat.le_refl 0
  | append_singleton frames now ih =>
      rw [invocationCount_step, List.length_append, List.length_singleton]
      cases frames with
      | nil =>
          -- No time has passed at the first frame, so it is before the first boundary.
          have start : (folded interval ([] ++ [now])).elapsedTime.nanos = 0 :=
            Nat.sub_self now.nanos
          have next : min ((folded interval []).invocationCount + 1) greatestBoundary = 1 := rfl
          have positive := Duration.nanos_pos nonzero
          rw [start, next, if_neg (by omega)]
          exact Nat.le_refl 0
      | cons first rest =>
          simp only [List.length_cons] at ih ⊢
          split <;> omega

private theorem elapsedTime_step (interval : Duration)
    (ordered : (frames ++ [now]).Pairwise (· ≤ ·)) :
    (folded interval (frames ++ [now])).elapsedTime.nanos =
      (folded interval frames).elapsedTime.nanos +
        (now.since (frames.getLast?.getD now)).nanos := by
  obtain ⟨ordered, -, beyond⟩ := List.pairwise_append.mp ordered
  cases frames with
  | nil => exact (Nat.zero_add _).symm
  | cons first rest =>
      obtain ⟨last, ends⟩ : ∃ last, (first :: rest).getLast? = some last :=
        ⟨_, List.getLast?_eq_some_getLast (List.cons_ne_nil first rest)⟩
      have later : last ≤ now :=
        beyond last (List.mem_of_getLast? ends) now (List.mem_singleton_self now)
      have since : first ≤ last := by
        rcases List.mem_cons.mp (List.mem_of_getLast? ends) with rfl | after
        · exact Nat.le_refl _
        · exact List.rel_of_pairwise_cons ordered after
      have latest : (folded interval (first :: rest ++ [now])).elapsedTime = now.since first :=
        elapsedTime_folded rfl List.getLast?_concat
      rw [latest, elapsedTime_folded rfl ends, ends, Option.getD_some]
      simp only [Duration.since_nanos, Duration.le_iff] at since later ⊢
      omega

/-! ### No boundary is missed -/

/-- Two frames in a row are in order and at most one interval apart. -/
def Close (interval earlier later : Duration) : Prop :=
  earlier ≤ later ∧ later.since earlier ≤ interval

private theorem Close.ordered (close : frames.IsChain (Close interval)) : frames.Pairwise (· ≤ ·) :=
  (close.imp fun _ _ both => both.1).pairwise

private theorem elapsed_lt_next (nonzero : interval.isZero = false)
    (close : frames.IsChain (Close interval)) :
    (folded interval frames).elapsedTime.nanos <
      interval.nanos * ((folded interval frames).invocationCount + 1) := by
  induction frames using List.reverseRecOn with
  | nil => exact Nat.mul_pos (Duration.nanos_pos nonzero) Nat.one_pos
  | append_singleton frames now ih =>
      obtain ⟨before, -, joint⟩ := List.isChain_append.mp close
      have grown := elapsedTime_step interval (Close.ordered close)
      have short : (now.since (frames.getLast?.getD now)).nanos ≤ interval.nanos := by
        cases ends : frames.getLast? with
        | none => simp
        | some last => exact (joint last ends now rfl).2
      rw [invocationCount_step]
      split
      -- A frame that is due comes at most one interval after the last one and counts one more.
      next due =>
        have := ih before
        rw [Nat.mul_succ]
        omega
      next waiting =>
        rw [Nat.add_zero]
        exact Nat.lt_of_lt_of_le (Nat.not_le.mp waiting)
          (Nat.mul_le_mul_left _ (Nat.min_le_left _ _))

/-- With frames at most one interval apart, the frames at which the activity is due never fall
behind the time since the first frame. -/
theorem no_boundary_missed (nonzero : interval.isZero = false)
    (close : frames.IsChain (Close interval)) :
    ∀ early now, early ++ [now] <+: frames →
      ∃ first count, frames.head? = some first ∧
        (folded interval (early ++ [now])).elapsed? = some (now.since first) ∧
          (folded interval (early ++ [now])).invocations? = some count ∧
            (dues interval (early ++ [now])).count true = count ∧
              (now.since first).nanos / interval.nanos ≤ count := by
  intro early now seen
  obtain ⟨first, begins, elapsed, reading, invocations⟩ := readings_folded interval seen
  have closeBefore := close.prefix seen
  have behind := elapsed_lt_next nonzero closeBefore
  rw [elapsed] at behind
  refine ⟨first, _, begins, reading, invocations, count_dues interval _, Nat.le_of_lt_succ ?_⟩
  rw [Nat.div_lt_iff_lt_mul (Duration.nanos_pos nonzero), Nat.mul_comm]
  exact behind

/-- The length of 2^63 seconds, whose double is out of range. -/
def eon : Duration :=
  ⟨9223372036854775808000000000, by decide⟩

def endOfTime : Duration :=
  ⟨18446744073709551615999999999, by decide⟩

theorem eon_no_boundary_missed :
    eon.isZero = false ∧ [.zero, eon, endOfTime].IsChain (Close eon) ∧ eon.times? 2 = none ∧
      ∀ early now, early ++ [now] <+: [.zero, eon, endOfTime] →
        ∃ first count, [Duration.zero, eon, endOfTime].head? = some first ∧
          (folded eon (early ++ [now])).elapsed? = some (now.since first) ∧
            (folded eon (early ++ [now])).invocations? = some count ∧
              (dues eon (early ++ [now])).count true = count ∧
                (now.since first).nanos / eon.nanos ≤ count := by
  have nonzero : eon.isZero = false := by decide
  have close : [.zero, eon, endOfTime].IsChain (Close eon) := by
    simp only [List.isChain_cons_cons, List.isChain_singleton, and_true, Close]
    decide +kernel
  exact ⟨nonzero, close, by decide +kernel, no_boundary_missed nonzero close⟩

/-! ### No invocation is too early -/

/-- As far as boundaries are counted, each invocation has its multiple of the interval behind it. -/
theorem boundary_le_elapsed (interval : Duration) (ordered : frames.Pairwise (· ≤ ·)) :
    interval.nanos * min (folded interval frames).invocationCount greatestBoundary ≤
      (folded interval frames).elapsedTime.nanos := by
  induction frames using List.reverseRecOn with
  | nil => exact Nat.le_refl 0
  | append_singleton frames now ih =>
      have grown := elapsedTime_step interval ordered
      rw [invocationCount_step]
      split
      next due => exact due
      next waiting =>
        have := ih (List.pairwise_append.mp ordered).1
        rw [Nat.add_zero]
        omega

private theorem due_of_greatestBoundary (ordered : (frames ++ [now]).Pairwise (· ≤ ·))
    (greatest : greatestBoundary ≤ (folded interval frames).invocationCount) :
    ((folded interval frames).step now interval).2 = true := by
  have reached := boundary_le_elapsed interval (List.pairwise_append.mp ordered).1
  have grown := elapsedTime_step interval ordered
  rw [folded_append] at grown
  refine (isDue_iff _ _ _).mpr ?_
  rw [boundary_folded, Nat.min_eq_right (Nat.le_succ_of_le greatest)]
  rw [Nat.min_eq_right greatest] at reached
  exact Nat.le_trans reached (Nat.le.intro grown.symm)

/-- The invocations stay within the elapsed time up to the greatest boundary, hence throughout a
stream of up to 2^32 frames; past it every frame adds one. -/
theorem invocations_within (nonzero : interval.isZero = false) (ordered : frames.Pairwise (· ≤ ·)) :
    ∀ early now, early ++ [now] <+: frames →
      ∃ first count, frames.head? = some first ∧
        (folded interval (early ++ [now])).elapsed? = some (now.since first) ∧
          (folded interval (early ++ [now])).invocations? = some count ∧
            (dues interval (early ++ [now])).count true = count ∧
              min count greatestBoundary * interval.nanos ≤ (now.since first).nanos ∧
                (early.length ≤ greatestBoundary →
                  count ≤ (now.since first).nanos / interval.nanos) ∧
                  (greatestBoundary ≤ count → ∀ next, early ++ [now] ++ [next] <+: frames →
                    ((folded interval (early ++ [now])).step next interval).2 = true) := by
  intro early now seen
  obtain ⟨first, begins, elapsed, reading, invocations⟩ := readings_folded interval seen
  have within := boundary_le_elapsed interval (ordered.sublist seen.sublist)
  rw [elapsed, Nat.mul_comm] at within
  refine ⟨first, _, begins, reading, invocations, count_dues interval _, within, fun few => ?_, ?_⟩
  · have counted := invocationCount_le nonzero (early ++ [now])
    rw [List.length_append, List.length_singleton, Nat.add_sub_cancel] at counted
    rw [Nat.min_eq_left (Nat.le_trans counted few)] at within
    exact (Nat.le_div_iff_mul_le (Duration.nanos_pos nonzero)).mpr within
  · intro greatest next further
    exact due_of_greatestBoundary (ordered.sublist further.sublist) greatest

def stutter : List Duration :=
  [.zero, ⟨1000000000, by decide⟩, ⟨2500000000, by decide⟩, ⟨2500000000, by decide⟩]

def second : Duration :=
  ⟨1000000000, by decide⟩

theorem stutter_invocations_within :
    second.isZero = false ∧ stutter.Pairwise (· ≤ ·) ∧
      ∀ early now, early ++ [now] <+: stutter →
        ∃ first count, stutter.head? = some first ∧
          (folded second (early ++ [now])).elapsed? = some (now.since first) ∧
            (folded second (early ++ [now])).invocations? = some count ∧
              (dues second (early ++ [now])).count true = count ∧
                min count greatestBoundary * second.nanos ≤ (now.since first).nanos ∧
                  (early.length ≤ greatestBoundary →
                    count ≤ (now.since first).nanos / second.nanos) ∧
                    (greatestBoundary ≤ count → ∀ next, early ++ [now] ++ [next] <+: stutter →
                      ((folded second (early ++ [now])).step next second).2 = true) := by
  have nonzero : second.isZero = false := by decide
  have ordered : stutter.Pairwise (· ≤ ·) := by decide
  exact ⟨nonzero, ordered, invocations_within nonzero ordered⟩

def tick : Duration :=
  ⟨1, by decide⟩

/-- The time of the greatest boundary of an interval of one nanosecond, 4.3 s after zero. -/
def lastTick : Duration :=
  ⟨greatestBoundary, by decide⟩

/-- A first frame at time zero, and then all frames at the same later time. -/
def burst (count : Nat) : List Duration :=
  .zero :: List.replicate count lastTick

private theorem burst_succ (count : Nat) : burst (count + 1) = burst count ++ [lastTick] := by
  rw [burst, List.replicate_succ', ← List.cons_append, burst]

private theorem burst_ordered (count : Nat) : (burst count).Pairwise (· ≤ ·) := by
  refine List.pairwise_cons.mpr ⟨fun later _ => Nat.zero_le _, ?_⟩
  exact List.pairwise_replicate.mpr (Or.inr (Nat.le_refl _))

private theorem elapsedTime_burst (count : Nat) :
    (folded tick (burst count ++ [lastTick])).elapsedTime = lastTick := by
  have begins : (burst count ++ [lastTick]).head? = some .zero := rfl
  rw [elapsedTime_folded begins List.getLast?_concat]
  rfl

private theorem invocationCount_burst (count : Nat) :
    (folded tick (burst count)).invocationCount = count := by
  induction count with
  | zero => decide
  | succ count ih =>
      rw [burst_succ, invocationCount_step, ih, elapsedTime_burst, if_pos]
      rw [tick, Nat.one_mul]
      exact Nat.min_le_right _ _

/-- With 2^32 frames after the first one there is an invocation more than the time allows. -/
theorem burst_runs_ahead :
    tick.isZero = false ∧ (burst 4294967296).Pairwise (· ≤ ·) ∧
      (burst 4294967296).length = 4294967297 ∧
        (folded tick (burst 4294967296)).elapsed? = some lastTick ∧
          (folded tick (burst 4294967296)).invocations? = some 4294967296 ∧
            lastTick.nanos / tick.nanos < 4294967296 := by
  have last : burst 4294967295 ++ [lastTick] = burst 4294967296 := (burst_succ 4294967295).symm
  have seen : burst 4294967295 ++ [lastTick] <+: burst 4294967296 :=
    ⟨[], (List.append_nil _).trans last⟩
  obtain ⟨first, begins, -, elapsed, invocations⟩ := readings_folded tick seen
  rw [burst, List.head?_cons] at begins
  obtain rfl := Option.some.inj begins
  rw [last] at elapsed invocations
  rw [invocationCount_burst] at invocations
  refine ⟨by decide, burst_ordered _, ?_, elapsed, invocations, by decide⟩
  rw [burst, List.length_cons, List.length_replicate]

end Timer
end Chart
