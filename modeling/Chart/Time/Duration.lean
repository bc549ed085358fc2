import Chart.Data.Value

set_option autoImplicit false

/-!
Lengths of time with nanosecond resolution, from zero to just below 2^64 seconds. A duration is
a count of nanoseconds, so that comparison, difference and multiples are those of the natural
numbers, cut off at the ends of the range.
-/

namespace Chart

def nanosPerSecond : Nat := 1000000000

def nanosPerMilli : Nat := 1000000

/-- The nanoseconds of 2^64 seconds. -/
def durationLimit : Nat := 18446744073709551616000000000

structure Duration where
  nanos : Nat
  inRange : nanos < durationLimit
deriving DecidableEq

namespace Duration

def zero : Duration := ⟨0, by decide⟩

instance : Inhabited Duration := ⟨zero⟩

instance : LE Duration := ⟨fun left right => left.nanos ≤ right.nanos⟩

instance (left right : Duration) : Decidable (left ≤ right) :=
  inferInstanceAs (Decidable (left.nanos ≤ right.nanos))

def ofNanos? (nanos : Nat) : Option Duration :=
  if inRange : nanos < durationLimit then some ⟨nanos, inRange⟩ else none

def ofParts? (seconds nanos : Nat) : Option Duration :=
  if nanos < nanosPerSecond then ofNanos? (seconds * nanosPerSecond + nanos) else none

/-- A whole number of milliseconds that fits a word of 64 bits is always in range. -/
def ofMillis (millis : Nat) (fits : millis < Word.limit) : Duration :=
  ⟨millis * nanosPerMilli, by unfold Word.limit at fits; unfold nanosPerMilli durationLimit; omega⟩

def seconds (duration : Duration) : Nat :=
  duration.nanos / nanosPerSecond

def subsecondNanos (duration : Duration) : Nat :=
  duration.nanos % nanosPerSecond

/-- Whole milliseconds, rounded down. -/
def millis (duration : Duration) : Nat :=
  duration.nanos / nanosPerMilli

def isZero (duration : Duration) : Bool :=
  duration.nanos == 0

/-- The time from `earlier` to `later`, zero when `earlier` is not earlier. -/
def since (later earlier : Duration) : Duration :=
  ⟨later.nanos - earlier.nanos, by have := later.inRange; omega⟩

/-- The multiple of a duration, when it is in range. -/
def times? (duration : Duration) (factor : Nat) : Option Duration :=
  ofNanos? (duration.nanos * factor)

end Duration
end Chart
