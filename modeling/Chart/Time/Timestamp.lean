import Chart.Time.Calendar
import Chart.Time.Duration

set_option autoImplicit false

/-!
Moments in universal time, to the nanosecond. A leap second is the last second of its minute
with a nanosecond part of one second or more.
-/

namespace Chart

structure Timestamp where
  date : Date
  second : Nat
  nano : Nat
deriving DecidableEq, Repr

namespace Timestamp

def secondsPerDay : Nat := 86400

/-- The moment whose local date and time of day are given, where local time is ahead by `offset`
seconds, less than a day; a date outside the available years has none. -/
def ofLocal? (date : Date) (second nano : Nat) (offset : Int) : Option Timestamp :=
  let shifted := (second : Int) - offset
  let moment : Timestamp :=
    if shifted < 0 then ⟨date.previous, (shifted + secondsPerDay).toNat, nano⟩
    else if (secondsPerDay : Int) ≤ shifted then
      ⟨date.next, (shifted - secondsPerDay).toNat, nano⟩
    else ⟨date, shifted.toNat, nano⟩
  if date.isValid && moment.date.isValid then some moment else none

def isLeap (moment : Timestamp) : Bool :=
  nanosPerSecond ≤ moment.nano

/-- Nanoseconds from one moment to another. A leap second between the two times of day counts
as one second more. -/
def nanosSince (later earlier : Timestamp) : Int :=
  let days := later.date.number - earlier.date.number
  let seconds := (later.second : Int) - earlier.second
  let leap : Int :=
    if earlier.second < later.second then (if earlier.isLeap then 1 else 0)
    else if later.second < earlier.second then (if later.isLeap then -1 else 0)
    else 0
  (days * secondsPerDay + seconds + leap) * nanosPerSecond + later.nano - earlier.nano

/-- The time between two moments, unless the second is earlier than the first. -/
def durationSince? (later earlier : Timestamp) : Option Duration :=
  match nanosSince later earlier with
  | .ofNat nanos => Duration.ofNanos? nanos
  | .negSucc _ => none

end Timestamp
end Chart
