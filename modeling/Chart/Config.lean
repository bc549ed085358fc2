import Chart.Time.Duration

set_option autoImplicit false

/-!
Timing and completion options of a normal state: a timed state runs its activity once an
interval while it is active, an automatic one completes as soon as its activity has run.
-/

namespace Chart

structure StateConfig where
  timer : Bool
  interval : Duration
  autoTransition : Bool
deriving DecidableEq

namespace StateConfig

def defaultInterval : Duration := .ofMillis 1000 (by decide)

/-- Neither timed nor automatic, with an interval of one second. -/
def standard : StateConfig := ⟨false, defaultInterval, false⟩

instance : Inhabited StateConfig := ⟨standard⟩

end StateConfig
end Chart
