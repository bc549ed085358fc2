import Chart.Callback
import Chart.Config
import Chart.Data.Dictionary

set_option autoImplicit false

/-!
Definitions of states and transitions before they enter a machine. Checking a definition finds
all rules it breaks at once, in a fixed order; a definition made by hand need not be checked.
-/

namespace Chart

structure StateDefinition where
  name : Option String
  config : StateConfig
  entry : Option Behavior
  exit : Option Behavior
  activity : Option Behavior
  data : Dictionary Value

structure TransitionDefinition where
  name : Option String
  source : Option String
  target : Option String
  guard : Option Guard
  effect : Option Effect
  internal : Bool

inductive Violation
  | emptyName
  | emptySourceName
  | emptyTargetName
  | timerWithAutoTransition
  | zeroInterval
  | internalWithoutSource
deriving DecidableEq, Repr

def Violation.message : Violation → String
  | .emptyName => "name must not be empty when given"
  | .emptySourceName => "source state name must not be empty when given"
  | .emptyTargetName => "target state name must not be empty when given"
  | .timerWithAutoTransition => "auto-transition cannot be combined with a periodic timer"
  | .zeroInterval => "timer interval must be greater than zero"
  | .internalWithoutSource => "internal transitions need a source state"

/-- A name may be left out, but a given one must not be empty. -/
def emptyWhenGiven (name : Option String) : Bool :=
  name == some ""

def violationsOf (rules : List (Bool × Violation)) : List Violation :=
  (rules.filter fun rule => rule.1).map fun rule => rule.2

namespace StateDefinition

/-- No name, the standard configuration, no callbacks and no data. -/
def anonymous : StateDefinition :=
  { name := none
    config := .standard
    entry := none
    exit := none
    activity := none
    data := [] }

def plain (name : String) : StateDefinition :=
  { anonymous with name := some name }

def withTimer (definition : StateDefinition) (interval : Duration) : StateDefinition :=
  { definition with config := { definition.config with timer := true, interval := interval } }

def withAutoTransition (definition : StateDefinition) : StateDefinition :=
  { definition with config := { definition.config with autoTransition := true } }

def violations (definition : StateDefinition) : List Violation :=
  violationsOf
    [(emptyWhenGiven definition.name, .emptyName),
      (definition.config.timer && definition.config.autoTransition, .timerWithAutoTransition),
      (definition.config.timer && definition.config.interval.isZero, .zeroInterval)]

end StateDefinition

namespace TransitionDefinition

/-- Leads from the initial pseudostate of a region to its final state. -/
def anonymous : TransitionDefinition :=
  { name := none
    source := none
    target := none
    guard := none
    effect := none
    internal := false }

def initial (target : String) : TransitionDefinition :=
  { anonymous with target := some target }

def simple (name source target : String) : TransitionDefinition :=
  { anonymous with name := some name, source := some source, target := some target }

def guarded (name source target : String) (guard : Guard) : TransitionDefinition :=
  { simple name source target with guard := some guard }

def violations (definition : TransitionDefinition) : List Violation :=
  violationsOf
    [(emptyWhenGiven definition.name, .emptyName),
      (emptyWhenGiven definition.source, .emptySourceName),
      (emptyWhenGiven definition.target, .emptyTargetName),
      (definition.internal && definition.source.isNone, .internalWithoutSource)]

end TransitionDefinition

/-- A definition that breaks rules, at least one. -/
inductive BuildError
  | invalidState (violations : List Violation)
  | invalidTransition (violations : List Violation)
deriving DecidableEq, Repr

namespace BuildError

def violations : BuildError → List Violation
  | .invalidState violations | .invalidTransition violations => violations

def summary (violations : List Violation) : String :=
  String.intercalate "; " (violations.map Violation.message)

def message : BuildError → String
  | .invalidState violations => "invalid state definition: " ++ summary violations
  | .invalidTransition violations => "invalid transition definition: " ++ summary violations

end BuildError

def StateDefinition.check (definition : StateDefinition) : Except BuildError StateDefinition :=
  match definition.violations with
  | [] => .ok definition
  | broken => .error (.invalidState broken)

def TransitionDefinition.check (definition : TransitionDefinition) :
    Except BuildError TransitionDefinition :=
  match definition.violations with
  | [] => .ok definition
  | broken => .error (.invalidTransition broken)

end Chart
