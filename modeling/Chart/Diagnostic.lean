import Chart.Data.Value

set_option autoImplicit false

/-!
Diagnostics: a level and a message. A diagnostic log keeps them in the order in which they were
observed and answers which were observed at a level and which of those mention a text.
-/

namespace Chart

inductive Level
  | info
  | warn
  | error
deriving DecidableEq, Repr

namespace Level

def label : Level → String
  | .info => "INFO"
  | .warn => "WARN"
  | .error => "ERROR"

def word : Level → String
  | .info => "Info"
  | .warn => "Warn"
  | .error => "Error"

def severity : Level → Nat
  | .info => 0
  | .warn => 1
  | .error => 2

def ofValue? (value : Value) : Option Level :=
  match value.bareTag? with
  | some "Info" => some .info
  | some "Warn" => some .warn
  | some "Error" => some .error
  | _ => none

/-- From the least to the most severe. -/
def sorted (levels : List Level) : List Level :=
  levels.mergeSort fun left right => left.severity ≤ right.severity

end Level

structure Diagnostic where
  level : Level
  message : String
deriving DecidableEq, Repr

def Diagnostic.text (diagnostic : Diagnostic) : String :=
  diagnostic.level.label ++ ": " ++ diagnostic.message

/-- Whether one list of characters stands somewhere in another. -/
def occursIn (wanted : List Char) : List Char → Bool
  | [] => wanted.isEmpty
  | first :: rest => wanted.isPrefixOf (first :: rest) || occursIn wanted rest

structure DiagnosticLog where
  entries : List Diagnostic
deriving DecidableEq, Repr

namespace DiagnosticLog

def empty : DiagnosticLog := ⟨[]⟩

def observe (log : DiagnosticLog) (diagnostic : Diagnostic) : DiagnosticLog :=
  ⟨log.entries ++ [diagnostic]⟩

def atLevel (log : DiagnosticLog) (level : Level) : List Diagnostic :=
  log.entries.filter fun diagnostic => diagnostic.level == level

/-- Whether a diagnostic at this level mentions the text. -/
def mentions (log : DiagnosticLog) (level : Level) (wanted : String) : Bool :=
  (log.atLevel level).any fun diagnostic => occursIn wanted.toList diagnostic.message.toList

end DiagnosticLog
end Chart
