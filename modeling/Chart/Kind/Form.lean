import Chart.Data.Value
import Chart.Kind

set_option autoImplicit false

/-!
Kinds and statuses as data values. Each is written as its tag; a history state carries its depth
as the content of its tag.
-/

namespace Chart

def HistoryDepth.toValue (depth : HistoryDepth) : Value :=
  .text depth.word

def HistoryDepth.ofValue? (value : Value) : Option HistoryDepth :=
  match value.bareTag? with
  | some "Shallow" => some .shallow
  | some "Deep" => some .deep
  | _ => none

def Status.toValue (status : Status) : Value :=
  .text status.word

def Status.ofValue? (value : Value) : Option Status :=
  match value.bareTag? with
  | some "Active" => some .active
  | some "Inactive" => some .inactive
  | _ => none

def StateKind.toValue : StateKind → Value
  | .history depth => .object [("History", depth.toValue)]
  | kind => .text kind.word

def StateKind.ofBareTag? : String → Option StateKind
  | "Normal" => some .normal
  | "Initial" => some .initial
  | "Final" => some .final
  | "Choice" => some .choice
  | "Root" => some .root
  | _ => none

def StateKind.ofValue? (value : Value) : Option StateKind :=
  match value.tag? with
  | some ("History", some content) => (HistoryDepth.ofValue? content).map .history
  | _ => value.bareTag?.bind StateKind.ofBareTag?

theorem HistoryDepth.ofValue?_toValue (depth : HistoryDepth) :
    HistoryDepth.ofValue? depth.toValue = some depth := by
  cases depth <;> rfl

theorem Status.ofValue?_toValue (status : Status) :
    Status.ofValue? status.toValue = some status := by
  cases status <;> rfl

theorem StateKind.ofValue?_toValue (kind : StateKind) :
    StateKind.ofValue? kind.toValue = some kind := by
  cases kind with
  | history depth => cases depth <;> rfl
  | _ => rfl

end Chart
