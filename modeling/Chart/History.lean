import Chart.Data.Value
import Chart.Time.TimestampText

set_option autoImplicit false

/-!
What has fired. A firing names its transition, the state it left and the state it entered, which
are the same for an internal one; a record adds the time. The path of a history is the first
source and then every target, internal firings left out.
-/

namespace Chart

structure Firing where
  transition : String
  source : String
  target : String
  internal : Bool
deriving DecidableEq, Repr

namespace Firing

def pathOfExternal : List Firing → List String
  | [] => []
  | first :: rest => first.source :: (first :: rest).map Firing.target

def path (firings : List Firing) : List String :=
  pathOfExternal (firings.filter fun firing => !firing.internal)

end Firing

structure Record extends Firing where
  timestamp : Timestamp
deriving DecidableEq, Repr

structure RecordLog where
  records : List Record
deriving DecidableEq, Repr

namespace RecordLog

def empty : RecordLog := ⟨[]⟩

def append (log : RecordLog) (record : Record) : RecordLog :=
  ⟨log.records ++ [record]⟩

def path (log : RecordLog) : List String :=
  Firing.path (log.records.map Record.toFiring)

/-- The time from the first to the last record, unless it is negative. -/
def duration? (log : RecordLog) : Option Duration := do
  let first ← log.records.head?
  let last ← log.records.getLast?
  last.timestamp.durationSince? first.timestamp

end RecordLog

/-! ### Records as data values: objects with all five fields, or lists of them in order -/

namespace Record

def toValue (record : Record) : Value :=
  .object
    [("internal", .bool record.internal),
      ("source", .text record.source),
      ("target", .text record.target),
      ("timestamp", .text record.timestamp.text),
      ("transition", .text record.transition)]

def ofFields? (transition source target internal timestamp : Value) : Option Record := do
  return {
    transition := ← transition.asText?
    source := ← source.asText?
    target := ← target.asText?
    internal := ← internal.asBool?
    timestamp := ← Timestamp.ofText? (← timestamp.asText?) }

def ofValue? (value : Value) : Option Record :=
  match value with
  | .object fields => do
      ofFields? (← Dictionary.find? fields "transition") (← Dictionary.find? fields "source")
        (← Dictionary.find? fields "target") (← Dictionary.find? fields "internal")
        (← Dictionary.find? fields "timestamp")
  | .list [transition, source, target, internal, timestamp] =>
      ofFields? transition source target internal timestamp
  | _ => none

end Record

namespace RecordLog

def toValue (log : RecordLog) : Value :=
  .object [("records", .list (log.records.map Record.toValue))]

def ofRecords? (value : Value) : Option RecordLog := do
  return ⟨← (← value.asList?).mapM Record.ofValue?⟩

def ofValue? (value : Value) : Option RecordLog :=
  match value with
  | .object fields => do ofRecords? (← Dictionary.find? fields "records")
  | .list [records] => ofRecords? records
  | _ => none

end RecordLog
end Chart
