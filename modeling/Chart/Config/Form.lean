import Chart.Config
import Chart.Json.Read

set_option autoImplicit false

/-!
State configurations as data values. The written form is an object with the three options, the
interval as a whole number of milliseconds. Missing options have their standard values; a list
gives the options in the order of the fields and may stop early. In a text, a known field may
not be repeated, while unknown fields are skipped whatever they hold.
-/

namespace Chart.StateConfig

def fieldNames : List String := ["timer", "interval", "auto_transition"]

/-- The interval in whole milliseconds, at most what fits a word of 64 bits. -/
def writtenMillis (config : StateConfig) : Nat :=
  min config.interval.millis Word.greatest

def toValue (config : StateConfig) : Value :=
  .object
    [("auto_transition", .bool config.autoTransition),
      ("interval", .int config.writtenMillis),
      ("timer", .bool config.timer)]

def interval? (value : Value) : Option Duration :=
  match value.asNat? with
  | some millis => if fits : millis < Word.limit then some (.ofMillis millis fits) else none
  | none => none

/-- An option that is absent has its standard value; one that is present must be readable. -/
def option {Setting : Type} (standard : Setting) (read : Value → Option Setting) :
    Option Value → Option Setting
  | none => some standard
  | some value => read value

def ofOptions? (timer interval autoTransition : Option Value) : Option StateConfig := do
  return {
    timer := ← option standard.timer Value.asBool? timer
    interval := ← option standard.interval interval? interval
    autoTransition := ← option standard.autoTransition Value.asBool? autoTransition }

def ofValue? (value : Value) : Option StateConfig :=
  match value with
  | .object fields =>
      ofOptions? (Dictionary.find? fields "timer") (Dictionary.find? fields "interval")
        (Dictionary.find? fields "auto_transition")
  | .list options =>
      if options.length ≤ 3 then ofOptions? options[0]? options[1]? options[2]? else none
  | _ => none

/-- The fields of a written object that are options; a repeated one is refused, and so is a name
that is not made of whole characters. -/
def knownFields? :
    List (Option String × Json.Document) → Option (List (String × Value))
  | [] => some []
  | (key, document) :: rest => do
      let name ← key
      let found ← knownFields? rest
      if !fieldNames.contains name then some found
      else if found.any fun other => other.1 == name then none
      else return (name, ← document.value? nestingLimit) :: found

def ofDocument? (document : Json.Document) : Option StateConfig :=
  match document with
  | .object fields => do ofValue? (.object (Dictionary.ofList (← knownFields? fields)))
  | .list options => do ofValue? (.list (← options.mapM (Json.Document.value? nestingLimit)))
  | _ => none

def ofText? (text : String) : Option StateConfig := do
  ofDocument? (← Json.Document.ofText? text)

end Chart.StateConfig
