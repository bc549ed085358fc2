import Chart.Json.Document
import Chart.Json.Number

set_option autoImplicit false

/-!
Data values from JSON texts. Every text and key must be made of whole characters, every number
must be in range, and lists and objects nest to a fixed depth at most. Of repeated names in one
object the last one counts.
-/

namespace Chart

/-- How many lists and objects may stand inside one another. -/
def nestingLimit : Nat := 127

namespace Json

mutual

def Document.value? (depth : Nat) : Document → Option Value
  | .null => some .null
  | .truth value => some (.bool value)
  | .number numeral => numeral.value?
  | .text content => content.map .text
  | .list items =>
      match depth with
      | 0 => none
      | inner + 1 => (Document.values? inner items).map .list
  | .object fields =>
      match depth with
      | 0 => none
      | inner + 1 =>
          (Document.fields? inner fields).map fun found => .object (Dictionary.ofList found)

def Document.values? (depth : Nat) : List Document → Option (List Value)
  | [] => some []
  | first :: rest => do
      let value ← Document.value? depth first
      let values ← Document.values? depth rest
      return value :: values

def Document.fields? (depth : Nat) :
    List (Option String × Document) → Option (List (String × Value))
  | [] => some []
  | (key, first) :: rest => do
      let name ← key
      let value ← Document.value? depth first
      let fields ← Document.fields? depth rest
      return (name, value) :: fields

end

end Json

/-- The value of a text that is exactly one value between blanks. -/
def Value.ofText? (text : String) : Option Value := do
  let document ← Json.Document.ofText? text
  document.value? nestingLimit

end Chart
