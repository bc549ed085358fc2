import Chart.Script.Condition

set_option autoImplicit false

/-!
Decisions of choice states written as data: a fixed name, the name found in the shared bag, or a
choice between two decisions. Anything else decides for nothing.
-/

namespace Chart.Script

inductive Choice
  | undecided
  | name (target : String)
  | stored (key : String)
  | branch (condition : Condition) (holds otherwise : Choice)

namespace Choice

def ofValue : Nat → Value → Choice
  | _, .text target => .name target
  | 0, _ => .undecided
  | depth + 1, value =>
      match textField? value "key", value.field? "if" with
      | some key, _ => .stored key
      | none, some condition =>
          .branch (.ofValue depth condition)
            (((value.field? "then").map (ofValue depth)).getD .undecided)
            (((value.field? "else").map (ofValue depth)).getD .undecided)
      | none, none => .undecided

/-- Conditions see no memo. -/
def target? (view : View) : Choice → Option String
  | .undecided => none
  | .name target => some target
  | .stored key => (view.get? key).bind Value.asText?
  | .branch condition holds otherwise =>
      if condition.eval view .null then target? view holds else target? view otherwise

/-- A decision that notes each of its answers. -/
def decision (choice : Choice) : Decision := fun view =>
  let answer := choice.target? view
  ⟨answer, ["decide " ++ view.stateName ++ " -> " ++ answer.getD "none"]⟩

end Choice
end Chart.Script
