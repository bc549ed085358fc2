import Chart.Callback
import Chart.Json.Read

set_option autoImplicit false

/-!
Conditions written as data. A truth value stands for itself; an object asks about the shared bag,
the bag of the state, the memo or the active states, or combines other conditions. Anything else
never holds. The forms of an object are tried in a fixed order and the first that fits counts.
-/

namespace Chart.Script

inductive Condition
  | constant (truth : Bool)
  | countBelow (key : String) (limit : Int)
  | holds (key : String) (value : Value)
  | present (key : String)
  | stateHolds (key : String) (value : Option Value)
  | memoIs (value : Value)
  | memoAtLeast (limit : Int)
  | active (name : String)
  | inState (name : String)
  | negation (condition : Condition)
  | all (conditions : List Condition)
  | any (conditions : List Condition)

def textField? (value : Value) (name : String) : Option String :=
  (value.field? name).bind Value.asText?

def intField? (value : Value) (name : String) : Option Int :=
  (value.field? name).bind Value.asInt?

def listField? (value : Value) (name : String) : Option (List Value) :=
  (value.field? name).bind Value.asList?

def sameOption (left right : Option Value) : Bool :=
  match left, right with
  | none, none => true
  | some one, some other => one == other
  | _, _ => false

namespace Condition

/-- Conditions about the shared bag and the bag of the state. -/
def ofBag? (value : Value) : Option Condition :=
  match textField? value "key", intField? value "lt", value.field? "eq" with
  | some key, some limit, _ => some (.countBelow key limit)
  | some key, none, some wanted => some (.holds key wanted)
  | some key, none, none => some (.present key)
  | none, _, wanted => (textField? value "data").map fun key => .stateHolds key wanted

/-- Conditions about the memo and the active states. -/
def ofRun? (value : Value) : Option Condition :=
  match value.field? "memo_eq", intField? value "memo_ge", textField? value "active",
      textField? value "state" with
  | some wanted, _, _, _ => some (.memoIs wanted)
  | none, some limit, _, _ => some (.memoAtLeast limit)
  | none, none, some name, _ => some (.active name)
  | none, none, none, some name => some (.inState name)
  | none, none, none, none => none

/-- The depth bounds how far conditions are combined; a value that was read is never deeper. -/
def ofValue : Nat → Value → Condition
  | _, .bool truth => .constant truth
  | 0, _ => .constant false
  | depth + 1, value =>
      match ofBag? value, ofRun? value, value.field? "not", listField? value "all",
          listField? value "any" with
      | some condition, _, _, _, _ => condition
      | none, some condition, _, _, _ => condition
      | none, none, some inner, _, _ => .negation (ofValue depth inner)
      | none, none, none, some parts, _ => .all (parts.map (ofValue depth))
      | none, none, none, none, some parts => .any (parts.map (ofValue depth))
      | none, none, none, none, none => .constant false

mutual

def eval (view : View) (memo : Value) : Condition → Bool
  | .constant truth => truth
  | .countBelow key limit => ((view.get? key).bind Value.asInt?).getD 0 < limit
  | .holds key value => (view.get? key).any fun found => found == value
  | .present key => (view.get? key).isSome
  | .stateHolds key value => sameOption (view.stateData? key) value
  | .memoIs value => memo == value
  | .memoAtLeast limit => memo.asInt?.any fun found => limit ≤ found
  | .active name => view.isActive name
  | .inState name => view.stateName == name
  | .negation condition => !eval view memo condition
  | .all conditions => evalAll view memo conditions
  | .any conditions => evalAny view memo conditions

def evalAll (view : View) (memo : Value) : List Condition → Bool
  | [] => true
  | first :: rest => eval view memo first && evalAll view memo rest

def evalAny (view : View) (memo : Value) : List Condition → Bool
  | [] => false
  | first :: rest => eval view memo first || evalAny view memo rest

end

/-- A guard that notes each of its answers. -/
def guard (condition : Condition) : Guard := fun view memo =>
  let answer := condition.eval view memo
  ⟨answer, ["guard " ++ view.stateName ++ " " ++ toString answer]⟩

end Condition
end Chart.Script
