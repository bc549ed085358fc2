import Chart.Json.Write
import Chart.Script.Condition

set_option autoImplicit false

/-!
Behaviours written as data: lists of instructions, run in order until one of them fails. Most
leave a note of what they did or found. An effect hands its memo to its instructions, any other
behaviour has null for a memo.
-/

namespace Chart.Script

/-- A firing of a transition by a script; a caught error is noted and the script goes on. -/
structure TriggerRequest where
  reference : TransitionReference
  memo : Value
  passesMemo : Bool
  catches : Bool

inductive Instruction
  | skip
  | trace (text : String)
  | machine
  | identify
  | set (key : String) (value : Value)
  | increase (key : String) (amount : Int)
  | storeMemo (key : String)
  | get (key : String)
  | data (key : String)
  | active (name : String)
  | fail (message : String)
  | branch (condition : Condition) (holds otherwise : List Instruction)
  | fire (request : TriggerRequest)

def TriggerRequest.ofValue (value : Value) : TriggerRequest :=
  { reference :=
      match (value.field? "id").bind Value.asNat? with
      | some index => .handle ⟨index⟩
      | none => .name ((textField? value "name").getD "")
    memo := (value.field? "memo").getD .null
    passesMemo := ((value.field? "pass_memo").bind Value.asBool?).getD false
    catches := ((value.field? "catch").bind Value.asBool?).getD false }

def conditionOf (depth : Nat) (value : Value) (name : String) : Condition :=
  .ofValue depth ((value.field? name).getD .null)

namespace Instruction

def ofValue : Nat → Value → Instruction
  | 0, _ => .skip
  | depth + 1, value =>
      let text := fun name => (textField? value name).getD ""
      let key := text "key"
      let block := fun name => ((listField? value name).getD []).map (ofValue depth)
      match textField? value "do" with
      | some "trace" => .trace (text "text")
      | some "machine" => .machine
      | some "id" => .identify
      | some "set" => .set key ((value.field? "value").getD .null)
      | some "inc" => .increase key ((intField? value "by").getD 1)
      | some "memo" => .storeMemo key
      | some "get" => .get key
      | some "data" => .data key
      | some "active" => .active (text "name")
      | some "fail" => .fail (text "message")
      | some "if" => .branch (conditionOf depth value "cond") (block "then") (block "else")
      | some "trigger" => .fire (.ofValue value)
      | _ => .skip

def shown (value : Option Value) : String :=
  (value.map Value.write).getD "none"

/-- Leaves a note about what is seen. -/
def noteOf (text : View → String) (next : Behavior) : Behavior :=
  .look fun view => .note (text view) next

def referenceText : TransitionReference → String
  | .handle transition => transition.label
  | .name name => name

def fireBehavior (memo : Value) (request : TriggerRequest) (next : Behavior) : Behavior :=
  .fire request.reference (if request.passesMemo then memo else request.memo) fun answer =>
    match answer with
    | .ok outcome =>
        .note ("triggered " ++ referenceText request.reference ++ " " ++ outcome.word) next
    | .error error =>
        if request.catches then .note ("caught " ++ error.word ++ ": " ++ error.message) next
        else .fail error

mutual

/-- The behaviour of an instruction, and after it the rest. -/
def behavior (memo : Value) : Instruction → Behavior → Behavior
  | .skip, next => next
  | .trace text, next => noteOf (fun view => "trace " ++ view.stateName ++ " " ++ text) next
  | .machine, next => noteOf (fun view => "machine " ++ view.machineName) next
  | .identify, next => noteOf (fun view => "id " ++ view.state.label) next
  | .set key value, next =>
      .write key value fun old => .note ("set " ++ key ++ " was " ++ shown old) next
  | .increase key amount, next =>
      .look fun view =>
        let count := ((view.get? key).bind Value.asInt?).getD 0
        .write key (.int (Value.saturatingAdd count amount)) fun _ => next
  | .storeMemo key, next => .write key memo fun _ => next
  | .get key, next => noteOf (fun view => "get " ++ key ++ " " ++ shown (view.get? key)) next
  | .data key, next =>
      noteOf (fun view => "data " ++ key ++ " " ++ shown (view.stateData? key)) next
  | .active name, next =>
      noteOf (fun view => "active " ++ name ++ " " ++ toString (view.isActive name)) next
  | .fail message, _ => .fail (.action message)
  | .branch condition holds otherwise, next =>
      .look fun view =>
        if condition.eval view memo then behaviorOfList memo holds next
        else behaviorOfList memo otherwise next
  | .fire request, next => fireBehavior memo request next

def behaviorOfList (memo : Value) : List Instruction → Behavior → Behavior
  | [], next => next
  | first :: rest, next => behavior memo first (behaviorOfList memo rest next)

end

end Instruction

/-- The instructions of a script. -/
def instructions (items : List Value) : List Instruction :=
  items.map (Instruction.ofValue (nestingLimit + 1))

def action (items : List Value) : Behavior :=
  Instruction.behaviorOfList .null (instructions items) .done

def effect (items : List Value) : Effect := fun memo =>
  Instruction.behaviorOfList memo (instructions items) .done

def guard (value : Value) : Guard :=
  (Condition.ofValue (nestingLimit + 1) value).guard

end Chart.Script
