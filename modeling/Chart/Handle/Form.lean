import Chart.Data.Value
import Chart.Handle

set_option autoImplicit false

/-!
Handles as data values: positions that fit a word of 64 bits, and three lists of them, one for
each kind of handle.
-/

namespace Chart

structure HandleLists where
  states : List StateId
  regions : List RegionId
  transitions : List TransitionId

namespace HandleLists

def positions? (value : Value) : Option (List Nat) := do
  (← value.asList?).mapM Value.asNat?

def ofValue? (value : Value) : Option HandleLists :=
  match value with
  | .list [states, regions, transitions] => do
      return ⟨(← positions? states).map StateId.mk, (← positions? regions).map RegionId.mk,
        (← positions? transitions).map TransitionId.mk⟩
  | _ => none

/-- Each list in ascending order of its positions. -/
def sorted (lists : HandleLists) : HandleLists :=
  { states := lists.states.mergeSort fun left right => left.index ≤ right.index
    regions := lists.regions.mergeSort fun left right => left.index ≤ right.index
    transitions := lists.transitions.mergeSort fun left right => left.index ≤ right.index }

end HandleLists
end Chart
