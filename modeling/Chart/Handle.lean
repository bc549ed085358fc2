set_option autoImplicit false

/-!
Handles of the states, regions and transitions of a machine. A handle is a position in one of
the machine's three stores, counted from zero in the order of creation; the three kinds of
handle are different types, so that one is never taken for another.
-/

namespace Chart

structure StateId where
  index : Nat
deriving DecidableEq, Repr, Inhabited

structure RegionId where
  index : Nat
deriving DecidableEq, Repr, Inhabited

structure TransitionId where
  index : Nat
deriving DecidableEq, Repr, Inhabited

def StateId.label (state : StateId) : String :=
  "state#" ++ toString state.index

def RegionId.label (region : RegionId) : String :=
  "region#" ++ toString region.index

def TransitionId.label (transition : TransitionId) : String :=
  "transition#" ++ toString transition.index

end Chart
