set_option autoImplicit false

/-!
Kinds of states. A state has exactly one kind, so that a state which is both final and a choice
cannot be written down. Status is the activation status shared by states and regions.
-/

namespace Chart

/-- How much a history state restores: the last active child, or the whole chain below it. -/
inductive HistoryDepth
  | shallow
  | deep
deriving DecidableEq, Repr

inductive StateKind
  | normal
  | initial
  | final
  | history (depth : HistoryDepth)
  | choice
  | root
deriving DecidableEq, Repr

namespace StateKind

/-- Pseudostates pass control on to another state at once. -/
def isPseudo : StateKind → Bool
  | .initial | .history _ | .choice => true
  | .normal | .final | .root => false

def isFinal : StateKind → Bool
  | .final => true
  | _ => false

def isInitial : StateKind → Bool
  | .initial => true
  | _ => false

/-- Only normal states have entry, exit and periodic behaviour of their own. -/
def runsUserCode : StateKind → Bool
  | .normal => true
  | _ => false

/-- Only normal states and the root may own regions. -/
def mayOwnRegions : StateKind → Bool
  | .normal | .root => true
  | _ => false

end StateKind

inductive Status
  | active
  | inactive
deriving DecidableEq, Repr

def Status.isActive : Status → Bool
  | .active => true
  | .inactive => false

instance : Inhabited Status := ⟨.inactive⟩

/-! The words of the kinds, as they are written in data files and messages. -/

def HistoryDepth.word : HistoryDepth → String
  | .shallow => "Shallow"
  | .deep => "Deep"

def Status.word : Status → String
  | .active => "Active"
  | .inactive => "Inactive"

/-- The word of a kind; a history state names its depth in brackets. -/
def StateKind.word : StateKind → String
  | .normal => "Normal"
  | .initial => "Initial"
  | .final => "Final"
  | .history depth => "History(" ++ depth.word ++ ")"
  | .choice => "Choice"
  | .root => "Root"

end Chart
