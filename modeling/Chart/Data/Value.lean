import Chart.Data.Dictionary

set_option autoImplicit false

/-!
Data values: what a data bag holds and what a trigger hands to its transition. Whole numbers
and floats are different values even when they are numerically equal, and the two zeros of
the floats are one value. An object is a dictionary, so that two objects are equal exactly
when they hold the same entries, in whatever order they were written. Whole numbers are bounded by
the words of 64 bits. Tagged data are values as well: a bare tag is a text, or an object whose only
field has the tag as its name and holds null; a tag with a content is an object with that content in
its only field.
-/

namespace Chart.Word

/-- One more than the greatest unsigned word of 64 bits. -/
def limit : Nat := 18446744073709551616

def greatest : Nat := 18446744073709551615

def greatestSigned : Int := 9223372036854775807

def leastSigned : Int := -9223372036854775808

/-- The number made of `width` bits, the lowest of them at the position `offset`. -/
def field (number offset width : Nat) : Nat :=
  number / Nat.pow 2 offset % Nat.pow 2 width

end Chart.Word

namespace Chart

inductive Value
  | null
  | bool (truth : Bool)
  | int (number : Int)
  | float (number : Float)
  | text (characters : String)
  | list (items : List Value)
  | object (fields : List (String × Value))

namespace Value

instance : Inhabited Value := ⟨.null⟩

mutual

/-- Equality of data values; floats are compared as numbers. -/
def equal : Value → Value → Bool
  | .null, .null => true
  | .bool left, .bool right => left == right
  | .int left, .int right => left == right
  | .float left, .float right => left == right
  | .text left, .text right => left == right
  | .list left, .list right => equalItems left right
  | .object left, .object right => equalFields left right
  | _, _ => false

def equalItems : List Value → List Value → Bool
  | [], [] => true
  | left :: lefts, right :: rights => equal left right && equalItems lefts rights
  | _, _ => false

def equalFields : List (String × Value) → List (String × Value) → Bool
  | [], [] => true
  | (name, left) :: lefts, (key, right) :: rights =>
      name == key && equal left right && equalFields lefts rights
  | _, _ => false

end

instance : BEq Value := ⟨equal⟩

/-- A whole number that fits a signed word of 64 bits. -/
def asInt? : Value → Option Int
  | .int number =>
      if Word.leastSigned ≤ number ∧ number ≤ Word.greatestSigned then some number else none
  | _ => none

/-- A whole number that is not negative and fits a word of 64 bits. -/
def asNat? : Value → Option Nat
  | .int (.ofNat number) => if number < Word.limit then some number else none
  | _ => none

def asBool? : Value → Option Bool
  | .bool truth => some truth
  | _ => none

def asText? : Value → Option String
  | .text characters => some characters
  | _ => none

def asList? : Value → Option (List Value)
  | .list items => some items
  | _ => none

def asObject? : Value → Option (Dictionary Value)
  | .object fields => some fields
  | _ => none

/-- The entry of an object; any other value has none. -/
def field? (value : Value) (key : String) : Option Value :=
  match value with
  | .object fields => Dictionary.find? fields key
  | _ => none

/-- Addition that stops at the ends of the signed words of 64 bits. -/
def saturatingAdd (left right : Int) : Int :=
  max Word.leastSigned (min Word.greatestSigned (left + right))

/-- A tag, and its content unless it is written as a text. -/
def tag? : Value → Option (String × Option Value)
  | .text word => some (word, none)
  | .object [(word, content)] => some (word, some content)
  | _ => none

/-- The tag of a value that has no content. -/
def bareTag? (value : Value) : Option String :=
  match value.tag? with
  | some (word, none) => some word
  | some (word, some .null) => some word
  | _ => none

end Value
end Chart
