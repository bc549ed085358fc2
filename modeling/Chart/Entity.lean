import Chart.Data.Value

set_option autoImplicit false

/-!
A name together with a bag of data values. Every state of a machine carries one; the root's bag
is shared by all callbacks of the machine.
-/

namespace Chart

structure Entity where
  name : String
  data : Dictionary Value

namespace Entity

def named (name : String) : Entity := ⟨name, []⟩

instance : Inhabited Entity := ⟨named ""⟩

def get? (entity : Entity) (key : String) : Option Value :=
  Dictionary.find? entity.data key

/-- Stores a value and answers the one it replaced. -/
def set (entity : Entity) (key : String) (value : Value) : Option Value × Entity :=
  (entity.get? key, { entity with data := Dictionary.insert entity.data key value })

/-- Same name and equal bags. -/
def equal (left right : Entity) : Bool :=
  left.name == right.name && Value.equalFields left.data right.data

theorem get?_set (entity : Entity) (key other : String) (value : Value) :
    (entity.set key value).2.get? other =
      if key = other then some value else entity.get? other :=
  Dictionary.find?_insert entity.data key other value

end Entity
end Chart
