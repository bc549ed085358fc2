import Chart.Data.Value
import Chart.Decimal.Shortest

set_option autoImplicit false

/-!
The text of a double. The digits are the shortest that read back; the layout says which of them
are written positionally, with a fraction of at least one digit, and which with an exponent.
-/

namespace Chart.Decimal

structure Layout where
  leastPositional : Int
  greatestPositional : Int
  exponentMark : String
  positiveSign : String

/-- Leading powers of ten from -5 to 15 are written positionally, all others with an `e` and a
signed exponent. -/
def Layout.data : Layout := ⟨-5, 15, "e", "+"⟩

def zeros (count : Nat) : String :=
  String.ofList (List.replicate count '0')

/-- The digits with a point after the first `whole` of them. -/
def withPoint (digits : List Char) (whole : Nat) : String :=
  String.ofList (digits.take whole) ++ "." ++ String.ofList (digits.drop whole)

def Layout.write (layout : Layout) (decimal : Decimal) : String :=
  let digits := (toString decimal.digits).toList
  let leading := decimal.exponent + digits.length - 1
  if layout.leastPositional ≤ leading ∧ leading ≤ layout.greatestPositional then
    if 0 ≤ decimal.exponent then
      String.ofList digits ++ zeros decimal.exponent.toNat ++ ".0"
    else if 0 ≤ leading then withPoint digits (leading.toNat + 1)
    else "0." ++ zeros (-leading - 1).toNat ++ String.ofList digits
  else
    (if digits.length == 1 then String.ofList digits else withPoint digits 1) ++
      layout.exponentMark ++ (if 0 ≤ leading then layout.positiveSign else "") ++ toString leading

/-- The mantissa of a double whose fraction bits are all zero. -/
def leastNormal : Nat := 0x10000000000000

/-- The sign, and the value without it, of the bits of a finite double; zero has no fraction. -/
def ofBits (bits : UInt64) : Bool × Option BinaryFraction :=
  let fraction := Word.field bits.toNat 0 52
  let exponent := Word.field bits.toNat 52 11
  let value : Option BinaryFraction :=
    if exponent = 0 then
      if fraction = 0 then none else some ⟨fraction, -1074, false⟩
    else
      some
        { mantissa := leastNormal + fraction
          exponent := (exponent : Int) - 1075
          closeBelow := fraction == 0 && exponent != 1 }
  (Word.field bits.toNat 63 1 == 1, value)

/-- The text of a finite double; a negative sign is kept also on zero. -/
def text (number : Float) : String :=
  let (negative, value) := ofBits number.toBits
  let digits :=
    match value with
    | none => "0.0"
    | some fraction => Layout.data.write (shortest fraction)
  if negative then "-" ++ digits else digits

end Chart.Decimal
