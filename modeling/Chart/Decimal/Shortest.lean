set_option autoImplicit false

/-!
The shortest decimal that reads back as a given binary fraction. A positive value `m * 2^q`
stands for all reals that are nearer to it than to its neighbours. For ever finer powers of ten
the two multiples that enclose the value are tried; the first grid with a multiple inside that
range is taken, and of two hits the nearer one, of equally near ones the even one.
All comparisons are of natural numbers.
-/

namespace Chart

/-- The number `digits * 10 ^ exponent`. -/
structure Decimal where
  digits : Nat
  exponent : Int
deriving DecidableEq, Repr

namespace Decimal

/-- A positive binary fraction `mantissa * 2 ^ exponent`. The neighbour below is only half as far
away as the one above when the mantissa is the least of its binade. -/
structure BinaryFraction where
  mantissa : Nat
  exponent : Int
  closeBelow : Bool
deriving DecidableEq, Repr

/-- An upper bound of the power of ten of the leading digit, at most one too great. -/
def leadingBound (value : BinaryFraction) : Int :=
  match value.exponent with
  | .ofNat power => (toString (value.mantissa * Nat.pow 2 power)).length
  | .negSucc power =>
      let denominator := Nat.pow 2 (power + 1)
      if denominator ≤ value.mantissa then (toString (value.mantissa / denominator)).length
      else 2 - ((toString (denominator / value.mantissa)).length : Int)

/-- The range of a value and the step of a grid, all as multiples of one small unit. -/
structure Scaled where
  lower : Nat
  centre : Nat
  upper : Nat
  step : Nat
  endsIncluded : Bool

/-- A quarter of the distance to the neighbour above divides the value, and with it both ends of
its range. -/
def scale (value : BinaryFraction) (gridExponent : Int) : Scaled :=
  let quarter := value.exponent - 2
  let factor := Nat.pow 2 quarter.toNat * Nat.pow 10 (-gridExponent).toNat
  { lower := (4 * value.mantissa - (if value.closeBelow then 1 else 2)) * factor
    centre := 4 * value.mantissa * factor
    upper := (4 * value.mantissa + 2) * factor
    step := Nat.pow 10 gridExponent.toNat * Nat.pow 2 (-quarter).toNat
    endsIncluded := value.mantissa % 2 == 0 }

def Scaled.holds (scaled : Scaled) (multiple : Nat) : Bool :=
  let point := multiple * scaled.step
  if scaled.endsIncluded then scaled.lower ≤ point && point ≤ scaled.upper
  else scaled.lower < point && point < scaled.upper

/-- The multiple of the step inside the range that is nearest to the value, if there is one. -/
def Scaled.hit? (scaled : Scaled) : Option Nat :=
  let below := scaled.centre / scaled.step
  let above := below + 1
  let belowGap := scaled.centre - below * scaled.step
  let aboveGap := above * scaled.step - scaled.centre
  match scaled.holds below, scaled.holds above with
  | false, false => none
  | true, false => some below
  | false, true => some above
  | true, true =>
      if belowGap < aboveGap then some below
      else if aboveGap < belowGap then some above
      else if below % 2 == 0 then some below else some above

/-- Tries one grid after the other, each ten times finer than the one before. -/
def search (value : BinaryFraction) : Nat → Int → Decimal
  | 0, gridExponent => ⟨0, gridExponent⟩
  | tries + 1, gridExponent =>
      match (scale value gridExponent).hit? with
      | some digits => ⟨digits, gridExponent⟩
      | none => search value tries (gridExponent - 1)

/-- Seventeen digits always suffice for a double, and the bound is at most two grids too coarse. -/
def shortest (value : BinaryFraction) : Decimal :=
  search value 20 (leadingBound value + 1)

end Decimal
end Chart
