import Chart.Data.Value
import Chart.Json.Token

set_option autoImplicit false

/-!
The number that a numeral stands for. Without fraction and exponent it is a whole number while
it fits a signed or an unsigned word of 64 bits; a negative zero and everything else is a float.
A float is the leading digits, as many as fit a word of 64 bits, scaled by one power of ten; a
numeral beyond the greatest double stands for no number.
-/

namespace Chart.Json

def digitValue (digit : Char) : Nat := digit.toNat - '0'.toNat

/-- Takes digits into the significand until one does not fit; answers the significand, the number
of digits taken and the number of digits left over. -/
def takeDigits (significand : Nat) : List Char → Nat × Nat × Nat
  | [] => (significand, 0, 0)
  | digit :: rest =>
      let longer := significand * 10 + digitValue digit
      if longer < Word.limit then
        let (final, taken, left) := takeDigits longer rest
        (final, taken + 1, left)
      else (significand, 0, rest.length + 1)

def powerOfTen (exponent : Nat) : Float := Float.ofScientific 1 false exponent

/-- The greatest power of ten that is a double. -/
def greatestPower : Nat := 308

/-- Scales by powers of ten, in steps of the greatest one when the scale is smaller than its
inverse; there is no answer beyond the greatest double. -/
def scaleFloat (number : Float) (exponent : Int) : Option Float :=
  if 0 ≤ exponent then
    if exponent ≤ greatestPower then
      let scaled := number * powerOfTen exponent.toNat
      if scaled.isInf then none else some scaled
    else if number == 0.0 then some number else none
  else if -exponent ≤ greatestPower then some (number / powerOfTen (-exponent).toNat)
  else if number == 0.0 then some number
  else scaleFloat (number / powerOfTen greatestPower) (exponent + greatestPower)
termination_by (-exponent).toNat
decreasing_by unfold greatestPower at *; omega

namespace Numeral

/-- The exponent of the numeral; a missing one is zero. -/
def exponentValue (numeral : Numeral) : Int :=
  match numeral.exponent with
  | none => 0
  | some (negative, digits) =>
      let size := digits.foldl (fun sum digit => sum * 10 + digitValue digit) 0
      if negative then -(size : Int) else size

def float? (numeral : Numeral) : Option Float := do
  let (wholePart, _, dropped) := takeDigits 0 numeral.whole
  let (significand, taken, _) := takeDigits wholePart numeral.fraction
  let scaled ← scaleFloat (UInt64.ofNat significand).toFloat
    ((dropped : Int) - taken + numeral.exponentValue)
  return if numeral.negative then -scaled else scaled

/-- Without fraction and exponent, and within the words of 64 bits. -/
def int? (numeral : Numeral) : Option Int :=
  if numeral.hasFraction || numeral.exponent.isSome then none
  else
    match takeDigits 0 numeral.whole with
    | (size, _, 0) =>
        if !numeral.negative then some size
        else if size = 0 ∨ -(size : Int) < Word.leastSigned then none
        else some (-(size : Int))
    | _ => none

def value? (numeral : Numeral) : Option Value :=
  match numeral.int? with
  | some number => some (.int number)
  | none => numeral.float?.map .float

end Numeral
end Chart.Json
