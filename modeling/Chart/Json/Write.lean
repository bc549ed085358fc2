import Chart.Data.Value
import Chart.Decimal.Layout

set_option autoImplicit false

/-!
The compact text of a data value: no blanks, the fields of an object in ascending order of their
names, and in texts only the quote, the backslash and the control characters escaped.
-/

namespace Chart.Json

def hexDigit (value : Nat) : Char :=
  (Nat.toDigits 16 (value % 16)).headD '0'

def encodeCharacter (character : Char) : List Char :=
  match character with
  | '"' => ['\\', '"']
  | '\\' => ['\\', '\\']
  | '\x08' => ['\\', 'b']
  | '\x0c' => ['\\', 'f']
  | '\n' => ['\\', 'n']
  | '\r' => ['\\', 'r']
  | '\t' => ['\\', 't']
  | other =>
      if other.toNat < 32 then
        ['\\', 'u', '0', '0', hexDigit (other.toNat / 16), hexDigit other.toNat]
      else [other]

def quoted (characters : String) : String :=
  "\"" ++ String.ofList (characters.toList.flatMap encodeCharacter) ++ "\""

end Chart.Json

namespace Chart

namespace Value

mutual

/-- The parts that a value is written in, one after the other. -/
def parts : Value → List String
  | .null => ["null"]
  | .bool true => ["true"]
  | .bool false => ["false"]
  | .int number => [toString number]
  | .float number => [Decimal.text number]
  | .text characters => [Json.quoted characters]
  | .list items => "[" :: (itemParts items ++ ["]"])
  | .object fields => "\x7b" :: (fieldParts fields ++ ["\x7d"])

def itemParts : List Value → List String
  | [] => []
  | [last] => parts last
  | first :: rest => parts first ++ "," :: itemParts rest

def fieldParts : List (String × Value) → List String
  | [] => []
  | [(name, last)] => Json.quoted name :: ":" :: parts last
  | (name, first) :: rest =>
      Json.quoted name :: ":" :: (parts first ++ "," :: fieldParts rest)

end

def write (value : Value) : String :=
  String.join value.parts

end Value
end Chart
