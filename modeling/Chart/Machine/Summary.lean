import Chart.Machine.Basic
import Chart.Text.Graphic

set_option autoImplicit false

/-!
A one-line summary of a machine for its developers. The name stands in quotes: quotes, backslashes
and the common control characters have an escape of one letter, everything else without a visible
form of its own is written as its code point in braces.
-/

namespace Chart.Text

def codePointEscape (character : Char) : List Char :=
  ['\\', 'u', '\x7b'] ++ Nat.toDigits 16 character.toNat ++ ['\x7d']

def quoteCharacter (character : Char) : List Char :=
  match character with
  | '\x00' => ['\\', '0']
  | '\t' => ['\\', 't']
  | '\n' => ['\\', 'n']
  | '\r' => ['\\', 'r']
  | '"' => ['\\', '"']
  | '\\' => ['\\', '\\']
  | other => if isGraphic other then [other] else codePointEscape other

def quoted (characters : String) : String :=
  "\"" ++ String.ofList (characters.toList.flatMap quoteCharacter) ++ "\""

end Chart.Text

namespace Chart.Machine

def summary (machine : Machine) : String :=
  "Machine \x7b name: " ++ Text.quoted machine.name ++ ", active: " ++
    toString machine.isActive ++
    ", states: " ++ toString machine.states.size ++
    ", regions: " ++ toString machine.regions.size ++
    ", transitions: " ++ toString machine.transitions.size ++ " \x7d"

end Chart.Machine
