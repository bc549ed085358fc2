import Chart.Data.Value

set_option autoImplicit false

/-!
Sources of names for states and transitions that are created without one. A numbered source
counts up from zero behind a fixed stem. A random source writes 128 random bits as 32 lower
case hexadecimal digits in groups of 8, 4, 4, 4 and 12, with the thirteenth digit 4 and the
seventeenth one of 8, 9, a and b, which mark a randomly chosen identifier.
-/

namespace Chart

inductive NameSource
  | numbered (stem : String) (next : Nat)
  | random (generator : StdGen)

namespace NameSource

def ofStem (stem : String) : NameSource := .numbered stem 0

def hexDigits (width value : Nat) : String :=
  let digits := Nat.toDigits 16 value
  String.ofList (List.replicate (width - digits.length) '0' ++ digits)

/-- The two marks replace four bits and two bits of the 128. -/
def randomName (bits : Nat) : String :=
  String.intercalate "-"
    [hexDigits 8 (Word.field bits 0 32),
      hexDigits 4 (Word.field bits 32 16),
      hexDigits 4 (0x4000 + Word.field bits 48 12),
      hexDigits 4 (0x8000 + Word.field bits 60 14),
      hexDigits 12 (Word.field bits 74 48)]

/-- The next name, and the source of the names after it. -/
def generate : NameSource → String × NameSource
  | .numbered stem next => (stem ++ "-" ++ toString next, .numbered stem (next + 1))
  | .random generator =>
      let drawn := randNat generator 0 (Nat.pow 2 128 - 1)
      (randomName drawn.1, .random drawn.2)

def isHexDigit (character : Char) : Bool :=
  character.isDigit || ('a' ≤ character && character ≤ 'f')

/-- Whether a text has the shape of the names of a random source. -/
def isRandomName (name : String) : Bool :=
  let groups := name.splitOn "-"
  groups.map String.length == [8, 4, 4, 4, 12] &&
    groups.all (fun group => group.toList.all isHexDigit) &&
    (groups[2]?.bind (fun group => group.toList.head?)) == some '4' &&
    ((groups[3]?.bind (fun group => group.toList.head?)).any fun mark =>
      ['8', '9', 'a', 'b'].contains mark)

end NameSource
end Chart
