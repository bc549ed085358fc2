import Chart.Time.Timestamp

set_option autoImplicit false

/-!
Timestamps as texts. Written form: date, `T`, time of day with 0, 3, 6 or 9 fraction digits, as
few as are exact, and `Z`. The reader also takes blanks between the parts, fewer digits, years
with a sign, a blank or a small letter for `T`, further fraction digits, which it drops, and the
offset of a local time; a second numbered 60 is a leap second. Blanks are the characters of the
Unicode property White_Space.
-/

namespace Chart.Text

/-- The ranges of the property, each with its first and last code point. -/
def blankRanges : List (Nat × Nat) :=
  [(0x09, 0x0D), (0x20, 0x20), (0x85, 0x85), (0xA0, 0xA0), (0x1680, 0x1680), (0x2000, 0x200A),
    (0x2028, 0x2029), (0x202F, 0x202F), (0x205F, 0x205F), (0x3000, 0x3000)]

def isBlank (character : Char) : Bool :=
  blankRanges.any fun range => range.1 ≤ character.toNat && character.toNat ≤ range.2

def dropBlanks (characters : List Char) : List Char :=
  characters.dropWhile isBlank

end Chart.Text

namespace Chart.Timestamp

open Chart.Text (isBlank dropBlanks)

/-! ### Writing -/

def padded (width number : Nat) : String :=
  let digits := toString number
  String.ofList (List.replicate (width - digits.length) '0') ++ digits

/-- Years of four digits are written bare, all others with their sign. -/
def yearText (year : Int) : String :=
  if 0 ≤ year ∧ year ≤ 9999 then padded 4 year.toNat
  else (if year < 0 then "-" else "+") ++ padded 4 year.natAbs

def fractionText (nano : Nat) : String :=
  if nano = 0 then ""
  else if nano % 1000000 = 0 then "." ++ padded 3 (nano / 1000000)
  else if nano % 1000 = 0 then "." ++ padded 6 (nano / 1000)
  else "." ++ padded 9 nano

def text (moment : Timestamp) : String :=
  let second := moment.second % 60 + moment.nano / nanosPerSecond
  yearText moment.date.year ++ "-" ++ padded 2 moment.date.month ++ "-" ++
    padded 2 moment.date.day ++ "T" ++ padded 2 (moment.second / 3600) ++ ":" ++
    padded 2 (moment.second / 60 % 60) ++ ":" ++ padded 2 second ++
    fractionText (moment.nano % nanosPerSecond) ++ "Z"

/-! ### Reading -/

def digitsValue (digits : List Char) : Nat :=
  digits.foldl (fun sum digit => sum * 10 + (digit.toNat - '0'.toNat)) 0

/-- At least one digit and at most `width`; a missing width is no limit. -/
def readNumber (width : Option Nat) (characters : List Char) : Option (Nat × List Char) :=
  let all := characters.takeWhile Char.isDigit
  let digits := match width with
    | some limit => all.take limit
    | none => all
  if digits.isEmpty then none else some (digitsValue digits, characters.drop digits.length)

def readYear (characters : List Char) : Option (Int × List Char) :=
  match dropBlanks characters with
  | '-' :: rest => (readNumber none rest).map fun (year, after) => (-(year : Int), after)
  | '+' :: rest => (readNumber none rest).map fun (year, after) => ((year : Int), after)
  | rest => (readNumber (some 4) rest).map fun (year, after) => ((year : Int), after)

def readPair (characters : List Char) : Option (Nat × List Char) :=
  readNumber (some 2) (dropBlanks characters)

def readMark (mark : Char) (characters : List Char) : Option (List Char) :=
  match dropBlanks characters with
  | first :: rest => if first = mark then some rest else none
  | [] => none

def readDate (characters : List Char) : Option (Date × List Char) := do
  let (year, rest) ← readYear characters
  let (month, rest) ← readPair (← readMark '-' rest)
  let (day, rest) ← readPair (← readMark '-' rest)
  return (⟨year, month, day⟩, rest)

def readSeparator : List Char → Option (List Char)
  | first :: rest => if first = 'T' ∨ first = 't' ∨ first = ' ' then some rest else none
  | [] => none

/-- The first nine fraction digits count, further ones are dropped. -/
def readFraction : List Char → Option (Nat × List Char)
  | '.' :: rest =>
      let digits := (rest.takeWhile Char.isDigit).take 9
      if digits.isEmpty then none
      else some (digitsValue digits * Nat.pow 10 (9 - digits.length), rest.dropWhile Char.isDigit)
  | rest => some (0, rest)

/-- The second of the day and the nanosecond part. -/
def readTimeOfDay (characters : List Char) : Option ((Nat × Nat) × List Char) := do
  let (hour, rest) ← readPair characters
  let (minute, rest) ← readPair (← readMark ':' rest)
  let (second, rest) ← readPair (← readMark ':' rest)
  let (nano, rest) ← readFraction rest
  if 23 < hour ∨ 59 < minute ∨ 60 < second then none
  else if second = 60 then
    return ((hour * 3600 + minute * 60 + 59, nanosPerSecond + nano), rest)
  else return ((hour * 3600 + minute * 60 + second, nano), rest)

def digitPair? : List Char → Option (Nat × List Char)
  | tens :: ones :: rest =>
      if tens.isDigit && ones.isDigit then some (digitsValue [tens, ones], rest) else none
  | _ => none

/-- Two digits of hours, any colons and blanks, two digits of minutes. -/
def readOffsetSize (characters : List Char) : Option (Nat × List Char) := do
  let (hours, rest) ← digitPair? characters
  let (minutes, rest) ← digitPair? (rest.dropWhile fun mark => mark == ':' || isBlank mark)
  if 59 < minutes then none else return (hours * 3600 + minutes * 60, rest)

/-- How many seconds local time is ahead; the name of universal time and `Z` stand for none. -/
def readOffset : List Char → Option (Int × List Char)
  | 'Z' :: rest | 'z' :: rest => some (0, rest)
  | '+' :: rest => (readOffsetSize rest).map fun (size, after) => ((size : Int), after)
  | '-' :: rest | '\u2212' :: rest =>
      (readOffsetSize rest).map fun (size, after) => (-(size : Int), after)
  | first :: second :: third :: rest =>
      if [first.toUpper, second.toUpper, third.toUpper] = ['U', 'T', 'C'] then some (0, rest)
      else none
  | _ => none

def ofText? (characters : String) : Option Timestamp := do
  let (date, rest) ← readDate characters.toList
  let ((second, nano), rest) ← readTimeOfDay (← readSeparator rest)
  let (offset, rest) ← readOffset (dropBlanks rest)
  if !(dropBlanks rest).isEmpty || secondsPerDay ≤ offset.natAbs then none
  else ofLocal? date second nano offset

end Chart.Timestamp
