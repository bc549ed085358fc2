set_option autoImplicit false

/-!
The tokens of a JSON text. Numbers and texts keep what was written: a numeral its digits, a text
the code units named by its escapes, which may be halves of a surrogate pair. Blanks are the
space, the tab, the line feed and the carriage return.
-/

namespace Chart.Json

/-- A number as written; the exponent has its sign and its digits. -/
structure Numeral where
  negative : Bool
  whole : List Char
  fraction : List Char
  exponent : Option (Bool × List Char)
  hasFraction : Bool
deriving DecidableEq, Repr

/-- One element of a quoted text: a character, or a 16-bit unit named by an escape. -/
inductive Piece
  | character (character : Char)
  | unit (code : Nat)
deriving DecidableEq, Repr

/-- The content of a quoted text; there is none when a unit is half of a surrogate pair whose
other half does not follow. -/
def joinPieces : List Piece → Option (List Char)
  | [] => some []
  | .character character :: rest => (joinPieces rest).map (character :: ·)
  | .unit high :: .unit low :: rest =>
      if 0xD800 ≤ high ∧ high < 0xDC00 then
        if 0xDC00 ≤ low ∧ low < 0xE000 then
          (joinPieces rest).map
            (Char.ofNat (0x10000 + (high - 0xD800) * 0x400 + (low - 0xDC00)) :: ·)
        else none
      else if 0xDC00 ≤ high ∧ high < 0xE000 then none
      else (joinPieces (.unit low :: rest)).map (Char.ofNat high :: ·)
  | .unit code :: rest =>
      if 0xD800 ≤ code ∧ code < 0xE000 then none
      else (joinPieces rest).map (Char.ofNat code :: ·)

inductive Token
  | openList
  | closeList
  | openObject
  | closeObject
  | comma
  | colon
  | null
  | truth (value : Bool)
  | number (numeral : Numeral)
  | text (content : Option String)
deriving DecidableEq, Repr

def isBlank (character : Char) : Bool :=
  [' ', '\t', '\n', '\r'].contains character

def hexValue? (character : Char) : Option Nat :=
  if '0' ≤ character ∧ character ≤ '9' then some (character.toNat - '0'.toNat)
  else if 'a' ≤ character ∧ character ≤ 'f' then some (character.toNat - 'a'.toNat + 10)
  else if 'A' ≤ character ∧ character ≤ 'F' then some (character.toNat - 'A'.toNat + 10)
  else none

/-- The character named by an escape of one letter. -/
def escaped? : Char → Option Char
  | '"' => some '"'
  | '\\' => some '\\'
  | '/' => some '/'
  | 'b' => some '\x08'
  | 'f' => some '\x0c'
  | 'n' => some '\n'
  | 'r' => some '\r'
  | 't' => some '\t'
  | _ => none

/-- Where the scan of a quoted text stands: between characters, behind a backslash, or inside an
escape that wants so many more digits. -/
inductive TextScan
  | plain
  | escape
  | digits (wanted : Nat) (code : Nat)

/-- Scans behind the opening quote up to the closing one; control characters are refused. -/
def scanText : TextScan → List Piece → List Char → Option (List Piece × List Char)
  | _, _, [] => none
  | .plain, pieces, character :: rest =>
      if character = '"' then some (pieces.reverse, rest)
      else if character = '\\' then scanText .escape pieces rest
      else if character.toNat < 32 then none
      else scanText .plain (.character character :: pieces) rest
  | .escape, pieces, character :: rest =>
      if character = 'u' then scanText (.digits 3 0) pieces rest
      else
        match escaped? character with
        | some plain => scanText .plain (.character plain :: pieces) rest
        | none => none
  | .digits wanted code, pieces, character :: rest =>
      match hexValue? character with
      | none => none
      | some digit =>
          match wanted with
          | 0 => scanText .plain (.unit (code * 16 + digit) :: pieces) rest
          | more + 1 => scanText (.digits more (code * 16 + digit)) pieces rest

private theorem scanText_length {scan : TextScan} {pieces found : List Piece}
    {characters after : List Char}
    (scanned : scanText scan pieces characters = some (found, after)) :
    after.length < characters.length := by
  induction characters generalizing scan pieces with
  | nil => cases scan <;> simp [scanText] at scanned
  | cons character rest ih =>
      have shorter : ∀ {scan pieces}, scanText scan pieces rest = some (found, after) →
          after.length < (character :: rest).length := fun inner =>
        Nat.lt_succ_of_lt (ih inner)
      cases scan with
      | plain =>
          simp only [scanText] at scanned
          split at scanned
          · cases scanned
            exact Nat.lt_succ_self _
          · split at scanned
            · exact shorter scanned
            · split at scanned
              · cases scanned
              · exact shorter scanned
      | escape =>
          simp only [scanText] at scanned
          split at scanned
          · exact shorter scanned
          · split at scanned
            · exact shorter scanned
            · cases scanned
      | digits wanted code =>
          simp only [scanText] at scanned
          split at scanned
          · cases scanned
          · split at scanned
            · exact shorter scanned
            · exact shorter scanned

/-- What follows a word that stands in front. -/
def dropWord : List Char → List Char → Option (List Char)
  | [], characters => some characters
  | _ :: _, [] => none
  | wanted :: word, character :: rest => if wanted = character then dropWord word rest else none

private theorem dropWord_length {word characters after : List Char}
    (dropped : dropWord word characters = some after) : after.length ≤ characters.length := by
  induction word generalizing characters with
  | nil =>
      cases dropped
      exact Nat.le_refl _
  | cons wanted word ih =>
      cases characters with
      | nil => cases dropped
      | cons character rest =>
          simp only [dropWord] at dropped
          split at dropped
          · exact Nat.le_succ_of_le (ih dropped)
          · cases dropped

/-- The digits in front, and what follows them. -/
def digitsInFront (characters : List Char) : List Char × List Char :=
  (characters.takeWhile Char.isDigit, characters.dropWhile Char.isDigit)

private theorem digitsInFront_append (characters : List Char) :
    (digitsInFront characters).1 ++ (digitsInFront characters).2 = characters :=
  List.takeWhile_append_dropWhile

private theorem digitsInFront_length (characters : List Char) :
    (digitsInFront characters).2.length ≤ characters.length :=
  (List.dropWhile_sublist Char.isDigit).length_le

/-- A zero stands alone in front of the point; any other whole part has no leading zero. -/
def scanWhole : List Char → Option (List Char × List Char)
  | '0' :: rest => some (['0'], rest)
  | characters =>
      match digitsInFront characters with
      | ([], _) => none
      | found => some found

private theorem scanWhole_length {characters digits after : List Char}
    (scanned : scanWhole characters = some (digits, after)) :
    after.length < characters.length := by
  unfold scanWhole at scanned
  split at scanned
  · cases scanned
    exact Nat.lt_succ_self _
  · have whole := congrArg List.length (digitsInFront_append characters)
    rw [List.length_append] at whole
    split at scanned
    · cases scanned
    · rename_i nonempty
      have found := Option.some.inj scanned
      rw [found] at whole nonempty
      have positive : 0 < digits.length :=
        List.length_pos_iff.mpr fun none => nonempty after (by rw [none])
      simp only at whole
      omega

def scanFraction : List Char → Option (Option (List Char) × List Char)
  | '.' :: rest =>
      match digitsInFront rest with
      | ([], _) => none
      | (digits, after) => some (some digits, after)
  | characters => some (none, characters)

private theorem scanFraction_length {characters after : List Char} {digits : Option (List Char)}
    (scanned : scanFraction characters = some (digits, after)) :
    after.length ≤ characters.length := by
  unfold scanFraction at scanned
  split at scanned
  · rename_i rest
    have bound := digitsInFront_length rest
    split at scanned
    · cases scanned
    · rename_i found
      rw [found] at bound
      cases scanned
      exact Nat.le_succ_of_le bound
  · cases scanned
    exact Nat.le_refl _

def scanExponentDigits (negative : Bool) (characters : List Char) :
    Option (Option (Bool × List Char) × List Char) :=
  match digitsInFront characters with
  | ([], _) => none
  | (digits, after) => some (some (negative, digits), after)

private theorem scanExponentDigits_length {negative : Bool} {characters after : List Char}
    {exponent : Option (Bool × List Char)}
    (scanned : scanExponentDigits negative characters = some (exponent, after)) :
    after.length ≤ characters.length := by
  have bound := digitsInFront_length characters
  unfold scanExponentDigits at scanned
  split at scanned
  · cases scanned
  · rename_i found
    rw [found] at bound
    cases scanned
    exact bound

def scanExponent : List Char → Option (Option (Bool × List Char) × List Char)
  | mark :: rest =>
      if mark = 'e' ∨ mark = 'E' then
        match rest with
        | '+' :: digits => scanExponentDigits false digits
        | '-' :: digits => scanExponentDigits true digits
        | digits => scanExponentDigits false digits
      else some (none, mark :: rest)
  | [] => some (none, [])

private theorem scanExponent_length {characters after : List Char}
    {exponent : Option (Bool × List Char)}
    (scanned : scanExponent characters = some (exponent, after)) :
    after.length ≤ characters.length := by
  unfold scanExponent at scanned
  split at scanned
  · split at scanned
    · split at scanned <;>
        exact Nat.le_trans (scanExponentDigits_length scanned)
          (by simp only [List.length_cons]; omega)
    · cases scanned
      exact Nat.le_refl _
  · cases scanned
    exact Nat.le_refl _

def scanNumeral (negative : Bool) (characters : List Char) : Option (Numeral × List Char) := do
  let (whole, afterWhole) ← scanWhole characters
  let (fraction, afterFraction) ← scanFraction afterWhole
  let (exponent, after) ← scanExponent afterFraction
  return (⟨negative, whole, fraction.getD [], exponent, fraction.isSome⟩, after)

private theorem scanNumeral_length {negative : Bool} {characters after : List Char}
    {numeral : Numeral}
    (scanned : scanNumeral negative characters = some (numeral, after)) :
    after.length < characters.length := by
  unfold scanNumeral at scanned
  simp only [bind, Option.bind_eq_some_iff] at scanned
  obtain ⟨⟨whole, afterWhole⟩, wholeScanned, scanned⟩ := scanned
  obtain ⟨⟨fraction, afterFraction⟩, fractionScanned, scanned⟩ := scanned
  obtain ⟨⟨exponent, rest⟩, exponentScanned, scanned⟩ := scanned
  cases scanned
  exact Nat.lt_of_le_of_lt (scanExponent_length exponentScanned)
    (Nat.lt_of_le_of_lt (scanFraction_length fractionScanned) (scanWhole_length wholeScanned))

/-- The token that begins with the given character. -/
def scanToken (character : Char) (rest : List Char) : Option (Token × List Char) :=
  match character with
  | '[' => some (.openList, rest)
  | ']' => some (.closeList, rest)
  | '\x7b' => some (.openObject, rest)
  | '\x7d' => some (.closeObject, rest)
  | ',' => some (.comma, rest)
  | ':' => some (.colon, rest)
  | 'n' => (dropWord ['u', 'l', 'l'] rest).map fun after => (.null, after)
  | 't' => (dropWord ['r', 'u', 'e'] rest).map fun after => (.truth true, after)
  | 'f' => (dropWord ['a', 'l', 's', 'e'] rest).map fun after => (.truth false, after)
  | '"' =>
      (scanText .plain [] rest).map fun (pieces, after) =>
        (.text ((joinPieces pieces).map String.ofList), after)
  | '-' => (scanNumeral true rest).map fun (numeral, after) => (.number numeral, after)
  | first =>
      (scanNumeral false (first :: rest)).map fun (numeral, after) => (.number numeral, after)

private theorem scanToken_length {character : Char} {rest after : List Char} {token : Token}
    (scanned : scanToken character rest = some (token, after)) :
    after.length < (character :: rest).length := by
  have single {found : Token} (scanned : some (found, rest) = some (token, after)) :
      after.length < (character :: rest).length := by
    cases scanned
    exact Nat.lt_succ_self _
  have word {found : Token} {letters : List Char}
      (scanned : (dropWord letters rest).map (fun after => (found, after)) = some (token, after)) :
      after.length < (character :: rest).length := by
    obtain ⟨_, dropped, same⟩ := Option.map_eq_some_iff.mp scanned
    cases same
    exact Nat.lt_succ_of_le (dropWord_length dropped)
  unfold scanToken at scanned
  split at scanned
  · exact single scanned
  · exact single scanned
  · exact single scanned
  · exact single scanned
  · exact single scanned
  · exact single scanned
  · exact word scanned
  · exact word scanned
  · exact word scanned
  · obtain ⟨⟨_, _⟩, quoted, same⟩ := Option.map_eq_some_iff.mp scanned
    cases same
    exact Nat.lt_succ_of_lt (scanText_length quoted)
  · obtain ⟨⟨_, _⟩, numeral, same⟩ := Option.map_eq_some_iff.mp scanned
    cases same
    exact Nat.lt_succ_of_lt (scanNumeral_length numeral)
  · obtain ⟨⟨_, _⟩, numeral, same⟩ := Option.map_eq_some_iff.mp scanned
    cases same
    exact scanNumeral_length numeral

/-- All tokens of a text, behind those already found, which come last one first. -/
def scanTokens (characters : List Char) (found : List Token) : Option (List Token) :=
  match characters with
  | [] => some found.reverse
  | character :: rest =>
      if isBlank character then scanTokens rest found
      else
        match _scanned : scanToken character rest with
        | none => none
        | some (token, after) => scanTokens after (token :: found)
termination_by characters.length
decreasing_by
  · exact Nat.lt_succ_self rest.length
  · exact scanToken_length _scanned

end Chart.Json
