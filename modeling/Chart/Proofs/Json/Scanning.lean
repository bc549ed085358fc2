import Chart.Json.Number
import Chart.Json.Write
import Mathlib.Data.List.Basic

set_option autoImplicit false

/-!
What the scanner makes of written text. A whole number comes back as the numeral of its decimal
digits, provided that nothing behind it could belong to the number, and that numeral stands for
the number again; a quoted text comes back as its characters, whatever stands behind the closing
quote. `Scans` says of a stretch of text which tokens it is, and stretches are put together by
`Scans.append`.
-/

namespace Chart.Json

/-! ### Whole numbers -/

/-- Nothing in front belongs to a number that stands before it. -/
def Ended (rest : List Char) : Prop :=
  ∀ character ∈ rest.head?,
    character.isDigit = false ∧ character ≠ '.' ∧ character ≠ 'e' ∧ character ≠ 'E'

theorem Ended.nil : Ended [] :=
  fun _ inFront => by cases inFront

theorem Ended.comma (rest : List Char) : Ended (',' :: rest) :=
  fun _ inFront => by cases inFront; decide

theorem Ended.closeList (rest : List Char) : Ended (']' :: rest) :=
  fun _ inFront => by cases inFront; decide

theorem Ended.closeObject (rest : List Char) : Ended ('\x7d' :: rest) :=
  fun _ inFront => by cases inFront; decide

variable {rest : List Char}

private theorem head?_toDigits_ne_zero {number : Nat} (positive : 0 < number) :
    (Nat.toDigits 10 number).head? ≠ some '0' := by
  induction number using Nat.strongRecOn with
  | ind number ih =>
      by_cases small : number < 10
      · have leading : ∀ digit < 10, 0 < digit → Nat.digitChar digit ≠ '0' := by decide
        rw [Nat.toDigits_of_lt_base small]
        exact fun same => leading number small positive (Option.some.inj same)
      · rw [Nat.toDigits_of_base_le (by omega) (by omega),
          List.head?_append_of_ne_nil _ Nat.toDigits_ne_nil]
        exact ih (number / 10) (by omega) (by omega)

private theorem digitsInFront_toDigits (number : Nat) (ended : Ended rest) :
    digitsInFront (Nat.toDigits 10 number ++ rest) = (Nat.toDigits 10 number, rest) := by
  have digits : ∀ digit ∈ Nat.toDigits 10 number, digit.isDigit = true :=
    fun _ digit => Nat.isDigit_of_mem_toDigits (by omega) (by omega) digit
  unfold digitsInFront
  rw [List.takeWhile_append_of_pos digits, List.dropWhile_append_of_pos digits]
  cases rest with
  | nil => simp
  | cons next rest => simp [(ended next rfl).1]

private theorem scanWhole_toDigits (number : Nat) (ended : Ended rest) :
    scanWhole (Nat.toDigits 10 number ++ rest) = some (Nat.toDigits 10 number, rest) := by
  rcases Nat.eq_zero_or_pos number with rfl | positive
  · rfl
  · have found := digitsInFront_toDigits number ended
    have leading := head?_toDigits_ne_zero positive
    unfold scanWhole
    split
    -- A zero in front would be the leading digit.
    next after zero =>
      cases shape : Nat.toDigits 10 number with
      | nil => exact absurd shape Nat.toDigits_ne_nil
      | cons first digits =>
          rw [shape] at zero leading
          cases zero
          exact absurd rfl leading
    next =>
      rw [found]
      split
      next none => exact absurd (congrArg Prod.fst none) Nat.toDigits_ne_nil
      next => rfl

private theorem scanFraction_of_ended (ended : Ended rest) :
    scanFraction rest = some (none, rest) := by
  unfold scanFraction
  split
  next => exact absurd rfl (ended '.' rfl).2.1
  next => rfl

private theorem scanExponent_of_ended (ended : Ended rest) :
    scanExponent rest = some (none, rest) := by
  unfold scanExponent
  split
  next mark after =>
    have plain := (ended mark rfl).2.2
    rw [if_neg (not_or.mpr plain)]
  next => rfl

def Numeral.ofInt (number : Int) : Numeral :=
  { negative := decide (number < 0)
    whole := Nat.toDigits 10 number.natAbs
    fraction := []
    exponent := none
    hasFraction := false }

private theorem scanNumeral_toDigits (negative : Bool) (number : Nat) (ended : Ended rest) :
    scanNumeral negative (Nat.toDigits 10 number ++ rest) =
      some (⟨negative, Nat.toDigits 10 number, [], none, false⟩, rest) := by
  simp only [scanNumeral, scanWhole_toDigits number ended, Option.bind_eq_bind, Option.bind_some,
    scanFraction_of_ended ended, scanExponent_of_ended ended]
  rfl

private theorem takeDigits_ofDigitChars (significand : Nat) (digits : List Char)
    (fits : Nat.ofDigitChars 10 digits significand < Word.limit) :
    takeDigits significand digits = (Nat.ofDigitChars 10 digits significand, digits.length, 0) := by
  induction digits generalizing significand with
  | nil => rfl
  | cons digit digits ih =>
      have grows : ∀ start, start ≤ Nat.ofDigitChars 10 digits start := by
        clear ih fits
        induction digits with
        | nil => exact fun start => Nat.le_refl start
        | cons digit digits ih =>
            intro start
            rw [Nat.ofDigitChars_cons]
            exact Nat.le_trans (by omega) (ih _)
      rw [Nat.ofDigitChars_cons, Nat.mul_comm] at fits ⊢
      have longer : significand * 10 + digitValue digit < Word.limit :=
        Nat.lt_of_le_of_lt (grows _) fits
      rw [takeDigits, if_pos longer, ih (significand * 10 + digitValue digit) fits]
      rfl

theorem Numeral.value?_ofInt {number : Int} (least : Word.leastSigned ≤ number)
    (fits : number < Word.limit) : (Numeral.ofInt number).value? = some (.int number) := by
  have size : Nat.ofDigitChars 10 (Nat.toDigits 10 number.natAbs) 0 = number.natAbs :=
    Nat.ofDigitChars_ten_toDigits
  have word : number.natAbs < Word.limit := by
    unfold Word.leastSigned at least
    unfold Word.limit at fits ⊢
    omega
  have taken := takeDigits_ofDigitChars 0 (Nat.toDigits 10 number.natAbs) (by rwa [size])
  rw [size] at taken
  have whole : (Numeral.ofInt number).int? = some number := by
    unfold Numeral.int? Numeral.ofInt
    simp only [Option.isSome_none, Bool.or_self, Bool.false_eq_true, if_false, taken,
      Bool.not_eq_true', decide_eq_false_iff_not]
    split
    next natural => rw [Int.natAbs_of_nonneg (Int.not_lt.mp natural)]
    next negative =>
      have restored : -(number.natAbs : Int) = number := by omega
      rw [restored, if_neg (by omega)]
  rw [Numeral.value?, whole]

/-! ### Quoted texts -/

private theorem hexValue?_hexDigit (value : Nat) :
    hexValue? (hexDigit value) = some (value % 16) := by
  have digit : ∀ value < 16, hexValue? ((Nat.toDigits 16 value).headD '0') = some value := by
    decide
  exact digit (value % 16) (Nat.mod_lt value (by omega))

/-- What stands for a character in a quoted text: control characters without an escape of their
own are named by their code. -/
def piece (character : Char) : Piece :=
  if character.toNat < 32 ∧ character ∉ ['\x08', '\x0c', '\n', '\r', '\t'] then
    .unit character.toNat
  else .character character

private theorem scanText_unit (pieces : List Piece) (code : Nat) (rest : List Char) :
    scanText .plain pieces
        ('\\' :: 'u' :: '0' :: '0' :: hexDigit (code / 16) :: hexDigit code :: rest) =
      scanText .plain (.unit (code / 16 % 16 * 16 + code % 16) :: pieces) rest := by
  have zero : hexValue? '0' = some 0 := by decide
  simp [scanText, zero, hexValue?_hexDigit]

private theorem scanText_encodeCharacter (pieces : List Piece) (character : Char)
    (rest : List Char) :
    scanText .plain pieces (encodeCharacter character ++ rest) =
      scanText .plain (piece character :: pieces) rest := by
  unfold encodeCharacter
  split
  -- The escapes of one letter are read back by computation.
  iterate 7 rfl
  next quote backslash backspace feed line carriage tab =>
    by_cases control : character.toNat < 32
    · have unescaped : character ∉ ['\x08', '\x0c', '\n', '\r', '\t'] := by
        simp only [List.mem_cons, List.not_mem_nil, or_false, not_or]
        exact ⟨backspace, feed, line, carriage, tab⟩
      have named : character.toNat / 16 % 16 * 16 + character.toNat % 16 = character.toNat := by
        omega
      rw [if_pos control, piece, if_pos ⟨control, unescaped⟩]
      exact (scanText_unit pieces character.toNat rest).trans (by rw [named])
    · rw [if_neg control, piece, if_neg (fun both => control both.1), List.cons_append,
        List.nil_append, scanText, if_neg quote, if_neg backslash, if_neg control]

private theorem scanText_encoded (pieces : List Piece) (characters rest : List Char) :
    scanText .plain pieces (characters.flatMap encodeCharacter ++ '"' :: rest) =
      some (pieces.reverse ++ characters.map piece, rest) := by
  induction characters generalizing pieces with
  | nil => simp [scanText]
  | cons character characters ih =>
      rw [List.flatMap_cons, List.append_assoc, scanText_encodeCharacter, ih]
      simp

private theorem joinPieces_unit {code : Nat} (plain : code < 0xD800) (pieces : List Piece) :
    joinPieces (.unit code :: pieces) = (joinPieces pieces).map (Char.ofNat code :: ·) := by
  have single : ¬(0xD800 ≤ code ∧ code < 0xE000) := by omega
  match pieces with
  | [] => simp only [joinPieces, if_neg single]
  | .character _ :: _ => simp only [joinPieces, if_neg single]
  | .unit _ :: _ => rw [joinPieces, if_neg (by omega), if_neg (by omega)]

private theorem joinPieces_map_piece (characters : List Char) :
    joinPieces (characters.map piece) = some characters := by
  induction characters with
  | nil => rfl
  | cons character characters ih =>
      rw [List.map_cons, piece]
      split
      next control =>
        rw [joinPieces_unit (by omega), ih, Option.map_some, Char.ofNat_toNat]
      next => rw [joinPieces, ih, Option.map_some]

/-! ### Stretches of text -/

/-- In front of the rest, the written characters are these tokens. -/
def Scans (written : List Char) (tokens : List Token) (rest : List Char) : Prop :=
  ∀ found, scanTokens (written ++ rest) found = scanTokens rest (tokens.reverse ++ found)

theorem Scans.append {first second : List Char} {tokens more : List Token}
    (front : Scans first tokens (second ++ rest)) (behind : Scans second more rest) :
    Scans (first ++ second) (tokens ++ more) rest := by
  intro found
  rw [List.append_assoc, front, behind, List.reverse_append, List.append_assoc]

theorem Scans.of_scanToken {character : Char} {more : List Char} {token : Token}
    (visible : isBlank character = false)
    (scanned : scanToken character (more ++ rest) = some (token, rest)) :
    Scans (character :: more) [token] rest := by
  intro found
  rw [List.cons_append, scanTokens, visible, if_neg Bool.false_ne_true]
  split
  next refused => rw [scanned] at refused; cases refused
  next accepted =>
    rw [scanned] at accepted
    cases accepted
    rfl

private theorem scanToken_of_isDigit {character : Char} (digit : character.isDigit = true)
    (rest : List Char) :
    scanToken character rest =
      (scanNumeral false (character :: rest)).map fun (numeral, after) =>
        (.number numeral, after) := by
  unfold scanToken
  split
  iterate 11 exact absurd digit (by decide)
  rfl

private theorem isBlank_of_isDigit {character : Char} (digit : character.isDigit = true) :
    isBlank character = false := by
  unfold isBlank
  rw [List.contains_eq_mem, decide_eq_false_iff_not]
  intro blank
  simp only [List.mem_cons, List.not_mem_nil, or_false] at blank
  rcases blank with rfl | rfl | rfl | rfl <;> exact absurd digit (by decide)

private theorem toList_repr (number : Nat) : number.repr.toList = Nat.toDigits 10 number := by
  rw [Nat.repr_eq_ofList_toDigits, String.toList_ofList]

theorem scans_int (number : Int) (ended : Ended rest) :
    Scans (toString number).toList [.number (.ofInt number)] rest := by
  cases number with
  | ofNat number =>
      have written : (toString (Int.ofNat number)).toList = Nat.toDigits 10 number :=
        toList_repr number
      have scanned := scanNumeral_toDigits false number ended
      cases shape : Nat.toDigits 10 number with
      | nil => exact absurd shape Nat.toDigits_ne_nil
      | cons first digits =>
          have digit : first.isDigit = true :=
            Nat.isDigit_of_mem_toDigits (by omega) (by omega) (shape ▸ List.mem_cons_self)
          rw [written, shape]
          refine Scans.of_scanToken (isBlank_of_isDigit digit) ?_
          rw [scanToken_of_isDigit digit, ← List.cons_append, ← shape, scanned]
          rfl
  | negSucc number =>
      have written : (toString (Int.negSucc number)).toList =
          '-' :: Nat.toDigits 10 (number + 1) := by
        rw [← toList_repr]
        exact String.toList_append
      rw [written]
      refine Scans.of_scanToken (by decide) ?_
      have scanned := scanNumeral_toDigits true (number + 1) ended
      simp only [scanToken, scanned, Option.map_some]
      rw [Numeral.ofInt, decide_eq_true (Int.negSucc_lt_zero number)]
      rfl

theorem scans_quoted (characters : String) (rest : List Char) :
    Scans (quoted characters).toList [.text (some characters)] rest := by
  have written : (quoted characters).toList =
      '"' :: (characters.toList.flatMap encodeCharacter ++ ['"']) := by
    simp [quoted]
  rw [written]
  refine Scans.of_scanToken (by decide) ?_
  rw [List.append_assoc, List.singleton_append]
  simp [scanToken, scanText_encoded, joinPieces_map_piece]

end Chart.Json
