import MyOS.Lib.Decimal

/-! The numbers that the shell reads from a command line. -/

namespace MyOS.Shell

/-- The loop of `parse_uint`, with what it has read so far. -/
def parseDigits (value : UInt32) : List UInt8 → Option UInt32
  | [] => some value
  -- A character that is no digit spoils the whole number.
  | c :: rest => if c < 48 || c > 57 then none else parseDigits (value * 10 + (c - 48).toUInt32) rest

/-- `parse_uint`: the number a string is read as. -/
def parseUint (str : List UInt8) : Option UInt32 :=
  -- An empty string is no number.
  if str.isEmpty then none else parseDigits 0 str

/-- `skip_spaces` -/
def skipSpaces : List UInt8 → List UInt8
  | [] => []
  -- Only spaces are passed over, and no other white space.
  | c :: rest => if c == 32 then skipSpaces rest else c :: rest

/-- The loop of `parse_leading_uint`, which ends at the first character that is no digit. -/
def parseLeadingDigits (value : UInt32) : List UInt8 → UInt32 × List UInt8
  | [] => (value, [])
  | c :: rest =>
    -- The sum and the product are those of 32-bit variables.
    if c ≥ 48 && c ≤ 57 then parseLeadingDigits (value * 10 + (c - 48).toUInt32) rest
    else (value, c :: rest)

/-- `parse_leading_uint`: the number a string starts with, and what is behind it. -/
def parseLeadingUint (str : List UInt8) : Option (UInt32 × List UInt8) :=
  match skipSpaces str with
  | [] => none
  -- The first character behind the spaces must be a digit.
  | c :: rest => if c < 48 || c > 57 then none else some (parseLeadingDigits 0 (c :: rest))

section Typed

/-- The number that is typed, where a string is nothing but its digits. -/
def typedUint (str : List UInt8) : Option Nat :=
  -- The number is that of all digits, however many there are.
  if str.isEmpty || !str.all isDigit then none else some (decimalValue str)

/-- The number that is typed first, behind spaces, and what is behind its last digit. -/
def typedLeadingUint (str : List UInt8) : Option (Nat × List UInt8) :=
  -- Spaces in front do not belong to the number.
  let text := str.dropWhile (· == 32)
  let digits := text.takeWhile isDigit
  if digits.isEmpty then none else some (decimalValue digits, text.dropWhile isDigit)

end Typed

variable {c : UInt8} {str : List UInt8}

/-- The test that the source makes of a character is that for a digit. -/
theorem outside_eq (c : UInt8) : (decide (c < 48) || decide (c > 57)) = !isDigit c := by
  -- The two comparisons are negated one by one.
  unfold isDigit
  rw [Bool.not_and, ← decide_not, ← decide_not]
  simp only [UInt8.not_le]

/-- A round of both loops takes one more digit in, as far as 32 bits go. -/
theorem takeDigit (value : UInt32) (digit : isDigit c = true) :
    value * 10 + (c - 48).toUInt32 = UInt32.ofNat (value.toNat * 10 + digitValue c) := by
  have range := isDigit_iff.mp digit
  -- The difference is that of two bytes, and does not wrap.
  have low : 48 ≤ c := UInt8.le_iff_toNat_le.mpr range.1
  have worth : (c - 48).toUInt32.toNat = digitValue c := by
    rw [UInt8.toNat_toUInt32, UInt8.toNat_sub_of_le _ _ low]
    rfl
  apply UInt32.toNat_inj.mp
  rw [UInt32.toNat_add, UInt32.toNat_mul, worth, UInt32.toNat_ofNat']
  exact Nat.mod_add_mod ..

/-- Digits behind a number, of which 32 bits are kept. -/
theorem ofNat_valueFrom (value : Nat) (digits : List UInt8) :
    UInt32.ofNat (valueFrom (UInt32.ofNat value).toNat digits) = UInt32.ofNat (valueFrom value digits) := by
  -- Both sides keep the remainder.
  apply UInt32.toNat_inj.mp
  rw [UInt32.toNat_ofNat', UInt32.toNat_ofNat', UInt32.toNat_ofNat', valueFrom_mod]

/-- The loop of `parse_uint` keeps 32 bits of the number, and takes nothing but digits. -/
theorem parseDigits_eq (value : UInt32) (str : List UInt8) :
    parseDigits value str =
      if str.all isDigit then some (UInt32.ofNat (valueFrom value.toNat str)) else none := by
  -- Over the characters: a digit goes into the value, anything else ends the loop.
  induction str generalizing value with
  | nil => simp [parseDigits]
  | cons c rest ih =>
    unfold parseDigits
    rw [outside_eq, List.all_cons]
    cases digit : isDigit c with
    | false => rfl
    | true =>
      rw [ih, takeDigit value digit, ofNat_valueFrom]
      rfl

/-- `parse_uint` reads the number that is typed, but keeps only 32 bits of it. -/
theorem parseUint_eq (str : List UInt8) : parseUint str = (typedUint str).map UInt32.ofNat := by
  unfold parseUint typedUint
  cases empty : str.isEmpty with
  | true => rfl
  -- The empty string is refused by both.
  | false =>
    rw [if_neg Bool.false_ne_true, parseDigits_eq]
    cases str.all isDigit <;> rfl

/-- Skipping spaces drops them from the front. -/
theorem skipSpaces_eq (str : List UInt8) : skipSpaces str = str.dropWhile (· == 32) := by
  -- Over the characters: a space is dropped, anything else ends the loop.
  induction str with
  | nil => rfl
  | cons c rest ih =>
    unfold skipSpaces
    rw [List.dropWhile_cons, ih]

/-- The loop of `parse_leading_uint` takes the digits in front, and keeps 32 bits of their number. -/
theorem parseLeadingDigits_eq (value : UInt32) (str : List UInt8) :
    parseLeadingDigits value str =
      (UInt32.ofNat (valueFrom value.toNat (str.takeWhile isDigit)), str.dropWhile isDigit) := by
  -- Over the characters: a digit goes into the value, anything else is what is left.
  induction str generalizing value with
  | nil => simp [parseLeadingDigits]
  | cons c rest ih =>
    unfold parseLeadingDigits
    have test : (decide (c ≥ 48) && decide (c ≤ 57)) = isDigit c := rfl
    rw [test]
    cases digit : isDigit c with
    | false => simp [digit]
    | true =>
      rw [if_pos rfl, ih, takeDigit value digit, ofNat_valueFrom, List.takeWhile_cons_of_pos digit,
        List.dropWhile_cons_of_pos digit]
      rfl

/-- `parse_leading_uint` reads the number that is typed first, but keeps only 32 bits of it. -/
theorem parseLeadingUint_eq (str : List UInt8) :
    parseLeadingUint str = (typedLeadingUint str).map fun read => (UInt32.ofNat read.1, read.2) := by
  unfold parseLeadingUint typedLeadingUint
  rw [skipSpaces_eq]
  -- Behind the spaces both look at the first character.
  generalize str.dropWhile (· == 32) = text
  cases text with
  | nil => rfl
  | cons c rest =>
    simp only [outside_eq, parseLeadingDigits_eq]
    cases digit : isDigit c with
    | false => simp [digit]
    | true => simp [digit, decimalValue]

end MyOS.Shell
