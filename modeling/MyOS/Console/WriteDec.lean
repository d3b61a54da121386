import MyOS.Lib.Decimal

/-! Integers as the console writes them. -/

namespace MyOS.Console

/-- A value is positive if it is as a number. -/
theorem int32_pos_iff {value : Int32} : 0 < value ↔ 0 < value.toInt := by
  rw [Int32.lt_iff_toInt_lt, Int32.toInt_zero]

/-- The digits that the loop of `console_write_dec` stores, the last one first. -/
def storeDigits (value : Int32) : List UInt8 :=
  -- The remainder and the quotient are those of C, rounded towards zero.
  if 0 < value then (48 + value % 10).toUInt32.toUInt8 :: storeDigits (value / 10) else []
termination_by value.toInt.toNat
decreasing_by
  next positive =>
  rw [Int32.toInt_div_of_ne_right _ _ (by decide)]
  have positive := int32_pos_iff.mp positive
  change (value.toInt.tdiv 10).toNat < _
  rw [Int.tdiv_eq_ediv_of_nonneg (Int.le_of_lt positive)]
  omega

/-- The characters that `console_write_dec` puts out, in their order. -/
def consoleWriteDec (value : Int32) : List UInt8 :=
  -- Zero has a digit of its own, for the loop would store none.
  if value = 0 then [48]
  else
    let neg := decide (value < 0)
    -- The sign is taken off first, and put behind the digits.
    let value := if neg then -value else value
    let buf := storeDigits value
    (if neg then buf ++ [45] else buf).reverse

variable {value : Int32}

/-- What one round of the loop stores and goes on with. -/
theorem storeDigits_round (positive : 0 < value.toInt) :
    isDigit (48 + value % 10).toUInt32.toUInt8 = true ∧
      digitValue (48 + value % 10).toUInt32.toUInt8 = value.toInt.toNat % 10 ∧
      (value / 10).toInt.toNat = value.toInt.toNat / 10 := by
  -- For a positive value the remainder is that of natural numbers.
  have rest : (value % 10).toInt = value.toInt % 10 := by
    rw [Int32.toInt_mod]
    exact Int.tmod_eq_emod_of_nonneg (Int.le_of_lt positive)
  have sum : (48 + value % 10).toInt = 48 + value.toInt % 10 := by
    rw [Int32.toInt_add, rest]
    exact Int.bmod_eq_of_le (by change _ ≤ 48 + value.toInt % 10; omega)
      (by change 48 + value.toInt % 10 < _; omega)
  -- The digit fits into its byte.
  have byte : (48 + value % 10).toUInt32.toUInt8.toNat = 48 + value.toInt.toNat % 10 := by
    rw [UInt32.toNat_toUInt8,
      Int32.toNat_toUInt32_of_le (Int32.le_iff_toInt_le.mpr (by rw [sum]; change 0 ≤ _; omega)),
      ← Int32.toNat_toInt, sum]
    omega
  refine ⟨isDigit_iff.mpr (by omega), ?_, ?_⟩
  · unfold digitValue
    omega
  · rw [Int32.toInt_div_of_ne_right _ _ (by decide)]
    change (value.toInt.tdiv 10).toNat = _
    rw [Int.tdiv_eq_ediv_of_nonneg (Int.le_of_lt positive)]
    omega

/-- The digits stored for a positive value are, from the last one on, its numeral. -/
theorem storeDigits_isDecimal (positive : 0 < value.toInt) :
    IsDecimal (storeDigits value).reverse value.toInt.toNat := by
  -- The loop stores the digits from the last one on.
  induction value using storeDigits.induct with
  | case1 value loops ih =>
    obtain ⟨digit, worth, rest⟩ := storeDigits_round positive
    rw [storeDigits, if_pos loops, List.reverse_cons]
    have split : value.toInt.toNat = value.toInt.toNat / 10 * 10 + value.toInt.toNat % 10 := by omega
    rw [split, ← worth]
    by_cases more : 0 < (value / 10).toInt
    · rw [← rest]
      exact (ih more).concat (by omega) digit
    · -- The loop ends, and the digit is the first one of the numeral.
      have last : storeDigits (value / 10) = [] := by
        rw [storeDigits, if_neg (fun goes => more (int32_pos_iff.mp goes))]
      rw [last, show value.toInt.toNat / 10 = 0 by omega, Nat.zero_mul, Nat.zero_add]
      exact .single digit
  -- The loop does not run for a value that is not positive.
  | case2 value stops => exact absurd (int32_pos_iff.mpr positive) stops

/-- A positive value is written as its numeral. -/
theorem consoleWriteDec_positive (positive : 0 < value.toInt) :
    consoleWriteDec value = (storeDigits value).reverse := by
  -- There is no sign, and the digits are those of the value itself.
  have nonzero : value ≠ 0 := by
    rintro rfl
    exact absurd positive (by decide)
  have plain : ¬ value < 0 := by
    rw [Int32.lt_iff_toInt_lt, Int32.toInt_zero]
    omega
  unfold consoleWriteDec
  rw [if_neg nonzero, decide_eq_false plain]
  rfl

/-- A negative value is written as a sign and the digits of its negation. -/
theorem consoleWriteDec_negative (negative : value.toInt < 0) :
    -- The sign is the last character stored, and so the first one written.
    consoleWriteDec value = 45 :: (storeDigits (-value)).reverse := by
  have nonzero : value ≠ 0 := by
    rintro rfl
    exact absurd negative (by decide)
  have below : value < 0 := by
    rw [Int32.lt_iff_toInt_lt, Int32.toInt_zero]
    exact negative
  unfold consoleWriteDec
  rw [if_neg nonzero, decide_eq_true below]
  exact List.reverse_append

/-- The negation of the least value is negative itself, and so only the sign of it is written. -/
theorem consoleWriteDec_minValue : consoleWriteDec Int32.minValue = [45] := by
  -- The loop sees a negative value, and stores nothing.
  rw [consoleWriteDec_negative (by decide), storeDigits, if_neg (by decide)]
  rfl

/-- A sign alone is no numeral. -/
theorem minValue_not_written : ¬ IsIntDecimal (consoleWriteDec Int32.minValue) Int32.minValue.toInt := by
  -- The least value has no positive counterpart, so no digit is stored.
  rintro ⟨digits, numeral, text⟩
  rw [consoleWriteDec_minValue, if_pos (by decide)] at text
  exact numeral.nonempty (List.cons.inj text).2.symm

/-- The console writes the numeral of every value but the least one. -/
theorem consoleWriteDec_isDecimal_iff (value : Int32) :
    IsIntDecimal (consoleWriteDec value) value.toInt ↔ value ≠ Int32.minValue := by
  constructor
  -- The least value is written as a sign alone.
  · rintro written rfl
    exact minValue_not_written written
  -- The other values go by their sign.
  · intro other
    rcases Int.lt_trichotomy value.toInt 0 with negative | zero | positive
    -- Only the least value has no negation.
    · have least : value.toInt ≠ -2 ^ 31 := fun same => other (Int32.toInt.inj same)
      have low := value.le_toInt
      have flipped : (-value).toInt = -value.toInt := by
        rw [Int32.toInt_neg]
        exact Int.bmod_eq_of_le (by omega) (by omega)
      refine ⟨(storeDigits (-value)).reverse, ?_, ?_⟩
      · have numeral := @storeDigits_isDecimal (-value) (by omega)
        rwa [show (-value).toInt.toNat = value.toInt.natAbs by omega] at numeral
      · rw [consoleWriteDec_negative negative, if_pos negative]
        rfl
    -- Zero is written as one digit.
    · obtain rfl : value = 0 := Int32.toInt.inj zero
      exact ⟨[48], IsDecimal.single (by decide), rfl⟩
    -- A positive value is written as its digits.
    · refine ⟨(storeDigits value).reverse, ?_, ?_⟩
      · have numeral := storeDigits_isDecimal positive
        rwa [show value.toInt.toNat = value.toInt.natAbs by omega] at numeral
      · rw [consoleWriteDec_positive positive, if_neg (by omega)]
        rfl

example : consoleWriteDec (-2147483647) = "-2147483647".toUTF8.toList := by
  decide +kernel

/-- The least value is written as a sign without digits. -/
theorem consoleWriteDec_least : ¬ ∀ value : Int32, IsIntDecimal (consoleWriteDec value) value.toInt :=
  fun written => minValue_not_written (written Int32.minValue)

end MyOS.Console
