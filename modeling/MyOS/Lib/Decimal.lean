import Mathlib.Data.List.Basic

/-! Numbers written as strings of decimal digits. -/

namespace MyOS

/-- Whether a character is a digit. -/
def isDigit (c : UInt8) : Bool := 48 ≤ c && c ≤ 57

/-- What a digit is worth by itself. -/
def digitValue (c : UInt8) : Nat := c.toNat - 48

/-- The number that digits stand for behind others that stand for a number. -/
def valueFrom (value : Nat) (digits : List UInt8) : Nat :=
  digits.foldl (fun value c => value * 10 + digitValue c) value

/-- The number that digits stand for. -/
def decimalValue (digits : List UInt8) : Nat := valueFrom 0 digits

/-- A string of digits is the numeral of a number: nothing but a lone zero starts with a zero. -/
structure IsDecimal (digits : List UInt8) (n : Nat) : Prop where
  digit : ∀ c ∈ digits, isDigit c = true
  nonempty : digits ≠ []
  plain : digits.head? = some 48 → digits = [48]
  value : decimalValue digits = n

/-- A string is the numeral of an integer, with a sign in front where it is negative. -/
def IsIntDecimal (text : List UInt8) (value : Int) : Prop :=
  ∃ digits, IsDecimal digits value.natAbs ∧ text = (if value < 0 then [45] else []) ++ digits

variable {digits : List UInt8} {n d : Nat} {c : UInt8}

/-- Without further digits the value is what was read so far. -/
@[simp] theorem valueFrom_nil (value : Nat) : valueFrom value [] = value := rfl

/-- A digit is read behind the ones before it. -/
@[simp] theorem valueFrom_cons (value : Nat) (c : UInt8) (digits : List UInt8) :
    valueFrom value (c :: digits) = valueFrom (value * 10 + digitValue c) digits :=
  List.foldl_cons ..

/-- Digits behind a number depend on it only up to the modulus they are counted in. -/
theorem valueFrom_mod (modulus value : Nat) (digits : List UInt8) :
    valueFrom (value % modulus) digits % modulus = valueFrom value digits % modulus := by
  -- By induction on the digits: the remainder may be taken before a digit or behind it.
  induction digits generalizing value with
  | nil => exact Nat.mod_mod _ _
  | cons c rest ih =>
    rw [valueFrom_cons, valueFrom_cons, ← ih (value % modulus * 10 + digitValue c),
      ← ih (value * 10 + digitValue c)]
    congr 2
    rw [Nat.add_mod, Nat.mod_mul_mod, ← Nat.add_mod]

/-- One more digit at the end counts once, and what was there ten times. -/
theorem decimalValue_concat (digits : List UInt8) (c : UInt8) :
    decimalValue (digits ++ [c]) = decimalValue digits * 10 + digitValue c := by
  -- The last digit is the last step of the sum.
  unfold decimalValue valueFrom
  rw [List.foldl_append]
  rfl

/-- The digits are ten characters in a row. -/
theorem isDigit_iff : isDigit c = true ↔ 48 ≤ c.toNat ∧ c.toNat ≤ 57 := by
  -- The two bounds are the characters for zero and nine.
  unfold isDigit
  rw [Bool.and_eq_true, decide_eq_true_eq, decide_eq_true_eq, UInt8.le_iff_toNat_le, UInt8.le_iff_toNat_le]
  rfl

/-- The numeral of a number below ten is its digit. -/
theorem IsDecimal.single (digit : isDigit c = true) : IsDecimal [c] (digitValue c) := by
  -- The only digit may be a zero, since it stands alone.
  refine ⟨fun c' member => ?_, nofun, fun zero => ?_, ?_⟩
  · rw [List.mem_singleton.mp member]
    exact digit
  · rw [Option.some.inj zero]
  · exact Nat.zero_add _

/-- A digit behind the numeral of a number other than zero makes a numeral. -/
theorem IsDecimal.concat (numeral : IsDecimal digits n) (positive : 0 < n) (digit : isDigit c = true) :
    IsDecimal (digits ++ [c]) (n * 10 + digitValue c) := by
  -- The digits in front are those of the numeral, whose first one is no zero.
  refine ⟨fun c' member => ?_, by simp, fun zero => ?_, ?_⟩
  · rcases List.mem_append.mp member with before | last
    · exact numeral.digit c' before
    · rw [List.mem_singleton.mp last]
      exact digit
  · -- The first digit is that of the shorter numeral, which is no lone zero.
    rw [List.head?_append_of_ne_nil _ numeral.nonempty] at zero
    have value := numeral.value
    rw [numeral.plain zero] at value
    exact absurd value (Nat.ne_of_lt positive)
  · rw [decimalValue_concat, numeral.value]

end MyOS
