import MyOS.Lib.FixedArray
import Mathlib.Data.Nat.Bitwise
import Mathlib.Data.Finset.Card
import Mathlib.Order.Interval.Finset.Nat

/-! Bitmaps packed eight flags to a byte, and how many of their flags are clear. -/

namespace MyOS

/-- The byte with only flag `k` raised, as `(uint8_t)(1U << k)`. -/
def bitMask (k : Nat) : UInt8 := UInt8.ofNat (2 ^ k)

/-- Whether flag `k` of a byte is raised. -/
def bitTest (byte : UInt8) (k : Nat) : Bool := (byte &&& bitMask k) != 0

/-- The byte with flag `k` raised. -/
def bitSet (byte : UInt8) (k : Nat) : UInt8 := byte ||| bitMask k

/-- The byte with flag `k` lowered. -/
def bitClear (byte : UInt8) (k : Nat) : UInt8 := byte &&& ~~~(bitMask k)

/-- The mask of a flag inside the byte is a power of two. -/
theorem bitMask_toNat {k : Nat} (inside : k < 8) : (bitMask k).toNat = 2 ^ k := by
  -- The power fits into a byte, so nothing is cut off.
  have small : 2 ^ k < 2 ^ 8 := Nat.pow_lt_pow_right (by omega) inside
  simpa [bitMask] using Nat.mod_eq_of_lt small

/-- A flag is raised exactly when the corresponding binary digit is one. -/
theorem bitTest_eq_testBit (byte : UInt8) {k : Nat} (inside : k < 8) :
    bitTest byte k = byte.toNat.testBit k := by
  have masked : (byte &&& bitMask k).toNat = byte.toNat &&& 2 ^ k := by
    rw [UInt8.toNat_and, bitMask_toNat inside]
  -- Masking with a power of two keeps that digit alone.
  rw [Nat.and_two_pow] at masked
  have zero : (byte &&& bitMask k) = 0 ↔ (byte &&& bitMask k).toNat = 0 := by
    rw [← UInt8.toNat_inj]; rfl
  -- The masked byte is the power where the digit is one, and zero where it is not.
  cases digit : byte.toNat.testBit k with
  | true =>
    rw [digit] at masked
    have positive : 0 < 2 ^ k := Nat.two_pow_pos k
    simp only [bitTest, bne_iff_ne, ne_eq, zero, masked, Bool.toNat_true]
    omega
  | false =>
    rw [digit] at masked
    simp only [bitTest, bne_eq_false_iff_eq, zero, masked, Bool.toNat_false, Nat.zero_mul]

/-- Raising a flag raises that flag and no other. -/
theorem bitTest_bitSet (byte : UInt8) {k j : Nat} (hk : k < 8) (hj : j < 8) :
    bitTest (bitSet byte k) j = (decide (k = j) || bitTest byte j) := by
  -- Digit by digit the mask has a one at the flag only.
  rw [bitTest_eq_testBit _ hj, bitTest_eq_testBit _ hj, bitSet, UInt8.toNat_or,
    bitMask_toNat hk, Nat.testBit_or, Nat.testBit_two_pow, Bool.or_comm]

/-- Lowering a flag lowers that flag and no other. -/
theorem bitTest_bitClear (byte : UInt8) {k j : Nat} (hk : k < 8) (hj : j < 8) :
    bitTest (bitClear byte k) j = (!decide (k = j) && bitTest byte j) := by
  -- The complement of the mask is all ones but one.
  have complement : (~~~(bitMask k)).toNat = 2 ^ 8 - (2 ^ k + 1) := by
    rw [UInt8.toNat_not, bitMask_toNat hk]
    simp only [UInt8.size]
    omega
  have small : 2 ^ k < 2 ^ 8 := Nat.pow_lt_pow_right (by omega) hk
  rw [bitTest_eq_testBit _ hj, bitTest_eq_testBit _ hj, bitClear, UInt8.toNat_and, complement,
    Nat.testBit_and, Nat.testBit_two_pow_sub_succ small, Nat.testBit_two_pow]
  simp [hj, Bool.and_comm]

/-- Raising a flag that is down and lowering it again gives the byte back. -/
theorem bitClear_bitSet {byte : UInt8} {k : Nat} (inside : k < 8) (clear : bitTest byte k = false) :
    bitClear (bitSet byte k) k = byte := by
  -- The bytes are compared digit by digit.
  apply UInt8.toNat_inj.mp
  apply Nat.eq_of_testBit_eq
  intro j
  by_cases small : j < 8
  · rw [← bitTest_eq_testBit _ small, ← bitTest_eq_testBit _ small, bitTest_bitClear _ inside small,
      bitTest_bitSet _ inside small]
    -- The flag was down before, and the other digits were not touched.
    by_cases same : k = j
    · subst same
      rw [clear]
      simp
    · simp [same]
  · -- A byte has no digits further up.
    have high : ∀ b : UInt8, b.toNat.testBit j = false := fun b =>
      Nat.testBit_lt_two_pow (b.toNat_lt.trans_le (Nat.pow_le_pow_right (by decide) (Nat.le_of_not_lt small)))
    rw [high, high]

/-- The number of indices below a bound whose flag is clear. -/
def clearCount (marked : Nat → Bool) (bound : Nat) : Nat :=
  ((Finset.range bound).filter fun i => marked i = false).card

/-- No flag is clear exactly when every index below the bound is marked. -/
theorem clearCount_eq_zero {marked : Nat → Bool} {bound : Nat} :
    clearCount marked bound = 0 ↔ ∀ i, i < bound → marked i = true := by
  -- No index is counted exactly when every index is marked.
  simp [clearCount, Finset.filter_eq_empty_iff]

/-- Two markings that agree below the bound have equally many clear flags. -/
theorem clearCount_congr {marked marked' : Nat → Bool} {bound : Nat}
    (same : ∀ i, i < bound → marked i = marked' i) :
    clearCount marked bound = clearCount marked' bound := by
  -- Both count the same indices.
  unfold clearCount
  congr 1
  apply Finset.filter_congr
  intro i member
  rw [same i (Finset.mem_range.mp member)]

/-- Marking a set of clear indices uses up exactly as many clear flags. -/
theorem clearCount_add_card {marked marked' : Nat → Bool} {bound : Nat} (taken : Finset Nat)
    (inside : ∀ i ∈ taken, i < bound ∧ marked i = false)
    (after : ∀ i, i < bound → (marked' i = true ↔ marked i = true ∨ i ∈ taken)) :
    clearCount marked' bound + taken.card = clearCount marked bound := by
  -- The clear indices before are those still clear together with those taken.
  have split : (Finset.range bound).filter (fun i => marked i = false) =
      (Finset.range bound).filter (fun i => marked' i = false) ∪ taken := by
    ext i
    simp only [Finset.mem_filter, Finset.mem_range, Finset.mem_union]
    constructor
    · rintro ⟨below, clear⟩
      by_cases member : i ∈ taken
      · exact Or.inr member
      · left
        refine ⟨below, Bool.eq_false_iff.mpr fun raised => ?_⟩
        rcases (after i below).mp raised with before | now
        · simp [clear] at before
        · exact member now
    · rintro (⟨below, clear⟩ | member)
      · have := after i below
        simp_all
      · exact inside i member
  -- A flag that was just raised is not clear any more.
  have apart : Disjoint ((Finset.range bound).filter (fun i => marked' i = false)) taken := by
    rw [Finset.disjoint_left]
    intro i clear member
    have below := (inside i member).1
    have := (after i below).mpr (Or.inr member)
    simp_all
  unfold clearCount
  rw [split, Finset.card_union_of_disjoint apart]

/-- There are at least as many clear indices as there are in any interval of them. -/
theorem le_clearCount {marked : Nat → Bool} {bound first past : Nat}
    (clear : ∀ i, first ≤ i → i < past → i < bound ∧ marked i = false) :
    past - first ≤ clearCount marked bound := by
  -- The interval lies among the clear indices.
  have included : Finset.Ico first past ⊆ (Finset.range bound).filter fun i => marked i = false := by
    intro i member
    obtain ⟨above, below⟩ := Finset.mem_Ico.mp member
    obtain ⟨inside, free⟩ := clear i above below
    exact Finset.mem_filter.mpr ⟨Finset.mem_range.mpr inside, free⟩
  rw [← Nat.card_Ico]
  exact Finset.card_le_card included

/-- Indices that are not clear are among the marked ones, however these are listed. -/
theorem le_clearCount_add_card {marked : Nat → Bool} {bound : Nat} (taken : Finset Nat)
    (inside : ∀ i, i < bound → marked i = true → i ∈ taken) :
    bound ≤ clearCount marked bound + taken.card := by
  -- An index is clear or it is listed.
  have covered : Finset.range bound ⊆
      (Finset.range bound).filter (fun i => marked i = false) ∪ taken := by
    intro i member
    rw [Finset.mem_union, Finset.mem_filter]
    cases flag : marked i with
    | false => exact Or.inl ⟨member, rfl⟩
    | true => exact Or.inr (inside i (Finset.mem_range.mp member) flag)
  calc bound = (Finset.range bound).card := (Finset.card_range bound).symm
    _ ≤ _ := Finset.card_le_card covered
    _ ≤ _ := Finset.card_union_le _ _

/-- Raising one flag counts one more. -/
theorem countP_range_raise {marked marked' : Nat → Bool} {bound i : Nat} (inside : i < bound)
    (before : marked i = false) (after : marked' i = true)
    (others : ∀ j, j < bound → j ≠ i → marked' j = marked j) :
    (List.range bound).countP marked' = (List.range bound).countP marked + 1 := by
  -- By induction on the bound: the raised flag is the last one, or was counted before.
  induction bound with
  | zero => exact absurd inside (Nat.not_lt_zero i)
  | succ bound ih =>
    rw [List.range_succ, List.countP_append, List.countP_append, List.countP_singleton,
      List.countP_singleton]
    by_cases here : i = bound
    · -- The flag is the last one, and those before it agree.
      subst here
      have same : (List.range i).countP marked' = (List.range i).countP marked := by
        apply List.countP_congr
        intro j member
        have below := List.mem_range.mp member
        rw [others j (by omega) (by omega)]
      rw [same, before, after]
      rfl
    · rw [ih (by omega) fun j below apart => others j (by omega) apart,
        others bound (by omega) (Ne.symm here)]
      omega

end MyOS
