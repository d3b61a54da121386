import Mathlib.Data.Nat.Bitwise
import Mathlib.Tactic.NormNum

/-! 32-bit words that carry a page number above twelve flag bits. -/

namespace MyOS

/-- The page number in the upper twenty bits of a word. -/
def pageOf (word : UInt32) : Nat := word.toNat / 4096

/-- Whether flag `k` of a word is raised. -/
def flagOf (word : UInt32) (k : Nat) : Bool := word.toNat.testBit k

/-- A page number has twenty bits. -/
theorem pageOf_lt (word : UInt32) : pageOf word < 2 ^ 20 := by
  -- A word has thirty-two bits, of which twelve are the offset.
  have bound := word.toNat_lt
  unfold pageOf
  omega

/-- The page number is what a shift by twelve bits leaves. -/
theorem pageOf_eq_shiftRight (word : UInt32) : pageOf word = word.toNat >>> 12 :=
  (Nat.shiftRight_eq_div_pow _ 12).symm

/-- The page numbers of two words are joined digit by digit. -/
@[simp] theorem pageOf_or (a b : UInt32) : pageOf (a ||| b) = pageOf a ||| pageOf b := by
  simp only [pageOf_eq_shiftRight, UInt32.toNat_or, Nat.shiftRight_or_distrib]

/-- The page numbers of two words are masked digit by digit. -/
@[simp] theorem pageOf_and (a b : UInt32) : pageOf (a &&& b) = pageOf a &&& pageOf b := by
  simp only [pageOf_eq_shiftRight, UInt32.toNat_and, Nat.shiftRight_and_distrib]

/-- A flag is raised in the union of two words if it is in one of them. -/
@[simp] theorem flagOf_or (a b : UInt32) (k : Nat) :
    flagOf (a ||| b) k = (flagOf a k || flagOf b k) := by
  simp only [flagOf, UInt32.toNat_or, Nat.testBit_or]

/-- A flag is raised in the intersection of two words if it is in both. -/
@[simp] theorem flagOf_and (a b : UInt32) (k : Nat) :
    flagOf (a &&& b) k = (flagOf a k && flagOf b k) := by
  simp only [flagOf, UInt32.toNat_and, Nat.testBit_and]

/-- Masking a word with a single flag tells whether that flag is raised. -/
theorem and_ne_zero_eq_flagOf (word : UInt32) {mask : UInt32} {k : Nat}
    (single : mask.toNat = 2 ^ k) : (word &&& mask != 0) = flagOf word k := by
  -- The masked word is the flag alone, or nothing.
  have zero : (word &&& mask = 0) ↔ (word &&& mask).toNat = 0 := by
    rw [← UInt32.toNat_inj]
    rfl
  have masked : (word &&& mask).toNat = (word.toNat.testBit k).toNat * 2 ^ k := by
    rw [UInt32.toNat_and, single, Nat.and_two_pow]
  have positive := Nat.two_pow_pos k
  cases raised : word.toNat.testBit k with
  | true =>
    rw [raised] at masked
    simp only [flagOf, raised, bne_iff_ne, ne_eq, zero, masked, Bool.toNat_true]
    omega
  | false =>
    rw [raised] at masked
    simp only [flagOf, raised, bne_eq_false_iff_eq, zero, masked, Bool.toNat_false, Nat.zero_mul]

/-- Clearing the flag bits leaves the address of the page. -/
theorem toNat_and_pageMask (word : UInt32) :
    (word &&& 0xFFFFF000).toNat = pageOf word * 4096 := by
  have bound := word.toNat_lt
  -- The two sides are compared digit by digit.
  apply Nat.eq_of_testBit_eq
  intro k
  have mask : (0xFFFFF000 : UInt32).toNat = (2 ^ 20 - 1) * 2 ^ 12 := rfl
  rw [UInt32.toNat_and, Nat.testBit_and, mask, Nat.testBit_mul_two_pow, Nat.testBit_two_pow_sub_one,
    pageOf, show (4096 : Nat) = 2 ^ 12 from rfl, Nat.testBit_mul_two_pow, Nat.testBit_div_two_pow]
  -- Below bit twelve both are clear; from there on the mask has its twenty ones.
  by_cases low : 12 ≤ k
  · have back : k - 12 + 12 = k := by omega
    rw [back]
    by_cases high : k < 32
    · simp only [low, decide_true, Bool.true_and, show k - 12 < 20 by omega, Bool.and_true]
    · have clear : word.toNat.testBit k = false :=
        Nat.testBit_lt_two_pow (lt_of_lt_of_le bound (Nat.pow_le_pow_right (by omega) (by omega)))
      simp [clear]
  · simp [low]

/-- Keeping only the flag bits leaves the offset inside the page. -/
theorem toNat_and_offsetMask (word : UInt32) : (word &&& ~~~0xFFFFF000).toNat = word.toNat % 4096 := by
  -- The complement of the mask has its twelve ones below.
  have mask : (~~~(0xFFFFF000 : UInt32)).toNat = 2 ^ 12 - 1 := rfl
  rw [UInt32.toNat_and, mask, Nat.and_two_pow_sub_one_eq_mod]

/-- Without flags a word is determined by its page number. -/
theorem toNat_eq_of_aligned {word : UInt32} (aligned : word.toNat % 4096 = 0) :
    word.toNat = pageOf word * 4096 := by
  -- The remainder is zero.
  unfold pageOf
  omega

/-- The address of a page below the top of the address space. -/
theorem toNat_ofNat_page {page : Nat} (inside : page < 2 ^ 20) :
    (UInt32.ofNat (page * 4096)).toNat = page * 4096 := by
  -- The address is below 2^32, so nothing is cut off.
  rw [UInt32.toNat_ofNat']
  omega

/-- The page number comes back from the address of its page. -/
@[simp] theorem pageOf_ofNat_page {page : Nat} (inside : page < 2 ^ 20) :
    pageOf (UInt32.ofNat (page * 4096)) = page := by
  -- The address fits in a word.
  rw [pageOf, toNat_ofNat_page inside]
  omega

end MyOS
