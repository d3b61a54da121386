import Mathlib.Data.List.GetD
import Mathlib.Tactic.NormNum

/-! Little-endian words and NUL-terminated strings over bytes, as C lays them out. -/

namespace MyOS

/-- Byte `k` of a 16-bit word, least significant first. -/
def byteOf16 (word : UInt16) (k : Nat) : UInt8 :=
  UInt8.ofNat (word.toNat / 256 ^ k)

/-- The 16-bit word two consecutive bytes spell. -/
def word16 (b0 b1 : UInt8) : UInt16 :=
  UInt16.ofNat (b0.toNat + 256 * b1.toNat)

/-- Byte `k` of a 32-bit word, least significant first. -/
def byteOf32 (word : UInt32) (k : Nat) : UInt8 :=
  UInt8.ofNat (word.toNat / 256 ^ k)

/-- The 32-bit word four consecutive bytes spell. -/
def word32 (b0 b1 b2 b3 : UInt8) : UInt32 :=
  UInt32.ofNat (b0.toNat + 256 * b1.toNat + 65536 * b2.toNat + 16777216 * b3.toNat)

/-- The 32-bit word stored from position `at_` on. -/
def wordAt (bytes : Nat → UInt8) (at_ : Nat) : UInt32 :=
  word32 (bytes at_) (bytes (at_ + 1)) (bytes (at_ + 2)) (bytes (at_ + 3))

/-- A 16-bit word reads back from its two bytes. -/
@[simp] theorem word16_byteOf16 (word : UInt16) :
    word16 (byteOf16 word 0) (byteOf16 word 1) = word := by
  -- The two quotients are the base-256 digits of a number below 2^16.
  apply UInt16.toNat_inj.mp
  have bound := word.toNat_lt
  simp only [word16, byteOf16, UInt16.toNat_ofNat', UInt8.toNat_ofNat', pow_zero, pow_one]
  omega

/-- A 32-bit word reads back from its four bytes. -/
@[simp] theorem word32_byteOf32 (word : UInt32) :
    word32 (byteOf32 word 0) (byteOf32 word 1) (byteOf32 word 2) (byteOf32 word 3) = word := by
  apply UInt32.toNat_inj.mp
  have bound := word.toNat_lt
  -- The four quotients are the base-256 digits of a number below 2^32.
  simp only [word32, byteOf32, UInt32.toNat_ofNat', UInt8.toNat_ofNat', pow_zero, pow_one]
  norm_num
  omega

/-- A stored word depends only on the four bytes it occupies. -/
theorem wordAt_congr {bytes bytes' : Nat → UInt8} {at_ : Nat}
    (same : ∀ k, at_ ≤ k → k < at_ + 4 → bytes k = bytes' k) :
    wordAt bytes at_ = wordAt bytes' at_ := by
  -- The word is spelled from these four bytes.
  simp only [wordAt]
  rw [same at_ (by omega) (by omega), same (at_ + 1) (by omega) (by omega),
    same (at_ + 2) (by omega) (by omega), same (at_ + 3) (by omega) (by omega)]

/-- A position whose four bytes are those of a word stores that word. -/
theorem wordAt_of_bytes {bytes : Nat → UInt8} {at_ : Nat} {word : UInt32}
    (stored : ∀ k, k < 4 → bytes (at_ + k) = byteOf32 word k) : wordAt bytes at_ = word := by
  -- The four bytes are those of the word, which reads back from them.
  have h0 := stored 0 (by omega)
  have h1 := stored 1 (by omega)
  have h2 := stored 2 (by omega)
  have h3 := stored 3 (by omega)
  simp only [Nat.add_zero] at h0
  rw [wordAt, h0, h1, h2, h3, word32_byteOf32]

/-- A C string: its characters up to the terminating NUL, which is not one of them. -/
structure CString where
  chars : List UInt8
  noNul : 0 ∉ chars
  deriving DecidableEq

namespace CString

/-- Whether `strcmp` finds the string stored from a position on equal to a given one. -/
def storedAt (name : CString) (bytes : Nat → UInt8) (start : Nat) : Bool :=
  (List.range name.chars.length).all (fun k => bytes (start + k) == name.chars.getD k 0) &&
    bytes (start + name.chars.length) == 0

/-- Comparing equal means holding the characters in order and then the terminator. -/
theorem storedAt_iff {name : CString} {bytes : Nat → UInt8} {start : Nat} :
    name.storedAt bytes start = true ↔
      (∀ k, k < name.chars.length → bytes (start + k) = name.chars.getD k 0) ∧
        bytes (start + name.chars.length) = 0 := by
  -- All the comparisons hold, and the last byte ends the string.
  simp [storedAt, List.all_eq_true]

/-- Strings with the same characters are the same string. -/
theorem ext_chars {a b : CString} (same : a.chars = b.chars) : a = b := by
  cases a; cases b; simp_all

/-- Inside a string no character is the terminator. -/
theorem getD_ne_zero (name : CString) {k : Nat} (inside : k < name.chars.length) :
    name.chars.getD k 0 ≠ 0 := by
  -- A zero among the characters would end the string too early.
  rw [List.getD_eq_getElem _ _ inside]
  intro zero
  exact name.noNul (zero ▸ List.getElem_mem inside)

/-- At most one string is stored at a position. -/
theorem storedAt_unique {a b : CString} {bytes : Nat → UInt8} {start : Nat}
    (first : a.storedAt bytes start = true) (second : b.storedAt bytes start = true) : a = b := by
  obtain ⟨charsA, endA⟩ := storedAt_iff.mp first
  obtain ⟨charsB, endB⟩ := storedAt_iff.mp second
  -- A shorter string would end on a character of the longer one.
  have lengths : a.chars.length = b.chars.length := by
    rcases Nat.lt_trichotomy a.chars.length b.chars.length with less | same | more
    · exact absurd (charsB _ less ▸ endA) (b.getD_ne_zero less)
    · exact same
    · exact absurd (charsA _ more ▸ endB) (a.getD_ne_zero more)
  -- With the same length the characters are compared one by one.
  apply ext_chars
  apply List.ext_getElem lengths
  intro k inA inB
  have eqA := charsA k inA
  have eqB := charsB k inB
  rw [List.getD_eq_getElem _ _ inA] at eqA
  rw [List.getD_eq_getElem _ _ inB] at eqB
  exact eqA.symm.trans eqB

end CString

/-- A word and further words, each behind a separator, joined by it. -/
theorem intercalate_cons_eq {α : Type} (separator : α) (word : List α) (words : List (List α)) :
    [separator].intercalate (word :: words) =
      word ++ words.flatMap fun next => [separator] ++ next := by
  -- By induction on the words, each of which brings its separator along.
  induction words generalizing word with
  | nil => simp
  | cons next rest ih =>
    rw [List.intercalate_cons_cons, ih next, List.flatMap_cons]
    simp

/-- Words that do not contain the separator in front of each can be told apart again. -/
theorem flatMap_separator_injective {α : Type} [DecidableEq α] {separator : α}
    {words words' : List (List α)} (clean : ∀ word ∈ words, separator ∉ word)
    (clean' : ∀ word ∈ words', separator ∉ word)
    (same : words.flatMap (fun word => [separator] ++ word) =
      words'.flatMap fun word => [separator] ++ word) : words = words' := by
  -- Splitting at the separator gives the words back, behind an empty first part.
  have split : ∀ {words : List (List α)}, (∀ word ∈ words, separator ∉ word) →
      (words.flatMap fun word => [separator] ++ word).splitOn separator = [] :: words := by
    intro words clean
    rw [← List.nil_append (words.flatMap _), ← intercalate_cons_eq,
      List.splitOn_intercalate _ (by simpa using clean) (by simp)]
  have equal := split clean
  rw [same, split clean'] at equal
  exact (List.cons.inj equal).2.symm

end MyOS
