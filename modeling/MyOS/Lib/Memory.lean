import MyOS.Lib.Bytes
import Mathlib.Data.Nat.Bitwise

/-! Byte-addressed memory: words, blocks of bytes, and the pages they lie in. -/

namespace MyOS

/-- Physical memory, one byte at each address. -/
abbrev Memory := Nat → UInt8

namespace Memory

/-- The memory with one byte replaced. -/
def store (m : Memory) (at_ : Nat) (value : UInt8) : Memory :=
  fun k => if k = at_ then value else m k

/-- The memory with the bytes of a block replaced. -/
def copy (m : Memory) (start count : Nat) (bytes : Nat → UInt8) : Memory :=
  fun k => if start ≤ k ∧ k < start + count then bytes (k - start) else m k

/-- The memory with every byte of a block set to one value, as `memset` does. -/
def fill (m : Memory) (start : Nat) (value : UInt8) (count : Nat) : Memory :=
  m.copy start count fun _ => value

/-- The memory with a 32-bit word stored at an address. -/
def storeWord (m : Memory) (at_ : Nat) (word : UInt32) : Memory :=
  m.copy at_ 4 (byteOf32 word)

/-- Two memories hold the same bytes in a page of 4096. -/
def SamePage (m m' : Memory) (page : Nat) : Prop :=
  ∀ k, k < 4096 → m' (page * 4096 + k) = m (page * 4096 + k)

section Laws

variable {m m' m'' : Memory} {page : Nat}

/-- Outside the block the bytes stay. -/
theorem copy_outside {start count k : Nat} (bytes : Nat → UInt8)
    (outside : k < start ∨ start + count ≤ k) : m.copy start count bytes k = m k :=
  if_neg (by omega)

/-- Inside the block they are those that were copied. -/
theorem copy_inside {start count k : Nat} (bytes : Nat → UInt8) (inside : k < count) :
    m.copy start count bytes (start + k) = bytes k := by
  rw [copy, if_pos ⟨by omega, by omega⟩, Nat.add_sub_cancel_left]

/-- A stored word reads back. -/
@[simp] theorem wordAt_storeWord (m : Memory) (at_ : Nat) (word : UInt32) :
    wordAt (m.storeWord at_ word) at_ = word :=
  wordAt_of_bytes fun _ inside => copy_inside _ inside

/-- A word apart from the one stored keeps its value. -/
theorem wordAt_copy_apart {start count at_ : Nat} (bytes : Nat → UInt8)
    (apart : at_ + 4 ≤ start ∨ start + count ≤ at_) :
    wordAt (m.copy start count bytes) at_ = wordAt m at_ :=
  -- The four bytes of the word lie outside the copy.
  wordAt_congr fun _ _ _ => copy_outside _ (by omega)

/-- Words of memory filled with zeros are zero. -/
theorem wordAt_fill_zero {start count at_ : Nat} (inside : start ≤ at_ ∧ at_ + 4 ≤ start + count) :
    wordAt (m.fill start 0 count) at_ = 0 := by
  -- The four bytes of the word lie inside the block.
  have zero : ∀ k, at_ ≤ k → k < at_ + 4 → m.fill start 0 count k = 0 := fun k _ _ =>
    if_pos ⟨by omega, by omega⟩
  rw [wordAt, zero _ (by omega) (by omega), zero _ (by omega) (by omega),
    zero _ (by omega) (by omega), zero _ (by omega) (by omega)]
  rfl

namespace SamePage

/-- A memory has the same page as itself. -/
theorem refl (m : Memory) (page : Nat) : SamePage m m page := fun _ _ => rfl

/-- Memories with the same page one after the other have the same page. -/
theorem trans (first : SamePage m m' page) (second : SamePage m' m'' page) :
    SamePage m m'' page :=
  fun k inside => (second k inside).trans (first k inside)

/-- A block inside one page leaves every other page alone. -/
theorem copy {page other start count : Nat} (bytes : Nat → UInt8)
    (inside : start / 4096 = page ∧ (start % 4096) + count ≤ 4096) (apart : other ≠ page) :
    SamePage m (m.copy start count bytes) other := by
  -- The page of the block ends before the other one begins, or begins behind it.
  intro k small
  refine copy_outside _ ?_
  obtain ⟨rfl, fits⟩ := inside
  have split := Nat.div_add_mod start 4096
  rcases Nat.lt_or_gt_of_ne apart with below | above
  · left; omega
  · right; omega

/-- The words of a page stay the same with its bytes. -/
theorem wordAt (same : SamePage m m' page) {i : Nat} (inside : i < 1024) :
    wordAt m' (page * 4096 + 4 * i) = wordAt m (page * 4096 + 4 * i) := by
  -- The four bytes of the word are bytes of the page.
  refine wordAt_congr fun k low high => ?_
  have here := same (k - page * 4096) (by omega)
  have split : page * 4096 + (k - page * 4096) = k := by omega
  rw [split] at here
  exact here

end SamePage

/-- A word stored in a table of a page, read back at any index. -/
theorem wordAt_storeWord_index (m : Memory) (page : Nat) (i j : Nat) (word : UInt32) :
    wordAt (m.storeWord (page * 4096 + 4 * i) word) (page * 4096 + 4 * j) =
      if j = i then word else wordAt m (page * 4096 + 4 * j) := by
  -- Words at different indices do not overlap.
  by_cases same : j = i
  · subst same
    rw [if_pos rfl, wordAt_storeWord]
  · rw [if_neg same]
    exact wordAt_copy_apart _ (by omega)

end Laws

end Memory

end MyOS
