import MyOS.Fs.Files

/-! Directory entries in a byte buffer: storing one, and closing the gap a removed one leaves. -/

namespace MyOS.Fs

/-- A directory entry: an inode number and a name. -/
abbrev Entry := UInt32 × CString

/-- A slot of a byte buffer holds an entry, whose name leaves room for its terminator. -/
structure EntryAt (bytes : Nat → UInt8) (slot : Nat) (entry : Entry) : Prop where
  inode : wordAt bytes (entrySize * slot) = entry.1
  named : entry.2.storedAt bytes (entrySize * slot + 4) = true
  short : entry.2.chars.length < nameCapacity

/-- What a slot holds depends only on its 32 bytes. -/
theorem EntryAt.congr {bytes bytes' : Nat → UInt8} {slot slot' : Nat} {entry : Entry}
    (holds : EntryAt bytes slot entry)
    (same : ∀ k, k < 32 → bytes' (32 * slot' + k) = bytes (32 * slot + k)) :
    EntryAt bytes' slot' entry := by
  -- The word of the inode and every character of the name lie within the 32 bytes.
  have short := holds.short
  simp only [nameCapacity] at short
  refine ⟨?_, ?_, holds.short⟩
  · rw [← holds.inode]
    simp only [wordAt, entrySize]
    rw [← Nat.add_zero (32 * slot), ← Nat.add_zero (32 * slot')]
    simp only [Nat.add_assoc]
    rw [same _ (by omega), same _ (by omega), same _ (by omega), same _ (by omega)]
  · obtain ⟨chars, stop⟩ := CString.storedAt_iff.mp holds.named
    simp only [entrySize, Nat.add_assoc] at chars stop ⊢
    rw [CString.storedAt_iff]
    refine ⟨fun k inside => ?_, ?_⟩
    · rw [Nat.add_assoc, same _ (by omega)]
      exact chars k inside
    · rw [Nat.add_assoc, same _ (by omega)]
      exact stop

/-- Comparing a short name with that of a slot depends only on the slot's bytes. -/
theorem storedAt_slot_congr {bytes bytes' : Nat → UInt8} {slot : Nat} {name : CString}
    (short : name.chars.length < nameCapacity)
    (same : ∀ k, k < 32 → bytes' (32 * slot + k) = bytes (32 * slot + k)) :
    name.storedAt bytes' (entrySize * slot + 4) = name.storedAt bytes (entrySize * slot + 4) := by
  -- A short name and its terminator lie within the slot.
  simp only [nameCapacity] at short
  rw [Bool.eq_iff_iff, CString.storedAt_iff, CString.storedAt_iff]
  simp only [entrySize, Nat.add_assoc]
  rw [same _ (by omega)]
  refine and_congr ⟨fun chars k inside => ?_, fun chars k inside => ?_⟩ Iff.rfl
  · rw [← same _ (by omega)]
    exact chars k inside
  · rw [same _ (by omega)]
    exact chars k inside

/-- A slot that holds an entry bears its name and no other. -/
theorem EntryAt.named_iff {bytes : Nat → UInt8} {slot : Nat} {entry : Entry}
    (holds : EntryAt bytes slot entry) (name : CString) :
    name.storedAt bytes (entrySize * slot + 4) = true ↔ entry.2 = name :=
  -- The name a slot bears is unique.
  ⟨fun stored => CString.storedAt_unique holds.named stored, fun same => same ▸ holds.named⟩

section Scratch

variable {scratch : Scratch} {slot : Nat}

/-- The bytes `copy_name` stores for a name that fits: the characters and the terminator. -/
theorem copyName_short {name : CString} (short : name.chars.length < nameCapacity) :
    copyName name nameCapacity = name.chars ++ [0] := by
  -- A name that fits is not cut.
  simp only [nameCapacity] at short
  rw [copyName, if_neg (by decide), List.take_of_length_le (by simp only [nameCapacity]; omega)]

/-- Storing an entry leaves the bytes outside its slot alone. -/
theorem get_setEntry_outside (inode : UInt32) {name : CString} {p : Nat} (inside : p < 68608)
    (outside : p < 32 * slot ∨ 32 * slot + 32 ≤ p) :
    (setEntry scratch slot inode name).get p = scratch.get p := by
  -- The bytes stored are the inode's four and at most 28 of the name.
  have length : (copyName name nameCapacity).length ≤ 28 := by
    unfold copyName
    rw [if_neg (by decide), List.length_append, List.length_take]
    simp only [nameCapacity, List.length_cons, List.length_nil]
    omega
  unfold setEntry
  rw [FixedArray.get_blit _ _ _ inside, if_neg, FixedArray.get_blit _ _ _ inside, if_neg]
  · simp only [List.length_map, List.length_range, entrySize]
    omega
  · simp only [entrySize]
    omega

/-- A slot inside the buffer holds the entry stored in it. -/
theorem entryAt_setEntry (inode : UInt32) {name : CString}
    (room : 32 * slot + 32 ≤ 68608) (short : name.chars.length < nameCapacity) :
    EntryAt (setEntry scratch slot inode name).get slot (inode, name) := by
  have length := short
  simp only [nameCapacity] at length
  -- From byte 4 of the slot on, the buffer holds the name and its terminator.
  have stored : ∀ k, k < name.chars.length + 1 →
      (setEntry scratch slot inode name).get (32 * slot + 4 + k) = (name.chars ++ [0]).getD k 0 := by
    intro k inside
    unfold setEntry
    rw [copyName_short short, FixedArray.get_blit _ _ _ (by omega), if_pos]
    · simp only [entrySize, Nat.add_sub_cancel_left]
      rfl
    · simp only [entrySize, List.length_append, List.length_cons, List.length_nil]
      omega
  refine ⟨wordAt_of_bytes fun k inside => ?_, ?_, short⟩
  · -- The name starts behind the inode number.
    unfold setEntry
    rw [FixedArray.get_blit _ _ _ (by simp only [entrySize]; omega), if_neg (by omega),
      FixedArray.get_blit _ _ _ (by simp only [entrySize]; omega), if_pos
        (by simp only [List.length_map, List.length_range]; omega),
      Nat.add_sub_cancel_left, List.getD_eq_getElem _ _ (by simpa using inside)]
    simp
  · rw [CString.storedAt_iff]
    simp only [entrySize]
    refine ⟨fun k inside => ?_, ?_⟩
    · rw [stored k (by omega), List.getD_append _ _ _ _ inside]
    · rw [stored _ (by omega), List.getD_append_right _ _ _ _ (Nat.le_refl _), Nat.sub_self]
      rfl

/-- Copying the next entry over one moves its 32 bytes forward. -/
theorem get_copyEntry {p : Nat} (inside : p < 68608) :
    (copyEntry scratch slot (slot + 1)).get p =
      if 32 * slot ≤ p ∧ p < 32 * slot + 32 then scratch.get (p + 32) else scratch.get p := by
  -- The copy is a blit of 32 bytes, so a byte is inside the slot or it is kept.
  unfold copyEntry
  rw [FixedArray.get_blit _ _ _ inside]
  simp only [entrySize, List.length_map, List.length_range]
  split
  · rename_i range
    rw [List.getD_eq_getElem _ _ (by simp; omega)]
    simp only [List.getElem_map, List.getElem_range]
    congr 1
    omega
  · rfl

/-- Closing a gap moves the bytes of all later entries forward. -/
theorem get_shiftEntries {count p : Nat} (inside : p < 68608) :
    (shiftEntries scratch slot count).get p =
      if 32 * slot ≤ p ∧ p < 32 * (slot + count) then scratch.get (p + 32) else scratch.get p := by
  induction count generalizing scratch slot with
  | zero =>
    rw [if_neg (by omega)]
    rfl
  | succ count ih =>
    rw [shiftEntries, ih]
    by_cases first : 32 * slot ≤ p ∧ p < 32 * slot + 32
    · -- The first slot receives its bytes now, and no later turn writes it again.
      rw [if_neg (by omega), get_copyEntry inside, if_pos first, if_pos (by omega)]
    · by_cases later : 32 * (slot + 1) ≤ p ∧ p < 32 * (slot + 1 + count)
      · rw [if_pos later, if_pos (by omega)]
        by_cases reached : p + 32 < 68608
        · rw [get_copyEntry reached, if_neg (by omega)]
        · simp only [FixedArray.get, dif_neg reached]
      · rw [if_neg later, get_copyEntry inside, if_neg first, if_neg (by omega)]

end Scratch

end MyOS.Fs
