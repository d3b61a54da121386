import MyOS.Fs.Runs

/-! Directories as lists of entries: what is found in them, and how they grow and shrink. -/

namespace MyOS.Fs

/-- The bytes of a directory, as a buffer. -/
def SimpleFs.image (s : SimpleFs) (dir : Nat) (p : Nat) : UInt8 :=
  (s.bytes dir 0 maxFileSize).getD p 0

/-- A directory holds a list of entries, none of them struck out. -/
structure Listed (s : SimpleFs) (dir : Nat) (entries : List Entry) : Prop where
  readable : s.Readable dir
  count : s.entryCount dir = entries.length
  stored : ∀ (slot : Nat) (inside : slot < entries.length),
    EntryAt (s.image dir) slot entries[slot]
  valid : ∀ entry ∈ entries, entry.1 ≠ invalidInode

/-- The characters of a slot's name, up to its terminator, are those of its entry. -/
theorem EntryAt.slotName {bytes : Nat → UInt8} {slot : Nat} {entry : Entry}
    (holds : EntryAt bytes slot entry) : Fs.slotName bytes slot = entry.2.chars := by
  obtain ⟨chars, stop⟩ := CString.storedAt_iff.mp holds.named
  have short := holds.short
  obtain ⟨rest, capacity⟩ : ∃ rest, nameCapacity = entry.2.chars.length + (rest + 1) :=
    ⟨nameCapacity - entry.2.chars.length - 1, by omega⟩
  -- The characters come first, and the terminator right behind them.
  have first : (List.range entry.2.chars.length).map (fun k => bytes (entrySize * slot + 4 + k)) =
      entry.2.chars := by
    refine List.ext_getElem (by simp) fun k _ inside => ?_
    simp only [List.getElem_map, List.getElem_range]
    rw [chars k inside, List.getD_eq_getElem _ _ inside]
  unfold Fs.slotName
  rw [capacity, List.range_add, List.map_append, first, List.range_succ_eq_map, List.map_cons,
    List.map_cons, Nat.add_zero entry.2.chars.length, stop, List.takeWhile_append_of_pos,
    List.takeWhile_cons_of_neg,
    List.append_nil]
  · simp
  · intro c member
    rw [bne_iff_ne]
    rintro rfl
    exact entry.2.noNul member

section Listed

variable {s t : SimpleFs} {dir : Nat} {entries : List Entry}

/-- A directory holds as many entries as fit in a file. -/
theorem entryCount_le (s : SimpleFs) (dir : Nat) : s.entryCount dir ≤ maxDirectoryEntries := by
  -- The bytes read are no more than a file holds.
  have bound := bytes_length_le s dir 0 maxFileSize
  simp only [SimpleFs.entryCount, maxDirectoryEntries, maxFileSize, entrySize] at bound ⊢
  omega

namespace Listed

/-- Once loaded, the slots of the scratch buffer hold the entries. -/
theorem loaded (listed : Listed s dir entries) {slot : Nat} (inside : slot < entries.length) :
    EntryAt (s.loaded dir).get slot entries[slot] := by
  refine (listed.stored slot inside).congr fun k small => ?_
  -- The slot lies inside the bytes that were loaded.
  have count := listed.count
  have bound := bytes_length_le s dir 0 maxFileSize
  simp only [SimpleFs.entryCount, entrySize, maxFileSize] at count bound
  have within : 32 * slot + k < (s.bytes dir 0 maxFileSize).length := by
    simp only [maxFileSize]
    omega
  exact loaded_get listed.readable within (by simp only [maxFileSize] at within; omega)

/-- Whether a slot of the scratch buffer matches a name is whether its entry bears the name. -/
theorem match_iff (listed : Listed s dir entries) (name : CString) {slot : Nat}
    (inside : slot < entries.length) :
    (entryInode (s.loaded dir) slot != invalidInode && entryNamed (s.loaded dir) slot name) = true ↔
      entries[slot].2 = name := by
  -- Both tests are about the entry that the slot holds.
  have holds := listed.loaded inside
  have inode : entryInode (s.loaded dir) slot = entries[slot].1 := holds.inode
  have valid := listed.valid _ (List.getElem_mem inside)
  rw [Bool.and_eq_true, inode, bne_iff_ne]
  exact ⟨fun both => (holds.named_iff name).mp both.2,
    fun same => ⟨valid, (holds.named_iff name).mpr same⟩⟩

/-- Two states with one list of entries find a name in the same place. -/
theorem lookup_congr (listed : Listed s dir entries) (listedT : Listed t dir entries)
    (name : CString) : t.lookup dir name = s.lookup dir name := by
  -- The search meets the same inodes and the same names at every slot.
  have inodes : ∀ slot, slot < entries.length →
      entryInode (t.loaded dir) slot = entryInode (s.loaded dir) slot := fun slot inside =>
    Eq.trans (listedT.loaded inside).inode (listed.loaded inside).inode.symm
  have slots : SimpleFs.findSlot (t.loaded dir) entries.length name =
      SimpleFs.findSlot (s.loaded dir) entries.length name := by
    refine List.find?_congr fun slot member => ?_
    have inside := List.mem_range.mp member
    rw [Bool.eq_iff_iff, listedT.match_iff name inside, listed.match_iff name inside]
  rw [SimpleFs.lookup, SimpleFs.lookup, if_pos listedT.readable, if_pos listed.readable,
    listedT.count, listed.count, slots]
  cases found : SimpleFs.findSlot (s.loaded dir) entries.length name with
  | none => rfl
  | some slot =>
    have inside := List.mem_range.mp (List.mem_of_find?_eq_some found)
    rw [Option.map_some, Option.map_some, inodes slot inside]

/-- A name is absent exactly if no entry bears it. -/
theorem lookup_none (listed : Listed s dir entries) (name : CString) :
    s.lookup dir name = none ↔ ∀ entry ∈ entries, entry.2 ≠ name := by
  -- The search fails exactly if no slot below the count matches.
  rw [SimpleFs.lookup, if_pos listed.readable, Option.map_eq_none_iff, SimpleFs.findSlot,
    List.find?_eq_none, listed.count]
  constructor
  · intro none entry member same
    obtain ⟨slot, inside, rfl⟩ := List.getElem_of_mem member
    exact none slot (List.mem_range.mpr inside) ((listed.match_iff name inside).mpr same)
  · intro none slot member found
    have inside := List.mem_range.mp member
    exact none _ (List.getElem_mem inside) ((listed.match_iff name inside).mp found)

/-- What is found under a name is an entry that bears it. -/
theorem lookup_some (listed : Listed s dir entries) {name : CString} {inode : UInt32} {slot : Nat}
    (found : s.lookup dir name = some (inode, slot)) : entries[slot]? = some (inode, name) := by
  -- The slot found is below the count and matches.
  rw [SimpleFs.lookup, if_pos listed.readable, Option.map_eq_some_iff] at found
  obtain ⟨place, search, same⟩ := found
  obtain ⟨rfl, rfl⟩ := Prod.mk.inj same
  rw [SimpleFs.findSlot, listed.count] at search
  have inside := List.mem_range.mp (List.mem_of_find?_eq_some search)
  have matched := @List.find?_some _ (fun slot => entryInode (s.loaded dir) slot != invalidInode &&
    entryNamed (s.loaded dir) slot name) _ _ search
  have named := (listed.match_iff name inside).mp matched
  have inode : entryInode (s.loaded dir) place = entries[place].1 := (listed.loaded inside).inode
  rw [List.getElem?_eq_getElem inside, inode, ← named]

/-- A directory is empty exactly if all its entries are the two special ones. -/
theorem special_iff (listed : Listed s dir entries) :
    (List.range (s.entryCount dir)).all (entrySpecial (s.loaded dir)) = true ↔
      ∀ entry ∈ entries, entry.2 = dot ∨ entry.2 = dotDot := by
  -- The two special names are compared one after the other.
  have special : ∀ {slot : Nat} (inside : slot < entries.length),
      entrySpecial (s.loaded dir) slot = true ↔
        entries[slot].2 = dot ∨ entries[slot].2 = dotDot := by
    intro slot inside
    have holds := listed.loaded inside
    rw [entrySpecial, Bool.or_eq_true]
    exact or_congr (holds.named_iff dot) (holds.named_iff dotDot)
  rw [List.all_eq_true, listed.count]
  constructor
  · intro all entry member
    obtain ⟨slot, inside, rfl⟩ := List.getElem_of_mem member
    exact (special inside).mp (all slot (List.mem_range.mpr inside))
  · intro all slot member
    have inside := List.mem_range.mp member
    exact (special inside).mpr (all _ (List.getElem_mem inside))

/-- A directory that keeps its type, its size and its bytes keeps its entries. -/
theorem congr (listed : Listed s dir entries) (used : t.inodeUsed dir = true)
    (type : (t.inodeTable.get dir).type = (s.inodeTable.get dir).type)
    (size : (t.inodeTable.get dir).size = (s.inodeTable.get dir).size)
    (bytes : ∀ offset bufferSize, t.bytes dir offset bufferSize = s.bytes dir offset bufferSize) :
    Listed t dir entries where
  -- Readability, count and stored entries all come from the three that stayed.
  readable := by
    obtain ⟨inTable, -, directory, bound⟩ := listed.readable
    exact ⟨inTable, used, type.trans directory, by rw [size]; exact bound⟩
  count := by
    rw [← listed.count, SimpleFs.entryCount, bytes]
    rfl
  stored := fun slot inside => (listed.stored slot inside).congr fun k _ => by
    simp only [SimpleFs.image, bytes]
  valid := listed.valid

/-- Two states of one volume list the same entries. -/
theorem quiet (listed : Listed s dir entries) (quiet : Quiet s t) : Listed t dir entries :=
  listed.congr (by rw [quiet.inodeUsed]; exact listed.readable.2.1) (by rw [quiet.inodeTable])
    (by rw [quiet.inodeTable]) fun offset bufferSize => quiet.bytes _ _ _

/-- A directory an operation does not touch keeps its entries. -/
theorem kept {touched rewritten : Nat → Prop} (listed : Listed s dir entries) (mounted : Mounted s)
    (moves : Moves touched rewritten s t) (untouched : ¬ touched dir) : Listed t dir entries := by
  -- An untouched inode keeps its record and its bytes.
  obtain ⟨inTable, used, -⟩ := listed.readable
  obtain ⟨usedT, record, bytes⟩ := moves.kept mounted inTable used untouched
  exact listed.congr usedT (by rw [record]) (by rw [record]) bytes

/-- The entries of a directory, as loading it gives them. -/
theorem listing (listed : Listed s dir entries) (mounted : Mounted s) :
    Fs.listing dir s = some (entries.map fun entry => (entry.1, entry.2.chars)) := by
  -- Entry by entry, the bytes of the slot are those of the entry.
  rw [listing_eq mounted, if_pos listed.readable, listed.count]
  congr 1
  refine List.ext_getElem (by simp [entriesOf]) fun slot inside _ => ?_
  simp only [entriesOf, List.length_map, List.length_range] at inside
  have holds := listed.stored slot inside
  simp only [entriesOf, List.getElem_map, List.getElem_range]
  exact Prod.ext holds.inode (holds.slotName)

end Listed

/-- A directory filled from a buffer holds the entries of the buffer. -/
theorem Filled.listed {data : Nat → UInt8} {size : Nat}
    (filled : Filled dir data size t) (sized : size = entries.length * entrySize)
    (fits : entries.length ≤ maxDirectoryEntries) (inTable : dir < maxInodes)
    (used : t.inodeUsed dir = true) (type : (t.inodeTable.get dir).type = typeDirectory)
    (stored : ∀ (slot : Nat) (inside : slot < entries.length), EntryAt data slot entries[slot])
    (valid : ∀ entry ∈ entries, entry.1 ≠ invalidInode) : Listed t dir entries := by
  -- The bytes written are the entries, so the count and every slot read back.
  subst sized
  have bound : entries.length * entrySize ≤ maxFileSize := by
    simp only [maxDirectoryEntries, maxFileSize, entrySize] at fits ⊢
    omega
  have bytes : t.bytes dir 0 maxFileSize = (List.range (entries.length * entrySize)).map data := by
    rw [filled.bytes bound, Nat.sub_zero, Nat.min_eq_left bound]
    simp only [Nat.zero_add]
  refine ⟨⟨inTable, used, type, (filled.shapedAt bound).size used⟩, ?_, ?_, valid⟩
  · rw [SimpleFs.entryCount, bytes, List.length_map, List.length_range]
    simp only [entrySize]
    omega
  · intro slot inside
    refine (stored slot inside).congr fun k small => ?_
    rw [SimpleFs.image, bytes, List.getD_eq_getElem _ _ (by
      simp only [List.length_map, List.length_range, entrySize]; omega)]
    simp

/-- Appending an entry to a directory that was read into a buffer. -/
theorem Listed.append (listed : Listed s dir entries) {base : Scratch} {inode : UInt32}
    {name : CString} (room : entries.length < maxDirectoryEntries) (valid : inode ≠ invalidInode)
    (short : name.chars.length < nameCapacity)
    (filled : Filled dir (setEntry (base.blit 0 (s.bytes dir 0 maxFileSize)) entries.length inode
      name).get ((entries.length + 1) * entrySize) t)
    (used : t.inodeUsed dir = true) (type : (t.inodeTable.get dir).type = typeDirectory) :
    Listed t dir (entries ++ [(inode, name)]) := by
  have bounded := room
  simp only [maxDirectoryEntries, maxFileSize, entrySize] at bounded
  refine filled.listed (by simp) ?_ listed.readable.1 used type ?_ ?_
  · rw [List.length_append, List.length_singleton]
    exact room
  · intro slot inside
    rw [List.length_append, List.length_singleton] at inside
    by_cases old : slot < entries.length
    · -- Earlier slots hold the bytes that were read.
      rw [List.getElem_append_left old]
      refine (listed.stored slot old).congr fun k small => ?_
      have count := listed.count
      simp only [SimpleFs.entryCount, entrySize] at count
      rw [get_setEntry_outside inode (by omega) (Or.inl (by omega)),
        FixedArray.get_blit _ _ _ (by omega), if_pos (by omega), Nat.sub_zero]
      rfl
    · obtain rfl : slot = entries.length := by omega
      rw [List.getElem_append_right (Nat.le_refl _)]
      simp only [Nat.sub_self, List.getElem_cons_zero]
      exact entryAt_setEntry inode (by omega) short
  · intro entry member
    rcases List.mem_append.mp member with old | new
    · exact listed.valid entry old
    · rw [List.mem_singleton.mp new]
      exact valid

/-- Taking an entry out of a directory that was read into the scratch buffer. -/
theorem Listed.remove (listed : Listed s dir entries) {slot : Nat} (inside : slot < entries.length)
    (filled : Filled dir (s.removed dir slot).get ((s.entryCount dir - 1) * entrySize) t)
    (used : t.inodeUsed dir = true) (type : (t.inodeTable.get dir).type = typeDirectory) :
    Listed t dir (entries.eraseIdx slot) := by
  have length : (entries.eraseIdx slot).length = entries.length - 1 := by
    rw [List.length_eraseIdx, if_pos inside]
  have most := entryCount_le s dir
  rw [listed.count] at filled most
  have bounded := most
  simp only [maxDirectoryEntries, maxFileSize, entrySize] at bounded
  refine filled.listed (by rw [length]) (by omega) listed.readable.1 used type ?_ ?_
  · intro k small
    rw [length] at small
    -- The bytes of a later slot moved forward; those of an earlier one stayed.
    have moved : ∀ p, p < 32 * (entries.length - 1) → (s.removed dir slot).get p =
        if 32 * slot ≤ p then (s.loaded dir).get (p + 32) else (s.loaded dir).get p := by
      intro p low
      unfold SimpleFs.removed
      simp only [listed.count, if_pos (show entries.length > 0 by omega), entrySize]
      rw [FixedArray.get_set_ne _ _ (by omega), FixedArray.get_blit _ _ _ (by omega),
        if_neg (by omega), get_shiftEntries (by omega)]
      by_cases behind : 32 * slot ≤ p
      · rw [if_pos (by omega), if_pos behind]
      · rw [if_neg (by omega), if_neg behind]
    rw [List.getElem_eraseIdx]
    split
    · rename_i before
      refine (listed.loaded (by omega)).congr fun j byte => ?_
      rw [moved _ (by omega), if_neg (by omega)]
    · refine (listed.loaded (by omega)).congr fun j byte => ?_
      rw [moved _ (by omega), if_pos (by omega)]
      congr 1
      omega
  · intro entry member
    exact listed.valid entry (List.mem_of_mem_eraseIdx member)

/-- A directory holds one list of entries only. -/
theorem Listed.unique {entries' : List Entry} (first : Listed s dir entries)
    (second : Listed s dir entries') : entries = entries' := by
  -- Both lists are stored in the same slots.
  have lengths : entries.length = entries'.length := first.count.symm.trans second.count
  refine List.ext_getElem lengths fun slot inside inside' => ?_
  have one := first.stored slot inside
  have other := second.stored slot inside'
  exact Prod.ext (one.inode.symm.trans other.inode) (CString.storedAt_unique one.named other.named)

end Listed

section Shrinking

variable {s : SimpleFs} {dir : Nat}

/-- A read from the start of an inode stops at its first hole. -/
theorem gather_solid (sectors : Nat → Sector) (inode : Inode) (remaining fuel : Nat)
    {logical l : Nat} {buffer : List UInt8} (filled : buffer.length ≤ 512 * logical)
    (later : logical ≤ l)
    (reached : 512 * l < (gather sectors inode remaining fuel logical 0 buffer).length) :
    pointer sectors inode l ≠ invalidBlock := by
  -- Induction on the fuel: had there been a hole before `l` the read would have stopped there.
  induction fuel generalizing logical buffer with
  | zero =>
    change 512 * l < buffer.length at reached
    omega
  | succ fuel ih =>
    unfold gather at reached
    by_cases more : buffer.length < remaining
    · rw [if_pos more] at reached
      by_cases hole : pointer sectors inode logical = invalidBlock
      · rw [if_pos hole] at reached
        omega
      · rw [if_neg hole] at reached
        by_cases here : logical = l
        · rw [← here]
          exact hole
        · refine ih ?_ (by omega) reached
          rw [List.length_append, List.length_map, List.length_range]
          simp only [sectorSize]
          omega
    · rw [if_neg more] at reached
      omega

/-- An inode holds the blocks that what can be read of it needs. -/
theorem need_bytes_le (s : SimpleFs) (index bufferSize : Nat) :
    need (s.bytes index 0 bufferSize).length ≤ (s.heldSlots index).length := by
  generalize lengthIs : (s.bytes index 0 bufferSize).length = length
  have solid : ∀ l, l < blocksOf length →
      pointer s.ata.sectors (s.inodeTable.get index) l ≠ invalidBlock := by
    intro l reached
    have inside : 512 * l < (s.bytes index 0 bufferSize).length := by
      simp only [blocksOf] at reached
      omega
    unfold SimpleFs.bytes inodeBytes at inside
    split at inside
    · exact absurd inside (Nat.not_lt_zero _)
    · exact gather_solid _ _ _ _ (by simp) (by simp [sectorSize]) inside
  have few : ∀ l, l < blocksOf length → l < 134 := by
    intro l reached
    by_contra beyond
    apply solid l reached
    rw [pointer, if_neg (by omega), if_neg (by omega)]
  -- Every place below the need is filled, so there are at least as many filled places.
  have places : List.range (need length) ⊆ s.heldSlots index := by
    intro k member
    rw [List.mem_range] at member
    have data : ∀ l, l < blocksOf length → s.slot index (dataSlot l) ≠ invalidBlock := by
      intro l reached
      rw [SimpleFs.slot, ← pointer_eq_slotBlock _ _ (few l reached)]
      exact solid l reached
    have held : k < slotLimit ∧ s.slot index k ≠ invalidBlock := by
      unfold need slotCount at member
      simp only [slotLimit]
      by_cases direct : k < 6
      · have := data k (by split at member <;> omega)
        rw [show dataSlot k = k by simp [dataSlot, direct]] at this
        exact ⟨by omega, this⟩
      · have many : 6 < blocksOf length := by
          by_contra low
          rw [if_pos (by omega)] at member
          omega
        rw [if_neg (by omega)] at member
        by_cases six : k = 6
        · -- Without an indirect block the seventh data block would be a hole.
          refine ⟨by omega, fun none => ?_⟩
          rw [six, slot_six] at none
          apply data 6 many
          simp only [SimpleFs.slot, slotBlock, tableOf, none, dataSlot]
          change (FixedArray.fill invalidBlock : IndirectTable).get 0 = invalidBlock
          exact FixedArray.get_fill _ (by decide)
        · have reached : k - 1 < blocksOf length := by omega
          have low := few (k - 1) reached
          have filled := data (k - 1) reached
          rw [show dataSlot (k - 1) = k by rw [dataSlot, if_neg (by omega)]; omega] at filled
          exact ⟨by omega, filled⟩
    simp [SimpleFs.heldSlots, held]
  have := (List.subperm_of_subset List.nodup_range places).length_le
  rwa [List.length_range] at this

/-- Less content needs no more blocks. -/
theorem need_mono {size size' : Nat} (fewer : size ≤ size') : need size ≤ need size' := by
  unfold need slotCount blocksOf
  split <;> split <;> omega

/-- A directory that loses an entry always fits where it was. -/
theorem Mounted.shrinks (mounted : Mounted s) (readable : s.Readable dir) :
    need ((s.entryCount dir - 1) * entrySize) ≤ s.capacity dir := by
  -- The entries are in blocks it holds, and one entry less needs no more.
  rw [mounted.capacity readable.1 readable.2.1]
  have held := need_bytes_le s dir maxFileSize
  have fewer : (s.entryCount dir - 1) * entrySize ≤ (s.bytes dir 0 maxFileSize).length := by
    simp only [SimpleFs.entryCount, entrySize]
    omega
  have := need_mono fewer
  omega

end Shrinking

end MyOS.Fs
