import Mathlib.Data.List.Find
import MyOS.Fs.EntryLaws
import MyOS.Fs.ReadLaws

/-! Directories on a mounted volume: what is loaded, what is found, and what is written back. -/

namespace MyOS.Fs

/-- Whether an inode can be read as a directory. -/
def SimpleFs.Readable (s : SimpleFs) (dir : Nat) : Prop :=
  dir < maxInodes ∧ s.inodeUsed dir = true ∧ (s.inodeTable.get dir).type = typeDirectory ∧
    (s.inodeTable.get dir).size.toNat ≤ maxFileSize

/-- Whether a directory can be read is decidable. -/
instance (s : SimpleFs) (dir : Nat) : Decidable (s.Readable dir) :=
  inferInstanceAs (Decidable (_ ∧ _ ∧ _ ∧ _))

namespace SimpleFs

/-- The scratch buffer once a directory was loaded into it. -/
def loaded (s : SimpleFs) (dir : Nat) : Scratch :=
  if s.Readable dir then s.directoryScratch.blit 0 (s.bytes dir 0 maxFileSize)
  else s.directoryScratch

/-- The number of entries of a directory. -/
def entryCount (s : SimpleFs) (dir : Nat) : Nat :=
  (s.bytes dir 0 maxFileSize).length / entrySize

/-- The slot of the first entry with a name. -/
def findSlot (scratch : Scratch) (count : Nat) (name : CString) : Option Nat :=
  (List.range count).find? fun slot =>
    entryInode scratch slot != invalidInode && entryNamed scratch slot name

/-- What looking up a name in a directory finds. -/
def lookup (s : SimpleFs) (dir : Nat) (name : CString) : Option (UInt32 × Nat) :=
  if s.Readable dir then
    (findSlot (s.loaded dir) (s.entryCount dir) name).map fun slot =>
      (entryInode (s.loaded dir) slot, slot)
  else none

/-- The state after a directory was loaded. -/
def scannedDir (s : SimpleFs) (dir : Nat) (transfers : Nat) : SimpleFs :=
  s.scanned transfers (s.loaded dir)

end SimpleFs

section Directory

variable {s : SimpleFs}

/-- Loading the same bytes twice is loading them once. -/
theorem blit_blit (scratch : Scratch) (values : List UInt8) :
    (scratch.blit 0 values).blit 0 values = scratch.blit 0 values := by
  -- Position by position: a byte is under the values or it is not.
  apply FixedArray.ext_get
  intro i inside
  rw [FixedArray.get_blit _ _ _ inside, FixedArray.get_blit _ _ _ inside]
  split <;> rfl

/-- A directory that was loaded is loaded already. -/
@[simp] theorem loaded_scannedDir (dir transfers : Nat) :
    (s.scannedDir dir transfers).loaded dir = s.loaded dir := by
  -- If it can be read the same bytes are loaded again, if not nothing is.
  unfold SimpleFs.loaded
  by_cases readable : s.Readable dir
  · rw [if_pos (show (s.scannedDir dir transfers).Readable dir from readable), if_pos readable]
    change (s.loaded dir).blit 0 (s.bytes dir 0 maxFileSize) = _
    rw [SimpleFs.loaded, if_pos readable, blit_blit]
  · rw [if_neg (show ¬ (s.scannedDir dir transfers).Readable dir from readable), if_neg readable]
    change s.loaded dir = _
    rw [SimpleFs.loaded, if_neg readable]

/-- Scanning a directory twice is scanning it once. -/
@[simp] theorem scannedDir_scannedDir (dir first second : Nat) :
    (s.scannedDir dir first).scannedDir dir second = s.scannedDir dir second := by
  -- The second scan loads what the first one left in the buffer.
  have same : (s.scannedDir dir first).scannedDir dir second =
      s.scanned second ((s.scannedDir dir first).loaded dir) := rfl
  rw [same, loaded_scannedDir]
  rfl

/-- A scan does not change what a name leads to. -/
@[simp] theorem lookup_scannedDir (dir transfers : Nat) (name : CString) :
    (s.scannedDir dir transfers).lookup dir name = s.lookup dir name := by
  -- A lookup reads the loaded buffer, which is the same.
  unfold SimpleFs.lookup
  rw [loaded_scannedDir]
  rfl

/-- A directory that cannot be read is not loaded. -/
theorem readDirectoryEntries_refused {dir : Nat} (refused : ¬ s.Readable dir) :
    readDirectoryEntries dir s = (none, s) := by
  -- Each of the checks can be the one that fails.
  unfold readDirectoryEntries
  split
  · rfl
  · rename_i present
    simp only [Bool.or_eq_true, decide_eq_true_eq, Bool.not_eq_true', not_or,
      Bool.not_eq_false] at present
    rw [if_pos]
    simp only [Bool.or_eq_true, bne_iff_ne, ne_eq, decide_eq_true_eq]
    by_contra fine
    simp only [not_or, not_not] at fine
    exact refused ⟨by omega, present.2, fine.1, by omega⟩

/-- Loading a directory counts its entries and otherwise only reads. -/
theorem readDirectoryEntries_sound (mounted : Mounted s) {dir : Nat} (readable : s.Readable dir) :
    ∃ transfers, readDirectoryEntries dir s =
      (some (s.entryCount dir), s.scannedDir dir transfers) := by
  -- The four checks pass, and the read returns the bytes of the directory.
  obtain ⟨inTable, used, type, size⟩ := readable
  obtain ⟨transfers, read⟩ :=
    readInodeBytes_sound mounted.sound mounted.geometry inTable used 0 maxFileSize
  refine ⟨transfers, ?_⟩
  unfold readDirectoryEntries
  rw [if_neg (by simp [used]; omega), if_neg (by simp [type]; omega), read]
  simp only [if_true, SimpleFs.scannedDir, SimpleFs.loaded, SimpleFs.Readable, inTable, used, type,
    size, and_self]
  rfl

/-- Looking up a name is a function of the volume and only reads. -/
theorem findEntryInDirectory_sound (mounted : Mounted s) (dir : Nat) (name : CString) :
    ∃ transfers, findEntryInDirectory dir name s =
      (s.lookup dir name, s.scannedDir dir transfers) := by
  -- A readable directory is loaded and searched, another one finds nothing.
  unfold findEntryInDirectory SimpleFs.lookup
  by_cases readable : s.Readable dir
  · obtain ⟨transfers, read⟩ := readDirectoryEntries_sound mounted readable
    refine ⟨transfers, ?_⟩
    rw [read, if_pos readable]
    unfold SimpleFs.findSlot
    simp only [SimpleFs.scannedDir, SimpleFs.scanned]
    cases (List.range (s.entryCount dir)).find? fun slot =>
        entryInode (s.loaded dir) slot != invalidInode &&
          entryNamed (s.loaded dir) slot name with
    | none => rfl
    | some slot => rfl
  · refine ⟨s.ata.transfers, ?_⟩
    rw [readDirectoryEntries_refused readable, if_neg readable]
    simp only [SimpleFs.scannedDir, SimpleFs.loaded, if_neg readable]
    rfl

/-- The name a slot of a byte buffer holds, up to its terminator. -/
def slotName (bytes : Nat → UInt8) (slot : Nat) : List UInt8 :=
  ((List.range nameCapacity).map fun k => bytes (entrySize * slot + 4 + k)).takeWhile (· != 0)

/-- The entries a byte buffer holds: inode numbers and names. -/
def entriesOf (bytes : Nat → UInt8) (count : Nat) : List (UInt32 × List UInt8) :=
  (List.range count).map fun slot => (wordAt bytes (entrySize * slot), slotName bytes slot)

/-- The entries of a directory, as loading it gives them; nothing when it cannot be loaded. -/
def listing (dir : Nat) (s : SimpleFs) : Option (List (UInt32 × List UInt8)) :=
  match readDirectoryEntries dir s with
  | (none, _) => none
  | (some count, s) => some (entriesOf s.directoryScratch.get count)

/-- Entries depend only on the bytes of their slots. -/
theorem entriesOf_congr {bytes bytes' : Nat → UInt8} {count : Nat}
    (same : ∀ p, p < 32 * count → bytes' p = bytes p) :
    entriesOf bytes' count = entriesOf bytes count := by
  -- Slot by slot: the word of the inode and the characters of the name.
  refine List.map_congr_left fun slot member => ?_
  have small := List.mem_range.mp member
  have inodes : wordAt bytes' (entrySize * slot) = wordAt bytes (entrySize * slot) := by
    refine wordAt_congr fun p low high => same p ?_
    simp only [entrySize] at low high
    omega
  have names : slotName bytes' slot = slotName bytes slot := by
    unfold slotName
    congr 1
    refine List.map_congr_left fun k member => same _ ?_
    have := List.mem_range.mp member
    simp only [nameCapacity] at this
    simp only [entrySize]
    omega
  rw [inodes, names]

/-- Inside a directory the scratch buffer holds its bytes. -/
theorem loaded_get {dir p : Nat} (readable : s.Readable dir)
    (inside : p < (s.bytes dir 0 maxFileSize).length) (small : p < 68608) :
    (s.loaded dir).get p = (s.bytes dir 0 maxFileSize).getD p 0 := by
  -- The buffer is longer than any directory, so the byte at `p` was loaded.
  rw [SimpleFs.loaded, if_pos readable, FixedArray.get_blit _ _ _ small, if_pos (by omega),
    Nat.sub_zero]
  rfl

/-- A read returns no more than the buffer can take. -/
theorem gather_length_le (sectors : Nat → Sector) (inode : Inode)
    (remaining fuel logical sectorOffset : Nat) {buffer : List UInt8}
    (bounded : buffer.length ≤ remaining) :
    (gather sectors inode remaining fuel logical sectorOffset buffer).length ≤ remaining := by
  -- Induction on the fuel: a round adds at most what remains.
  induction fuel generalizing logical sectorOffset buffer with
  | zero => exact bounded
  | succ fuel ih =>
    unfold gather
    split
    · simp only
      split
      · exact bounded
      · refine ih _ _ ?_
        rw [List.length_append, List.length_map, List.length_range]
        omega
    · exact bounded

/-- A read returns at most the buffer's size. -/
theorem bytes_length_le (s : SimpleFs) (index offset bufferSize : Nat) :
    (s.bytes index offset bufferSize).length ≤ bufferSize := by
  -- Past the end nothing is read, before it the size is cut to the buffer.
  unfold SimpleFs.bytes inodeBytes
  split
  · exact Nat.zero_le _
  · exact Nat.le_trans (gather_length_le _ _ _ _ _ _ (Nat.zero_le _)) (Nat.min_le_right _ _)

/-- The listing of a directory is a function of its bytes. -/
theorem listing_eq (mounted : Mounted s) (dir : Nat) :
    listing dir s = if s.Readable dir then
      some (entriesOf (fun p => (s.bytes dir 0 maxFileSize).getD p 0) (s.entryCount dir)) else none := by
  -- The scan agrees with its bytes on every slot below the count.
  unfold listing
  by_cases readable : s.Readable dir
  · obtain ⟨transfers, read⟩ := readDirectoryEntries_sound mounted readable
    rw [read, if_pos readable]
    have bound : (s.bytes dir 0 maxFileSize).length ≤ 68608 := bytes_length_le s dir 0 maxFileSize
    refine congrArg some (entriesOf_congr fun p small => ?_)
    simp only [SimpleFs.entryCount, entrySize] at small
    exact loaded_get readable (by omega) (by omega)
  · rw [readDirectoryEntries_refused readable, if_neg readable]

/-- The scratch buffer with an entry added behind the entries of a directory. -/
def SimpleFs.appended (s : SimpleFs) (dir : Nat) (name : CString) (child : Nat) : Scratch :=
  setEntry (s.loaded dir) (s.entryCount dir) (UInt32.ofNat child) name

/-- Appending an entry rewrites the directory, unless it cannot be read or is full. -/
theorem appendEntryToDirectory_sound (mounted : Mounted s) (dir : Nat) (name : CString)
    (child : Nat) :
    ∃ transfers, appendEntryToDirectory dir name child s =
      if s.Readable dir ∧ s.entryCount dir < maxDirectoryEntries then
        writeInodeData dir (s.appended dir name child).get ((s.entryCount dir + 1) * entrySize)
          (s.scanned transfers (s.appended dir name child))
      else (false, s.scannedDir dir transfers) := by
  -- A readable directory with room is written back with one entry more.
  unfold appendEntryToDirectory
  by_cases readable : s.Readable dir
  · obtain ⟨transfers, read⟩ := readDirectoryEntries_sound mounted readable
    refine ⟨transfers, ?_⟩
    rw [read]
    by_cases room : s.entryCount dir < maxDirectoryEntries
    · rw [if_pos ⟨readable, room⟩]
      simp only [if_neg (show ¬ s.entryCount dir ≥ maxDirectoryEntries by omega)]
      rfl
    · rw [if_neg (fun both => room both.2)]
      simp only [if_pos (show s.entryCount dir ≥ maxDirectoryEntries by omega)]
  · refine ⟨s.ata.transfers, ?_⟩
    rw [readDirectoryEntries_refused readable, if_neg (fun both => readable both.1)]
    simp only [SimpleFs.scannedDir, SimpleFs.loaded, if_neg readable]
    rfl

/-- The scratch buffer with an entry taken out of the entries of a directory. -/
def SimpleFs.removed (s : SimpleFs) (dir slot : Nat) : Scratch :=
  let count := s.entryCount dir
  let scratch := shiftEntries (s.loaded dir) slot (count - 1 - slot)
  if count > 0 then
    (scratch.blit (entrySize * (count - 1)) ((List.range 4).map (byteOf32 invalidInode))).set
      (entrySize * (count - 1) + 4) 0
  else scratch

/-- Removing an entry that is there rewrites the directory without it. -/
theorem removeEntryFromDirectory_found (mounted : Mounted s) {dir : Nat} {name : CString}
    {inode : UInt32} {slot : Nat} (found : s.lookup dir name = some (inode, slot)) :
    ∃ transfers, removeEntryFromDirectory dir name s =
      match writeInodeData dir (s.removed dir slot).get ((s.entryCount dir - 1) * entrySize)
          (s.scanned transfers (s.removed dir slot)) with
      | (false, t) => (none, t)
      | (true, t) => (some inode, t) := by
  -- An entry that is found lies in a readable directory.
  have readable : s.Readable dir := by
    by_contra refused
    simp only [SimpleFs.lookup, if_neg refused] at found
    cases found
  obtain ⟨first, find⟩ := findEntryInDirectory_sound mounted dir name
  have again : Mounted (s.scannedDir dir first) :=
    ⟨Sound.afterReads mounted.sound _, mounted.header, mounted.rootUsed, mounted.rootType,
      ⟨mounted.owned.inRange, mounted.owned.isMarked, mounted.owned.distinct⟩⟩
  obtain ⟨second, read⟩ := readDirectoryEntries_sound again
    (show (s.scannedDir dir first).Readable dir from readable)
  refine ⟨second, ?_⟩
  unfold removeEntryFromDirectory
  rw [find, found]
  simp only [read, scannedDir_scannedDir]
  rfl

/-- Removing an entry that is not there changes nothing. -/
theorem removeEntryFromDirectory_absent (mounted : Mounted s) {dir : Nat} {name : CString}
    (absent : s.lookup dir name = none) :
    ∃ transfers, removeEntryFromDirectory dir name s = (none, s.scannedDir dir transfers) := by
  -- The search finds nothing, so nothing is written back.
  obtain ⟨transfers, find⟩ := findEntryInDirectory_sound mounted dir name
  refine ⟨transfers, ?_⟩
  unfold removeEntryFromDirectory
  rw [find, absent]

/-- Testing a directory for emptiness only reads. -/
theorem directoryIsEmpty_sound (mounted : Mounted s) (dir : Nat) :
    ∃ transfers, directoryIsEmpty dir s =
      (decide (s.Readable dir) && (List.range (s.entryCount dir)).all (entrySpecial (s.loaded dir)),
        s.scannedDir dir transfers) := by
  -- An unreadable directory is not empty, a readable one is tested entry by entry.
  unfold directoryIsEmpty
  by_cases readable : s.Readable dir
  · obtain ⟨transfers, read⟩ := readDirectoryEntries_sound mounted readable
    refine ⟨transfers, ?_⟩
    rw [read, decide_eq_true readable, Bool.true_and]
    rfl
  · refine ⟨s.ata.transfers, ?_⟩
    rw [readDirectoryEntries_refused readable, decide_eq_false readable, Bool.false_and]
    simp only [SimpleFs.scannedDir, SimpleFs.loaded, if_neg readable]
    rfl

/-- A directory just rewritten from the scratch buffer is loaded as that buffer. -/
theorem Filled.loaded {dir count : Nat} {scratch : Scratch} {t : SimpleFs}
    (filled : Filled dir scratch.get (count * entrySize) t) (scratchIs : t.directoryScratch = scratch)
    (fits : count ≤ maxDirectoryEntries) (inTable : dir < maxInodes)
    (used : t.inodeUsed dir = true) (type : (t.inodeTable.get dir).type = typeDirectory) :
    t.Readable dir ∧ t.loaded dir = scratch ∧ t.entryCount dir = count := by
  have bound : count * entrySize ≤ maxFileSize := by
    simp only [maxDirectoryEntries, maxFileSize, entrySize] at fits
    simp only [entrySize, maxFileSize]
    omega
  have readable : t.Readable dir :=
    ⟨inTable, used, type, (filled.shapedAt bound).size used⟩
  have bytesAre : t.bytes dir 0 maxFileSize =
      (List.range (count * entrySize)).map fun p => scratch.get p := by
    rw [filled.bytes bound, Nat.sub_zero, Nat.min_eq_left bound]
    simp only [Nat.zero_add]
  refine ⟨readable, ?_, ?_⟩
  · rw [SimpleFs.loaded, if_pos readable, scratchIs, bytesAre]
    -- The bytes loaded are those the buffer holds already.
    apply FixedArray.ext_get
    intro p inside
    rw [FixedArray.get_blit _ _ _ inside]
    split
    · rename_i range
      rw [List.length_map, List.length_range] at range
      rw [Nat.sub_zero, List.getD_eq_getElem _ _ (by simp; omega)]
      simp
    · rfl
  · rw [SimpleFs.entryCount, bytesAre, List.length_map, List.length_range]
    simp only [entrySize]
    omega

/-- Looking up a name that was just appended finds the entry behind all others. -/
theorem findSlot_setEntry {scratch : Scratch} {count : Nat} {inode : UInt32} {name : CString}
    (room : count < maxDirectoryEntries) (valid : inode ≠ invalidInode)
    (short : name.chars.length < nameCapacity)
    (absent : SimpleFs.findSlot scratch count name = none) :
    SimpleFs.findSlot (setEntry scratch count inode name) (count + 1) name = some count := by
  simp only [maxDirectoryEntries, maxFileSize, entrySize] at room
  have stored : EntryAt (setEntry scratch count inode name).get count (inode, name) :=
    entryAt_setEntry inode (by omega) short
  unfold SimpleFs.findSlot at absent ⊢
  rw [List.range_succ, List.find?_append]
  -- The earlier entries are as they were, so none of them bears the name.
  have before : (List.range count).find? (fun slot =>
      entryInode (setEntry scratch count inode name) slot != invalidInode &&
        entryNamed (setEntry scratch count inode name) slot name) = none := by
    rw [← absent]
    refine List.find?_congr fun slot member => ?_
    have earlier := List.mem_range.mp member
    have same : ∀ k, k < 32 → (setEntry scratch count inode name).get (32 * slot + k) =
        scratch.get (32 * slot + k) :=
      fun k inside => get_setEntry_outside inode (by omega) (Or.inl (by omega))
    have inodes : entryInode (setEntry scratch count inode name) slot = entryInode scratch slot := by
      refine wordAt_congr fun p low high => ?_
      simp only [entrySize] at low high
      have := same (p - 32 * slot) (by omega)
      rwa [show 32 * slot + (p - 32 * slot) = p by omega] at this
    have names : entryNamed (setEntry scratch count inode name) slot name =
        entryNamed scratch slot name := storedAt_slot_congr short same
    rw [inodes, names]
  rw [before, Option.none_or, List.find?_singleton, if_pos]
  rw [Bool.and_eq_true]
  refine ⟨?_, stored.named⟩
  have inodeIs : entryInode (setEntry scratch count inode name) count = inode := stored.inode
  rw [inodeIs]
  exact bne_iff_ne.mpr valid

end Directory

end MyOS.Fs
