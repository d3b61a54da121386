import MyOS.Fs.Runs

/-! Creating files and directories: the calls that put a new inode under a new name. -/

namespace MyOS.Fs

namespace SimpleFs

/-- The inodes a call that enters a name may rewrite: the working directory and the one it takes. -/
def Entering (s : SimpleFs) (index : Nat) : Prop :=
  index = s.currentDirectory ∨ s.Fresh index

/-- A new name gets as far as being entered into the working directory. -/
structure Enterable (s : SimpleFs) (name : CString) : Prop where
  fsMounted : s.fsMounted = true
  valid : validName name = true
  absent : s.lookup s.currentDirectory name = none
  inodes : ∃ index, index < maxInodes ∧ s.inodeUsed index = false
  readable : s.Readable s.currentDirectory
  room : s.entryCount s.currentDirectory < maxDirectoryEntries

/-- The size of the working directory once it has one more entry. -/
def grownSize (s : SimpleFs) : Nat := (s.entryCount s.currentDirectory + 1) * entrySize

end SimpleFs

/-- A valid name leaves room for its terminator. -/
theorem validName.short {name : CString} (valid : validName name = true) :
    name.chars.length < nameCapacity := by
  -- The length is the first of the four checks.
  simp only [validName, Bool.and_eq_true, decide_eq_true_eq] at valid
  exact valid.1.1.2

/--
A state in which an inode was just taken, seen from the state before.

The working directory and the free blocks are as they were.
-/
structure Taken (s : SimpleFs) (index : Nat) (type : UInt8) (t : SimpleFs) : Prop where
  inTable : index < maxInodes
  fresh : s.Fresh index
  runs : Runs s.Fresh s.Fresh s t
  allocation : ∀ j, t.inodeUsed j = (decide (index = j) || s.inodeUsed j)
  record : t.inodeTable.get index = freshInode type
  others : ∀ j, j ≠ index → t.inodeTable.get j = s.inodeTable.get j
  slots : ∀ j, j < maxInodes → s.inodeUsed j = true → ∀ k, t.slot j k = s.slot j k
  marks : ∀ b, t.marked b = s.marked b
  scratch : t.directoryScratch = s.loaded s.currentDirectory
  exhausted : t.blocksExhausted = s.blocksExhausted

namespace Taken

variable {s t : SimpleFs} {index : Nat} {type : UInt8}

/-- Taking an inode keeps the volume mounted. -/
theorem mounted (taken : Taken s index type t) (mounted : Mounted s) : Mounted t :=
  taken.runs.mounted mounted

/-- Allocated inodes are not the one taken. -/
theorem ne_of_used (taken : Taken s index type t) {j : Nat} (used : s.inodeUsed j = true) :
    j ≠ index := by
  -- The inode taken was free, an allocated one was not.
  rintro rfl
  rw [taken.fresh.1] at used
  cases used

/-- The other directories can be read as before. -/
theorem readable_iff (taken : Taken s index type t) {dir : Nat} (other : dir ≠ index) :
    t.Readable dir ↔ s.Readable dir := by
  -- Readability looks at the record and the mark of the directory alone.
  unfold SimpleFs.Readable
  rw [taken.others dir other, taken.allocation, decide_eq_false (Ne.symm other), Bool.false_or]

/-- The other inodes have the bytes they had. -/
theorem bytes (taken : Taken s index type t) (mounted : Mounted s) {j : Nat}
    (inTable : j < maxInodes) (used : s.inodeUsed j = true) (offset bufferSize : Nat) :
    t.bytes j offset bufferSize = s.bytes j offset bufferSize :=
  -- An allocated inode is not among the free ones that the call concerns.
  (taken.runs.moves.kept mounted inTable used (SimpleFs.not_fresh used)).2.2 _ _

/-- Taking an inode takes no block. -/
theorem freeBlocks (taken : Taken s index type t) : t.freeBlocks = s.freeBlocks :=
  clearCount_congr fun b _ => taken.marks b

/-- The other inodes may grow as far as before. -/
theorem capacity (taken : Taken s index type t) (mounted : Mounted s) {j : Nat}
    (inTable : j < maxInodes) (used : s.inodeUsed j = true) : t.capacity j = s.capacity j := by
  -- A capacity counts the free blocks and the blocks held, and both are as they were.
  have usedT : t.inodeUsed j = true := by rw [taken.allocation, used, Bool.or_true]
  rw [(taken.mounted mounted).capacity inTable usedT, mounted.capacity inTable used,
    taken.freeBlocks]
  simp only [SimpleFs.heldSlots, taken.slots j inTable used]

/-- The entries of a directory are where they were. -/
theorem entering (taken : Taken s index type t) (mounted : Mounted s)
    (readable : s.Readable s.currentDirectory) :
    t.entryCount s.currentDirectory = s.entryCount s.currentDirectory ∧
      ∀ name child, t.appended s.currentDirectory name child =
        s.appended s.currentDirectory name child := by
  have other : s.currentDirectory ≠ index := taken.ne_of_used readable.2.1
  have count : t.entryCount s.currentDirectory = s.entryCount s.currentDirectory := by
    rw [SimpleFs.entryCount, taken.bytes mounted readable.1 readable.2.1]
    rfl
  refine ⟨count, fun name child => ?_⟩
  -- The directory was loaded before, so loading it again changes nothing.
  have loaded : t.loaded s.currentDirectory = s.loaded s.currentDirectory := by
    rw [SimpleFs.loaded, if_pos ((taken.readable_iff other).mpr readable), taken.scratch,
      taken.bytes mounted readable.1 readable.2.1, SimpleFs.loaded, if_pos readable, blit_blit]
  rw [SimpleFs.appended, loaded, count]
  rfl

/-- Giving the inode back makes the allocation what it was. -/
theorem release (taken : Taken s index type t) (mounted : Mounted s) {u : SimpleFs}
    (mountedU : Mounted u) (allocation : ∀ j, u.inodeUsed j = t.inodeUsed j) :
    ∃ v, releaseInode index u = (true, v) ∧ Runs s.Fresh s.Fresh u v ∧
      v.blocksExhausted = u.blocksExhausted ∧
      ∀ j, j < maxInodes → v.inodeUsed j = s.inodeUsed j := by
  -- The inode is the only one whose mark differs, and releasing it clears that mark.
  have used : u.inodeUsed index = true := by simp [allocation, taken.allocation]
  have notRoot : index ≠ rootInode := (taken.ne_of_used mounted.rootUsed).symm
  obtain ⟨v, result, effect, free, exhausted⟩ :=
    releaseInode_sound mountedU taken.inTable used notRoot
  refine ⟨v, result, Runs.update taken.inTable taken.fresh taken.fresh effect, exhausted, ?_⟩
  intro j inTable
  by_cases this : j = index
  · rw [this, free, taken.fresh.1]
  · rw [effect.allocation j inTable this, allocation, taken.allocation,
      decide_eq_false (Ne.symm this), Bool.false_or]

end Taken

section Enter

variable {s : SimpleFs} {name : CString}

/-- Once the name was looked up, the first free inode is taken if there is one. -/
theorem allocateInode_cases (mounted : Mounted s) (transfers : Nat) (type : UInt8) :
    (∃ index t, allocateInode type (s.scannedDir s.currentDirectory transfers) =
      (some index, t) ∧ Taken s index type t) ∨
    ((∀ index, index < maxInodes → s.inodeUsed index = true) ∧
      allocateInode type (s.scannedDir s.currentDirectory transfers) =
        (none, s.scannedDir s.currentDirectory transfers)) := by
  have read : Runs s.Fresh s.Fresh s (s.scannedDir s.currentDirectory transfers) :=
    Runs.scanned s _ _
  have mountedU := read.mounted mounted
  rcases allocateInode_sound mountedU type with ⟨index, inTable, free, result⟩ | full
  swap
  · exact Or.inr full
  left
  have inByte : index / 8 < 8 := by simp only [maxInodes] at inTable; omega
  obtain ⟨effect, -, record⟩ := allocateInode_effect mountedU type inTable free.1
  refine ⟨index, _, result, inTable, free, read.trans (Runs.update inTable free free effect), ?_,
    record, ?_, ?_, ?_, rfl, rfl⟩
  · intro j
    exact bitmapTest_bitmapSet _ _ inByte
  · intro j other
    exact effect.others j other
  · intro j small used k
    refine effect.slot_other mountedU.owned small used ?_ k
    -- An allocated inode is not the one taken.
    rintro rfl
    rw [show s.inodeUsed j = false from free.1] at used
    cases used
  · intro b
    rfl

/-- The working directory of a state is not among its free inodes. -/
theorem SimpleFs.Readable.ne_fresh {dir index : Nat} (readable : s.Readable dir)
    (free : s.inodeUsed index = false) : dir ≠ index := by
  -- A readable directory is allocated.
  rintro rfl
  rw [readable.2.1] at free
  cases free

/-- The state after a file was created. -/
structure Created (s : SimpleFs) (name : CString) (index : Nat) (t : SimpleFs) : Prop where
  inTable : index < maxInodes
  fresh : s.Fresh index
  runs : Runs s.Entering s.Entering s t
  allocation : ∀ j, t.inodeUsed j = (decide (index = j) || s.inodeUsed j)
  record : t.inodeTable.get index = freshInode typeRegular
  others : ∀ j, j ≠ index → j ≠ s.currentDirectory → t.inodeTable.get j = s.inodeTable.get j
  dirType : (t.inodeTable.get s.currentDirectory).type = typeDirectory
  filled : Filled s.currentDirectory (s.appended s.currentDirectory name index).get s.grownSize t
  scratch : t.directoryScratch = s.appended s.currentDirectory name index
  exhausted : t.blocksExhausted = s.blocksExhausted
  free : t.freeBlocks + need s.grownSize = s.capacity s.currentDirectory

/-- The state after a call that entered a name ran out of blocks: the directory is lost. -/
structure EntryLost (s : SimpleFs) (t : SimpleFs) : Prop where
  runs : Runs s.Entering s.Entering s t
  record : t.inodeTable.get s.currentDirectory = emptied (s.inodeTable.get s.currentDirectory)
  allocation : ∀ j, j < maxInodes → t.inodeUsed j = s.inodeUsed j
  exhausted : t.blocksExhausted = true

/-- A change of link counts leaves the content of the inode alone. -/
theorem Filled.withLinks {t : SimpleFs} {index : Nat} {data : Nat → UInt8} {size : Nat}
    (filled : Filled index data size t) (fits : size ≤ maxFileSize) (mounted : Mounted t)
    (inTable : index < maxInodes) (used : t.inodeUsed index = true) (count : UInt16) :
    let u := t.withInode index { t.inodeTable.get index with linkCount := count }
    Filled index data size (u.logged (tableLog u.inodeTable)) := by
  intro u
  have inodeIs : (u.logged (tableLog u.inodeTable)).inodeTable.get index =
      { t.inodeTable.get index with linkCount := count } := get_set_inode _ _ inTable
  -- The inode table is not stored where data is.
  have away : ∀ block : UInt32, block.toNat < dataBlocks →
      Ata.applyWrites t.ata.sectors (tableLog u.inodeTable) (blockSector block) =
        t.ata.sectors (blockSector block) := by
    intro block inside
    refine Ata.applyWrites_other fun entry member same => ?_
    have low := metadataLog_lt (List.mem_cons_of_mem (4097, t.infoBlock.encode) member)
    rw [blockSector_eq inside] at same
    omega
  have inside := mounted.inside inTable used
  have slots : ∀ k, (u.logged (tableLog u.inodeTable)).slot index k = t.slot index k := by
    intro k
    unfold SimpleFs.slot
    rw [inodeIs]
    refine slotBlock_congr (fun held => away _ ?_) k
    have := inside 6 (by decide) (by rw [slot_six]; exact held)
    rwa [slot_six] at this
  refine ⟨?_, ?_, ?_, ?_⟩
  · rw [inodeIs]
    exact filled.sized
  · intro k small
    rw [slots]
    exact filled.held k small
  · intro k high small
    rw [slots]
    exact filled.vacant k high small
  · intro l small
    rw [slots, ← filled.content l small]
    refine away _ (inside _ ?_ (filled.held _ (Progress.dataSlot_lt small)))
    simp only [blocksOf, maxFileSize] at small fits
    unfold dataSlot slotLimit
    split <;> omega

/-- A name that cannot be entered is refused, and at most a free inode was taken and given back. -/
theorem simplefsCreate_refused (mounted : Mounted s) (refused : ¬ s.Enterable name) :
    ∃ t, simplefsCreate name s = (false, t) ∧ Runs s.Fresh s.Fresh s t ∧
      t.blocksExhausted = s.blocksExhausted ∧
      ∀ j, j < maxInodes → t.inodeUsed j = s.inodeUsed j := by
  unfold simplefsCreate
  by_cases guard : s.fsMounted = true ∧ validName name = true
  swap
  · -- Nothing was looked up yet.
    refine ⟨s, ?_, Runs.refl s, rfl, fun _ _ => rfl⟩
    rw [if_pos]
    simp only [Bool.or_eq_true, Bool.not_eq_true']
    by_contra fine
    simp only [not_or, Bool.not_eq_false] at fine
    exact guard fine
  rw [if_neg (by simp [guard.1, guard.2])]
  obtain ⟨transfers, find⟩ := findEntryInDirectory_sound mounted s.currentDirectory name
  have read : Runs s.Fresh s.Fresh s (s.scannedDir s.currentDirectory transfers) :=
    Runs.scanned s _ _
  rw [find]
  cases found : s.lookup s.currentDirectory name with
  | some entry => exact ⟨_, rfl, read, rfl, fun _ _ => rfl⟩
  | none =>
    simp only
    rcases allocateInode_cases mounted transfers typeRegular with
      ⟨index, u, result, taken⟩ | ⟨_, full⟩
    swap
    · rw [full]
      exact ⟨_, rfl, read, rfl, fun _ _ => rfl⟩
    rw [result]
    simp only
    have mountedU := taken.mounted mounted
    have cwd : u.currentDirectory = s.currentDirectory := taken.runs.steady.currentDirectory
    -- The directory cannot be read or has no room, so the inode goes back.
    obtain ⟨second, append⟩ :=
      appendEntryToDirectory_sound mountedU u.currentDirectory name index
    rw [append, if_neg]
    · have back : Runs s.Fresh s.Fresh u (u.scannedDir u.currentDirectory second) :=
        Runs.scanned u _ _
      obtain ⟨v, released, release, exhausted, allocation⟩ :=
        taken.release mounted (back.mounted mountedU) fun _ => rfl
      refine ⟨v, ?_, taken.runs.trans (back.trans release), exhausted.trans taken.exhausted,
        allocation⟩
      simp only [released]
    · rw [cwd]
      rintro ⟨readable, room⟩
      apply refused
      -- The inode taken is no directory, so the directory is another one.
      have other : s.currentDirectory ≠ index := by
        intro same
        have type := readable.2.2.1
        rw [same, taken.record] at type
        cases type
      have before := (taken.readable_iff other).mp readable
      refine ⟨guard.1, guard.2, found, ⟨index, taken.inTable, taken.fresh.1⟩, before, ?_⟩
      rwa [SimpleFs.entryCount, taken.bytes mounted before.1 before.2.1] at room

/-- A name that can be entered is, or the working directory is lost for want of blocks. -/
theorem simplefsCreate_enterable (mounted : Mounted s) (enterable : s.Enterable name) :
    (∃ t index, simplefsCreate name s = (true, t) ∧ Created s name index t) ∨
    (∃ t, simplefsCreate name s = (false, t) ∧ EntryLost s t ∧
      s.capacity s.currentDirectory < need s.grownSize) := by
  obtain ⟨fsMounted, valid, absent, inodes, readable, room⟩ := enterable
  have inDir := readable.1
  have usedDir := readable.2.1
  obtain ⟨transfers, find⟩ := findEntryInDirectory_sound mounted s.currentDirectory name
  unfold simplefsCreate
  rw [if_neg (by simp [fsMounted, valid]), find, absent]
  simp only
  rcases allocateInode_cases mounted transfers typeRegular with
    ⟨index, u, result, taken⟩ | ⟨full, -⟩
  swap
  · obtain ⟨index, small, free⟩ := inodes
    rw [full index small] at free
    cases free
  rw [result]
  simp only
  have mountedU := taken.mounted mounted
  have cwd : u.currentDirectory = s.currentDirectory := taken.runs.steady.currentDirectory
  have other : s.currentDirectory ≠ index := taken.ne_of_used usedDir
  have usedU : u.inodeUsed s.currentDirectory = true := by
    rw [taken.allocation, usedDir, Bool.or_true]
  obtain ⟨count, append⟩ := taken.entering mounted readable
  obtain ⟨second, appends⟩ := appendEntryToDirectory_sound mountedU s.currentDirectory name index
  rw [cwd, appends, if_pos ⟨(taken.readable_iff other).mpr readable, by rw [count]; exact room⟩,
    append, count]
  have fits : s.entryCount s.currentDirectory + 1 ≤ maxDirectoryEntries := room
  rcases writeDirectory_cases mountedU inDir usedU fits second
      (s.appended s.currentDirectory name index) with ⟨v, write, written, scratch⟩ | ⟨v, write, lost⟩
  · left
    have mountedV := written.runs.mounted mountedU
    have cwdV : v.currentDirectory = s.currentDirectory :=
      written.runs.steady.currentDirectory.trans cwd
    have usedV : v.inodeUsed s.currentDirectory = true := by rw [written.allocation, usedU]
    obtain ⟨link, effect⟩ := linkCount_effect mountedV inDir
      ((v.inodeTable.get s.currentDirectory).linkCount + 1)
    have filled := written.filled.withLinks (by
      simp only [maxDirectoryEntries, maxFileSize, entrySize] at fits ⊢
      omega) mountedV inDir usedV ((v.inodeTable.get s.currentDirectory).linkCount + 1)
    rw [write]
    simp only [cwdV]
    refine ⟨_, index, link, taken.inTable, taken.fresh, ?_, ?_, ?_, ?_, ?_, filled, scratch,
      written.exhausted.trans taken.exhausted, ?_⟩
    · -- An inode was taken, the directory rewritten, and its link count stored.
      refine ((taken.runs.mono ?_ ?_).trans (written.runs.mono ?_ ?_)).trans
        (Runs.update inDir (Or.inl rfl) (Or.inl rfl) effect)
      · exact fun i free => Or.inr free
      · exact fun i free => Or.inr free
      · exact fun i same => Or.inl same
      · exact fun i same => Or.inl same
    · intro j
      exact (written.allocation j).trans (taken.allocation j)
    · rw [effect.others index (Ne.symm other), written.others index (Ne.symm other), taken.record]
    · intro j notIndex notDir
      rw [effect.others j notDir, written.others j notDir, taken.others j notIndex]
    · have inodeIs : (v.inodeTable.set s.currentDirectory
          { v.inodeTable.get s.currentDirectory with
            linkCount := (v.inodeTable.get s.currentDirectory).linkCount + 1 }).get
              s.currentDirectory =
          { v.inodeTable.get s.currentDirectory with
            linkCount := (v.inodeTable.get s.currentDirectory).linkCount + 1 } :=
        get_set_inode _ _ inDir
      change ((v.inodeTable.set s.currentDirectory _).get s.currentDirectory).type = _
      rw [inodeIs, written.type, taken.others _ other]
      exact readable.2.2.1
    · exact written.free.trans (taken.capacity mounted inDir usedDir)
  · right
    have mountedV := lost.runs.mounted mountedU
    obtain ⟨t, released, release, exhausted, allocation⟩ :=
      taken.release mounted mountedV lost.allocation
    rw [write]
    refine ⟨t, by simp only [released], ⟨?_, ?_, allocation, exhausted.trans lost.exhausted⟩, ?_⟩
    · refine ((taken.runs.mono ?_ ?_).trans (lost.runs.mono ?_ ?_)).trans (release.mono ?_ ?_)
      · exact fun i free => Or.inr free
      · exact fun i free => Or.inr free
      · exact fun i same => Or.inl same
      · exact fun i same => Or.inl same
      · exact fun i free => Or.inr free
      · exact fun i free => Or.inr free
    · -- The directory was emptied before the inode, another one, went back.
      have kept := release.moves.kept mountedV inDir (by rw [lost.allocation]; exact usedU)
        (SimpleFs.not_fresh usedDir)
      rw [kept.2.1, lost.record, taken.others _ other]
    · have := lost.shortage
      rwa [taken.capacity mounted inDir usedDir] at this

/-- An inode number survives its storage in a directory entry. -/
theorem toNat_ofNat_inode {index : Nat} (inTable : index < maxInodes) :
    (UInt32.ofNat index).toNat = index := by
  -- A table of 64 inodes is far below the bound of a word.
  simp only [maxInodes] at inTable
  simp only [UInt32.toNat_ofNat']
  omega

/-- An inode number is not the mark of a struck entry. -/
theorem ofNat_ne_invalidInode {index : Nat} (inTable : index < maxInodes) :
    UInt32.ofNat index ≠ invalidInode := by
  -- The mark of a struck entry is the greatest word.
  intro same
  have := congrArg UInt32.toNat same
  rw [toNat_ofNat_inode inTable] at this
  rw [this] at inTable
  exact absurd inTable (by decide)

/-- Right after a file was created, its name leads to its inode. -/
theorem Created.lookup {index : Nat} {t : SimpleFs} (enterable : s.Enterable name)
    (created : Created s name index t) :
    t.Readable s.currentDirectory ∧
      t.entryCount s.currentDirectory = s.entryCount s.currentDirectory + 1 ∧
      t.lookup s.currentDirectory name =
        some (UInt32.ofNat index, s.entryCount s.currentDirectory) := by
  have readable := enterable.readable
  have usedT : t.inodeUsed s.currentDirectory = true := by
    rw [created.allocation, readable.2.1, Bool.or_true]
  obtain ⟨readableT, loaded, count⟩ := created.filled.loaded created.scratch enterable.room
    readable.1 usedT created.dirType
  have absent := enterable.absent
  rw [SimpleFs.lookup, if_pos readable, Option.map_eq_none_iff] at absent
  have valid := ofNat_ne_invalidInode created.inTable
  have short := validName.short enterable.valid
  refine ⟨readableT, count, ?_⟩
  rw [SimpleFs.lookup, if_pos readableT, loaded, count, SimpleFs.appended,
    findSlot_setEntry enterable.room valid short absent, Option.map_some]
  -- The entry found is the one just stored.
  have room := enterable.room
  simp only [maxDirectoryEntries, maxFileSize, entrySize] at room
  have stored : EntryAt _ _ (UInt32.ofNat index, name) :=
    @entryAt_setEntry (s.loaded s.currentDirectory) (s.entryCount s.currentDirectory)
      (UInt32.ofNat index) name (by omega) short
  exact congrArg (fun inode => some (inode, s.entryCount s.currentDirectory)) stored.inode

/-- Creating a file concerns the working directory and the inode it takes. -/
theorem simplefsCreate_runs (mounted : Mounted s) (name : CString) :
    Runs s.Entering s.Entering s (simplefsCreate name s).2 := by
  -- Either the call goes through, or it fails after some effects, or the name is refused at once.
  by_cases enterable : s.Enterable name
  · rcases simplefsCreate_enterable mounted enterable with
      ⟨t, index, result, created⟩ | ⟨t, result, lost, -⟩
    · rw [result]
      exact created.runs
    · rw [result]
      exact lost.runs
  · obtain ⟨t, result, runs, -⟩ := simplefsCreate_refused mounted enterable
    rw [result]
    exact runs.mono (fun i free => Or.inr free) fun i free => Or.inr free

/-- The scratch buffer with the two entries every directory starts with. -/
def dotEntries (dir parent : Nat) : Scratch :=
  setEntry (setEntry (.fill 0) 0 (UInt32.ofNat dir) dot) 1 (UInt32.ofNat parent) dotDot

/-- The state after a directory was created. -/
structure DirCreated (s : SimpleFs) (name : CString) (index : Nat) (t : SimpleFs) : Prop where
  inTable : index < maxInodes
  fresh : s.Fresh index
  runs : Runs s.Entering s.Entering s t
  allocation : ∀ j, t.inodeUsed j = (decide (index = j) || s.inodeUsed j)
  type : (t.inodeTable.get index).type = typeDirectory
  newBytes : ∀ offset bufferSize, t.bytes index offset bufferSize =
    (List.range (min (64 - offset) bufferSize)).map fun p =>
      (dotEntries index s.currentDirectory).get (offset + p)
  newSize : (t.inodeTable.get index).size = 64
  others : ∀ j, j ≠ index → j ≠ s.currentDirectory → t.inodeTable.get j = s.inodeTable.get j
  dirType : (t.inodeTable.get s.currentDirectory).type = typeDirectory
  filled : ∃ base : Scratch, Filled s.currentDirectory
    (setEntry (base.blit 0 (s.bytes s.currentDirectory 0 maxFileSize))
      (s.entryCount s.currentDirectory) (UInt32.ofNat index) name).get s.grownSize t
  exhausted : t.blocksExhausted = s.blocksExhausted
  free : t.freeBlocks + need s.grownSize + 1 = s.capacity s.currentDirectory

/-- An inode that was just taken holds nothing yet. -/
theorem heldSlots_fresh {t : SimpleFs} {index : Nat} {type : UInt8}
    (record : t.inodeTable.get index = freshInode type) : t.heldSlots index = [] := by
  -- Every pointer of a fresh record is the invalid block.
  unfold SimpleFs.heldSlots
  rw [List.filter_eq_nil_iff]
  intro k member
  have small := List.mem_range.mp member
  have clear : slotBlock t.ata.sectors (freshInode type) k = invalidBlock :=
    slotBlock_clear rfl rfl _ small
  simp [SimpleFs.slot, record, clear]

/-- The capacity of an inode just taken is what is free. -/
theorem Taken.capacity_self {index : Nat} {u : SimpleFs} {type : UInt8}
    (taken : Taken s index type u) (mounted : Mounted s) : u.capacity index = s.freeBlocks := by
  -- It holds nothing, so its capacity is the free blocks alone.
  have used : u.inodeUsed index = true := by simp [taken.allocation]
  rw [(taken.mounted mounted).capacity taken.inTable used, heldSlots_fresh taken.record,
    taken.freeBlocks, List.length_nil, Nat.add_zero]

/-- Giving a new directory its two entries takes the only block it needs, if there is one. -/
theorem initDirectoryFile_cases {index : Nat} {u : SimpleFs} (mounted : Mounted s)
    (taken : Taken s index typeDirectory u) (parent : Nat) :
    (∃ v, initDirectoryFile index parent u = (true, v) ∧
      Written u index (dotEntries index parent).get 64 v) ∨
    (∃ v, initDirectoryFile index parent u = (false, v) ∧ Lost u index 64 v) := by
  -- The two entries fit into one block, so the write fails only if no block is free.
  have used : u.inodeUsed index = true := by simp [taken.allocation]
  rcases writeDirectory_cases (taken.mounted mounted) taken.inTable used
      (show 2 ≤ maxDirectoryEntries by decide) u.ata.transfers (dotEntries index parent) with
    ⟨v, result, written, -⟩ | ⟨v, result, lost⟩
  · exact Or.inl ⟨v, result, written⟩
  · exact Or.inr ⟨v, result, lost⟩

/--
A directory whose name cannot be entered is refused.

The exception is a working directory that was removed: its inode may be the one taken, and
the new directory then lists itself. Only free inodes are concerned either way.
-/
theorem simplefsMakeDir_refused (mounted : Mounted s) (refused : ¬ s.Enterable name) :
    Runs s.Fresh s.Fresh s (simplefsMakeDir name s).2 ∧
      ((simplefsMakeDir name s).1 = true → s.inodeUsed s.currentDirectory = false) ∧
      ((simplefsMakeDir name s).1 = false →
        ∀ j, j < maxInodes → (simplefsMakeDir name s).2.inodeUsed j = s.inodeUsed j) := by
  unfold simplefsMakeDir
  by_cases guard : s.fsMounted = true ∧ validName name = true
  swap
  · rw [if_pos]
    · exact ⟨Runs.refl s, nofun, fun _ _ _ => rfl⟩
    · simp only [Bool.or_eq_true, Bool.not_eq_true']
      by_contra fine
      simp only [not_or, Bool.not_eq_false] at fine
      exact guard fine
  rw [if_neg (by simp [guard.1, guard.2])]
  obtain ⟨transfers, find⟩ := findEntryInDirectory_sound mounted s.currentDirectory name
  have read : Runs s.Fresh s.Fresh s (s.scannedDir s.currentDirectory transfers) :=
    Runs.scanned s _ _
  rw [find]
  cases found : s.lookup s.currentDirectory name with
  | some entry => exact ⟨read, nofun, fun _ _ _ => rfl⟩
  | none =>
    simp only
    rcases allocateInode_cases mounted transfers typeDirectory with
      ⟨index, u, result, taken⟩ | ⟨_, full⟩
    swap
    · rw [full]
      exact ⟨read, nofun, fun _ _ _ => rfl⟩
    rw [result]
    simp only
    have mountedU := taken.mounted mounted
    have cwd : u.currentDirectory = s.currentDirectory := taken.runs.steady.currentDirectory
    have toFresh : ∀ i, i = index → s.Fresh i := by
      rintro i rfl
      exact taken.fresh
    rcases initDirectoryFile_cases mounted taken u.currentDirectory with
      ⟨v, init, written⟩ | ⟨v, init, lost⟩
    swap
    · -- No block for the two entries: the inode goes back.
      obtain ⟨w, released, release, -, allocation⟩ :=
        taken.release mounted (lost.runs.mounted mountedU) lost.allocation
      rw [init]
      simp only [released]
      exact ⟨taken.runs.trans ((lost.runs.mono toFresh toFresh).trans release), nofun,
        fun _ => allocation⟩
    rw [init]
    simp only
    have soFar := taken.runs.trans (written.runs.mono toFresh toFresh)
    have mountedV := written.runs.mounted mountedU
    have cwdV : v.currentDirectory = s.currentDirectory :=
      written.runs.steady.currentDirectory.trans cwd
    by_cases self : s.currentDirectory = index
    · -- The working directory was free, so appending to it concerns a free inode too.
      have free : s.Fresh s.currentDirectory := self ▸ taken.fresh
      have append : Runs s.Fresh s.Fresh v
          (appendEntryToDirectory v.currentDirectory name index v).2 :=
        appendEntryToDirectory_runs mountedV (cwdV ▸ free) (cwdV ▸ free) name index
      have allocation : ∀ j, (appendEntryToDirectory v.currentDirectory name index v).2.inodeUsed j =
          u.inodeUsed j := fun j =>
        (appendEntryToDirectory_allocation mountedV _ _ _ j).trans (written.allocation j)
      rcases appended : appendEntryToDirectory v.currentDirectory name index v with ⟨ok, w⟩
      rw [appended] at append allocation
      cases ok with
      | true => exact ⟨soFar.trans append, fun _ => free.1, nofun⟩
      | false =>
        obtain ⟨x, released, release, -, allocation⟩ :=
          taken.release mounted (append.mounted mountedV) allocation
        simp only [released]
        exact ⟨soFar.trans (append.trans release), nofun, fun _ => allocation⟩
    · -- The directory cannot be read or has no room, so the inode goes back.
      obtain ⟨second, append⟩ :=
        appendEntryToDirectory_sound mountedV v.currentDirectory name index
      have back : Runs s.Fresh s.Fresh v (v.scannedDir v.currentDirectory second) :=
        Runs.scanned v _ _
      obtain ⟨w, released, release, -, allocation⟩ :=
        taken.release mounted (back.mounted mountedV) written.allocation
      rw [append, if_neg]
      · simp only [released]
        exact ⟨soFar.trans (back.trans release), nofun, fun _ => allocation⟩
      · rw [cwdV]
        rintro ⟨readable, room⟩
        apply refused
        have before := (taken.readable_iff self).mp ((written.readable_iff self).mp readable)
        have usedU : u.inodeUsed s.currentDirectory = true := by
          rw [taken.allocation, before.2.1, Bool.or_true]
        refine ⟨guard.1, guard.2, found, ⟨index, taken.inTable, taken.fresh.1⟩, before, ?_⟩
        rwa [SimpleFs.entryCount, written.bytes_other mountedU before.1 usedU self,
          taken.bytes mounted before.1 before.2.1] at room

/--
The state after a free inode became a directory with its first two entries.

It took one block. The working directory can be read, and holds what it did.
-/
structure Furnished (s : SimpleFs) (index : Nat) (t : SimpleFs) : Prop where
  inTable : index < maxInodes
  other : s.currentDirectory ≠ index
  runs : Runs s.Fresh s.Fresh s t
  fresh : s.Fresh index
  allocation : ∀ j, t.inodeUsed j = (decide (index = j) || s.inodeUsed j)
  type : (t.inodeTable.get index).type = typeDirectory
  newBytes : ∀ offset bufferSize, t.bytes index offset bufferSize =
    (List.range (min (64 - offset) bufferSize)).map fun p =>
      (dotEntries index s.currentDirectory).get (offset + p)
  newSize : (t.inodeTable.get index).size = 64
  others : ∀ j, j ≠ index → t.inodeTable.get j = s.inodeTable.get j
  bytes : ∀ offset bufferSize, t.bytes s.currentDirectory offset bufferSize =
    s.bytes s.currentDirectory offset bufferSize
  readable : t.Readable s.currentDirectory
  free : t.freeBlocks + 1 = s.freeBlocks
  capacity : t.capacity s.currentDirectory + 1 = s.capacity s.currentDirectory
  exhausted : t.blocksExhausted = s.blocksExhausted

/-- An inode that was taken and written is such a directory. -/
theorem Taken.furnished {index : Nat} {u v : SimpleFs} (taken : Taken s index typeDirectory u)
    (mounted : Mounted s) (readable : s.Readable s.currentDirectory)
    (written : Written u index (dotEntries index s.currentDirectory).get 64 v) :
    Furnished s index v := by
  have inDir := readable.1
  have usedDir := readable.2.1
  have mountedU := taken.mounted mounted
  have other : s.currentDirectory ≠ index := taken.ne_of_used usedDir
  have usedU : u.inodeUsed s.currentDirectory = true := by
    rw [taken.allocation, usedDir, Bool.or_true]
  have usedV : v.inodeUsed s.currentDirectory = true := by rw [written.allocation, usedU]
  have toFresh : ∀ i, i = index → s.Fresh i := by
    rintro i rfl
    exact taken.fresh
  have runs := taken.runs.trans (written.runs.mono toFresh toFresh)
  -- The new directory took one block; the working directory still holds its own.
  have one : need 64 = 1 := rfl
  have free : v.freeBlocks + 1 = s.freeBlocks := by
    rw [← one, written.free, taken.capacity_self mounted]
  refine ⟨taken.inTable, other, runs, taken.fresh,
    fun j => (written.allocation j).trans (taken.allocation j), ?_, written.bytes (by decide),
    written.filled.sized, fun j apart => (written.others j apart).trans (taken.others j apart),
    fun offset bufferSize => ?_, ?_, free, ?_, written.exhausted.trans taken.exhausted⟩
  · rw [written.type, taken.record]
    rfl
  · rw [written.bytes_other mountedU inDir usedU other, taken.bytes mounted inDir usedDir]
  · exact (written.readable_iff other).mpr ((taken.readable_iff other).mpr readable)
  · rw [(runs.mounted mounted).capacity inDir usedV, mounted.capacity inDir usedDir, ← free]
    have slots : v.heldSlots s.currentDirectory = s.heldSlots s.currentDirectory := by
      simp only [SimpleFs.heldSlots, written.slots _ inDir usedU other,
        taken.slots _ inDir usedDir]
    rw [slots]
    omega

namespace Furnished

variable {index : Nat} {t u : SimpleFs}

/-- The working directory has as many entries as before. -/
theorem entryCount (furnished : Furnished s index t) :
    t.entryCount s.currentDirectory = s.entryCount s.currentDirectory := by
  -- An entry count is read from the bytes, which did not change.
  rw [SimpleFs.entryCount, furnished.bytes]
  rfl

/-- The directory is made once its name is entered. -/
theorem created (furnished : Furnished s index t) (mounted : Mounted t)
    (entered : Written t s.currentDirectory (t.appended s.currentDirectory name index).get
      ((s.entryCount s.currentDirectory + 1) * entrySize) u) : DirCreated s name index u := by
  -- Every inode is the working directory, the new one or some other, and the facts are gathered for
  -- each.
  have usedNew : t.inodeUsed index = true := by simp [furnished.allocation]
  have notSame : index ≠ s.currentDirectory := Ne.symm furnished.other
  have newBytes := entered.bytes_other mounted furnished.inTable usedNew notSame
  have toEntering : ∀ i, s.Fresh i → s.Entering i := fun i free => Or.inr free
  have toDir : ∀ i, i = s.currentDirectory → s.Entering i := fun i same => Or.inl same
  refine ⟨furnished.inTable, furnished.fresh,
    (furnished.runs.mono toEntering toEntering).trans (entered.runs.mono toDir toDir), ?_, ?_, ?_,
    ?_, ?_, ?_, ⟨t.directoryScratch, ?_⟩, ?_, ?_⟩
  · intro j
    exact (entered.allocation j).trans (furnished.allocation j)
  · rw [entered.others index notSame]
    exact furnished.type
  · intro offset bufferSize
    rw [newBytes, furnished.newBytes]
  · rw [entered.others index notSame]
    exact furnished.newSize
  · intro j notIndex notDir
    rw [entered.others j notDir, furnished.others j notIndex]
  · rw [entered.type]
    exact furnished.readable.2.2.1
  · have filled := entered.filled
    rw [SimpleFs.appended, SimpleFs.loaded, if_pos furnished.readable, furnished.bytes,
      furnished.entryCount] at filled
    exact filled
  · exact entered.exhausted.trans furnished.exhausted
  · rw [SimpleFs.grownSize, entered.free, furnished.capacity]

end Furnished

/-- A directory whose name can be entered is made, unless blocks run out on the way. -/
theorem simplefsMakeDir_enterable (mounted : Mounted s) (enterable : s.Enterable name) :
    (∃ t index, simplefsMakeDir name s = (true, t) ∧ DirCreated s name index t) ∨
    (∃ t, simplefsMakeDir name s = (false, t) ∧ Runs s.Fresh s.Fresh s t ∧
      t.blocksExhausted = true ∧ s.freeBlocks = 0 ∧
      ∀ j, j < maxInodes → t.inodeUsed j = s.inodeUsed j) ∨
    (∃ t, simplefsMakeDir name s = (false, t) ∧ EntryLost s t ∧ 0 < s.freeBlocks ∧
      s.capacity s.currentDirectory < need s.grownSize + 1) := by
  obtain ⟨fsMounted, valid, absent, inodes, readable, room⟩ := enterable
  have inDir := readable.1
  have usedDir := readable.2.1
  obtain ⟨transfers, find⟩ := findEntryInDirectory_sound mounted s.currentDirectory name
  unfold simplefsMakeDir
  rw [if_neg (by simp [fsMounted, valid]), find, absent]
  simp only
  rcases allocateInode_cases mounted transfers typeDirectory with
    ⟨index, u, result, taken⟩ | ⟨full, -⟩
  swap
  · obtain ⟨index, small, free⟩ := inodes
    rw [full index small] at free
    cases free
  rw [result]
  simp only
  have mountedU := taken.mounted mounted
  have cwd : u.currentDirectory = s.currentDirectory := taken.runs.steady.currentDirectory
  rw [cwd]
  rcases initDirectoryFile_cases mounted taken s.currentDirectory with
    ⟨v, init, written⟩ | ⟨v, init, lost⟩
  swap
  · -- No block for the two entries: the inode goes back.
    right; left
    have toFresh : ∀ i, i = index → s.Fresh i := by
      rintro i rfl
      exact taken.fresh
    obtain ⟨w, released, release, exhausted, allocation⟩ :=
      taken.release mounted (lost.runs.mounted mountedU) lost.allocation
    have shortage := lost.shortage
    rw [taken.capacity_self mounted, show need 64 = 1 from rfl] at shortage
    rw [init]
    simp only [released]
    exact ⟨w, rfl, taken.runs.trans ((lost.runs.mono toFresh toFresh).trans release),
      exhausted.trans lost.exhausted, by omega, allocation⟩
  -- The directory has its entries, and its name is entered next.
  rw [init]
  simp only
  have furnished := taken.furnished mounted readable written
  have mountedV := furnished.runs.mounted mounted
  have usedV : v.inodeUsed s.currentDirectory = true := by
    rw [furnished.allocation, usedDir, Bool.or_true]
  obtain ⟨second, appends⟩ := appendEntryToDirectory_sound mountedV s.currentDirectory name index
  rw [furnished.runs.steady.currentDirectory, appends,
    if_pos ⟨furnished.readable, by rw [furnished.entryCount]; exact room⟩, furnished.entryCount]
  have fits : s.entryCount s.currentDirectory + 1 ≤ maxDirectoryEntries := room
  rcases writeDirectory_cases mountedV inDir usedV fits second
      (v.appended s.currentDirectory name index) with ⟨w, write, entered, -⟩ | ⟨w, write, lost⟩
  · left
    rw [write]
    exact ⟨w, index, rfl, furnished.created mountedV entered⟩
  · right; right
    have mountedW := lost.runs.mounted mountedV
    have toEntering : ∀ i, s.Fresh i → s.Entering i := fun i free => Or.inr free
    have toDir : ∀ i, i = s.currentDirectory → s.Entering i := fun i same => Or.inl same
    obtain ⟨x, released, release, exhausted, allocation⟩ :=
      taken.release mounted mountedW fun j =>
        (lost.allocation j).trans (written.allocation j)
    have shortage := lost.shortage
    have free := furnished.free
    have capacity := furnished.capacity
    rw [write]
    refine ⟨x, by simp only [released], ⟨?_, ?_, allocation, exhausted.trans lost.exhausted⟩,
      by omega, ?_⟩
    · exact (furnished.runs.mono toEntering toEntering).trans
        ((lost.runs.mono toDir toDir).trans (release.mono toEntering toEntering))
    · -- The directory was emptied before the inode, another one, went back.
      have kept := release.moves.kept mountedW inDir (by rw [lost.allocation]; exact usedV)
        (SimpleFs.not_fresh usedDir)
      rw [kept.2.1, lost.record, furnished.others _ furnished.other]
    · rw [SimpleFs.grownSize]
      omega

/-- Making a directory concerns the working directory and the inode it takes. -/
theorem simplefsMakeDir_runs (mounted : Mounted s) (name : CString) :
    Runs s.Entering s.Entering s (simplefsMakeDir name s).2 := by
  -- An enterable name has three outcomes, a refused one writes nothing.
  by_cases enterable : s.Enterable name
  · rcases simplefsMakeDir_enterable mounted enterable with
      ⟨t, index, result, created⟩ | ⟨t, result, runs, -⟩ | ⟨t, result, lost, -⟩
    · rw [result]
      exact created.runs
    · rw [result]
      exact runs.mono (fun i free => Or.inr free) fun i free => Or.inr free
    · rw [result]
      exact lost.runs
  · exact (simplefsMakeDir_refused mounted enterable).1.mono (fun i free => Or.inr free)
      fun i free => Or.inr free

end Enter

end MyOS.Fs
