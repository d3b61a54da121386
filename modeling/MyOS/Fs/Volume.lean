import MyOS.Lib.Run
import MyOS.Fs.Calls

/-! Formatting, and the invariants of every volume a run of calls leads to. -/

namespace MyOS.Fs

/-- The state once the metadata of an empty volume is on disk. -/
def SimpleFs.laidOut (s : SimpleFs) : SimpleFs :=
  { s with
    bootBlock := formatBootBlock
    infoBlock := formatInfoBlock
    inodeTable := formatInodeTable
    blocksExhausted := false
    ata := s.ata.wrote
      ((4096, formatBootBlock.encode) :: metadataLog formatInfoBlock formatInodeTable) }

section Format

variable {s : SimpleFs}

/-- What `simplefs_format` writes passes the check of `read_metadata`. -/
theorem headerOk_format : headerOk formatBootBlock formatInfoBlock = true := by decide

/-- Every inode of a fresh table is empty. -/
theorem formatInodeTable_get {index : Nat} (inTable : index < maxInodes) :
    (formatInodeTable.get index).directBlocks = .fill invalidBlock ∧
      (formatInodeTable.get index).indirectBlock = invalidBlock ∧
      (formatInodeTable.get index).size = 0 := by
  -- The root and the others differ only in type and link count.
  unfold formatInodeTable
  rw [FixedArray.get_set _ _ (show index < 64 from inTable)]
  split
  · exact ⟨rfl, rfl, rfl⟩
  · rw [FixedArray.get_fill _ (show index < 64 from inTable)]
    exact ⟨rfl, rfl, rfl⟩

/-- Right after the layout only the root inode is allocated. -/
theorem laidOut_inodeUsed (s : SimpleFs) (index : Nat) (inTable : index < maxInodes) :
    s.laidOut.inodeUsed index = decide (index = rootInode) := by
  -- The bitmap was cleared and then set at the root.
  have fresh : bitmapTest (.fill 0 : FixedArray 8 UInt8) index = false := by
    simp only [maxInodes] at inTable
    rw [bitmapTest, FixedArray.get_fill _ (by omega)]
    simp [bitTest]
  change bitmapTest (bitmapSet (.fill 0) rootInode) index = _
  rw [bitmapTest_bitmapSet _ _ (by decide), fresh, Bool.or_false, decide_eq_decide]
  exact eq_comm

/-- Right after the layout no inode holds a block. -/
theorem laidOut_slot (s : SimpleFs) {index k : Nat} (inTable : index < maxInodes)
    (small : k < slotLimit) : s.laidOut.slot index k = invalidBlock :=
  slotBlock_clear (formatInodeTable_get inTable).1 (formatInodeTable_get inTable).2.1 _ small

/-- The layout is a healthy volume. -/
theorem laidOut_healthy (sound : s.ata.Sound) : Healthy s.laidOut := by
  have nothing : ∀ i k, ¬ s.laidOut.Holds i k := by
    rintro i k ⟨inTable, -, small, held⟩
    exact held (laidOut_slot s inTable small)
  have sizes : ∀ i, i < maxInodes → (s.laidOut.inodeTable.get i).size = 0 :=
    fun i inTable => (formatInodeTable_get inTable).2.2
  refine ⟨⟨Sound.wrote sound _, headerOk_format, ?_, ?_, ?_, ?_, ?_⟩, ?_, ⟨?_, ?_, ?_⟩⟩
  · rw [laidOut_inodeUsed s _ (by decide)]
    rfl
  · change (formatInodeTable.get rootInode).type = typeDirectory
    unfold formatInodeTable
    rw [get_set_inode _ _ (by decide)]
  · exact fun i k holds => absurd holds (nothing i k)
  · exact fun i k holds => absurd holds (nothing i k)
  · exact fun i k _ _ holds => absurd holds (nothing i k)
  · intro i inTable
    constructor
    · intro _
      rw [sizes i inTable]
      exact Nat.zero_le _
    · intro _ k small
      rw [laidOut_slot s inTable small, sizes i inTable]
      simp [need, slotCount, blocksOf]
  · -- Each metadata sector was written once.
    have stored : s.laidOut.ata.sectors 4096 = formatBootBlock.encode := by
      refine Ata.applyWrites_written (Or.inr ⟨_, List.mem_cons_self, rfl⟩) ?_
      intro entry member place
      rcases List.mem_cons.mp member with rfl | member
      · rfl
      · have := metadataLog_lt member
        omega
    rw [stored, BootBlock.decode_encode]
    rfl
  · have stored : s.laidOut.ata.sectors 4097 = formatInfoBlock.encode := by
      refine Ata.applyWrites_written
        (Or.inr ⟨_, List.mem_cons_of_mem _ List.mem_cons_self, rfl⟩) ?_
      intro entry member place
      rcases List.mem_cons.mp member with rfl | member
      · simp only at place
        omega
      · exact metadataLog_info member place
    rw [stored, InfoBlock.decode_encode]
    rfl
  · intro i inTable
    simp only [maxInodes] at inTable
    have stored : s.laidOut.ata.sectors (4098 + i / 8) = encodeInodes formatInodeTable (i / 8) := by
      refine Ata.applyWrites_written (Or.inr ⟨_, List.mem_cons_of_mem _ (List.mem_cons_of_mem _
        (mem_tableLog _ (show i / 8 < 8 by omega))), rfl⟩) ?_
      intro entry member place
      rcases List.mem_cons.mp member with rfl | member
      · simp only at place
        omega
      · exact metadataLog_table member place
    rw [stored, decodeInode_encodeInodes]
    rfl

/-- The layout marks no block. -/
theorem laidOut_thrifty (s : SimpleFs) : s.laidOut.Thrifty := by
  -- The bitmap of the data blocks was cleared.
  intro b inside marked
  change bitmapTest (.fill 0 : FixedArray 256 UInt8) b = true at marked
  simp only [dataBlocks] at inside
  rw [bitmapTest, FixedArray.get_fill _ (by omega)] at marked
  simp [bitTest] at marked

/-- A freshly formatted volume, with nothing in it but the root directory. -/
structure Formatted (t : SimpleFs) : Prop where
  healthy : Healthy t
  allocation : ∀ j, j < maxInodes → t.inodeUsed j = decide (j = rootInode)
  bytes : ∀ offset bufferSize, t.bytes rootInode offset bufferSize =
    (List.range (min (64 - offset) bufferSize)).map fun p =>
      (dotEntries rootInode rootInode).get (offset + p)
  currentDirectory : t.currentDirectory = rootInode
  fsMounted : t.fsMounted = true
  openFiles : t.openFiles = .fill closedFile
  clear : t.blocksExhausted = false
  thrifty : t.Thrifty

/-- `simplefs_format` on a sound disk makes a fresh volume. -/
theorem simplefsFormat_sound (sound : s.ata.Sound) :
    ∃ t, simplefsFormat s = (true, t) ∧ Formatted t := by
  have healthy := laidOut_healthy sound
  have rootIn : rootInode < maxInodes := by decide
  -- The boot block and the metadata go out first.
  generalize startIs : ({ s with
    bootBlock := formatBootBlock
    infoBlock := formatInfoBlock
    inodeTable := formatInodeTable
    blocksExhausted := false } : SimpleFs) = u
  have bootIs : u.bootBlock = formatBootBlock := by rw [← startIs]
  have infoIs : u.infoBlock = formatInfoBlock := by rw [← startIs]
  have soundU : u.ata.Sound := by rw [← startIs]; exact sound
  have boot : writeBootBlock u = (true, u.logged [(4096, formatBootBlock.encode)]) := by
    have place : lba28 bootLba = 4096 := by decide
    simp [writeBootBlock, Ata.writeSectors, soundU.ready, Ata.writeLoop_sound soundU, place,
      SimpleFs.logged, bootIs]
  have metadata : writeMetadata (u.logged [(4096, formatBootBlock.encode)]) =
      (true, s.laidOut) := by
    have geometry : Geometry (u.logged [(4096, formatBootBlock.encode)]).infoBlock := by
      change Geometry u.infoBlock
      rw [infoIs]
      exact Geometry.of_headerOk headerOk_format
    rw [writeMetadata_sound (Sound.wrote soundU _) geometry, SimpleFs.logged_logged, ← startIs]
    rfl
  have used : s.laidOut.inodeUsed rootInode = true := healthy.mounted.rootUsed
  have init : initDirectoryFile rootInode rootInode s.laidOut =
      writeInodeData rootInode (dotEntries rootInode rootInode).get (2 * entrySize)
        (s.laidOut.scanned s.laidOut.ata.transfers (dotEntries rootInode rootInode)) := rfl
  rcases writeDirectory_cases healthy.mounted rootIn used (show 2 ≤ maxDirectoryEntries by decide)
      s.laidOut.ata.transfers (dotEntries rootInode rootInode) with
    ⟨t, write, written, -⟩ | ⟨t, -, lost⟩
  · refine ⟨resetOpenFiles { t with fsMounted := true, currentDirectory := rootInode }, ?_, ?_⟩
    · unfold simplefsFormat
      rw [if_neg (by simp [sound.ready])]
      simp only [startIs, boot, metadata, init, write]
    · have quiet : Quiet t (resetOpenFiles { t with
          fsMounted := true, currentDirectory := rootInode }) :=
        ⟨Ata.Extends.refl _, rfl, rfl, rfl, id⟩
      have moves := written.runs.moves.trans (Moves.quiet quiet)
      refine ⟨moves.healthy healthy, ?_, ?_, rfl, rfl, rfl, written.exhausted,
        moves.thrifty healthy.mounted (laidOut_thrifty s) written.exhausted⟩
      · intro j inTable
        rw [quiet.inodeUsed, written.allocation, laidOut_inodeUsed s j inTable]
      · intro offset bufferSize
        rw [quiet.bytes, written.bytes (by decide)]
        rfl
  · -- Every block is free, so the root directory finds the one it needs.
    exfalso
    have free : s.laidOut.marked 0 = false := by
      change bitmapTest (.fill 0 : FixedArray 256 UInt8) 0 = false
      decide
    have some : s.laidOut.freeBlocks ≠ 0 := by
      intro none
      have := clearCount_eq_zero.mp none 0 (by decide)
      rw [free] at this
      cases this
    have shortage := lost.shortage
    rw [healthy.mounted.capacity rootIn used, show need (2 * entrySize) = 1 from rfl] at shortage
    omega

end Format

/-- Every call keeps a healthy volume healthy. -/
theorem fsStep_healthy {s : SimpleFs} (healthy : Healthy s) (call : FsCall) :
    Healthy (fsStep s call).2 :=
  (fsStep_moves healthy.mounted call).healthy healthy

/-- Every call keeps a volume mounted. -/
theorem fsStep_mounted (s : SimpleFs) (call : FsCall) (mounted : Mounted s) :
    Mounted (fsStep s call).2 :=
  (fsStep_moves mounted call).mounted mounted

/-- No call forgets that blocks ran out. -/
theorem fsStep_exhausted (s : SimpleFs) (call : FsCall) (mounted : Mounted s)
    (before : s.blocksExhausted = true) : (fsStep s call).2.blocksExhausted = true :=
  (fsStep_moves mounted call).exhausted before

/-- Every run of calls from a fresh volume leads to a healthy one. -/
theorem run_healthy {s : SimpleFs} (sound : s.ata.Sound) (calls : List FsCall) :
    Healthy (runState fsStep (simplefsFormat s).2 calls) := by
  -- Health is kept by every call.
  obtain ⟨t, format, formatted⟩ := simplefsFormat_sound sound
  rw [format]
  exact runState_invariant fsStep Healthy (fun s call _ healthy => fsStep_healthy healthy call)
    (fun _ _ => trivial) formatted.healthy

/-- A logical block of a well-shaped inode has a block exactly below the length of the content. -/
theorem ShapedAt.pointer {s : SimpleFs} {index : Nat} (shaped : ShapedAt s index)
    (used : s.inodeUsed index = true) {l : Nat} (small : l < 134) :
    Fs.pointer s.ata.sectors (s.inodeTable.get index) l ≠ invalidBlock ↔
      l < blocksOf (s.inodeTable.get index).size.toNat := by
  -- The pointer is the place of the block, and places are filled up to the need.
  have within : dataSlot l < slotLimit := by unfold dataSlot slotLimit; split <;> omega
  have place : s.slot index (dataSlot l) ≠ invalidBlock ↔ _ :=
    shaped.places used (dataSlot l) within
  rw [pointer_eq_slotBlock _ _ small]
  refine place.trans ?_
  unfold need slotCount dataSlot
  split <;> split <;> omega

/-- The byte a position of a well-shaped inode holds. -/
def SimpleFs.byteAt (s : SimpleFs) (index p : Nat) : UInt8 :=
  (s.ata.sectors (blockSector (Fs.pointer s.ata.sectors (s.inodeTable.get index) (p / 512)))).get
    (p % 512)

/-- A well-shaped inode reads as one byte per position, up to its size. -/
theorem ShapedAt.bytes {s : SimpleFs} {index : Nat} (shaped : ShapedAt s index)
    (used : s.inodeUsed index = true) (offset bufferSize : Nat) :
    s.bytes index offset bufferSize =
      (List.range (min ((s.inodeTable.get index).size.toNat - offset) bufferSize)).map
        fun p => s.byteAt index (offset + p) := by
  -- Below the size every block is there, so no position is a hole.
  have bound := shaped.size used
  simp only [maxFileSize] at bound
  refine inodeBytes_eq rfl (fun l inside => ?_) (fun l j small _ => ?_) offset bufferSize
  · refine (shaped.pointer used ?_).mpr inside
    simp only [blocksOf] at inside
    omega
  · unfold SimpleFs.byteAt
    rw [show (512 * l + j) / 512 = l by omega, show (512 * l + j) % 512 = j by omega]

/-- A well-shaped inode has an indirect block exactly when it has more than six blocks. -/
theorem ShapedAt.indirect {s : SimpleFs} {index : Nat} (shaped : ShapedAt s index)
    (used : s.inodeUsed index = true) :
    (s.inodeTable.get index).indirectBlock ≠ invalidBlock ↔
      6 < blocksOf (s.inodeTable.get index).size.toNat := by
  -- The indirect block is place 6, filled exactly if more than six blocks are needed.
  have place := shaped.places used 6 (by decide)
  rw [slot_six] at place
  refine place.trans ?_
  unfold need slotCount
  split <;> omega

/--
No block is ever lost track of or held twice.

In every state a run of calls leads to, the blocks allocated inodes hold are data blocks, marked
used, and held in one place each. Every allocated inode has a block for exactly the sectors of
its content, and an indirect block exactly when these exceed six.
-/
theorem run_blocks_tracked (s : SimpleFs) (calls : List FsCall) (sound : s.ata.Sound) :
    let t := runState fsStep (simplefsFormat s).2 calls
    (∀ i k, t.Holds i k →
      (t.slot i k).toNat < 2048 ∧ t.marked (t.slot i k).toNat = true) ∧
    (∀ i k j l, t.Holds i k → t.Holds j l → t.slot i k = t.slot j l → i = j ∧ k = l) ∧
    ∀ i, i < maxInodes → t.inodeUsed i = true →
      (t.inodeTable.get i).size.toNat ≤ 68608 ∧
      (∀ l, l < 134 → (pointer t.ata.sectors (t.inodeTable.get i) l ≠ invalidBlock ↔
        l < ((t.inodeTable.get i).size.toNat + 511) / 512)) ∧
      ((t.inodeTable.get i).indirectBlock ≠ invalidBlock ↔
        6 < ((t.inodeTable.get i).size.toNat + 511) / 512) := by
  -- A healthy volume has all of it, and the pieces are read off its invariants.
  intro t
  have healthy : Healthy t := run_healthy sound calls
  have owned := healthy.mounted.owned
  refine ⟨fun i k holds => ⟨owned.inRange i k holds, owned.isMarked i k holds⟩, owned.distinct, ?_⟩
  intro i inTable used
  have shaped := healthy.shaped i inTable
  exact ⟨shaped.size used, fun l small => shaped.pointer used small, shaped.indirect used⟩

/-- The static variables before anything was mounted, over some disk. -/
def SimpleFs.powerOn (ata : Ata) : SimpleFs :=
  { ata := ata, bootBlock := default, infoBlock := default, inodeTable := .fill Inode.zero
    openFiles := .fill closedFile, directoryScratch := .fill 0, fileScratch := .fill 0
    currentDirectory := rootInode, fsMounted := false, blocksExhausted := false }

/-- A reliable disk that holds some metadata, and zeros elsewhere. -/
def storedDisk (info : InfoBlock) (table : FixedArray 64 Inode) : Ata :=
  { ready := true
    sectors := fun lba =>
      if lba = 4096 then formatBootBlock.encode
      else if lba = 4097 then info.encode
      else if lba < 4106 then encodeInodes table (lba - 4098)
      else .fill 0
    fails := fun _ => false
    transfers := 0
    writes := [] }

/-- The static variables over a blank disk. -/
def SimpleFs.blank : SimpleFs := SimpleFs.powerOn (storedDisk default (.fill Inode.zero))

/-- A short run keeps track of its blocks, on a disk that starts out blank. -/
theorem run_blocks_tracked_blank :
    SimpleFs.blank.ata.Sound ∧
    let t := runState fsStep (simplefsFormat SimpleFs.blank).2
        [.writeFile ⟨[97], by decide⟩ [1, 2, 3], .makeDir ⟨[98], by decide⟩]
    ∀ i k, t.Holds i k → (t.slot i k).toNat < 2048 ∧ t.marked (t.slot i k).toNat = true :=
  -- The run of the theorem, on a disk that nobody wrote.
  have sound : SimpleFs.blank.ata.Sound := ⟨rfl, fun _ => rfl⟩
  ⟨sound, (run_blocks_tracked _ _ sound).1⟩

end MyOS.Fs
