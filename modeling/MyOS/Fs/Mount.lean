import MyOS.Fs.Volume

/-! Mounting what the disk holds, and why it is what memory held. -/

namespace MyOS.Fs

/-- The info block a disk image holds. -/
def imageInfo (sectors : Nat → Sector) : InfoBlock := InfoBlock.decode (sectors 4097)

/-- One inode of the table a disk image holds. -/
def imageInode (sectors : Nat → Sector) (index : Nat) : Inode :=
  decodeInode (sectors (4098 + index / 8)) index

/-- The state after the disk of another state was mounted. -/
structure Remounted (b t : SimpleFs) : Prop where
  ata : b.ata.Extends [] t.ata
  bootBlock : t.bootBlock = BootBlock.decode (b.ata.sectors 4096)
  infoBlock : t.infoBlock = imageInfo b.ata.sectors
  inodes : ∀ i, i < maxInodes → t.inodeTable.get i = imageInode b.ata.sectors i
  openFiles : t.openFiles = .fill closedFile
  currentDirectory : t.currentDirectory = rootInode
  fsMounted : t.fsMounted = true
  exhausted : t.blocksExhausted = b.blocksExhausted

/-- `simplefs_init` accepts an image with a lawful header and an allocated root directory. -/
theorem simplefsInit_sound {b : SimpleFs} (sound : b.ata.Sound)
    (header : headerOk (BootBlock.decode (b.ata.sectors 4096)) (imageInfo b.ata.sectors) = true)
    (rootUsed : bitmapTest (imageInfo b.ata.sectors).inodeBitmap rootInode = true)
    (rootType : (imageInode b.ata.sectors rootInode).type = typeDirectory) :
    ∃ t, simplefsInit b = (true, t) ∧ Remounted b t := by
  have bootAt : lba28 bootLba = 4096 := by decide
  have infoAt : lba28 infoLba = 4097 := by decide
  have tableAt : lba28 inodeTableLba = 4098 := by decide
  have geometry := Geometry.of_headerOk header
  -- Each of the three reads returns what the image holds.
  have readBoot : ∀ a : Ata, a.Sound → a.readSectors bootLba 1 =
      (some [a.sectors 4096], a.afterReads (a.transfers + 1)) := by
    intro a sound
    simp [Ata.readSectors, sound.ready, Ata.readLoop_sound sound, bootAt]
  have readInfo : ∀ a : Ata, a.Sound → a.readSectors infoLba 1 =
      (some [a.sectors 4097], a.afterReads (a.transfers + 1)) := by
    intro a sound
    simp [Ata.readSectors, sound.ready, Ata.readLoop_sound sound, infoAt]
  have readTable : ∀ a : Ata, a.Sound → a.readSectors inodeTableLba 8 =
      (some ((List.range 8).map fun k => a.sectors (4098 + k)), a.afterReads (a.transfers + 8)) := by
    intro a sound
    simp [Ata.readSectors, sound.ready, Ata.readLoop_sound sound, tableAt]
  -- The inode table is put together from the eight sectors.
  have tableIs : ∀ i, i < 64 →
      ((FixedArray.ofFn fun i => decodeInode (((List.range 8).map fun k =>
        b.ata.sectors (4098 + k)).getD (i / 8) default) i) : FixedArray 64 Inode).get i =
          imageInode b.ata.sectors i := by
    intro i inTable
    rw [FixedArray.get_ofFn _ inTable, List.getD_eq_getElem _ _ (by simp; omega)]
    simp [imageInode]
  have metadata : readMetadata (resetOpenFiles { b with
      fsMounted := false, currentDirectory := rootInode }) =
      (true, { b with
        ata := b.ata.afterReads (b.ata.transfers + 1 + 1 + 8)
        bootBlock := BootBlock.decode (b.ata.sectors 4096)
        infoBlock := imageInfo b.ata.sectors
        inodeTable := .ofFn fun i => decodeInode (((List.range 8).map fun k =>
          b.ata.sectors (4098 + k)).getD (i / 8) default) i
        openFiles := .fill closedFile
        currentDirectory := rootInode
        fsMounted := false }) := by
    unfold readMetadata
    simp only [resetOpenFiles, readBoot _ sound, List.headD_cons]
    simp only [readInfo _ (Sound.afterReads sound _), List.headD_cons]
    have lawful : headerOk (BootBlock.decode (b.ata.sectors 4096))
        (InfoBlock.decode ((b.ata.afterReads (b.ata.transfers + 1)).sectors 4097)) = true := header
    have place : (InfoBlock.decode ((b.ata.afterReads (b.ata.transfers + 1)).sectors
        4097)).inodeTableLba = inodeTableLba := geometry.inodeTableLba
    have count : (InfoBlock.decode ((b.ata.afterReads (b.ata.transfers + 1)).sectors
        4097)).inodeTableSectors = 8 := geometry.inodeTableSectors
    simp only [lawful, Bool.not_true, Bool.false_eq_true, if_false, place, count]
    rw [show (8 : UInt32).toNat % 256 = 8 from rfl,
      readTable _ (Sound.afterReads (Sound.afterReads sound _) _)]
    refine (if_neg ?_).trans rfl
    -- The root inode passes both tests.
    rw [Bool.or_eq_true, Bool.not_eq_true', bne_iff_ne]
    rintro (free | other)
    · have used : _ = true := rootUsed
      exact absurd (used.symm.trans free) (by decide)
    · have root := tableIs rootInode (by decide)
      exact absurd ((congrArg Inode.type root).trans rootType) other
  refine ⟨{ b with
    ata := b.ata.afterReads (b.ata.transfers + 1 + 1 + 8)
    bootBlock := BootBlock.decode (b.ata.sectors 4096)
    infoBlock := imageInfo b.ata.sectors
    inodeTable := .ofFn fun i => decodeInode (((List.range 8).map fun k =>
      b.ata.sectors (4098 + k)).getD (i / 8) default) i
    openFiles := .fill closedFile
    currentDirectory := rootInode
    fsMounted := true }, ?_, ?_⟩
  · unfold simplefsInit
    simp only [metadata]
    rw [if_neg]
    simp [resetOpenFiles, sound.ready]
  · exact ⟨Ata.Extends.afterReads _ _, rfl, rfl, tableIs, rfl, rfl, rfl, rfl⟩

/-- Mounting a synced volume brings back the memory that wrote it. -/
theorem Mounted.remount {s b : SimpleFs} (mounted : Mounted s) (synced : Synced s)
    (sound : b.ata.Sound) (same : b.ata.sectors = s.ata.sectors) :
    ∃ t, simplefsInit b = (true, t) ∧ Remounted b t ∧ t.bootBlock = s.bootBlock ∧
      t.infoBlock = s.infoBlock ∧ t.inodeTable = s.inodeTable := by
  -- The disk decodes to the memory that wrote it, block by block.
  have boot : BootBlock.decode (b.ata.sectors 4096) = s.bootBlock := by rw [same, synced.boot]
  have info : imageInfo b.ata.sectors = s.infoBlock := by rw [imageInfo, same, synced.info]
  have inode : ∀ i, i < maxInodes → imageInode b.ata.sectors i = s.inodeTable.get i := by
    intro i inTable
    rw [imageInode, same, synced.inodes i inTable]
  obtain ⟨t, result, remounted⟩ := simplefsInit_sound sound
    (by rw [boot, info]; exact mounted.header) (by rw [info]; exact mounted.rootUsed)
    (by rw [inode _ (by decide)]; exact mounted.rootType)
  refine ⟨t, result, remounted, remounted.bootBlock.trans boot, remounted.infoBlock.trans info, ?_⟩
  apply FixedArray.ext_get
  intro i inTable
  rw [remounted.inodes i inTable, inode i inTable]

/-- Whether an inode can be read, and what a read of it returns, on any mounted volume. -/
theorem readInodeBytes_mounted {s : SimpleFs} (sound : s.ata.Sound) (geometry : Geometry s.infoBlock)
    (index offset bufferSize : Nat) :
    ((readInodeBytes index offset bufferSize s).1, (readInodeBytes index offset bufferSize s).2.1) =
      if index < maxInodes ∧ s.inodeUsed index = true then
        (true, s.bytes index offset bufferSize) else (false, []) := by
  -- An inode that is present is read, another one is refused.
  by_cases present : index < maxInodes ∧ s.inodeUsed index = true
  · obtain ⟨transfers, read⟩ :=
      readInodeBytes_sound sound geometry present.1 present.2 offset bufferSize
    rw [read, if_pos present]
  · rw [readInodeBytes_refused present, if_neg present]

/-- On two mounted volumes with the same sectors and metadata an inode lists and reads the same. -/
theorem Mounted.visible {s t : SimpleFs} (mounted : Mounted s) (mountedT : Mounted t)
    (sectors : t.ata.sectors = s.ata.sectors) (info : t.infoBlock = s.infoBlock)
    (table : t.inodeTable = s.inodeTable) (index : Nat) :
    listing index t = listing index s ∧ ∀ offset bufferSize,
      (readInodeBytes index offset bufferSize t).1 = (readInodeBytes index offset bufferSize s).1 ∧
      (readInodeBytes index offset bufferSize t).2.1 =
        (readInodeBytes index offset bufferSize s).2.1 := by
  have used : ∀ i, t.inodeUsed i = s.inodeUsed i := fun i => by simp only [SimpleFs.inodeUsed, info]
  have bytes : ∀ i offset bufferSize, t.bytes i offset bufferSize = s.bytes i offset bufferSize :=
    fun i offset bufferSize => by simp only [SimpleFs.bytes, sectors, table]
  constructor
  · -- A listing is made of the bytes of the directory.
    have readable : t.Readable index ↔ s.Readable index := by
      simp only [SimpleFs.Readable, used, table]
    have count : t.entryCount index = s.entryCount index := by simp only [SimpleFs.entryCount, bytes]
    rw [listing_eq mountedT, listing_eq mounted]
    simp only [readable, count, bytes]
  · intro offset bufferSize
    have before := readInodeBytes_mounted mounted.sound mounted.geometry index offset bufferSize
    have after := readInodeBytes_mounted mountedT.sound mountedT.geometry index offset bufferSize
    rw [used, bytes, ← before] at after
    exact Prod.mk.inj after

/-- In two states of one volume an inode lists and reads the same. -/
theorem Quiet.visible {s t : SimpleFs} (quiet : Quiet s t) (mounted : Mounted s) (index : Nat) :
    listing index t = listing index s ∧ ∀ offset bufferSize,
      (readInodeBytes index offset bufferSize t).1 = (readInodeBytes index offset bufferSize s).1 ∧
      (readInodeBytes index offset bufferSize t).2.1 =
        (readInodeBytes index offset bufferSize s).2.1 :=
  -- The answers depend on the sectors, the info block and the table.
  mounted.visible (quiet.mounted mounted) quiet.sectors quiet.infoBlock quiet.inodeTable index

/--
Remounting loses nothing.

After any run of calls the metadata on disk is that in memory. Mounting then succeeds from whatever
memory holds, and every inode has its record and its bytes, and every directory its entries, as
before.
-/
theorem run_remount (s : SimpleFs) (calls : List FsCall) (sound : s.ata.Sound) :
    let t := runState fsStep (simplefsFormat s).2 calls
    t.ata.Sound ∧ (BootBlock.decode (t.ata.sectors 4096) = t.bootBlock ∧
      InfoBlock.decode (t.ata.sectors 4097) = t.infoBlock ∧
      ∀ i, i < maxInodes → decodeInode (t.ata.sectors (4098 + i / 8)) i = t.inodeTable.get i) ∧
    ∀ b : SimpleFs, b.ata.Sound → b.ata.sectors = t.ata.sectors → ∃ u, simplefsInit b = (true, u) ∧
      (∀ i, i < maxInodes → u.inodeUsed i = t.inodeUsed i ∧
        (u.inodeTable.get i).type = (t.inodeTable.get i).type ∧
        (u.inodeTable.get i).size = (t.inodeTable.get i).size ∧
        (u.inodeTable.get i).linkCount = (t.inodeTable.get i).linkCount) ∧
      (∀ i offset bufferSize, (readInodeBytes i offset bufferSize u).1 =
          (readInodeBytes i offset bufferSize t).1 ∧
        (readInodeBytes i offset bufferSize u).2.1 = (readInodeBytes i offset bufferSize t).2.1) ∧
      ∀ dir, listing dir u = listing dir t := by
  intro t
  have healthy : Healthy t := run_healthy sound calls
  have mounted := healthy.mounted
  refine ⟨mounted.sound, ⟨healthy.synced.boot, healthy.synced.info, healthy.synced.inodes⟩, ?_⟩
  intro b soundB disk
  obtain ⟨u, result, remounted, boot, info, table⟩ := mounted.remount healthy.synced soundB disk
  have sectors : u.ata.sectors = t.ata.sectors := remounted.ata.sectors.trans disk
  have used : ∀ i, u.inodeUsed i = t.inodeUsed i := fun i => by simp only [SimpleFs.inodeUsed, info]
  -- What was mounted is the volume that the run led to.
  have mountedU : Mounted u := by
    refine ⟨remounted.ata.sound soundB, ?_, ?_, ?_, mounted.owned.congr sectors info table⟩
    · rw [boot, info]
      exact mounted.header
    · rw [used]
      exact mounted.rootUsed
    · rw [table]
      exact mounted.rootType
  have visible := mounted.visible mountedU sectors info table
  refine ⟨u, result, fun i _ => ⟨used i, ?_⟩, fun i => (visible i).2, fun dir => (visible dir).1⟩
  rw [table]
  exact ⟨rfl, rfl, rfl⟩

/-- A volume with an empty root and one file of one byte, open as descriptor 0. -/
def soleFile (bitmap : FixedArray 256 UInt8) (block : UInt32) : SimpleFs :=
  let info := { formatInfoBlock with
    inodeBitmap := bitmapSet (bitmapSet (.fill 0) rootInode) 1
    dataBitmap := bitmap }
  let table := formatInodeTable.set 1 { clearBlockPointers Inode.zero with
    type := typeRegular
    linkCount := 1
    size := 1
    directBlocks := (FixedArray.fill invalidBlock).set 0 block }
  { SimpleFs.powerOn (storedDisk info table) with
    bootBlock := formatBootBlock
    infoBlock := info
    inodeTable := table
    openFiles := (FixedArray.fill closedFile).set 0
      { used := true, inodeIndex := 1, offset := 0, name := [] }
    fsMounted := true }

section SoleFile

variable {bitmap : FixedArray 256 UInt8} {block : UInt32}

/-- The root and the file are the only inodes of the volume. -/
theorem soleFile_inodeUsed {index : Nat} (inTable : index < maxInodes) :
    (soleFile bitmap block).inodeUsed index = (decide (index = 1) || decide (index = 0)) := by
  -- The bitmap of the inodes was set at 0 and at 1 only.
  have fresh : bitmapTest (.fill 0 : FixedArray 8 UInt8) index = false := by
    simp only [maxInodes] at inTable
    rw [bitmapTest, FixedArray.get_fill _ (by omega)]
    simp [bitTest]
  change bitmapTest (bitmapSet (bitmapSet (.fill 0) rootInode) 1) index = _
  rw [bitmapTest_bitmapSet _ _ (by decide), bitmapTest_bitmapSet _ _ (by decide), fresh,
    Bool.or_false]
  congr 1 <;> rw [decide_eq_decide] <;> exact eq_comm

/-- The file holds its one block in the first place, and nothing else is held. -/
theorem soleFile_slot {index k : Nat} (inTable : index < maxInodes) (small : k < slotLimit) :
    (soleFile bitmap block).slot index k =
      if index = 1 ∧ k = 0 then block else invalidBlock := by
  -- Only the record of the file has a pointer, and only in its first place.
  by_cases file : index = 1
  · subst file
    have record : (soleFile bitmap block).inodeTable.get 1 =
        { clearBlockPointers Inode.zero with
          type := typeRegular
          linkCount := 1
          size := 1
          directBlocks := (FixedArray.fill invalidBlock).set 0 block } :=
      get_set_inode _ _ (by decide)
    simp only [slotLimit] at small
    simp only [SimpleFs.slot, record, slotBlock, tableOf, clearBlockPointers, if_true, true_and]
    by_cases direct : k < 6
    · rw [if_pos direct, FixedArray.get_set _ _ direct, FixedArray.get_fill _ direct]
    · rw [if_neg direct, if_neg (show ¬ k = 0 by omega)]
      split
      · rfl
      · exact FixedArray.get_fill _ (by omega)
  · rw [if_neg (fun both => file both.1)]
    have record : (soleFile bitmap block).inodeTable.get index = formatInodeTable.get index :=
      FixedArray.get_set_ne _ _ file
    obtain ⟨direct, indirect, -⟩ := formatInodeTable_get inTable
    rw [SimpleFs.slot, record]
    exact slotBlock_clear direct indirect _ small

/-- The volume is mounted as it should be, if its one block is marked. -/
theorem soleFile_mounted (inside : block.toNat < dataBlocks)
    (marked : bitmapTest bitmap block.toNat = true) : Mounted (soleFile bitmap block) := by
  -- One block is held, by one inode, and it is marked.
  have only : ∀ i k, (soleFile bitmap block).Holds i k →
      i = 1 ∧ k = 0 ∧ (soleFile bitmap block).slot i k = block := by
    rintro i k ⟨inTable, -, small, held⟩
    rw [soleFile_slot inTable small] at held ⊢
    by_cases file : i = 1 ∧ k = 0
    · exact ⟨file.1, file.2, if_pos file⟩
    · exact absurd (if_neg file) held
  refine ⟨⟨rfl, fun _ => rfl⟩, headerOk_format, ?_, ?_, ?_, ?_, ?_⟩
  · rw [soleFile_inodeUsed (by decide)]
    rfl
  · change ((formatInodeTable.set 1 _).get rootInode).type = typeDirectory
    rw [FixedArray.get_set_ne _ _ (by decide), formatInodeTable, get_set_inode _ _ (by decide)]
  · intro i k holds
    rw [(only i k holds).2.2]
    exact inside
  · intro i k holds
    rw [(only i k holds).2.2]
    exact marked
  · intro i k j l holdsK holdsL _
    obtain ⟨rfl, rfl, -⟩ := only i k holdsK
    obtain ⟨rfl, rfl, -⟩ := only j l holdsL
    exact ⟨rfl, rfl⟩

/-- The disk of the volume holds its metadata. -/
theorem soleFile_synced : Synced (soleFile bitmap block) := by
  -- Each part of the image decodes to what was encoded.
  refine ⟨?_, ?_, ?_⟩
  · exact BootBlock.decode_encode _
  · exact InfoBlock.decode_encode _
  · intro i inTable
    simp only [maxInodes] at inTable
    have stored : (soleFile bitmap block).ata.sectors (4098 + i / 8) =
        encodeInodes (soleFile bitmap block).inodeTable (i / 8) := by
      change (if 4098 + i / 8 = 4096 then _ else if 4098 + i / 8 = 4097 then _
        else if 4098 + i / 8 < 4106 then encodeInodes _ (4098 + i / 8 - 4098) else _) = _
      rw [if_neg (by omega), if_neg (by omega), if_pos (by omega), Nat.add_sub_cancel_left]
      rfl
    rw [stored, decodeInode_encodeInodes]

end SoleFile

/-- Remounting after a short run, on a disk that starts out blank and with memory that holds nothing. -/
theorem run_remount_blank :
    SimpleFs.blank.ata.Sound ∧
    let t := runState fsStep (simplefsFormat SimpleFs.blank).2
      [.writeFile ⟨[97], by decide⟩ [1, 2, 3], .makeDir ⟨[98], by decide⟩]
    ∃ u, simplefsInit (SimpleFs.powerOn t.ata) = (true, u) := by
  -- The run of the theorem, on a disk that nobody wrote.
  have sound : SimpleFs.blank.ata.Sound := ⟨rfl, fun _ => rfl⟩
  refine ⟨sound, ?_⟩
  obtain ⟨soundT, -, again⟩ := run_remount SimpleFs.blank
    [.writeFile ⟨[97], by decide⟩ [1, 2, 3], .makeDir ⟨[98], by decide⟩] sound
  obtain ⟨u, mounts, -⟩ := again (SimpleFs.powerOn _) soundT rfl
  exact ⟨u, mounts⟩

end MyOS.Fs
