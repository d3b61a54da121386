import MyOS.Fs.Inodes
import Mathlib.Data.Finset.Card
import Mathlib.Data.Finset.Image

/-! What each block-level operation does on a sound disk: bitmaps, slots, reads and frees. -/

namespace MyOS.Fs

/-- Setting a bit inside the bitmap raises that bit and no other. -/
theorem bitmapTest_bitmapSet {n : Nat} (bitmap : FixedArray n UInt8) {i : Nat} (j : Nat)
    (inside : i / 8 < n) :
    bitmapTest (bitmapSet bitmap i) j = (decide (i = j) || bitmapTest bitmap j) := by
  -- The two bits lie in one byte or in different ones.
  unfold bitmapTest bitmapSet
  by_cases same : j / 8 = i / 8
  · rw [same, FixedArray.get_set_same _ _ inside, bitTest_bitSet _ (by omega) (by omega)]
    congr 1
    rw [decide_eq_decide]
    omega
  · rw [FixedArray.get_set_ne _ _ same, show decide (i = j) = false by
      simp only [decide_eq_false_iff_not]; omega, Bool.false_or]

/-- Clearing a bit inside the bitmap lowers that bit and no other. -/
theorem bitmapTest_bitmapClear {n : Nat} (bitmap : FixedArray n UInt8) {i : Nat} (j : Nat)
    (inside : i / 8 < n) :
    bitmapTest (bitmapClear bitmap i) j = (!decide (i = j) && bitmapTest bitmap j) := by
  -- The two bits lie in one byte or in different ones.
  unfold bitmapTest bitmapClear
  by_cases same : j / 8 = i / 8
  · rw [same, FixedArray.get_set_same _ _ inside, bitTest_bitClear _ (by omega) (by omega)]
    congr 2
    rw [decide_eq_decide]
    omega
  · rw [FixedArray.get_set_ne _ _ same, show decide (i = j) = false by
      simp only [decide_eq_false_iff_not]; omega, Bool.not_false, Bool.true_and]

/-- An inode put into the table is found there. -/
theorem get_set_inode (table : FixedArray 64 Inode) {index : Nat} (inode : Inode)
    (inTable : index < maxInodes) : (table.set index inode).get index = inode :=
  FixedArray.get_set_same _ _ inTable

/-- The layout parameters the block arithmetic relies on. -/
structure Geometry (info : InfoBlock) : Prop where
  dataLba : info.dataLba = Fs.dataLba
  inodeTableLba : info.inodeTableLba = Fs.inodeTableLba
  inodeTableSectors : info.inodeTableSectors = 8

/-- A checked header has the fixed geometry. -/
theorem Geometry.of_headerOk {boot : BootBlock} {info : InfoBlock}
    (checked : headerOk boot info = true) : Geometry info := by
  -- The three parameters are among those the header is checked for.
  simp only [headerOk, Bool.and_eq_true, beq_iff_eq] at checked
  exact ⟨checked.1.1.1.1.2, checked.1.1.1.1.1.1.2, checked.1.1.1.1.1.2⟩

/-- Only the fields that never change after mounting matter to the geometry. -/
theorem Geometry.congr {info info' : InfoBlock} (geometry : Geometry info)
    (dataLba : info'.dataLba = info.dataLba) (tableLba : info'.inodeTableLba = info.inodeTableLba)
    (tableSectors : info'.inodeTableSectors = info.inodeTableSectors) : Geometry info' :=
  -- The three fields are the ones that the geometry names.
  ⟨dataLba.trans geometry.dataLba, tableLba.trans geometry.inodeTableLba,
    tableSectors.trans geometry.inodeTableSectors⟩

/-- The sector a block number leads to under the fixed geometry. -/
def blockSector (block : UInt32) : Nat := lba28 (dataLba + block)

/-- Data blocks lie in order behind the inode table. -/
theorem blockSector_eq {block : UInt32} (inside : block.toNat < dataBlocks) :
    blockSector block = 4106 + block.toNat := by
  -- The sector numbers are far below the limit of the addressing.
  have base : dataLba.toNat = 4106 := by decide
  simp only [dataBlocks] at inside
  simp only [blockSector, lba28, UInt32.toNat_add, base]
  omega

/-- Different data blocks lie in different sectors. -/
theorem blockSector_ne {a b : UInt32} (insideA : a.toNat < dataBlocks)
    (insideB : b.toNat < dataBlocks) (apart : a ≠ b) : blockSector a ≠ blockSector b := by
  -- The sector of a block is at a fixed distance from its number.
  rw [blockSector_eq insideA, blockSector_eq insideB]
  intro same
  exact apart (UInt32.toNat_inj.mp (by omega))

/-- A data block is not the invalid block. -/
theorem ne_invalidBlock {block : UInt32} (inside : block.toNat < dataBlocks) :
    block ≠ invalidBlock := by
  -- The number of the invalid block is the greatest there is.
  rintro rfl
  exact absurd inside (by decide)

/-- A block number the allocator hands out reads back as the number it found. -/
theorem toNat_ofNat_block {b : Nat} (inside : b < dataBlocks) : (UInt32.ofNat b).toNat = b := by
  -- There are fewer blocks than words.
  simp only [dataBlocks] at inside
  simp only [UInt32.toNat_ofNat']
  omega

namespace SimpleFs

/-- The state after reads only: the transfer count and the directory scratch may have moved. -/
def scanned (s : SimpleFs) (transfers : Nat) (scratch : FixedArray 68608 UInt8) : SimpleFs :=
  { s with ata := s.ata.afterReads transfers, directoryScratch := scratch }

/-- The state after a list of sector writes that all succeeded. -/
def logged (s : SimpleFs) (log : List (Nat × Sector)) : SimpleFs :=
  { s with ata := s.ata.wrote log }

/-- The state with the disk, the data bitmap and one inode replaced. -/
def patch (s : SimpleFs) (ata : Ata) (bitmap : FixedArray 256 UInt8) (index : Nat)
    (inode : Inode) : SimpleFs :=
  { s with
    ata := ata
    infoBlock := { s.infoBlock with dataBitmap := bitmap }
    inodeTable := s.inodeTable.set index inode }

/-- Whether the data bitmap marks a block as used. -/
def marked (s : SimpleFs) (block : Nat) : Bool := bitmapTest s.infoBlock.dataBitmap block

/-- Blocks the data bitmap leaves free. -/
def freeBlocks (s : SimpleFs) : Nat := clearCount s.marked dataBlocks

end SimpleFs

/-- The table of further blocks an inode has on a disk. -/
def tableOf (sectors : Nat → Sector) (inode : Inode) : IndirectTable :=
  if inode.indirectBlock = invalidBlock then .fill invalidBlock
  else decodeTable (sectors (blockSector inode.indirectBlock))

/-- The number of places an inode can hold a block in: direct, indirect, and through the table. -/
def slotLimit : Nat := 135

/--
The block an inode holds in one of its 135 places.

Places 0 to 5 are the direct blocks, place 6 is the indirect block itself, and the rest are
the entries of the table stored in it.
-/
def slotBlock (sectors : Nat → Sector) (inode : Inode) (k : Nat) : UInt32 :=
  if k < 6 then inode.directBlocks.get k
  else if k = 6 then inode.indirectBlock
  else (tableOf sectors inode).get (k - 7)

/-- The block that holds one logical block of a file. -/
def pointer (sectors : Nat → Sector) (inode : Inode) (logical : Nat) : UInt32 :=
  if logical < 6 then inode.directBlocks.get logical
  else if logical - 6 < 128 then (tableOf sectors inode).get (logical - 6)
  else invalidBlock

/-- The place of one logical block. -/
def dataSlot (logical : Nat) : Nat := if logical < 6 then logical else logical + 1

/-- How many places the first `n` logical blocks fill, the indirect block included. -/
def slotCount (n : Nat) : Nat := if n ≤ 6 then n else n + 1

/-- Sectors needed for a content of some size. -/
def blocksOf (size : Nat) : Nat := (size + 511) / 512

/-- Blocks needed for a content of some size, the indirect block included. -/
def need (size : Nat) : Nat := slotCount (blocksOf size)

/-- A logical block is found in its place. -/
theorem pointer_eq_slotBlock (sectors : Nat → Sector) (inode : Inode) {logical : Nat}
    (inside : logical < 134) :
    pointer sectors inode logical = slotBlock sectors inode (dataSlot logical) := by
  -- A direct block has the same place, and the indirect block shifts the others by one.
  unfold pointer slotBlock dataSlot
  by_cases direct : logical < 6
  · simp [direct]
  · rw [if_neg direct, if_pos (by omega), if_neg direct, if_neg (by omega), if_neg (by omega),
      show logical + 1 - 7 = logical - 6 by omega]

/-- What an inode holds depends on its record and on the sector of its indirect block. -/
theorem slotBlock_congr {sectors sectors' : Nat → Sector} {inode : Inode}
    (same : inode.indirectBlock ≠ invalidBlock →
      sectors' (blockSector inode.indirectBlock) = sectors (blockSector inode.indirectBlock))
    (k : Nat) : slotBlock sectors' inode k = slotBlock sectors inode k := by
  -- The table is read from the sector of the indirect block.
  have tables : tableOf sectors' inode = tableOf sectors inode := by
    unfold tableOf
    split
    · rfl
    · rename_i held
      rw [same held]
  simp only [slotBlock, tables]

namespace SimpleFs

/-- The block an inode of the mounted file system holds in one of its places. -/
def slot (s : SimpleFs) (index k : Nat) : UInt32 :=
  slotBlock s.ata.sectors (s.inodeTable.get index) k

/-- An inode of the mounted file system holds some block in a place. -/
def Holds (s : SimpleFs) (index k : Nat) : Prop :=
  index < maxInodes ∧ s.inodeUsed index = true ∧ k < slotLimit ∧ s.slot index k ≠ invalidBlock

end SimpleFs

/-- Whether an inode holds a block can be computed. -/
instance (s : SimpleFs) (index k : Nat) : Decidable (s.Holds index k) :=
  inferInstanceAs (Decidable (_ ∧ _ ∧ _ ∧ _))

/-- The indirect block is what an inode holds in place 6. -/
theorem slot_six (s : SimpleFs) (index : Nat) :
    s.slot index 6 = (s.inodeTable.get index).indirectBlock := by
  simp [SimpleFs.slot, slotBlock]

/--
The block-ownership invariant: blocks held by allocated inodes are data blocks, are marked
used, and are each held in one place only.
-/
structure Owned (s : SimpleFs) : Prop where
  inRange : ∀ i k, s.Holds i k → (s.slot i k).toNat < dataBlocks
  isMarked : ∀ i k, s.Holds i k → s.marked (s.slot i k).toNat = true
  distinct : ∀ i k j l, s.Holds i k → s.Holds j l → s.slot i k = s.slot j l → i = j ∧ k = l

section Disk

variable {s : SimpleFs}

/-- A data block reads as its sector, if the disk answers. -/
theorem readBlock_eq (geometry : Geometry s.infoBlock) (block : UInt32) :
    readBlock block s = (if s.ata.answers then some (s.ata.sectors (blockSector block)) else none,
      s.scanned s.ata.tried s.directoryScratch) := by
  -- One sector is read, at the place of the block.
  unfold readBlock
  rw [Ata.readSectors_one, blockLba, geometry.dataLba]
  cases s.ata.answers <;> rfl

/-- A data block is written where its number says, if the disk answers. -/
theorem writeBlock_eq (geometry : Geometry s.infoBlock) (block : UInt32) (sector : Sector) :
    writeBlock block sector s =
      if s.ata.answers then (true, s.logged [(blockSector block, sector)])
      else (false, s.scanned s.ata.tried s.directoryScratch) := by
  -- One sector is written, at the place of the block.
  unfold writeBlock
  rw [Ata.writeSectors_one, blockLba, geometry.dataLba]
  cases s.ata.answers <;> rfl

/-- On a sound disk a data block reads as its sector. -/
theorem readBlock_sound (sound : s.ata.Sound) (geometry : Geometry s.infoBlock) (block : UInt32) :
    readBlock block s = (some (s.ata.sectors (blockSector block)),
      s.scanned (s.ata.transfers + 1) s.directoryScratch) := by
  -- A sound disk answers.
  rw [readBlock_eq geometry, if_pos sound.answers, sound.tried]

/-- What is on the disk after a log is what the log leaves there. -/
@[simp] theorem wrote_sectors (a : Ata) (log : List (Nat × Sector)) :
    (a.wrote log).sectors = Ata.applyWrites a.sectors log := rfl

/-- Two logs written one after the other are one log. -/
@[simp] theorem wrote_wrote (a : Ata) (first second : List (Nat × Sector)) :
    (a.wrote first).wrote second = a.wrote (first ++ second) := by
  simp [Ata.wrote, Ata.applyWrites_append, Nat.add_assoc]

/-- Writing nothing leaves the device as it is. -/
@[simp] theorem wrote_nil (a : Ata) : a.wrote [] = a := by
  simp [Ata.wrote]

/-- Logs that follow each other are one log. -/
@[simp] theorem SimpleFs.logged_logged (s : SimpleFs) (first second : List (Nat × Sector)) :
    (s.logged first).logged second = s.logged (first ++ second) := by
  simp [SimpleFs.logged]

/-- A sound device stays sound whatever is written to it. -/
theorem Sound.wrote {a : Ata} (sound : a.Sound) (log : List (Nat × Sector)) :
    (a.wrote log).Sound := ⟨sound.ready, sound.reliable⟩

/-- A sound device stays sound whatever is read from it. -/
theorem Sound.afterReads {a : Ata} (sound : a.Sound) (transfers : Nat) :
    (a.afterReads transfers).Sound := ⟨sound.ready, sound.reliable⟩

/-- The indirect table of an inode reads as the table its slots come from. -/
theorem readIndirectBlock_sound (sound : s.ata.Sound) (geometry : Geometry s.infoBlock)
    (inode : Inode) :
    ∃ transfers, readIndirectBlock inode s =
      (some (tableOf s.ata.sectors inode), s.scanned transfers s.directoryScratch) := by
  -- Without an indirect block there is nothing to read.
  unfold readIndirectBlock tableOf
  split
  · exact ⟨s.ata.transfers, rfl⟩
  · exact ⟨s.ata.transfers + 1, by rw [readBlock_sound sound geometry]⟩

/-- The log entries of writing the inode table. -/
def tableLog (table : FixedArray 64 Inode) : List (Nat × Sector) :=
  (List.range 8).map fun j => (4098 + j, encodeInodes table j)

/-- The log entries of writing the metadata: the info block, then the eight table sectors. -/
def metadataLog (info : InfoBlock) (table : FixedArray 64 Inode) : List (Nat × Sector) :=
  (4097, info.encode) :: tableLog table

/-- On a sound disk the inode table goes to its eight sectors. -/
theorem writeInodeTable_sound (sound : s.ata.Sound) (geometry : Geometry s.infoBlock) :
    writeInodeTable s = (true, s.logged (tableLog s.inodeTable)) := by
  -- The table begins two sectors behind the first one of the volume.
  have place : lba28 inodeTableLba = 4098 := by decide
  have log : ((List.range 8).map (encodeInodes s.inodeTable)).mapIdx
      (fun k sector => (4098 + k, sector)) = tableLog s.inodeTable := rfl
  simp [writeInodeTable, geometry.inodeTableLba, geometry.inodeTableSectors,
    Ata.writeSectors, sound.ready, Ata.writeLoop_sound sound, place, log, SimpleFs.logged]

/-- On a sound disk the info block goes to its sector. -/
theorem writeInfoBlock_sound (sound : s.ata.Sound) :
    writeInfoBlock s = (true, s.logged [(4097, s.infoBlock.encode)]) := by
  -- The place of the info block is a constant.
  have place : lba28 infoLba = 4097 := by decide
  simp [writeInfoBlock, Ata.writeSectors, sound.ready, Ata.writeLoop_sound sound, place,
    SimpleFs.logged]

/-- On a sound disk the metadata goes out in one fixed order. -/
theorem writeMetadata_sound (sound : s.ata.Sound) (geometry : Geometry s.infoBlock) :
    writeMetadata s = (true, s.logged (metadataLog s.infoBlock s.inodeTable)) := by
  -- The info block is written, and then the table on the disk that this leaves.
  have next : (s.logged [(4097, s.infoBlock.encode)]).ata.Sound := Sound.wrote sound _
  rw [writeMetadata, writeInfoBlock_sound sound]
  simp only [writeInodeTable_sound next geometry]
  rw [SimpleFs.logged_logged]
  rfl

/-- Clearing a row of blocks lowers exactly their bits. -/
theorem bitmapTest_clearBlocks {bitmap : FixedArray 256 UInt8} {blocks : List UInt32}
    (inside : ∀ block ∈ blocks, block ≠ invalidBlock → block.toNat < dataBlocks) (b : Nat) :
    bitmapTest (clearBlocks bitmap blocks) b = true ↔
      bitmapTest bitmap b = true ∧
        ∀ block ∈ blocks, block ≠ invalidBlock → block.toNat ≠ b := by
  -- By induction on the blocks: an invalid one is passed over, any other clears its bit.
  induction blocks generalizing bitmap with
  | nil => simp [clearBlocks]
  | cons block rest ih =>
    have tail := fun c member => inside c (List.mem_cons_of_mem block member)
    by_cases held : block = invalidBlock
    · have skip : clearBlocks bitmap (block :: rest) = clearBlocks bitmap rest := by
        simp [clearBlocks, held]
      rw [skip, ih tail]
      simp [held]
    · have step : clearBlocks bitmap (block :: rest) =
          clearBlocks (bitmapClear bitmap block.toNat) rest := by
        simp [clearBlocks, held]
      have bound := inside block List.mem_cons_self held
      simp only [dataBlocks] at bound
      rw [step, ih tail, bitmapTest_bitmapClear _ _ (by omega)]
      simp [held, and_assoc, and_left_comm]

/-- An inode without blocks or content. -/
def emptied (inode : Inode) : Inode :=
  { inode with directBlocks := .fill invalidBlock, indirectBlock := invalidBlock, size := 0 }

/-- The places whose blocks freeing an inode finds: those of its table only if that can be read. -/
def SimpleFs.Named (s : SimpleFs) (index k : Nat) : Prop :=
  k < slotLimit ∧ (k ≤ 6 ∨ s.ata.answers = true) ∧ s.slot index k ≠ invalidBlock

/-- The transfers attempted once an inode was freed. -/
def SimpleFs.freeTransfers (s : SimpleFs) (index : Nat) : Nat :=
  if (s.inodeTable.get index).indirectBlock = invalidBlock then s.ata.transfers else s.ata.tried

/-- The entries of the table of an inode, where they can be read. -/
def SimpleFs.tableEntries (s : SimpleFs) (index : Nat) : List UInt32 :=
  if s.ata.answers then (tableOf s.ata.sectors (s.inodeTable.get index)).toList else []

/-- The first places are in the inode itself. -/
theorem slot_direct (s : SimpleFs) (index : Nat) {k : Nat} (small : k < 6) :
    s.slot index k = (s.inodeTable.get index).directBlocks.get k :=
  if_pos small

/-- The places behind the seventh are the entries of the table. -/
theorem slot_table (s : SimpleFs) (index : Nat) {k : Nat} (high : 7 ≤ k) :
    s.slot index k = (tableOf s.ata.sectors (s.inodeTable.get index)).get (k - 7) :=
  (if_neg (by omega)).trans (if_neg (by omega))

/-- The blocks that are found are direct blocks, entries of the table, and the indirect block. -/
theorem forall_named_iff {index : Nat} {P : UInt32 → Prop} :
    (∀ k, s.Named index k → P (s.slot index k)) ↔
      (∀ block ∈ (s.inodeTable.get index).directBlocks.toList, block ≠ invalidBlock → P block) ∧
      (∀ block ∈ s.tableEntries index, block ≠ invalidBlock → P block) ∧
      ((s.inodeTable.get index).indirectBlock ≠ invalidBlock →
        P (s.inodeTable.get index).indirectBlock) := by
  unfold SimpleFs.Named SimpleFs.tableEntries slotLimit
  constructor
  · -- Each kind of block has its places.
    intro named
    refine ⟨fun block member held => ?_, fun block member held => ?_, fun held => ?_⟩
    · obtain ⟨k, small, rfl⟩ := FixedArray.mem_toList.mp member
      rw [← slot_direct s index small] at held ⊢
      exact named k ⟨by omega, Or.inl (by omega), held⟩
    · split at member
      · next answers =>
        obtain ⟨k, small, rfl⟩ := FixedArray.mem_toList.mp member
        have place := slot_table s index (show 7 ≤ k + 7 by omega)
        rw [Nat.add_sub_cancel] at place
        rw [← place] at held ⊢
        exact named (k + 7) ⟨by omega, Or.inr answers, held⟩
      · cases member
    · rw [← slot_six] at held ⊢
      exact named 6 ⟨by decide, Or.inl (by decide), held⟩
  · -- Each place has its kind of block.
    rintro ⟨direct, entries, self⟩ k ⟨small, reach, held⟩
    rcases Nat.lt_trichotomy k 6 with low | rfl | high
    · rw [slot_direct s index low] at held ⊢
      exact direct _ (FixedArray.mem_toList.mpr ⟨k, low, rfl⟩) held
    · rw [slot_six] at held ⊢
      exact self held
    · rw [slot_table s index (by omega)] at held ⊢
      rw [if_pos (reach.resolve_left (by omega))] at entries
      exact entries _ (FixedArray.mem_toList.mpr ⟨k - 7, by omega, rfl⟩) held

/-- Without an indirect block there are no entries. -/
theorem tableEntries_none {index : Nat} (none : (s.inodeTable.get index).indirectBlock = invalidBlock)
    {block : UInt32} (member : block ∈ s.tableEntries index) : block = invalidBlock := by
  -- The table counts as one without entries.
  unfold SimpleFs.tableEntries tableOf at member
  rw [if_pos none] at member
  split at member
  · obtain ⟨k, small, rfl⟩ := FixedArray.mem_toList.mp member
    exact FixedArray.get_fill _ small
  · cases member

/--
Freeing an inode lowers exactly the bits of the blocks it finds.

Nothing goes to the disk; the inode is left empty in memory.
-/
theorem freeInodeBlocks_eq (geometry : Geometry s.infoBlock) {index : Nat}
    (inside : ∀ k, s.Named index k → (s.slot index k).toNat < dataBlocks) :
    ∃ bitmap, freeInodeBlocks index s = s.patch (s.ata.afterReads (s.freeTransfers index)) bitmap
        index (emptied (s.inodeTable.get index)) ∧
      ∀ b, bitmapTest bitmap b = true ↔ s.marked b = true ∧
        ∀ k, s.Named index k → (s.slot index k).toNat ≠ b := by
  obtain ⟨directInside, tableInside, selfInside⟩ :=
    (forall_named_iff (P := fun block => block.toNat < dataBlocks)).mp inside
  by_cases none : (s.inodeTable.get index).indirectBlock = invalidBlock
  · -- Without an indirect block the direct blocks are all there is.
    refine ⟨clearBlocks s.infoBlock.dataBitmap (s.inodeTable.get index).directBlocks.toList, ?_, ?_⟩
    · simp only [freeInodeBlocks, SimpleFs.freeTransfers, none, if_true, SimpleFs.patch,
        SimpleFs.withInode, SimpleFs.withDataBitmap, Ata.afterReads, emptied]
    · intro b
      rw [bitmapTest_clearBlocks directInside, forall_named_iff (P := fun block => block.toNat ≠ b)]
      exact and_congr Iff.rfl ⟨fun free => ⟨free, fun block member held =>
        absurd (tableEntries_none none member) held, fun held => absurd none held⟩, fun all => all.1⟩
  · -- With one, its table may name further blocks and the block itself goes too.
    have below : (s.inodeTable.get index).indirectBlock.toNat / 8 < 256 := by
      have := selfInside none
      simp only [dataBlocks] at this
      omega
    refine ⟨bitmapClear (clearBlocks (clearBlocks s.infoBlock.dataBitmap
      (s.inodeTable.get index).directBlocks.toList) (s.tableEntries index))
      (s.inodeTable.get index).indirectBlock.toNat, ?_, ?_⟩
    · -- The table is read with the direct blocks given back already, on the same disk.
      have read := readBlock_eq (s := s.withDataBitmap (clearBlocks s.infoBlock.dataBitmap
        (s.inodeTable.get index).directBlocks.toList)) (geometry.congr rfl rfl rfl)
        (s.inodeTable.get index).indirectBlock
      have sameDisk : (s.withDataBitmap (clearBlocks s.infoBlock.dataBitmap
        (s.inodeTable.get index).directBlocks.toList)).ata = s.ata := rfl
      have tableIs : decodeTable (s.ata.sectors (blockSector (s.inodeTable.get index).indirectBlock)) =
          tableOf s.ata.sectors (s.inodeTable.get index) := by rw [tableOf, if_neg none]
      rw [sameDisk] at read
      simp only [freeInodeBlocks, readIndirectBlock, SimpleFs.freeTransfers, none, if_false, read]
      unfold SimpleFs.tableEntries
      by_cases answers : s.ata.answers = true
      · rw [if_pos answers, if_pos answers]
        simp only [tableIs, SimpleFs.scanned, SimpleFs.patch, SimpleFs.withInode,
          SimpleFs.withDataBitmap, Ata.afterReads, emptied]
      · rw [if_neg answers, if_neg answers]
        rfl
    · intro b
      rw [bitmapTest_bitmapClear _ _ below, Bool.and_eq_true, bitmapTest_clearBlocks tableInside,
        bitmapTest_clearBlocks directInside, forall_named_iff (P := fun block => block.toNat ≠ b)]
      constructor
      · rintro ⟨notSelf, ⟨before, direct⟩, entries⟩
        exact ⟨before, direct, entries, fun _ => by simpa using notSelf⟩
      · rintro ⟨before, direct, entries, self⟩
        exact ⟨by simpa using self none, ⟨before, direct⟩, entries⟩

/-- On a sound disk freeing an inode lowers exactly the bits of the blocks it held. -/
theorem freeInodeBlocks_sound (sound : s.ata.Sound) (geometry : Geometry s.infoBlock) {index : Nat}
    (inside : ∀ k, k < slotLimit → s.slot index k ≠ invalidBlock →
      (s.slot index k).toNat < dataBlocks) :
    ∃ transfers bitmap, freeInodeBlocks index s =
        s.patch (s.ata.afterReads transfers) bitmap index (emptied (s.inodeTable.get index)) ∧
      ∀ b, bitmapTest bitmap b = true ↔ s.marked b = true ∧
        ∀ k, k < slotLimit → s.slot index k ≠ invalidBlock → (s.slot index k).toNat ≠ b := by
  -- The disk answers, so every place that holds a block is found.
  obtain ⟨bitmap, result, marks⟩ :=
    freeInodeBlocks_eq geometry fun k named => inside k named.1 named.2.2
  refine ⟨_, bitmap, result, fun b => (marks b).trans (and_congr Iff.rfl ?_)⟩
  exact ⟨fun free k small held => free k ⟨small, Or.inr sound.answers, held⟩,
    fun free k named => free k named.1 named.2.2⟩

/-- The state after a block was handed out and its sector cleared. -/
def SimpleFs.handedOut (s : SimpleFs) (block : UInt32) : SimpleFs :=
  (s.withDataBitmap (bitmapSet s.infoBlock.dataBitmap block.toNat)).logged
    [(blockSector block, .fill 0)]

/-- The state after the allocator took a block back because its sector could not be cleared. -/
structure TakenBack (s t : SimpleFs) : Prop where
  ata : t.ata = s.ata.afterReads s.ata.tried
  info : t.infoBlock = { s.infoBlock with dataBitmap := t.infoBlock.dataBitmap }
  table : t.inodeTable = s.inodeTable
  marks : ∀ b, t.marked b = s.marked b

/-- The allocator hands out a free block, unless there is none or the disk does not answer. -/
theorem allocateDataBlock_cases (geometry : Geometry s.infoBlock) :
    (∃ block : UInt32, block.toNat < dataBlocks ∧ s.marked block.toNat = false ∧
      s.ata.answers = true ∧ allocateDataBlock s = (some block, s.handedOut block)) ∨
    ((∀ b, b < dataBlocks → s.marked b = true) ∧
      allocateDataBlock s = (none, { s with blocksExhausted := true })) ∨
    (s.ata.answers = false ∧ ∃ t, allocateDataBlock s = (none, t) ∧ TakenBack s t) := by
  -- The search finds a free block or none, and then the disk answers or not.
  unfold allocateDataBlock
  cases found : (List.range dataBlocks).find? fun b =>
      !bitmapTest s.infoBlock.dataBitmap b with
  | none =>
    right; left
    refine ⟨fun b small => ?_, rfl⟩
    have := List.find?_eq_none.mp found b (List.mem_range.mpr small)
    simpa [SimpleFs.marked] using this
  | some b =>
    have small : b < dataBlocks := List.mem_range.mp (List.mem_of_find?_eq_some found)
    have free : bitmapTest s.infoBlock.dataBitmap b = false := by
      simpa using List.find?_some found
    have write := writeBlock_eq (s := s.withDataBitmap (bitmapSet s.infoBlock.dataBitmap b))
      (geometry.congr rfl rfl rfl) (UInt32.ofNat b) (.fill 0)
    have sameDisk : (s.withDataBitmap (bitmapSet s.infoBlock.dataBitmap b)).ata = s.ata := rfl
    rw [sameDisk] at write
    simp only [write]
    cases answers : s.ata.answers with
    | true =>
      left
      refine ⟨UInt32.ofNat b, ?_, ?_, rfl, ?_⟩
      · rwa [toNat_ofNat_block small]
      · rwa [toNat_ofNat_block small]
      · simp [SimpleFs.handedOut, SimpleFs.withDataBitmap, toNat_ofNat_block small]
    | false =>
      right; right
      refine ⟨rfl, _, rfl, rfl, rfl, rfl, fun c => ?_⟩
      -- The bit was clear before it was raised, and is cleared again.
      have inByte : b / 8 < 256 := by simp only [dataBlocks] at small; omega
      change bitmapTest (bitmapClear (bitmapSet s.infoBlock.dataBitmap b) b) c = _
      rw [bitmapTest_bitmapClear _ _ inByte, bitmapTest_bitmapSet _ _ inByte, SimpleFs.marked]
      by_cases same : b = c
      · subst same
        simp [free]
      · simp [same]

end Disk

end MyOS.Fs
