import MyOS.Lib.Bitmap
import MyOS.Fs.Layout

/-! SimpleFS below its directories: metadata, blocks, inodes, and whole-file reads and writes. -/

namespace MyOS.Fs

/-- One slot of the open-file table, which lives in memory only. -/
structure OpenFile where
  used : Bool
  inodeIndex : Nat
  offset : Nat
  name : List UInt8
  deriving Inhabited

/-- The disk and the static variables of `simplefs.c`. -/
structure SimpleFs where
  ata : Ata
  bootBlock : BootBlock
  infoBlock : InfoBlock
  inodeTable : FixedArray 64 Inode
  openFiles : FixedArray 8 OpenFile
  directoryScratch : FixedArray 68608 UInt8
  fileScratch : FixedArray 68608 UInt8
  currentDirectory : Nat
  fsMounted : Bool
  /--
  Whether a block was wanted with every block in use since the volume was laid out.

  The source keeps no such record.
  -/
  blocksExhausted : Bool

/-- `bitmap_test` -/
def bitmapTest {n : Nat} (bitmap : FixedArray n UInt8) (index : Nat) : Bool :=
  -- Eight flags to a byte, the lowest bit first.
  bitTest (bitmap.get (index / 8)) (index % 8)

/-- `bitmap_set` -/
def bitmapSet {n : Nat} (bitmap : FixedArray n UInt8) (index : Nat) : FixedArray n UInt8 :=
  bitmap.set (index / 8) (bitSet (bitmap.get (index / 8)) (index % 8))

/-- `bitmap_clear` -/
def bitmapClear {n : Nat} (bitmap : FixedArray n UInt8) (index : Nat) : FixedArray n UInt8 :=
  bitmap.set (index / 8) (bitClear (bitmap.get (index / 8)) (index % 8))

namespace SimpleFs

/-- The state with another data bitmap. -/
def withDataBitmap (s : SimpleFs) (bitmap : FixedArray 256 UInt8) : SimpleFs :=
  { s with infoBlock := { s.infoBlock with dataBitmap := bitmap } }

/-- The state with another inode bitmap. -/
def withInodeBitmap (s : SimpleFs) (bitmap : FixedArray 8 UInt8) : SimpleFs :=
  { s with infoBlock := { s.infoBlock with inodeBitmap := bitmap } }

/-- The state with one inode replaced in memory. -/
def withInode (s : SimpleFs) (index : Nat) (inode : Inode) : SimpleFs :=
  { s with inodeTable := s.inodeTable.set index inode }

/-- Whether the inode bitmap marks an inode as allocated. -/
def inodeUsed (s : SimpleFs) (index : Nat) : Bool :=
  bitmapTest s.infoBlock.inodeBitmap index

end SimpleFs

/-- `block_lba`: the sector of a data block, in the wrapping arithmetic of `uint32_t`. -/
def blockLba (s : SimpleFs) (block : UInt32) : UInt32 := s.infoBlock.dataLba + block

/-- Read the sector of one data block. -/
def readBlock (block : UInt32) (s : SimpleFs) : Option Sector × SimpleFs :=
  match s.ata.readSectors (blockLba s block) 1 with
  | (none, ata) => (none, { s with ata := ata })
  -- One sector was asked for, so the list has one element.
  | (some sectors, ata) => (some (sectors.headD default), { s with ata := ata })

/-- Write the sector of one data block. -/
def writeBlock (block : UInt32) (sector : Sector) (s : SimpleFs) : Bool × SimpleFs :=
  match s.ata.writeSectors (blockLba s block) [sector] with
  | (ok, ata) => (ok, { s with ata := ata })

/-- `write_boot_block` -/
def writeBootBlock (s : SimpleFs) : Bool × SimpleFs :=
  match s.ata.writeSectors bootLba [s.bootBlock.encode] with
  | (ok, ata) => (ok, { s with ata := ata })

/-- `write_info_block` -/
def writeInfoBlock (s : SimpleFs) : Bool × SimpleFs :=
  match s.ata.writeSectors infoLba [s.infoBlock.encode] with
  | (ok, ata) => (ok, { s with ata := ata })

/-- `write_inode_table`: the whole table, at the place and length the info block gives. -/
def writeInodeTable (s : SimpleFs) : Bool × SimpleFs :=
  -- The driver takes the number of sectors as a single byte.
  let count := s.infoBlock.inodeTableSectors.toNat % 256
  match s.ata.writeSectors s.infoBlock.inodeTableLba
      ((List.range count).map (encodeInodes s.inodeTable)) with
  | (ok, ata) => (ok, { s with ata := ata })

/-- `write_info_block` and then, when that succeeds, `write_inode_table`. -/
def writeMetadata (s : SimpleFs) : Bool × SimpleFs :=
  -- The info block goes first, so a fault between the two leaves the maps ahead of the table.
  match writeInfoBlock s with
  | (false, s) => (false, s)
  | (true, s) => writeInodeTable s

/-- An unused slot of the open-file table. -/
def closedFile : OpenFile :=
  { used := false, inodeIndex := invalidInode.toNat, offset := 0, name := [] }

/-- `reset_open_files` -/
def resetOpenFiles (s : SimpleFs) : SimpleFs :=
  { s with openFiles := .fill closedFile }

/-- The layout parameters `read_metadata` insists on. -/
def headerOk (boot : BootBlock) (info : InfoBlock) : Bool :=
  boot.magic == bootMagic && boot.version == version &&
  info.magic == magic && info.version == version &&
  info.rootInode == UInt32.ofNat rootInode &&
  info.inodeTableLba == inodeTableLba &&
  info.inodeTableSectors == UInt32.ofNat inodeTableSectors &&
  info.dataLba == dataLba &&
  info.inodeCount == UInt32.ofNat maxInodes &&
  info.dataBlockCount == UInt32.ofNat dataBlocks &&
  info.directBlocks == UInt32.ofNat directCount &&
  info.indirectEntries == UInt32.ofNat indirectEntries

/-- `read_metadata`: load and check the three metadata areas. -/
def readMetadata (s : SimpleFs) : Bool × SimpleFs :=
  -- Each area is loaded into its variable before the next is looked at.
  match s.ata.readSectors bootLba 1 with
  | (none, ata) => (false, { s with ata := ata })
  | (some boot, ata) =>
    let s := { s with ata := ata, bootBlock := BootBlock.decode (boot.headD default) }
    match s.ata.readSectors infoLba 1 with
    | (none, ata) => (false, { s with ata := ata })
    | (some info, ata) =>
      let s := { s with ata := ata, infoBlock := InfoBlock.decode (info.headD default) }
      -- Nothing is trusted of a volume whose header differs in a single word.
      if !headerOk s.bootBlock s.infoBlock then (false, s)
      else
        let count := s.infoBlock.inodeTableSectors.toNat % 256
        match s.ata.readSectors s.infoBlock.inodeTableLba count with
        | (none, ata) => (false, { s with ata := ata })
        | (some table, ata) =>
          let s := { s with
            ata := ata
            inodeTable := .ofFn fun i => decodeInode (table.getD (i / 8) default) i }
          -- The root must be a directory that is allocated.
          if !s.inodeUsed rootInode || (s.inodeTable.get rootInode).type != typeDirectory then
            (false, s)
          else (true, { s with currentDirectory := rootInode })

/-- `allocate_data_block`: take the first free block and clear its sector. -/
@[irreducible] def allocateDataBlock (s : SimpleFs) : Option UInt32 × SimpleFs :=
  -- The loop over the map ends at the first free block.
  match (List.range dataBlocks).find? fun b => !bitmapTest s.infoBlock.dataBitmap b with
  | none => (none, { s with blocksExhausted := true })
  | some b =>
    let block := UInt32.ofNat b
    -- The block is marked before its sector is written, and unmarked when that fails.
    let s := s.withDataBitmap (bitmapSet s.infoBlock.dataBitmap b)
    match writeBlock block (.fill 0) s with
    | (false, s) => (none, s.withDataBitmap (bitmapClear s.infoBlock.dataBitmap b))
    | (true, s) => (some block, s)

/-- `read_indirect_block`: an inode without one reads as a table of invalid blocks. -/
def readIndirectBlock (inode : Inode) (s : SimpleFs) : Option IndirectTable × SimpleFs :=
  if inode.indirectBlock = invalidBlock then (some (.fill invalidBlock), s)
  else
    -- The table is not kept in memory: every use reads its sector.
    match readBlock inode.indirectBlock s with
    | (none, s) => (none, s)
    | (some sector, s) => (some (decodeTable sector), s)

/-- `write_indirect_block` -/
def writeIndirectBlock (inode : Inode) (table : IndirectTable) (s : SimpleFs) : Bool × SimpleFs :=
  if inode.indirectBlock = invalidBlock then (false, s)
  else writeBlock inode.indirectBlock (encodeTable table) s

/-- The loop `if (block != INVALID) bitmap_clear(...)` over a row of block numbers. -/
def clearBlocks (bitmap : FixedArray 256 UInt8) (blocks : List UInt32) : FixedArray 256 UInt8 :=
  blocks.foldl (fun bitmap block =>
    if block = invalidBlock then bitmap else bitmapClear bitmap block.toNat) bitmap

/-- `free_inode_blocks`: give back every block of an inode, in memory only. -/
def freeInodeBlocks (index : Nat) (s : SimpleFs) : SimpleFs :=
  let inode := s.inodeTable.get index
  -- The maps change in memory only: the caller writes the metadata when it is done.
  let s := s.withDataBitmap (clearBlocks s.infoBlock.dataBitmap inode.directBlocks.toList)
  let freed := { inode with directBlocks := .fill invalidBlock }
  -- Small files have no table of further blocks.
  if inode.indirectBlock = invalidBlock then s.withInode index { freed with size := 0 }
  else
    -- A table that cannot be read back leaves the blocks it names marked.
    let s := match readIndirectBlock freed s with
      | (some table, s) => s.withDataBitmap (clearBlocks s.infoBlock.dataBitmap table.toList)
      | (none, s) => s
    let s := s.withDataBitmap (bitmapClear s.infoBlock.dataBitmap inode.indirectBlock.toNat)
    s.withInode index { freed with indirectBlock := invalidBlock, size := 0 }

/-- `inode_is_open` -/
def inodeIsOpen (s : SimpleFs) (index : Nat) : Bool :=
  -- A descriptor keeps the number of its inode, not its name.
  (List.range maxOpenFiles).any fun fd =>
    (s.openFiles.get fd).used && (s.openFiles.get fd).inodeIndex == index

/-- The inode `allocate_inode` puts in a fresh slot. -/
def freshInode (type : UInt8) : Inode :=
  -- A directory starts with the links of its own entry and of `.`.
  clearBlockPointers { Inode.zero with
    type := type
    linkCount := if type = typeDirectory then 2 else 1 }

/-- `allocate_inode`: take the first free inode and put it on disk at once. -/
def allocateInode (type : UInt8) (s : SimpleFs) : Option Nat × SimpleFs :=
  -- The first free inode is taken, in memory at first.
  match (List.range maxInodes).find? fun i => !s.inodeUsed i with
  | none => (none, s)
  | some index =>
    let s := s.withInodeBitmap (bitmapSet s.infoBlock.inodeBitmap index)
    let s := s.withInode index (freshInode type)
    match writeMetadata s with
    -- A fault takes the inode back in memory, whatever part of it reached the disk.
    | (false, s) =>
      let s := s.withInodeBitmap (bitmapClear s.infoBlock.inodeBitmap index)
      (none, s.withInode index Inode.zero)
    | (true, s) => (some index, s)

/-- `release_inode`: free the blocks and the inode, and put both on disk. -/
def releaseInode (index : Nat) (s : SimpleFs) : Bool × SimpleFs :=
  -- The root stays, and so does what is free already.
  if index ≥ maxInodes || !s.inodeUsed index || index == rootInode then (false, s)
  else
    let s := freeInodeBlocks index s
    -- The record is zeroed, so its block numbers are zero rather than invalid.
    let s := s.withInode index Inode.zero
    let s := s.withInodeBitmap (bitmapClear s.infoBlock.inodeBitmap index)
    writeMetadata s

/--
`get_file_block`: the block that holds one logical block of a file.

The table of indirect blocks is read at most once, and kept for the calls that follow.
-/
def getFileBlock (inode : Inode) (logical : Nat) (loaded : Option IndirectTable) (s : SimpleFs) :
    Option (UInt32 × Option IndirectTable) × SimpleFs :=
  -- The direct blocks are in the inode itself.
  if logical < directCount then (some (inode.directBlocks.get logical, loaded), s)
  -- Beyond the table there is nothing, as behind a hole.
  else if logical - directCount ≥ indirectEntries then (some (invalidBlock, loaded), s)
  else
    match loaded with
    | some table => (some (table.get (logical - directCount), loaded), s)
    | none =>
      -- The first use of the table reads it, and hands it to the turns that follow.
      match readIndirectBlock inode s with
      | (none, s) => (none, s)
      | (some table, s) => (some (table.get (logical - directCount), some table), s)

/-- The copy loop of `read_inode_bytes`; each turn adds at least one byte to the buffer. -/
def readLoop (inode : Inode) (remaining : Nat) :
    Nat → Nat → Nat → Option IndirectTable → List UInt8 → SimpleFs → Bool × List UInt8 × SimpleFs
  | 0, _, _, _, buffer, s => (true, buffer, s)
  | fuel + 1, logical, sectorOffset, loaded, buffer, s =>
    if buffer.length < remaining then
      match getFileBlock inode logical loaded s with
      | (none, s) => (false, buffer, s)
      | (some (block, loaded), s) =>
        -- A hole ends the read early.
        if block = invalidBlock then (true, buffer, s)
        else
          match readBlock block s with
          | (none, s) => (false, buffer, s)
          | (some sector, s) =>
            -- A turn ends with the sector or with the bytes asked for.
            let toCopy := min (remaining - buffer.length) (sectorSize - sectorOffset)
            let piece := (List.range toCopy).map fun j => sector.get (sectorOffset + j)
            readLoop inode remaining fuel (logical + 1) 0 loaded (buffer ++ piece) s
    else (true, buffer, s)

/-- `read_inode_bytes`: whether it succeeded, and the bytes it put into the buffer. -/
def readInodeBytes (index offset bufferSize : Nat) (s : SimpleFs) :
    Bool × List UInt8 × SimpleFs :=
  if index ≥ maxInodes || !s.inodeUsed index then (false, [], s)
  else
    let inode := s.inodeTable.get index
    -- Behind the end there is nothing to read, and that is no error.
    if offset ≥ inode.size.toNat then (true, [], s)
    else
      let remaining := min (inode.size.toNat - offset) bufferSize
      -- No more turns than bytes are needed, since every turn adds one or more.
      readLoop inode remaining remaining (offset / sectorSize) (offset % sectorSize) none [] s

/-- The variables the block loop of `write_inode_data` carries. -/
structure Rewrite where
  fs : SimpleFs
  written : Nat
  indirectTable : IndirectTable
  needsIndirect : Bool

/-- The sector that holds one piece of the data, padded with zeros. -/
def dataSector (data : Nat → UInt8) (written toWrite : Nat) : Sector :=
  -- The buffer of the source is cleared before the piece is copied into it.
  .ofFn fun j => if j < toWrite then data (written + j) else 0

/-- The branch of the block loop that enters a block into the indirect table. -/
def enterIndirect (index : Nat) (logical : Nat) (block : UInt32) (w : Rewrite) : Bool × Rewrite :=
  -- The table is changed in memory, and written once at the end.
  let enter (w : Rewrite) : Bool × Rewrite :=
    (true, { w with indirectTable := w.indirectTable.set (logical - directCount) block })
  if w.needsIndirect then enter w
  else
    -- The first block beyond the direct ones brings the indirect block with it.
    match allocateDataBlock w.fs with
    | (none, s) => (false, { w with fs := s })
    | (some indirect, s) =>
      let inode := { s.inodeTable.get index with indirectBlock := indirect }
      -- The table goes to disk at once, still without the block.
      match writeIndirectBlock inode w.indirectTable (s.withInode index inode) with
      | (false, s) => (false, { w with fs := s })
      | (true, s) => enter { w with fs := s, needsIndirect := true }

/-- One turn of the block loop of `write_inode_data`. -/
def rewriteBlock (index : Nat) (data : Nat → UInt8) (size logical : Nat) (w : Rewrite) :
    Bool × Rewrite :=
  -- Every turn but the last fills a whole block.
  let toWrite := min (size - w.written) sectorSize
  match allocateDataBlock w.fs with
  | (none, s) => (false, { w with fs := s })
  | (some block, s) =>
    match writeBlock block (dataSector data w.written toWrite) s with
    -- The block is not in the inode yet, so it is given back here.
    | (false, s) =>
      let s := s.withDataBitmap (bitmapClear s.infoBlock.dataBitmap block.toNat)
      (false, { w with fs := s })
    | (true, s) =>
      let placed :=
        -- The first six blocks go into the inode, the others into the table.
        if logical < directCount then
          let inode := s.inodeTable.get index
          let inode := { inode with directBlocks := inode.directBlocks.set logical block }
          (true, { w with fs := s.withInode index inode })
        else enterIndirect index logical block { w with fs := s }
      match placed with
      | (false, w) => (false, w)
      -- What was written counts only when the block has its place.
      | (true, w) => (true, { w with written := w.written + toWrite })

/-- The block loop of `write_inode_data`, from one logical block on. -/
def rewriteBlocks (index : Nat) (data : Nat → UInt8) (size : Nat) :
    Nat → Nat → Rewrite → Bool × Rewrite
  | 0, _, w => (true, w)
  | count + 1, logical, w =>
    -- The first turn that fails ends the loop.
    match rewriteBlock index data size logical w with
    | (false, w) => (false, w)
    | (true, w) => rewriteBlocks index data size count (logical + 1) w

/-- The `fail` label of `write_inode_data`. -/
def rewriteFailed (index : Nat) (s : SimpleFs) : SimpleFs :=
  -- Whatever was written so far is given up, and the old content is gone as well.
  let s := freeInodeBlocks index s
  let s := (writeInfoBlock s).2
  (writeInodeTable s).2

/-- The end of `write_inode_data`: put the indirect table, then the metadata, on disk. -/
def rewriteCommit (index : Nat) (size : Nat) (w : Rewrite) : Bool × SimpleFs :=
  -- A file of six blocks or fewer has no table to write.
  let stored := if w.needsIndirect
    then writeIndirectBlock (w.fs.inodeTable.get index) w.indirectTable w.fs else (true, w.fs)
  match stored with
  | (false, s) => (false, rewriteFailed index s)
  | (true, s) =>
    -- The size is set last, when all blocks are in place.
    let inode := { s.inodeTable.get index with size := UInt32.ofNat size }
    writeMetadata (s.withInode index inode)

/-- `write_inode_data`: replace the whole content of an inode. -/
def writeInodeData (index : Nat) (data : Nat → UInt8) (size : Nat) (s : SimpleFs) :
    Bool × SimpleFs :=
  -- The checks come before the old content is given up.
  if index ≥ maxInodes || !s.inodeUsed index || size > maxFileSize then (false, s)
  else
    -- The old blocks go back first, so the new content may reuse them.
    let start : Rewrite :=
      { fs := freeInodeBlocks index s, written := 0, indirectTable := .fill invalidBlock,
        needsIndirect := false }
    match rewriteBlocks index data size ((size + sectorSize - 1) / sectorSize) 0 start with
    | (false, w) => (false, rewriteFailed index w.fs)
    | (true, w) => rewriteCommit index size w

end MyOS.Fs
