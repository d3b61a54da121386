import MyOS.Lib.Bytes
import MyOS.Lib.FixedArray
import MyOS.Drivers.Ata

/-! The on-disk layout of SimpleFS: its constants, its packed records, and their byte images. -/

namespace MyOS.Fs

/-- The word the boot block begins with: `BOOT`. -/
def bootMagic : UInt32 := 0x544F4F42
/-- The word the info block begins with: `INF4`. -/
def magic : UInt32 := 0x34464E49
/-- The version of the layout, which both blocks carry. -/
def version : UInt32 := 2

/-- First sector of the file system, far behind the boot loader and the swap area. -/
def lbaBase : UInt32 := 4096
/-- The boot block comes first. -/
def bootLba : UInt32 := lbaBase
/-- The info block follows it. -/
def infoLba : UInt32 := lbaBase + 1
/-- The inode table starts behind both. -/
def inodeTableLba : UInt32 := lbaBase + 2

/-- How many bytes a sector holds. -/
def sectorSize : Nat := 512
/-- How many inodes there are. -/
def maxInodes : Nat := 64
/-- How many data blocks there are. -/
def dataBlocks : Nat := 2048
/-- How many blocks an inode points to directly. -/
def directCount : Nat := 6
/-- How many blocks the indirect table of an inode points to. -/
def indirectEntries : Nat := 128
/-- How many files may be open at once. -/
def maxOpenFiles : Nat := 8
/-- How many bytes a file holds at most. -/
def maxFileSize : Nat := 68608
/-- The inode of the root directory. -/
def rootInode : Nat := 0
/-- The number that stands for no block. -/
def invalidBlock : UInt32 := 0xFFFFFFFF
/-- The number that stands for no inode. -/
def invalidInode : UInt32 := 0xFFFFFFFF

/-- A regular file. -/
def typeRegular : UInt8 := 1
/-- A directory. -/
def typeDirectory : UInt8 := 2

/-- Sixty-four inodes of sixty-four bytes fill eight sectors. -/
def inodeTableSectors : Nat := 8
/-- The data blocks start behind the inode table. -/
def dataLba : UInt32 := inodeTableLba + 8

/-- How many bytes a directory entry takes: an inode number, and a name with its end. -/
def entrySize : Nat := 32
/-- How many bytes of an entry are for the name and its end. -/
def nameCapacity : Nat := 28
/-- How many entries a directory holds at most. -/
def maxDirectoryEntries : Nat := maxFileSize / entrySize

/-- The boot block, which only identifies the file system. -/
structure BootBlock where
  magic : UInt32
  version : UInt32
  rootInode : UInt32
  name : FixedArray 16 UInt8
  reserved : FixedArray 484 UInt8
  deriving Inhabited

/-- The info block: layout parameters and the two bitmaps. -/
structure InfoBlock where
  magic : UInt32
  version : UInt32
  rootInode : UInt32
  inodeTableLba : UInt32
  inodeTableSectors : UInt32
  dataLba : UInt32
  inodeCount : UInt32
  dataBlockCount : UInt32
  directBlocks : UInt32
  indirectEntries : UInt32
  inodeBitmap : FixedArray 8 UInt8
  dataBitmap : FixedArray 256 UInt8
  reserved : FixedArray 208 UInt8
  deriving Inhabited

/-- An inode: six direct blocks and one block of further block numbers. -/
structure Inode where
  type : UInt8
  reserved0 : UInt8
  linkCount : UInt16
  size : UInt32
  directBlocks : FixedArray 6 UInt32
  indirectBlock : UInt32
  reserved : FixedArray 7 UInt32
  deriving Inhabited

/-- A table of block numbers filling one sector. -/
abbrev IndirectTable := FixedArray 128 UInt32

/-- An inode as `memset` to zero leaves it. -/
def Inode.zero : Inode :=
  { type := 0, reserved0 := 0, linkCount := 0, size := 0, directBlocks := .fill 0,
    -- `memset` writes zeros everywhere, so block `0` stands where no block was given.
    indirectBlock := 0, reserved := .fill 0 }

/-- `clear_block_pointers`: the inode holds no block. -/
def clearBlockPointers (inode : Inode) : Inode :=
  -- Zero is the number of a block, so the absence of one needs a number of its own.
  { inode with directBlocks := .fill invalidBlock, indirectBlock := invalidBlock }

/-- The sector image of a boot block. -/
def BootBlock.encode (b : BootBlock) : Sector :=
  .ofFn fun k =>
    -- Three words, the name padded to sixteen bytes, and the rest of the sector.
    if k < 4 then byteOf32 b.magic k
    else if k < 8 then byteOf32 b.version (k - 4)
    else if k < 12 then byteOf32 b.rootInode (k - 8)
    else if k < 28 then b.name.get (k - 12)
    else b.reserved.get (k - 28)

/-- The boot block a sector holds. -/
def BootBlock.decode (s : Sector) : BootBlock :=
  { magic := wordAt s.get 0
    version := wordAt s.get 4
    rootInode := wordAt s.get 8
    name := .ofFn fun k => s.get (12 + k)
    reserved := .ofFn fun k => s.get (28 + k) }

/-- The ten words that open an info block. -/
def InfoBlock.headerWord (info : InfoBlock) : Nat → UInt32
  | 0 => info.magic
  | 1 => info.version
  | 2 => info.rootInode
  | 3 => info.inodeTableLba
  | 4 => info.inodeTableSectors
  | 5 => info.dataLba
  | 6 => info.inodeCount
  | 7 => info.dataBlockCount
  | 8 => info.directBlocks
  | _ => info.indirectEntries

/-- The sector image of an info block. -/
def InfoBlock.encode (info : InfoBlock) : Sector :=
  .ofFn fun k =>
    -- The header comes first, then the map of inodes, then the map of blocks.
    if k < 40 then byteOf32 (info.headerWord (k / 4)) (k % 4)
    else if k < 48 then info.inodeBitmap.get (k - 40)
    else if k < 304 then info.dataBitmap.get (k - 48)
    else info.reserved.get (k - 304)

/-- The info block a sector holds. -/
def InfoBlock.decode (s : Sector) : InfoBlock :=
  { magic := wordAt s.get 0
    version := wordAt s.get 4
    rootInode := wordAt s.get 8
    inodeTableLba := wordAt s.get 12
    inodeTableSectors := wordAt s.get 16
    dataLba := wordAt s.get 20
    inodeCount := wordAt s.get 24
    dataBlockCount := wordAt s.get 28
    directBlocks := wordAt s.get 32
    indirectEntries := wordAt s.get 36
    inodeBitmap := .ofFn fun k => s.get (40 + k)
    dataBitmap := .ofFn fun k => s.get (48 + k)
    reserved := .ofFn fun k => s.get (304 + k) }

/-- The words of an inode behind its first four bytes. -/
def Inode.word (inode : Inode) (w : Nat) : UInt32 :=
  -- The size, the six direct blocks, the indirect block, and seven unused words.
  if w < 2 then inode.size
  else if w < 8 then inode.directBlocks.get (w - 2)
  else if w < 9 then inode.indirectBlock
  else inode.reserved.get (w - 9)

/-- Byte `k` of the 64 an inode occupies. -/
def Inode.byte (inode : Inode) (k : Nat) : UInt8 :=
  -- The type and an unused byte share the first word with the count of links.
  if k < 1 then inode.type
  else if k < 2 then inode.reserved0
  else if k < 4 then byteOf16 inode.linkCount (k - 2)
  else byteOf32 (inode.word (k / 4)) (k % 4)

/-- The inode stored in a sector from a position on. -/
def Inode.decode (bytes : Nat → UInt8) (base : Nat) : Inode :=
  { type := bytes base
    reserved0 := bytes (base + 1)
    linkCount := word16 (bytes (base + 2)) (bytes (base + 3))
    size := wordAt bytes (base + 4)
    directBlocks := .ofFn fun k => wordAt bytes (base + 8 + 4 * k)
    indirectBlock := wordAt bytes (base + 32)
    reserved := .ofFn fun k => wordAt bytes (base + 36 + 4 * k) }

/-- Sector `j` of the inode table, holding eight inodes. -/
def encodeInodes (table : FixedArray 64 Inode) (j : Nat) : Sector :=
  -- Eight inodes fill a sector without a rest.
  .ofFn fun k => (table.get (8 * j + k / 64)).byte (k % 64)

/-- Inode `i` as the sector that holds it stores it. -/
def decodeInode (s : Sector) (i : Nat) : Inode :=
  Inode.decode s.get (64 * (i % 8))

/-- The sector image of a table of block numbers. -/
def encodeTable (table : IndirectTable) : Sector :=
  .ofFn fun k => byteOf32 (table.get (k / 4)) (k % 4)

/-- The table of block numbers a sector holds. -/
def decodeTable (s : Sector) : IndirectTable :=
  .ofFn fun k => wordAt s.get (4 * k)

/-- A boot block survives a trip to the disk. -/
@[simp] theorem BootBlock.decode_encode (b : BootBlock) : BootBlock.decode b.encode = b := by
  -- Each word lies wholly inside its own four bytes of the image.
  have word : ∀ (w : UInt32) (base : Nat), base + 4 ≤ 512 →
      (∀ k, k < 4 → b.encode.get (base + k) = byteOf32 w k) → wordAt b.encode.get base = w :=
    fun w base _ stored => wordAt_of_bytes stored
  have get : ∀ k, k < 512 → b.encode.get k =
      if k < 4 then byteOf32 b.magic k
      else if k < 8 then byteOf32 b.version (k - 4)
      else if k < 12 then byteOf32 b.rootInode (k - 8)
      else if k < 28 then b.name.get (k - 12)
      else b.reserved.get (k - 28) := fun k inside => FixedArray.get_ofFn _ inside
  cases b with
  | mk magic version rootInode name reserved =>
    simp only [BootBlock.decode, BootBlock.mk.injEq]
    refine ⟨?_, ?_, ?_, ?_, ?_⟩
    · refine word _ _ (by omega) fun k small => ?_
      rw [get _ (by omega), if_pos (by omega), Nat.zero_add]
    · refine word _ _ (by omega) fun k small => ?_
      rw [get _ (by omega), if_neg (by omega), if_pos (by omega), Nat.add_sub_cancel_left]
    · refine word _ _ (by omega) fun k small => ?_
      rw [get _ (by omega), if_neg (by omega), if_neg (by omega), if_pos (by omega),
        Nat.add_sub_cancel_left]
    · apply FixedArray.ext_get
      intro k inside
      rw [FixedArray.get_ofFn _ inside, get _ (by omega), if_neg (by omega), if_neg (by omega),
        if_neg (by omega), if_pos (by omega), Nat.add_sub_cancel_left]
    · apply FixedArray.ext_get
      intro k inside
      rw [FixedArray.get_ofFn _ inside, get _ (by omega), if_neg (by omega), if_neg (by omega),
        if_neg (by omega), if_neg (by omega), Nat.add_sub_cancel_left]

/-- The header words of an info block sit in order at the front of its image. -/
theorem InfoBlock.encode_header (info : InfoBlock) {w : Nat} (header : w < 10) :
    -- The bytes of the word are the first of the three kinds the image is made of.
    wordAt info.encode.get (4 * w) = info.headerWord w := by
  apply wordAt_of_bytes
  intro k small
  rw [InfoBlock.encode, FixedArray.get_ofFn _ (by omega), if_pos (by omega),
    show (4 * w + k) / 4 = w by omega, show (4 * w + k) % 4 = k by omega]

/-- An info block survives a trip to the disk. -/
@[simp] theorem InfoBlock.decode_encode (info : InfoBlock) :
    InfoBlock.decode info.encode = info := by
  have header : ∀ w, w < 10 → wordAt info.encode.get (4 * w) = info.headerWord w :=
    fun w small => info.encode_header small
  have inodeBitmap : (.ofFn fun k => info.encode.get (40 + k) : FixedArray 8 UInt8) =
      info.inodeBitmap := by
    apply FixedArray.ext_get
    intro k inside
    rw [FixedArray.get_ofFn _ inside, InfoBlock.encode, FixedArray.get_ofFn _ (by omega),
      if_neg (by omega), if_pos (by omega), Nat.add_sub_cancel_left]
  have dataBitmap : (.ofFn fun k => info.encode.get (48 + k) : FixedArray 256 UInt8) =
      info.dataBitmap := by
    apply FixedArray.ext_get
    intro k inside
    rw [FixedArray.get_ofFn _ inside, InfoBlock.encode, FixedArray.get_ofFn _ (by omega),
      if_neg (by omega), if_neg (by omega), if_pos (by omega), Nat.add_sub_cancel_left]
  have reserved : (.ofFn fun k => info.encode.get (304 + k) : FixedArray 208 UInt8) =
      info.reserved := by
    apply FixedArray.ext_get
    intro k inside
    rw [FixedArray.get_ofFn _ inside, InfoBlock.encode, FixedArray.get_ofFn _ (by omega),
      if_neg (by omega), if_neg (by omega), if_neg (by omega), Nat.add_sub_cancel_left]
  -- The ten header words and the three arrays are all the fields there are.
  simp only [InfoBlock.decode, inodeBitmap, dataBitmap, reserved]
  rw [header 0 (by omega), header 1 (by omega), header 2 (by omega), header 3 (by omega),
    header 4 (by omega), header 5 (by omega), header 6 (by omega), header 7 (by omega),
    header 8 (by omega), header 9 (by omega)]
  rfl

/-- A word of an inode reads back from the bytes that store the inode. -/
theorem Inode.word_stored {bytes : Nat → UInt8} {base : Nat} {inode : Inode}
    (stored : ∀ k, k < 64 → bytes (base + k) = inode.byte k) {w : Nat} (low : 1 ≤ w)
    (high : w < 16) : wordAt bytes (base + 4 * w) = inode.word w := by
  -- Behind the first word the image of an inode consists of whole words.
  apply wordAt_of_bytes
  intro k small
  rw [Nat.add_assoc, stored _ (by omega), Inode.byte, if_neg (by omega), if_neg (by omega),
    if_neg (by omega), show (4 * w + k) / 4 = w by omega, show (4 * w + k) % 4 = k by omega]

/-- An inode reads back from any place its 64 bytes are stored. -/
theorem Inode.decode_stored {bytes : Nat → UInt8} {base : Nat} {inode : Inode}
    (stored : ∀ k, k < 64 → bytes (base + k) = inode.byte k) :
    Inode.decode bytes base = inode := by
  have word : ∀ w, 1 ≤ w → w < 16 → wordAt bytes (base + 4 * w) = inode.word w :=
    fun w low high => Inode.word_stored stored low high
  have direct : (.ofFn fun k => wordAt bytes (base + 8 + 4 * k) : FixedArray 6 UInt32) =
      inode.directBlocks := by
    apply FixedArray.ext_get
    intro k inside
    rw [FixedArray.get_ofFn _ inside, show base + 8 + 4 * k = base + 4 * (k + 2) by omega,
      word _ (by omega) (by omega), Inode.word, if_neg (by omega), if_pos (by omega),
      Nat.add_sub_cancel]
  have reserved : (.ofFn fun k => wordAt bytes (base + 36 + 4 * k) : FixedArray 7 UInt32) =
      inode.reserved := by
    apply FixedArray.ext_get
    intro k inside
    rw [FixedArray.get_ofFn _ inside, show base + 36 + 4 * k = base + 4 * (k + 9) by omega,
      word _ (by omega) (by omega), Inode.word, if_neg (by omega), if_neg (by omega),
      if_neg (by omega), Nat.add_sub_cancel]
  have size : wordAt bytes (base + 4) = inode.size := by
    simpa [Inode.word] using word 1 (by omega) (by omega)
  have indirect : wordAt bytes (base + 32) = inode.indirectBlock := by
    simpa [Inode.word] using word 8 (by omega) (by omega)
  -- The first word is split among three fields.
  have b0 := stored 0 (by omega)
  have b1 := stored 1 (by omega)
  have b2 := stored 2 (by omega)
  have b3 := stored 3 (by omega)
  simp [Inode.byte] at b0 b1 b2 b3
  simp only [Inode.decode, direct, reserved, size, indirect, b0, b1, b2, b3, word16_byteOf16]

/-- Every inode survives a trip to the disk in the table sector that holds it. -/
theorem decodeInode_encodeInodes (table : FixedArray 64 Inode) (i : Nat) :
    decodeInode (encodeInodes table (i / 8)) i = table.get i := by
  -- The table sector of an inode holds its bytes in one piece.
  apply Inode.decode_stored
  intro k inside
  rw [encodeInodes, FixedArray.get_ofFn _ (by omega),
    show 8 * (i / 8) + (64 * (i % 8) + k) / 64 = i by omega,
    show (64 * (i % 8) + k) % 64 = k by omega]

/-- A table of block numbers survives a trip to the disk. -/
@[simp] theorem decodeTable_encodeTable (table : IndirectTable) :
    decodeTable (encodeTable table) = table := by
  -- Four bytes for each of the 128 numbers.
  apply FixedArray.ext_get
  intro k inside
  rw [decodeTable, FixedArray.get_ofFn _ inside]
  apply wordAt_of_bytes
  intro j small
  rw [encodeTable, FixedArray.get_ofFn _ (by omega), show (4 * k + j) / 4 = k by omega,
    show (4 * k + j) % 4 = j by omega]

end MyOS.Fs
