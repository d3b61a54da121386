import MyOS.Fs.Inodes

/-! SimpleFS above its inodes: directories, files by name, and file descriptors. -/

namespace MyOS.Fs

/-- The name of a directory in itself. -/
def dot : CString := ⟨[46], by decide⟩
/-- The name of its parent in a directory. -/
def dotDot : CString := ⟨[46, 46], by decide⟩
/-- The name of the root. -/
def slash : CString := ⟨[47], by decide⟩

/-- `name_is_special` -/
def nameIsSpecial (name : CString) : Bool := name == dot || name == dotDot

/-- `valid_name` -/
def validName (name : CString) : Bool :=
  -- A name must fit into an entry with its end, and must not be one of the three names above.
  !name.chars.isEmpty && decide (name.chars.length < nameCapacity) &&
    !nameIsSpecial name && name != slash

/-- The scratch buffer directories are read into and written from. -/
abbrev Scratch := FixedArray 68608 UInt8

/-- The inode number of a directory entry in the scratch buffer. -/
def entryInode (scratch : Scratch) (slot : Nat) : UInt32 :=
  -- The first four bytes of an entry are the number, the rest is the name.
  wordAt scratch.get (entrySize * slot)

/-- Whether a directory entry in the scratch buffer bears a name. -/
def entryNamed (scratch : Scratch) (slot : Nat) (name : CString) : Bool :=
  -- The name is compared up to its end, as a string.
  name.storedAt scratch.get (entrySize * slot + 4)

/-- `name_is_special` applied to the name of a directory entry. -/
def entrySpecial (scratch : Scratch) (slot : Nat) : Bool :=
  entryNamed scratch slot dot || entryNamed scratch slot dotDot

/-- `copy_name` into a buffer of the given capacity: cut to fit, always terminated. -/
def copyName (name : CString) (capacity : Nat) : List UInt8 :=
  -- Without room not even the end of the name is stored.
  if capacity = 0 then [] else name.chars.take (capacity - 1) ++ [0]

/--
Store an inode number and a name in a directory entry.

The bytes behind the terminator keep whatever the scratch buffer held before.
-/
def setEntry (scratch : Scratch) (slot : Nat) (inode : UInt32) (name : CString) : Scratch :=
  (scratch.blit (entrySize * slot) ((List.range 4).map (byteOf32 inode))).blit
    (entrySize * slot + 4) (copyName name nameCapacity)

/-- Copy one whole directory entry over another. -/
def copyEntry (scratch : Scratch) (target source : Nat) : Scratch :=
  scratch.blit (entrySize * target)
    ((List.range entrySize).map fun k => scratch.get (entrySize * source + k))

/-- The loop that moves the entries behind a removed one forward. -/
def shiftEntries (scratch : Scratch) : Nat → Nat → Scratch
  -- The entries move forward one by one, so none is lost on the way.
  | _, 0 => scratch
  | slot, count + 1 => shiftEntries (copyEntry scratch slot (slot + 1)) (slot + 1) count

/-- `read_directory_entries`: load a directory into the scratch buffer and count its entries. -/
def readDirectoryEntries (dir : Nat) (s : SimpleFs) : Option Nat × SimpleFs :=
  -- Only an allocated directory of a size that fits is read.
  if dir ≥ maxInodes || !s.inodeUsed dir then (none, s)
  else
    let inode := s.inodeTable.get dir
    if inode.type != typeDirectory || inode.size.toNat > maxFileSize then (none, s)
    else
      match readInodeBytes dir 0 maxFileSize s with
      | (ok, bytes, s) =>
        -- What was read is in the buffer even when the read fails in the middle.
        let s := { s with directoryScratch := s.directoryScratch.blit 0 bytes }
        if ok then (some (bytes.length / entrySize), s) else (none, s)

/-- `write_directory_entries` -/
def writeDirectoryEntries (dir count : Nat) (s : SimpleFs) : Bool × SimpleFs :=
  -- The buffer is the content, however much of it belongs to the directory.
  writeInodeData dir s.directoryScratch.get (count * entrySize) s

/-- `init_directory_file`: a new directory holds `.` and `..`. -/
def initDirectoryFile (dir parent : Nat) (s : SimpleFs) : Bool × SimpleFs :=
  -- The buffer is cleared first, so the rest of both entries is zero.
  let scratch := setEntry (.fill 0) 0 (UInt32.ofNat dir) dot
  let scratch := setEntry scratch 1 (UInt32.ofNat parent) dotDot
  writeDirectoryEntries dir 2 { s with directoryScratch := scratch }

/-- `find_entry_in_directory`: the inode number and the slot of the first entry with a name. -/
def findEntryInDirectory (dir : Nat) (name : CString) (s : SimpleFs) :
    Option (UInt32 × Nat) × SimpleFs :=
  match readDirectoryEntries dir s with
  | (none, s) => (none, s)
  | (some count, s) =>
    -- Names are compared in order, and a struck-out entry is passed over.
    match (List.range count).find? fun slot =>
        entryInode s.directoryScratch slot != invalidInode &&
          entryNamed s.directoryScratch slot name with
    | none => (none, s)
    | some slot => (some (entryInode s.directoryScratch slot, slot), s)

/-- `append_entry_to_directory` -/
def appendEntryToDirectory (dir : Nat) (name : CString) (child : Nat) (s : SimpleFs) :
    Bool × SimpleFs :=
  match readDirectoryEntries dir s with
  | (none, s) => (false, s)
  | (some count, s) =>
    -- A full directory is left alone before anything is written.
    if count ≥ maxDirectoryEntries then (false, s)
    else
      let scratch := setEntry s.directoryScratch count (UInt32.ofNat child) name
      writeDirectoryEntries dir (count + 1) { s with directoryScratch := scratch }

/-- `remove_entry_from_directory`: the inode number of the entry it removed. -/
def removeEntryFromDirectory (dir : Nat) (name : CString) (s : SimpleFs) :
    Option UInt32 × SimpleFs :=
  -- The name is looked up first, and the directory is read once more after that.
  match findEntryInDirectory dir name s with
  | (none, s) => (none, s)
  | (some (inode, slot), s) =>
    match readDirectoryEntries dir s with
    | (none, s) => (none, s)
    | (some count, s) =>
      let scratch := shiftEntries s.directoryScratch slot (count - 1 - slot)
      -- The vacated last entry is struck out, though it is no longer written.
      let scratch := if count > 0 then
          (scratch.blit (entrySize * (count - 1)) ((List.range 4).map (byteOf32 invalidInode))).set
            (entrySize * (count - 1) + 4) 0
        else scratch
      -- All entries before the last are written back, which drops the last one.
      match writeDirectoryEntries dir (count - 1) { s with directoryScratch := scratch } with
      | (false, s) => (none, s)
      | (true, s) => (some inode, s)

/-- `directory_is_empty`: no entry but `.` and `..`. -/
def directoryIsEmpty (dir : Nat) (s : SimpleFs) : Bool × SimpleFs :=
  match readDirectoryEntries dir s with
  -- A directory that cannot be read counts as one that is not empty.
  | (none, s) => (false, s)
  | (some count, s) => ((List.range count).all (entrySpecial s.directoryScratch), s)

/-- `simplefs_init`: mount what the disk holds. -/
def simplefsInit (s : SimpleFs) : Bool × SimpleFs :=
  -- The volume counts as not mounted until its metadata is read.
  let s := resetOpenFiles { s with fsMounted := false, currentDirectory := rootInode }
  if !s.ata.ready then (false, s)
  else
    match readMetadata s with
    | (ok, s) => (ok, { s with fsMounted := ok })

/-- The boot block `simplefs_format` writes. -/
def formatBootBlock : BootBlock :=
  { magic := bootMagic, version := version, rootInode := UInt32.ofNat rootInode
    -- `SimpleFS`, with its end.
    name := (.fill 0 : FixedArray 16 UInt8).blit 0
      [0x53, 0x69, 0x6D, 0x70, 0x6C, 0x65, 0x46, 0x53, 0]
    reserved := .fill 0 }

/-- The info block `simplefs_format` writes first: only the root inode is taken. -/
def formatInfoBlock : InfoBlock :=
  { magic := magic, version := version, rootInode := UInt32.ofNat rootInode
    inodeTableLba := inodeTableLba, inodeTableSectors := UInt32.ofNat inodeTableSectors
    dataLba := dataLba, inodeCount := UInt32.ofNat maxInodes
    dataBlockCount := UInt32.ofNat dataBlocks, directBlocks := UInt32.ofNat directCount
    indirectEntries := UInt32.ofNat indirectEntries
    inodeBitmap := bitmapSet (.fill 0) rootInode, dataBitmap := .fill 0, reserved := .fill 0 }

/-- The inode table `simplefs_format` writes first: a root directory without blocks. -/
def formatInodeTable : FixedArray 64 Inode :=
  (.fill (clearBlockPointers Inode.zero) : FixedArray 64 Inode).set rootInode
    -- The root has no blocks yet: its entries are written at the end.
    { clearBlockPointers Inode.zero with type := typeDirectory, linkCount := 2 }

/-- `simplefs_format`: lay out an empty file system. -/
def simplefsFormat (s : SimpleFs) : Bool × SimpleFs :=
  -- Without a disk there is nothing to lay out.
  if !s.ata.ready then (false, s)
  else
    let s := { s with
      bootBlock := formatBootBlock, infoBlock := formatInfoBlock, inodeTable := formatInodeTable,
      blocksExhausted := false }
    match writeBootBlock s with
    | (false, s) => (false, s)
    | (true, s) =>
      match writeMetadata s with
      | (false, s) => (false, s)
      | (true, s) =>
        -- Now the root is in the maps on disk, and gets its two entries.
        match initDirectoryFile rootInode rootInode s with
        | (false, s) => (false, s)
        | (true, s) =>
          (true, resetOpenFiles { s with fsMounted := true, currentDirectory := rootInode })

/-- `simplefs_create` -/
def simplefsCreate (name : CString) (s : SimpleFs) : Bool × SimpleFs :=
  -- The name is checked before the disk is touched.
  if !s.fsMounted || !validName name then (false, s)
  else
    match findEntryInDirectory s.currentDirectory name s with
    -- A name that is taken is not made again.
    | (some _, s) => (false, s)
    | (none, s) =>
      match allocateInode typeRegular s with
      | (none, s) => (false, s)
      | (some index, s) =>
        match appendEntryToDirectory s.currentDirectory name index s with
        -- Without an entry nothing leads to the inode, which is given back.
        | (false, s) => (false, (releaseInode index s).2)
        | (true, s) =>
          -- The link count of a directory also counts the files created in it.
          let parent := s.inodeTable.get s.currentDirectory
          writeInodeTable (s.withInode s.currentDirectory
            { parent with linkCount := parent.linkCount + 1 })

/-- Whether an entry leads to an allocated inode of a type. -/
def entryLeadsTo (inode : UInt32) (type : UInt8) (s : SimpleFs) : Bool :=
  decide (inode.toNat < maxInodes) && s.inodeUsed inode.toNat &&
    (s.inodeTable.get inode.toNat).type == type

/-- `simplefs_delete` -/
def simplefsDelete (name : CString) (s : SimpleFs) : Bool × SimpleFs :=
  if !s.fsMounted then (false, s)
  else
    -- The name is not checked here, but what it leads to is.
    match findEntryInDirectory s.currentDirectory name s with
    | (none, s) => (false, s)
    | (some (inode, _), s) =>
      -- A file that is open stays.
      if !entryLeadsTo inode typeRegular s || inodeIsOpen s inode.toNat then (false, s)
      else
        -- The entry goes first: a fault behind it leaves an inode nothing leads to.
        match removeEntryFromDirectory s.currentDirectory name s with
        | (none, s) => (false, s)
        | (some inode, s) =>
          match releaseInode inode.toNat s with
          | (false, s) => (false, s)
          | (true, s) =>
            let parent := s.inodeTable.get s.currentDirectory
            -- The count of links follows the files of the directory, and never goes below zero.
            let s := if parent.linkCount > 0 then
                s.withInode s.currentDirectory { parent with linkCount := parent.linkCount - 1 }
              else s
            writeInodeTable s

/-- `simplefs_make_dir` -/
def simplefsMakeDir (name : CString) (s : SimpleFs) : Bool × SimpleFs :=
  -- The name is checked as that of a file is.
  if !s.fsMounted || !validName name then (false, s)
  else
    match findEntryInDirectory s.currentDirectory name s with
    | (some _, s) => (false, s)
    | (none, s) =>
      match allocateInode typeDirectory s with
      | (none, s) => (false, s)
      | (some index, s) =>
        -- The directory is filled while nothing leads to it yet.
        match initDirectoryFile index s.currentDirectory s with
        | (false, s) => (false, (releaseInode index s).2)
        | (true, s) =>
          match appendEntryToDirectory s.currentDirectory name index s with
          | (false, s) => (false, (releaseInode index s).2)
          | (true, s) => (true, s)

/-- `simplefs_remove_dir`: the name is looked up as it is, whatever it is. -/
def simplefsRemoveDir (name : CString) (s : SimpleFs) : Bool × SimpleFs :=
  if !s.fsMounted then (false, s)
  else
    match findEntryInDirectory s.currentDirectory name s with
    | (none, s) => (false, s)
    | (some (inode, _), s) =>
      -- The root and what is not a directory stay.
      if inode.toNat == rootInode || !entryLeadsTo inode typeDirectory s then (false, s)
      else
        -- Only `.` and `..` may be left.
        match directoryIsEmpty inode.toNat s with
        | (false, s) => (false, s)
        | (true, s) =>
          match removeEntryFromDirectory s.currentDirectory name s with
          | (none, s) => (false, s)
          | (some inode, s) => releaseInode inode.toNat s

/-- `simplefs_change_dir` -/
def simplefsChangeDir (name : CString) (s : SimpleFs) : Bool × SimpleFs :=
  if !s.fsMounted || name.chars.isEmpty then (false, s)
  -- The root has a name of its own in every directory.
  else if name = slash then (true, { s with currentDirectory := rootInode })
  else
    match findEntryInDirectory s.currentDirectory name s with
    | (none, s) => (false, s)
    | (some (inode, _), s) =>
      if !entryLeadsTo inode typeDirectory s then (false, s)
      -- The current directory is an inode number, and no path is kept.
      else (true, { s with currentDirectory := inode.toNat })

/-- `simplefs_read_file`: whether it succeeded, and the bytes it put into the buffer. -/
def simplefsReadFile (name : CString) (bufferSize : Nat) (s : SimpleFs) :
    Bool × List UInt8 × SimpleFs :=
  if !s.fsMounted then (false, [], s)
  else
    match findEntryInDirectory s.currentDirectory name s with
    | (none, s) => (false, [], s)
    | (some (inode, _), s) =>
      if !entryLeadsTo inode typeRegular s then (false, [], s)
      -- The read begins at the start and goes as far as the buffer.
      else readInodeBytes inode.toNat 0 bufferSize s

/-- `simplefs_write_file`: replace a file, creating it first when there is none. -/
def simplefsWriteFile (name : CString) (data : Nat → UInt8) (size : Nat) (s : SimpleFs) :
    Bool × SimpleFs :=
  -- A file that would be too long is refused before it is made.
  if !s.fsMounted || !validName name || decide (size > maxFileSize) then (false, s)
  else
    match findEntryInDirectory s.currentDirectory name s with
    | (none, s) =>
      match simplefsCreate name s with
      | (false, s) => (false, s)
      | (true, s) =>
        -- The new file is looked up again for its inode.
        match findEntryInDirectory s.currentDirectory name s with
        | (none, s) => (false, s)
        | (some (inode, _), s) => writeInodeData inode.toNat data size s
    | (some (inode, _), s) =>
      -- A directory is not overwritten.
      if !entryLeadsTo inode typeRegular s then (false, s)
      else writeInodeData inode.toNat data size s

/-- The end of `simplefs_append_file`, once the old content is in the scratch buffer. -/
def appendToScratch (name : CString) (data : Nat → UInt8) (size oldSize : Nat) (s : SimpleFs) :
    Bool × SimpleFs :=
  -- The sum of the two sizes is that of a 32-bit variable.
  if (oldSize + size) % 2 ^ 32 > maxFileSize then (false, s)
  else
    let scratch := s.fileScratch.blit oldSize ((List.range size).map data)
    simplefsWriteFile name scratch.get ((oldSize + size) % 2 ^ 32) { s with fileScratch := scratch }

/-- `simplefs_append_file`: read the file, append in memory, write it all back. -/
def simplefsAppendFile (name : CString) (data : Nat → UInt8) (size : Nat) (s : SimpleFs) :
    Bool × SimpleFs :=
  -- The length is checked before the sum that could wrap.
  if size > maxFileSize then (false, s)
  else
    match findEntryInDirectory s.currentDirectory name s with
    -- A file that is not there is made by the write below.
    | (none, s) => appendToScratch name data size 0 s
    | (some _, s) =>
      match simplefsReadFile name maxFileSize s with
      | (ok, bytes, s) =>
        -- The old content goes through the scratch buffer of files.
        let s := { s with fileScratch := s.fileScratch.blit 0 bytes }
        if ok then appendToScratch name data size bytes.length s else (false, s)

/-- `simplefs_open`: the first unused descriptor, or -1. -/
def simplefsOpen (name : CString) (s : SimpleFs) : Int × SimpleFs :=
  if !s.fsMounted then (-1, s)
  else
    match findEntryInDirectory s.currentDirectory name s with
    | (none, s) => (-1, s)
    | (some (inode, _), s) =>
      if !entryLeadsTo inode typeRegular s then (-1, s)
      else
        -- The first descriptor that is not in use.
        match (List.range maxOpenFiles).find? fun fd => !(s.openFiles.get fd).used with
        | none => (-1, s)
        | some fd =>
          let file := { used := true, inodeIndex := inode.toNat, offset := 0
                        -- The name is kept for the listing, cut to its capacity.
                        name := name.chars.take (nameCapacity - 1) }
          (fd, { s with openFiles := s.openFiles.set fd file })

/-- Whether a number is a descriptor in use. -/
def fdUsed (fd : Int) (s : SimpleFs) : Bool :=
  -- Descriptors are signed, so both bounds are checked.
  decide (0 ≤ fd) && decide (fd < maxOpenFiles) && (s.openFiles.get fd.toNat).used

/-- `simplefs_close` -/
def simplefsClose (fd : Int) (s : SimpleFs) : Bool × SimpleFs :=
  if !fdUsed fd s then (false, s)
  else (true, { s with openFiles := s.openFiles.set fd.toNat closedFile })

/-- The state with another offset in an open file. -/
def SimpleFs.withOffset (s : SimpleFs) (fd : Nat) (offset : Nat) : SimpleFs :=
  { s with openFiles := s.openFiles.set fd { s.openFiles.get fd with offset := offset } }

/-- `simplefs_read_fd`: whether it succeeded, and the bytes it put into the buffer. -/
def simplefsReadFd (fd : Int) (bufferSize : Nat) (s : SimpleFs) : Bool × List UInt8 × SimpleFs :=
  if !s.fsMounted || !fdUsed fd s then (false, [], s)
  else
    let file := s.openFiles.get fd.toNat
    -- The answer and the new offset follow from the bytes that were read.
    match readInodeBytes file.inodeIndex file.offset bufferSize s with
    | (false, bytes, s) => (false, bytes, s)
    | (true, bytes, s) =>
      (true, bytes, s.withOffset fd.toNat ((file.offset + bytes.length) % 2 ^ 32))

/--
`simplefs_write_fd`: read the file, change it in memory, write it all back.

Positions beyond the scratch buffer, which only a sum that wrapped can reach, are dropped.
-/
def simplefsWriteFd (fd : Int) (data : Nat → UInt8) (size : Nat) (s : SimpleFs) :
    Bool × SimpleFs :=
  if !s.fsMounted || !fdUsed fd s then (false, s)
  else
    let file := s.openFiles.get fd.toNat
    -- The sum is that of a 32-bit variable.
    let stop := (file.offset + size) % 2 ^ 32
    if stop > maxFileSize then (false, s)
    else
      match readInodeBytes file.inodeIndex 0 maxFileSize s with
      | (ok, bytes, s) =>
        let s := { s with fileScratch := s.fileScratch.blit 0 bytes }
        if !ok then (false, s)
        else
          -- A gap between the end and the offset is filled with zeros.
          let scratch := s.fileScratch.blit bytes.length
            (List.replicate (file.offset - bytes.length) 0)
          let scratch := scratch.blit file.offset ((List.range size).map data)
          -- The file grows only if the write ends behind its end.
          let newSize := max bytes.length stop
          match writeInodeData file.inodeIndex scratch.get newSize
              { s with fileScratch := scratch } with
          | (false, s) => (false, s)
          -- The offset moves only when the write is done.
          | (true, s) => (true, s.withOffset fd.toNat stop)

/-- `simplefs_seek`: the offset may not lie behind the end of the file. -/
def simplefsSeek (fd : Int) (offset : Nat) (s : SimpleFs) : Bool × SimpleFs :=
  if !s.fsMounted || !fdUsed fd s then (false, s)
  else
    let index := (s.openFiles.get fd.toNat).inodeIndex
    -- The end of the file itself is a place to go to.
    if index ≥ maxInodes || !s.inodeUsed index || offset > (s.inodeTable.get index).size.toNat then
      (false, s)
    else (true, s.withOffset fd.toNat offset)

/-- A call of the public interface, with the data or buffer size it passes. -/
inductive FsCall where
  | create (name : CString)
  | delete (name : CString)
  | makeDir (name : CString)
  | removeDir (name : CString)
  | changeDir (name : CString)
  | readFile (name : CString) (bufferSize : Nat)
  | writeFile (name : CString) (data : List UInt8)
  | appendFile (name : CString) (data : List UInt8)
  | open_ (name : CString)
  | close (fd : Int)
  | readFd (fd : Int) (bufferSize : Nat)
  | writeFd (fd : Int) (data : List UInt8)
  | seek (fd : Int) (offset : Nat)

/-- What a call gives back: its return value and the bytes it put into the caller's buffer. -/
structure FsAnswer where
  code : Int
  bytes : List UInt8
  deriving DecidableEq

/-- The answer of a call that only succeeds or fails. -/
def answer (result : Bool × SimpleFs) : FsAnswer × SimpleFs :=
  -- The C functions give `1` for success and `0` for failure.
  (⟨if result.1 then 1 else 0, []⟩, result.2)

/-- The answer of a call that also fills a buffer, which counts only when it succeeds. -/
def answerBytes (result : Bool × List UInt8 × SimpleFs) : FsAnswer × SimpleFs :=
  (if result.1 then ⟨1, result.2.1⟩ else ⟨0, []⟩, result.2.2)

/-- Perform one call of the public interface. -/
def fsStep (s : SimpleFs) : FsCall → FsAnswer × SimpleFs
  | .create name => answer (simplefsCreate name s)
  | .delete name => answer (simplefsDelete name s)
  | .makeDir name => answer (simplefsMakeDir name s)
  | .removeDir name => answer (simplefsRemoveDir name s)
  | .changeDir name => answer (simplefsChangeDir name s)
  | .readFile name bufferSize => answerBytes (simplefsReadFile name bufferSize s)
  | .writeFile name data => answer (simplefsWriteFile name (data.getD · 0) data.length s)
  | .appendFile name data => answer (simplefsAppendFile name (data.getD · 0) data.length s)
  | .open_ name => (⟨(simplefsOpen name s).1, []⟩, (simplefsOpen name s).2)
  | .close fd => answer (simplefsClose fd s)
  | .readFd fd bufferSize => answerBytes (simplefsReadFd fd bufferSize s)
  | .writeFd fd data => answer (simplefsWriteFd fd (data.getD · 0) data.length s)
  | .seek fd offset => answer (simplefsSeek fd offset s)

end MyOS.Fs
