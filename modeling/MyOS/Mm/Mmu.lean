import MyOS.Mm.Vmm

/-! What the processor does with the page tables when a program touches memory. -/

namespace MyOS.Mm

/-- Why an access does not go through. -/
inductive Fault where
  /-- There is no page. -/
  | notPresent
  /-- There is a page, but the program may not do that with it. -/
  | protection
  deriving DecidableEq

/-- Raise the flags in both entries on the way that tell of an access. -/
def markAccess (pageDirectoryPhys virtAddr : UInt32) (dirty : Bool) (s : Vmm) : Vmm :=
  -- The processor reads both entries before it changes either.
  let directoryEntry := s.entry pageDirectoryPhys (pageDirectoryIndex virtAddr)
  let pageTable := pageTableFromDirectory directoryEntry
  let entry := s.entry pageTable (pageTableIndex virtAddr)
  let s := s.setEntry pageDirectoryPhys (pageDirectoryIndex virtAddr)
    (directoryEntry ||| vmmPageAccessed)
  s.setEntry pageTable (pageTableIndex virtAddr)
    (entry ||| vmmPageAccessed ||| (if dirty then vmmPageDirty else 0))

/-- The physical address that a program may reach through an address of its space. -/
def userTranslate (pageDirectoryPhys virtAddr : UInt32) (write : Bool) (s : Vmm) :
    Except Fault UInt32 :=
  -- Two steps: the directory names the table, and the table names the page.
  let directoryEntry := s.entry pageDirectoryPhys (pageDirectoryIndex virtAddr)
  if directoryEntry &&& pagePresent == 0 then .error .notPresent
  else
    let entry := s.entry (pageTableFromDirectory directoryEntry) (pageTableIndex virtAddr)
    if entry &&& pagePresent == 0 then .error .notPresent
    -- Both entries have to grant a right.
    else if directoryEntry &&& entry &&& vmmPageUser == 0 then .error .protection
    else if write && directoryEntry &&& entry &&& vmmPageWritable == 0 then .error .protection
    -- The last twelve bits are those of the address in the program.
    else .ok ((entry &&& pageAddrMask) ||| (virtAddr &&& ~~~pageAddrMask))

/-- A program reads a byte. -/
def userRead (pageDirectoryPhys virtAddr : UInt32) (s : Vmm) : Except Fault UInt8 × Vmm :=
  match userTranslate pageDirectoryPhys virtAddr false s with
  -- A fault changes nothing, not even a flag.
  | .error fault => (.error fault, s)
  | .ok physAddr =>
    -- The flags are raised even where the byte read is one of theirs.
    (.ok (s.memory physAddr.toNat), markAccess pageDirectoryPhys virtAddr false s)

/-- A program writes a byte. -/
def userWrite (pageDirectoryPhys virtAddr : UInt32) (value : UInt8) (s : Vmm) :
    Except Fault Unit × Vmm :=
  match userTranslate pageDirectoryPhys virtAddr true s with
  | .error fault => (.error fault, s)
  | .ok physAddr =>
    -- The flags are raised before the byte is written.
    let s := markAccess pageDirectoryPhys virtAddr true s
    (.ok (), { s with memory := s.memory.store physAddr.toNat value })

end MyOS.Mm
