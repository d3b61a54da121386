import MyOS.Mm.Pmm

/-!
The virtual memory manager: page directories and page tables in physical memory.

Memory is named by its physical addresses. The kernel reaches it through the direct map from
`0xC0000000` on, and what the processor caches of the tables is dropped as they change.
-/

namespace MyOS.Mm

/-- Set in an entry that is in use. -/
def pagePresent : UInt32 := 0x001

/-- Set in an entry through which a page may be written. -/
def vmmPageWritable : UInt32 := 0x002

/-- Set in an entry through which a program may go. -/
def vmmPageUser : UInt32 := 0x004

/-- Set by the processor on every access through an entry. -/
def vmmPageAccessed : UInt32 := 0x020

/-- Set by the processor on every write through an entry. -/
def vmmPageDirty : UInt32 := 0x040

/-- The part of an entry that is an address. -/
def pageAddrMask : UInt32 := 0xFFFFF000

/-- The first address of the kernel's half. -/
def vmmKernelBase : UInt32 := 0xC0000000

/-- The entries of a directory or a table. -/
def pageTableEntries : Nat := 1024

/-- The first directory entry of the kernel's half. -/
def kernelDirectoryStart : Nat := (vmmKernelBase >>> 22).toNat

/-- Physical memory with the static variables of the virtual memory manager. -/
structure Vmm extends Pmm where
  currentPageDirectoryPhys : UInt32
  kernelPageDirectoryPhys : UInt32
  kernelMappedBytes : UInt32
  mappedPages : UInt32
  vmmReady : Bool

/-- The upper ten bits of an address choose the entry of the directory. -/
def pageDirectoryIndex (virtAddr : UInt32) : Nat := (virtAddr >>> 22).toNat

/-- The ten bits below them choose the entry of the table. -/
def pageTableIndex (virtAddr : UInt32) : Nat := ((virtAddr >>> 12) &&& 0x3FF).toNat

/-- The address of the table an entry of a directory names. -/
def pageTableFromDirectory (directoryEntry : UInt32) : UInt32 := directoryEntry &&& pageAddrMask

namespace Vmm

variable (s : Vmm)

/-- The entry at an index of a directory or of a table. -/
def entry (table : UInt32) (index : Nat) : UInt32 := wordAt s.memory (table.toNat + 4 * index)

/-- Replace the entry at an index of a directory or of a table. -/
def setEntry (table : UInt32) (index : Nat) (value : UInt32) : Vmm :=
  { s with memory := s.memory.storeWord (table.toNat + 4 * index) value }

/-- `pmm_alloc_page` on the memory of the virtual memory manager. -/
def alloc : UInt32 × Vmm := ((pmmAllocPage s.toPmm).1, { s with toPmm := (pmmAllocPage s.toPmm).2 })

/-- `pmm_free_page` on the memory of the virtual memory manager. -/
def free (physAddr : UInt32) : Vmm := { s with toPmm := pmmFreePage s.toPmm physAddr }

/-- `memset` of a whole page to zeros. -/
def clearPage (physAddr : UInt32) : Vmm :=
  { s with memory := s.memory.fill physAddr.toNat 0 4096 }

end Vmm

/-- The part of `map_page_in_directory` that gives a directory entry its table. -/
def makePageTable (pageDirectoryPhys : UInt32) (directoryIndex : Nat) (flags : UInt32) (s : Vmm) :
    Option Vmm :=
  match s.alloc with
  | (pageTablePhys, s) =>
    -- Address zero stands for no page.
    if pageTablePhys == 0 then none
    else
      -- A new table is cleared first, or it would show what the page held before.
      some ((s.clearPage pageTablePhys).setEntry pageDirectoryPhys directoryIndex
        (pageTablePhys ||| pagePresent ||| vmmPageWritable ||| (flags &&& vmmPageUser)))

/--
The first half of `map_page_in_directory`: see to it that there is a table.

A directory entry that is in use only gains the user flag.
-/
def preparePageTable (pageDirectoryPhys : UInt32) (directoryIndex : Nat) (flags : UInt32) (s : Vmm) :
    Option Vmm :=
  -- The entry may be in use already, by pages mapped before.
  let directoryEntry := s.entry pageDirectoryPhys directoryIndex
  if directoryEntry &&& pagePresent == 0 then
    makePageTable pageDirectoryPhys directoryIndex flags s
  -- A page for a program needs the right in the directory as well.
  else if flags &&& vmmPageUser != 0 then
    some (s.setEntry pageDirectoryPhys directoryIndex (directoryEntry ||| vmmPageUser))
  else some s

/-- `map_page_in_directory`: make a page of an address space lead to a physical page. -/
def mapPageInDirectory (pageDirectoryPhys virtAddr physAddr flags : UInt32) (countMapping : Bool)
    (s : Vmm) : Bool × Vmm :=
  -- The addresses are checked before any table is made.
  if pageDirectoryPhys == 0 then (false, s)
  else if virtAddr % pageSize != 0 || physAddr % pageSize != 0 then (false, s)
  else
    let directoryIndex := pageDirectoryIndex virtAddr
    let tableIndex := pageTableIndex virtAddr
    -- Only the two rights are taken over from the flags.
    let pageFlags := (flags &&& (vmmPageWritable ||| vmmPageUser)) ||| pagePresent
    match preparePageTable pageDirectoryPhys directoryIndex flags s with
    | none => (false, s)
    | some s =>
      -- The entry is read again, for it may have been made just now.
      let pageTable := pageTableFromDirectory (s.entry pageDirectoryPhys directoryIndex)
      let counted :=
        -- A page that is mapped anew is counted once.
        if countMapping && s.entry pageTable tableIndex &&& pagePresent == 0 then
          { s with mappedPages := s.mappedPages + 1 }
        else s
      -- What the entry held before is lost.
      (true, counted.setEntry pageTable tableIndex ((physAddr &&& pageAddrMask) ||| pageFlags))

/-- `vmm_map_page`: map a page of the current directory. -/
def vmmMapPage (virtAddr physAddr flags : UInt32) (s : Vmm) : Bool × Vmm :=
  -- Pages of the current directory are counted.
  mapPageInDirectory s.currentPageDirectoryPhys virtAddr physAddr flags true s

/-- `vmm_map_page_in_directory`: map a page of a given directory. -/
def vmmMapPageInDirectory (pageDirectoryPhys virtAddr physAddr flags : UInt32) (s : Vmm) :
    Bool × Vmm :=
  -- Pages of other directories are not.
  mapPageInDirectory pageDirectoryPhys virtAddr physAddr flags false s

/-- `unmap_page_in_directory`: clear the entry of a page. -/
def unmapPageInDirectory (pageDirectoryPhys virtAddr : UInt32) (countMapping : Bool) (s : Vmm) :
    Vmm :=
  -- A request that names no page changes nothing.
  if pageDirectoryPhys == 0 || virtAddr % pageSize != 0 then s
  else
    let directoryIndex := pageDirectoryIndex virtAddr
    let tableIndex := pageTableIndex virtAddr
    let directoryEntry := s.entry pageDirectoryPhys directoryIndex
    -- Without a table there is no page to unmap.
    if directoryEntry &&& pagePresent == 0 then s
    else
      let pageTable := pageTableFromDirectory directoryEntry
      if s.entry pageTable tableIndex &&& pagePresent != 0 then
        -- The table stays, even when its last entry is cleared.
        let s := s.setEntry pageTable tableIndex 0
        if countMapping && decide (s.mappedPages > 0) then
          { s with mappedPages := s.mappedPages - 1 }
        else s
      else s

/-- `vmm_unmap_page_in_directory`: clear the entry of a page of a given directory. -/
def vmmUnmapPageInDirectory (pageDirectoryPhys virtAddr : UInt32) (s : Vmm) : Vmm :=
  unmapPageInDirectory pageDirectoryPhys virtAddr false s

/-- `vmm_get_page_entry_in_directory`: the entry of a page, if there is a table for it. -/
def vmmGetPageEntryInDirectory (pageDirectoryPhys virtAddr : UInt32) (s : Vmm) : Option UInt32 :=
  if pageDirectoryPhys == 0 then none
  else
    let directoryEntry := s.entry pageDirectoryPhys (pageDirectoryIndex virtAddr)
    -- An entry may be given that is not in use: its flags tell.
    if directoryEntry &&& pagePresent == 0 then none
    else some (s.entry (pageTableFromDirectory directoryEntry) (pageTableIndex virtAddr))

/-- `vmm_get_mapping_in_directory`: the physical address behind an address of a space. -/
def vmmGetMappingInDirectory (pageDirectoryPhys virtAddr : UInt32) (s : Vmm) : Option UInt32 :=
  if pageDirectoryPhys == 0 then none
  else
    let directoryEntry := s.entry pageDirectoryPhys (pageDirectoryIndex virtAddr)
    if directoryEntry &&& pagePresent == 0 then none
    else
      -- Both the directory and the table must be in use.
      let entry := s.entry (pageTableFromDirectory directoryEntry) (pageTableIndex virtAddr)
      if entry &&& pagePresent == 0 then none
      -- The last twelve bits are those of the address asked for.
      else some ((entry &&& pageAddrMask) ||| (virtAddr &&& ~~~pageAddrMask))

/-- `vmm_clear_page_accessed_in_directory`: lower the accessed flag of a page. -/
def vmmClearPageAccessedInDirectory (pageDirectoryPhys virtAddr : UInt32) (s : Vmm) : Bool × Vmm :=
  if pageDirectoryPhys == 0 then (false, s)
  else
    let directoryEntry := s.entry pageDirectoryPhys (pageDirectoryIndex virtAddr)
    if directoryEntry &&& pagePresent == 0 then (false, s)
    else
      let pageTable := pageTableFromDirectory directoryEntry
      let entry := s.entry pageTable (pageTableIndex virtAddr)
      if entry &&& pagePresent == 0 then (false, s)
      -- Only the entry of the page loses its flag, and that of the directory keeps it.
      else (true, s.setEntry pageTable (pageTableIndex virtAddr) (entry &&& ~~~vmmPageAccessed))

/-- `vmm_create_address_space`: a new directory that shares the kernel's half. -/
def vmmCreateAddressSpace (s : Vmm) : Option UInt32 × Vmm :=
  if !s.vmmReady then (none, s)
  else
    match s.alloc with
    | (newPageDirectoryPhys, s) =>
      -- Without a page there is no directory.
      if newPageDirectoryPhys == 0 then (none, s)
      else
        let s := s.clearPage newPageDirectoryPhys
        -- The kernel's half is copied entry by entry, so its tables are shared.
        let copied := (List.range' kernelDirectoryStart (pageTableEntries - kernelDirectoryStart)).foldl
          (fun s i => s.setEntry newPageDirectoryPhys i (s.entry s.kernelPageDirectoryPhys i)) s
        (some newPageDirectoryPhys, copied)

/-- One round of the loop of `vmm_destroy_address_space`: give a table of the user's half back. -/
def destroyEntry (pageDirectoryPhys : UInt32) (s : Vmm) (i : Nat) : Vmm :=
  let directoryEntry := s.entry pageDirectoryPhys i
  -- Entries not in use have no table to give back.
  if directoryEntry &&& pagePresent != 0 then
    (s.free (directoryEntry &&& pageAddrMask)).setEntry pageDirectoryPhys i 0
  else s

/-- `vmm_destroy_address_space`: give back a directory and the tables of its user's half. -/
def vmmDestroyAddressSpace (pageDirectoryPhys : UInt32) (s : Vmm) : Vmm :=
  -- The kernel's own directory is never given back.
  if !s.vmmReady || pageDirectoryPhys == 0 || pageDirectoryPhys == s.kernelPageDirectoryPhys then s
  else
    -- The kernel's half is left alone, since other directories share its tables.
    ((List.range kernelDirectoryStart).foldl (destroyEntry pageDirectoryPhys) s).free
      pageDirectoryPhys

/-- `vmm_switch_page_directory`: make a directory the current one. -/
def vmmSwitchPageDirectory (pageDirectoryPhys : UInt32) (s : Vmm) : Bool × Vmm :=
  -- The processor would follow any address, so zero is refused here.
  if !s.vmmReady || pageDirectoryPhys == 0 then (false, s)
  else (true, { s with currentPageDirectoryPhys := pageDirectoryPhys })

end MyOS.Mm
