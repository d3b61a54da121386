import MyOS.Drivers.Ata
import MyOS.Mm.Vmm

/-! The pager: pages that live on the disk until they are touched, and go back there for others. -/

namespace MyOS.Mm

/-- The first sector of the swap area. -/
def pagerSwapLbaBase : UInt32 := 2048

/-- The sectors of a page. -/
def pagerSectorsPerPage : UInt32 := 8

/-- The pages that can be registered. -/
def pagerMaxPages : Nat := 128

/-- The pages that can be in memory at a time. -/
def pagerFrameLimit : Nat := 16

/-- How many victims are remembered. -/
def pagerVictimTraceCount : Nat := 8

/-- The ways to choose a victim. -/
inductive PagerAlgorithm where
  | clock
  | lru
  deriving DecidableEq

/-- What the pager knows about a page. -/
structure PagerPage where
  used : Bool
  present : Bool
  swapped : Bool
  pageDirectoryPhys : UInt32
  virtAddr : UInt32
  physAddr : UInt32
  flags : UInt32
  swapSlot : UInt32
  lastUsedTick : UInt32
  pinned : Bool
  deriving Inhabited, DecidableEq

/-- Memory, the disk and the static variables of the pager. -/
structure Pager extends Vmm where
  disk : Ata
  pages : FixedArray 128 PagerPage
  /-- Which page is in each of the frames in use. -/
  framePages : FixedArray 16 Nat
  registeredPages : Nat
  residentFrames : Nat
  clockHand : Nat
  pageFaults : UInt32
  evictions : UInt32
  swapIns : UInt32
  swapOuts : UInt32
  lastFaultAddr : UInt32
  usageTick : UInt32
  /-- The latest victims, oldest first. -/
  victimTrace : List UInt32
  currentAlgorithm : PagerAlgorithm
  pagerReady : Bool

/-- `align_down_page`: the address of the page an address lies in. -/
def alignDownPage (value : UInt32) : UInt32 := value &&& ~~~(pageSize - 1)

/-- `swap_lba_for_slot`: where a page lies on the disk. -/
def swapLbaForSlot (slot : UInt32) : UInt32 := pagerSwapLbaBase + slot * pagerSectorsPerPage

/-- The bytes of a page, sector by sector. -/
def pageSectors (bytes : Nat → UInt8) : List Sector :=
  -- A page is eight sectors of 512 bytes.
  (List.range pagerSectorsPerPage.toNat).map fun j => FixedArray.ofFn fun k => bytes (512 * j + k)

/-- The bytes that a list of sectors holds. -/
def sectorBytes (sectors : List Sector) (k : Nat) : UInt8 :=
  (sectors.getD (k / 512) default).get (k % 512)

namespace Pager

variable (s : Pager)

/-- Replace what is known about a page. -/
def setPage (i : Nat) (page : PagerPage) : Pager := { s with pages := s.pages.set i page }

/-- `swap_write_slot`: write a page to its place on the disk. -/
def swapWriteSlot (slot : UInt32) (bytes : Nat → UInt8) : Bool × Pager :=
  -- The answer is that of the driver, and a part of the page may be written.
  match s.disk.writeSectors (swapLbaForSlot slot) (pageSectors bytes) with
  | (done, disk) => (done, { s with disk })

/-- `swap_read_slot`: read a page from its place on the disk. -/
def swapReadSlot (slot : UInt32) : Option (Nat → UInt8) × Pager :=
  -- Sectors read before a fault are dropped.
  match s.disk.readSectors (swapLbaForSlot slot) pagerSectorsPerPage.toNat with
  | (sectors, disk) => (sectors.map sectorBytes, { s with disk })

/-- `write_page_data_to_swap`: data at the start of a page, and zeros behind it. -/
def writePageDataToSwap (swapSlot : UInt32) (data : Option (Nat → UInt8)) (dataSize : Nat) :
    Bool × Pager :=
  -- No data means a page of zeros.
  match data with
  | none => s.swapWriteSlot swapSlot fun _ => 0
  | some data => s.swapWriteSlot swapSlot fun k => if k < dataSize then data k else 0

/-- `find_page_by_virt`: the entry of the page an address of a space lies in. -/
def findPageByVirt (pageDirectoryPhys virtAddr : UInt32) : Option Nat :=
  (List.range pagerMaxPages).find? fun i =>
    -- Addresses are compared by the page they lie in.
    (s.pages.get i).used && (s.pages.get i).pageDirectoryPhys == pageDirectoryPhys &&
      (s.pages.get i).virtAddr == alignDownPage virtAddr

/-- `find_free_page_entry`: an entry not in use. -/
def findFreePageEntry : Option Nat :=
  -- Entries have a place on the disk each, whether in use or not.
  (List.range pagerMaxPages).find? fun i => !(s.pages.get i).used

/-- `page_was_accessed`: whether the processor saw an access to a page. -/
def pageWasAccessed (i : Nat) : Bool :=
  -- A page without an entry was not accessed.
  match vmmGetPageEntryInDirectory (s.pages.get i).pageDirectoryPhys (s.pages.get i).virtAddr
    s.toVmm with
  | none => false
  | some entry => entry &&& vmmPageAccessed != 0

/-- Forget the accesses the processor saw to a page. -/
def clearPageAccessed (i : Nat) : Pager :=
  { s with toVmm := (vmmClearPageAccessedInDirectory (s.pages.get i).pageDirectoryPhys
      (s.pages.get i).virtAddr s.toVmm).2 }

/-- `mark_page_used`: give a page the latest tick. Tick zero stands for never. -/
def markPageUsed (i : Nat) : Pager :=
  -- The counter of ticks wraps around, and passes over zero.
  let usageTick := if s.usageTick + 1 == 0 then 1 else s.usageTick + 1
  { s.setPage i { s.pages.get i with lastUsedTick := usageTick } with usageTick }

/-- `sample_page_usage`: count an access the processor saw. -/
def samplePageUsage (i : Nat) : Pager :=
  -- The flag is lowered again, so that the next access shows.
  if s.pageWasAccessed i then (s.markPageUsed i).clearPageAccessed i else s

/-- `record_victim`: remember the latest victims. -/
def recordVictim (virtAddr : UInt32) : Pager :=
  -- Eight victims are kept, and the oldest makes way.
  if s.victimTrace.length < pagerVictimTraceCount then
    { s with victimTrace := s.victimTrace ++ [virtAddr] }
  else { s with victimTrace := s.victimTrace.tail ++ [virtAddr] }

/-- Move the hand of the clock to the next frame. -/
def advanceHand : Pager := { s with clockHand := (s.clockHand + 1) % pagerFrameLimit }

/-- The loop of `choose_clock_victim_frame`, with the number of frames it may still skip. -/
def clockScan : Nat → Pager → Nat × Pager
  -- After two rounds over the frames the hand is taken where it is.
  | 0, s => (s.clockHand, s)
  | left + 1, s =>
    let i := s.framePages.get s.clockHand
    -- A pinned page keeps its flag.
    if (s.pages.get i).pinned then clockScan left s.advanceHand
    -- A page accessed since the hand last passed gets a second chance.
    else if s.pageWasAccessed i then clockScan left (s.clearPageAccessed i).advanceHand
    else (s.clockHand, s)

/-- `choose_clock_victim_frame`: the frame the hand of the clock comes to rest at. -/
def chooseClockVictimFrame : Nat × Pager := clockScan (pagerFrameLimit * 2) s

/-- The best frame so far of `choose_lru_victim_frame`, with the tick of its page. -/
structure LruBest where
  slot : Nat
  tick : UInt32
  found : Bool

/-- The loop of `choose_lru_victim_frame` over a list of frames. -/
def lruScan : List Nat → LruBest → Pager → LruBest × Pager
  | [], best, s => (best, s)
  | slot :: rest, best, s =>
    let i := s.framePages.get slot
    -- A pinned page is not looked at, and keeps the tick it has.
    if (s.pages.get i).pinned then lruScan rest best s
    else
      let s := s.samplePageUsage i
      let usedTick := (s.pages.get i).lastUsedTick
      -- Of pages with the same tick the first stays.
      if !best.found || decide (usedTick < best.tick) then lruScan rest ⟨slot, usedTick, true⟩ s
      else lruScan rest best s

/-- `choose_lru_victim_frame`: the frame of the page used longest ago. -/
def chooseLruVictimFrame : Nat × Pager :=
  -- Without a candidate the first frame is the answer.
  match lruScan (List.range s.residentFrames) ⟨0, 0xFFFFFFFF, false⟩ s with
  | (best, s) => (best.slot, s)

/-- `choose_victim_frame`: the frame to be emptied. -/
def chooseVictimFrame : Nat × Pager :=
  if s.currentAlgorithm = .lru then s.chooseLruVictimFrame else s.chooseClockVictimFrame

/-- What `evict_frame` does once the page is on the disk. -/
def forgetFrame (i : Nat) : Pager :=
  let victim := s.pages.get i
  -- The page leaves its space before its frame is given back.
  let unmapped := vmmUnmapPageInDirectory victim.pageDirectoryPhys victim.virtAddr s.toVmm
  let s := { s with toVmm := unmapped.free victim.physAddr }
  let s := s.setPage i { victim with physAddr := 0, present := false, swapped := true }
  -- The victim is remembered by the address it had.
  let s := s.recordVictim victim.virtAddr
  { s with evictions := s.evictions + 1, swapOuts := s.swapOuts + 1 }

/-- `evict_frame`: write the page of a frame to the disk and give the frame back. -/
def evictFrame (frameSlot : Nat) : Bool × Pager :=
  -- Nothing is forgotten before the page is on the disk.
  let i := s.framePages.get frameSlot
  let victim := s.pages.get i
  match s.swapWriteSlot victim.swapSlot fun k => s.memory (victim.physAddr.toNat + k) with
  -- A write that fails leaves the page where it is.
  | (false, s) => (false, s)
  | (true, s) => (true, s.forgetFrame i)

/-- The first part of `page_in`: a frame that is not in use, or one that was emptied for it. -/
def takeFrame : Option Nat × Pager :=
  -- Frames are taken in order as long as there are any.
  if s.residentFrames < pagerFrameLimit then
    (some s.residentFrames, { s with residentFrames := s.residentFrames + 1 })
  else
    -- All frames are in use, and one of them is emptied.
    match s.chooseVictimFrame with
    | (frameSlot, s) =>
      match s.evictFrame frameSlot with
      -- The frame was not emptied, and there is none for the page.
      | (false, s) => (none, s)
      | (true, s) => (some frameSlot, s)

/-- The last part of `page_in`: enter the page as one that is in memory. -/
def settleFrame (i frameSlot : Nat) (physAddr : UInt32) : Pager :=
  -- The hand moves behind the frame that was filled.
  let s := { s with
    framePages := s.framePages.set frameSlot i
    clockHand := (frameSlot + 1) % pagerFrameLimit }
  let s := s.setPage i { s.pages.get i with physAddr := physAddr, present := true, swapped := false }
  -- A page brought in counts as used.
  let s := s.markPageUsed i
  { s with swapIns := s.swapIns + 1 }

/-- The middle part of `page_in`: bring the page into a frame and map it. -/
def fillFrame (i frameSlot : Nat) : Bool × Pager :=
  let page := s.pages.get i
  match s.toVmm.alloc with
  | (physAddr, vmm) =>
    let s := { s with toVmm := vmm }
    -- The manager of physical memory has no page: the frame stays taken.
    if physAddr == 0 then (false, s)
    else
      match s.swapReadSlot page.swapSlot with
      -- A page that cannot be read back gives its memory back, and no more.
      | (none, s) => (false, { s with toVmm := s.toVmm.free physAddr })
      | (some bytes, s) =>
        let s := { s with memory := s.memory.copy physAddr.toNat 4096 bytes }
        match vmmMapPageInDirectory page.pageDirectoryPhys page.virtAddr physAddr page.flags
          s.toVmm with
        -- And so does one that cannot be mapped.
        | (false, vmm) => (false, { s with toVmm := vmm.free physAddr })
        | (true, vmm) => (true, { s with toVmm := vmm }.settleFrame i frameSlot physAddr)

/-- `page_in`: bring a page into memory, if need be in place of another. -/
def pageIn (i : Nat) : Bool × Pager :=
  -- The fault counts even when it cannot be served.
  let s := { s with
    pageFaults := s.pageFaults + 1
    lastFaultAddr := (s.pages.get i).virtAddr }
  match s.takeFrame with
  | (none, s) => (false, s)
  | (some frameSlot, s) => s.fillFrame i frameSlot

end Pager

section Calls

variable (s : Pager)

/-- An entry not in use, bound to the place on the disk that has its number. -/
def freshPage (i : Nat) : PagerPage where
  used := false
  present := false
  swapped := false
  pageDirectoryPhys := 0
  virtAddr := 0
  physAddr := 0
  flags := 0
  swapSlot := UInt32.ofNat i
  lastUsedTick := 0
  pinned := false

/-- `pager_init`: start with no page registered. -/
def pagerInit : Bool × Pager :=
  -- Without a disk there is no pager.
  if !s.disk.ready then (false, { s with pagerReady := false })
  else (true, { s with
    pages := FixedArray.ofFn freshPage
    registeredPages := 0
    residentFrames := 0
    clockHand := 0
    pageFaults := 0
    evictions := 0
    swapIns := 0
    swapOuts := 0
    lastFaultAddr := 0
    usageTick := 0
    victimTrace := []
    currentAlgorithm := .clock
    pagerReady := true })

/-- `pager_set_algorithm`: choose how victims are chosen. -/
def pagerSetAlgorithm (algorithm : PagerAlgorithm) : Pager :=
  { s with currentAlgorithm := algorithm }

/-- `pager_sample_usage`: count the accesses the processor saw to the pages in memory. -/
def pagerSampleUsage : Pager :=
  -- Before start-up is over there is nothing to count.
  if !s.pagerReady then s
  else (List.range s.residentFrames).foldl (fun s slot => s.samplePageUsage (s.framePages.get slot)) s

/-- `pager_clear_victim_trace`: forget the latest victims. -/
def pagerClearVictimTrace : Pager := { s with victimTrace := [] }

/-- The last part of `pager_register_page_data`: fill an entry with the page. -/
def enterPage (i : Nat) (pageDirectoryPhys pageAddr flags : UInt32) : Pager :=
  -- The page is on the disk from the start, and in memory on its first use.
  let s := s.setPage i { s.pages.get i with
    used := true
    present := false
    swapped := true
    pageDirectoryPhys := pageDirectoryPhys
    virtAddr := pageAddr
    physAddr := 0
    flags := flags
    lastUsedTick := 0
    pinned := false }
  { s with registeredPages := s.registeredPages + 1 }

/--
`pager_register_page_data`: a page that is first on the disk, with data at its start.

For a page that is registered already its place on the disk is written again.
-/
def pagerRegisterPageData (pageDirectoryPhys virtAddr flags : UInt32) (data : Option (Nat → UInt8))
    (dataSize : Nat) : Bool × Pager :=
  -- Every check comes before the first look at the entries.
  if !s.pagerReady || pageDirectoryPhys == 0 || virtAddr % pageSize != 0 || decide (dataSize > 4096) ||
      (data.isNone && dataSize != 0) then (false, s)
  else
    match s.findPageByVirt pageDirectoryPhys virtAddr with
    | some i =>
      -- The flags change at once, even if the write below fails.
      let s := s.setPage i { s.pages.get i with flags := flags }
      if data.isSome || dataSize == 0 then
        s.writePageDataToSwap (s.pages.get i).swapSlot data dataSize
      else (true, s)
    | none =>
      match s.findFreePageEntry with
      -- All entries are in use.
      | none => (false, s)
      | some i =>
        -- The entry is filled only when its place on the disk is written.
        match s.writePageDataToSwap (s.pages.get i).swapSlot data dataSize with
        | (false, s) => (false, s)
        | (true, s) => (true, enterPage s i pageDirectoryPhys (alignDownPage virtAddr) flags)

/-- `pager_register_page_in_directory`: a page of zeros. -/
def pagerRegisterPageInDirectory (pageDirectoryPhys virtAddr flags : UInt32) : Bool × Pager :=
  -- The data is of no bytes, so the page is all zeros.
  pagerRegisterPageData s pageDirectoryPhys virtAddr flags (some fun _ => 0) 0

/-- `pager_pin_page_in_directory`: whether a page may be chosen as a victim. -/
def pagerPinPageInDirectory (pageDirectoryPhys virtAddr : UInt32) (pinned : Bool) : Bool × Pager :=
  if !s.pagerReady || pageDirectoryPhys == 0 then (false, s)
  else
    match s.findPageByVirt pageDirectoryPhys virtAddr with
    -- A page that is not registered cannot be pinned.
    | none => (false, s)
    | some i => (true, s.setPage i { s.pages.get i with pinned := pinned })

/-- The loop of `pager_unregister_page`: the last frame moves to the place of the one given up. -/
def dropFrame (i : Nat) : Pager :=
  match (List.range s.residentFrames).find? fun slot => s.framePages.get slot == i with
  -- The page is in none of the frames.
  | none => s
  | some slot =>
    -- The frames in use are always the first ones.
    let framePages := if s.residentFrames > 0 && decide (slot + 1 < s.residentFrames) then
        s.framePages.set slot (s.framePages.get (s.residentFrames - 1))
      else s.framePages
    let residentFrames := s.residentFrames - 1
    { s with
      framePages
      residentFrames
      -- The hand stays among the frames in use.
      clockHand := if residentFrames = 0 ∨ s.clockHand ≥ residentFrames then 0 else s.clockHand }

/-- The part of `pager_unregister_page` for a page in memory. -/
def releaseFrame (i : Nat) (pageDirectoryPhys : UInt32) : Pager :=
  -- The frame goes first, then the entry in the tables, then the memory.
  let s := dropFrame s i
  let unmapped := vmmUnmapPageInDirectory pageDirectoryPhys (s.pages.get i).virtAddr s.toVmm
  { s with toVmm := unmapped.free (s.pages.get i).physAddr }

/-- The last part of `pager_unregister_page`: an entry that is not in use any more. -/
def clearEntry (i : Nat) : Pager :=
  -- The entry keeps its place on the disk.
  let s := s.setPage i { freshPage i with swapSlot := (s.pages.get i).swapSlot }
  { s with registeredPages := s.registeredPages - 1 }

/-- `pager_unregister_page`: give a page up, with the frame it may be in. -/
def pagerUnregisterPage (pageDirectoryPhys virtAddr : UInt32) : Pager :=
  if !s.pagerReady || pageDirectoryPhys == 0 then s
  else
    -- The page is looked up before anything is given up.
    match s.findPageByVirt pageDirectoryPhys virtAddr with
    | none => s
    | some i =>
      clearEntry (if (s.pages.get i).present then releaseFrame s i pageDirectoryPhys else s) i

/-- `pager_handle_page_fault`: bring the page of an address of the current space into memory. -/
def pagerHandlePageFault (faultAddr errCode : UInt32) : Bool × Pager :=
  -- A fault on a page that is there is a matter of rights, and not for the pager.
  if !s.pagerReady || errCode &&& 0x01 != 0 then (false, s)
  else
    match s.findPageByVirt s.currentPageDirectoryPhys faultAddr with
    -- A page nobody registered is not brought in.
    | none => (false, s)
    -- A page that is in memory already needs no service.
    | some i => if (s.pages.get i).present then (true, s) else s.pageIn i

end Calls

end MyOS.Mm
