import MyOS.Fs.Files
import MyOS.Mm.Pager

/-! The memory demonstration: pages that a program asks for one by one, and a record of them. -/

namespace MyOS.Kernel

open MyOS.Mm MyOS.Fs

/-- How many pages the demonstration has. -/
def memdemoPageCount : Nat := 8

/-- How many events its record holds. -/
def memdemoEventCount : Nat := 8

/-- Where the pages appear in a program's address space. -/
def memdemoUserBase : UInt32 := 0x02000000

/-- The operation that gives a program a page. -/
def memdemoOpAlloc : UInt32 := 1

/-- The operation that takes a page back. -/
def memdemoOpFree : UInt32 := 2

/-- The operation that only records a page. -/
def memdemoOpTouch : UInt32 := 3

/-- A page that a program may have been given. -/
structure MemDemoSlot where
  allocated : Bool
  pageDirectoryPhys : UInt32
  virtAddr : UInt32
  physAddr : UInt32
  deriving Inhabited, DecidableEq

/-- What happened to a page. -/
structure MemDemoEvent where
  sequence : UInt32
  op : UInt32
  page : UInt32
  virtAddr : UInt32
  physAddr : UInt32
  activePages : UInt32
  pmmUsedPages : UInt32
  pmmFreePages : UInt32
  valid : Bool
  reported : Bool
  deriving Inhabited, DecidableEq

/-- Memory, the disk with its files and the static variables of the demonstration. -/
structure MemDemo extends Pager where
  /-- The file system. Its disk is the one the pager swaps to. -/
  files : SimpleFs
  slots : FixedArray 8 MemDemoSlot
  events : FixedArray 8 MemDemoEvent
  activePages : UInt32
  sequence : Nat

/-- A slot without a page. -/
def emptySlot : MemDemoSlot := ⟨false, 0, 0, 0⟩

/-- An event that did not happen. -/
def emptyEvent : MemDemoEvent := ⟨0, 0, 0, 0, 0, 0, 0, 0, false, false⟩

/-- `slot_virt`: where the page of a slot appears. -/
def slotVirt (page : Nat) : UInt32 := memdemoUserBase + UInt32.ofNat page * pageSize

namespace MemDemo

variable (s : MemDemo)

/-- Replace memory and what the virtual memory manager knows about it. -/
def withVmm (vmm : Vmm) : MemDemo := { s with toPager := { s.toPager with toVmm := vmm } }

/-- `clear_slot` -/
def clearSlot (page : Nat) : MemDemo := { s with slots := s.slots.set page emptySlot }

/-- `free_slot`: take the page of a slot back from its program. -/
def freeSlot (page : Nat) : MemDemo :=
  let slot := s.slots.get page
  -- An empty slot has nothing to take back.
  if !slot.allocated then s
  else
    -- The page leaves the space it was given to, not the current one.
    let unmapped := vmmUnmapPageInDirectory slot.pageDirectoryPhys slot.virtAddr s.toVmm
    let s := (s.withVmm (unmapped.free slot.physAddr)).clearSlot page
    -- The counter stops at zero.
    { s with activePages := if s.activePages > 0 then s.activePages - 1 else s.activePages }

/-- `record_event`: enter an event, as long as there is room. -/
def recordEvent (op : UInt32) (page : Nat) (virtAddr physAddr : UInt32) : Bool × MemDemo :=
  -- The record is never overwritten: only a reset makes room.
  if s.sequence ≥ memdemoEventCount then (false, s)
  else
    -- The numbers of memory are those after the operation.
    let event : MemDemoEvent :=
      { sequence := UInt32.ofNat (s.sequence + 1), op, page := UInt32.ofNat page, virtAddr, physAddr
        activePages := s.activePages
        pmmUsedPages := pmmGetUsedPages s.toPmm
        pmmFreePages := s.freePages
        valid := true
        reported := false }
    (true, { s with events := s.events.set s.sequence event, sequence := s.sequence + 1 })

end MemDemo

/-- The bytes of a text. -/
def textBytes (text : String) : List UInt8 := text.toList.map fun c => UInt8.ofNat c.toNat

/-- The name of the file with the record. -/
def memdemoLogName : CString :=
  ⟨[109, 101, 109, 100, 101, 109, 111, 46, 108, 111, 103], by decide⟩

/-- The first lines of the file with the record. -/
def memdemoLogHeader : List UInt8 :=
  textBytes ("MyOS real memory demo log\n" ++
    "page_size=4096 bytes, each ALLOC maps a real PMM page into user space\n")

/-- `append_hex32`: a word as eight digits. -/
def hexBytes (value : UInt32) : List UInt8 :=
  -- The digits go from the highest four bits down to the lowest.
  textBytes "0x" ++ (List.range 8).map fun k =>
    (textBytes "0123456789ABCDEF").getD ((value >>> UInt32.ofNat (28 - 4 * k)) &&& 0xF).toNat 0

/-- `append_dec`: a word as a decimal number. -/
def decBytes (value : UInt32) : List UInt8 := textBytes (Nat.repr value.toNat)

/-- `op_name` -/
def opName (op : UInt32) : String :=
  if op == memdemoOpAlloc then "ALLOC"
  else if op == memdemoOpFree then "FREE"
  else if op == memdemoOpTouch then "TOUCH"
  else "UNKNOWN"

/-- `build_event_line`: an event as a line of text, cut off where the buffer ends. -/
def buildEventLine (event : MemDemoEvent) : List UInt8 :=
  -- The parts of the line, each with the word in front of it.
  (textBytes "seq=" ++ decBytes event.sequence ++ textBytes " op=" ++ textBytes (opName event.op) ++
    textBytes " slot=" ++ decBytes event.page ++ textBytes " virt=" ++ hexBytes event.virtAddr ++
    textBytes " phys=" ++ hexBytes event.physAddr ++ textBytes " active=" ++
    decBytes event.activePages ++ textBytes "/" ++ decBytes 8 ++ textBytes " pmm_used=" ++
    decBytes event.pmmUsedPages ++ textBytes " pmm_free=" ++ decBytes event.pmmFreePages).take 159

section Calls

variable (s : MemDemo)

/-- A call on the file system, whose disk is the one the pager swaps to. -/
def withFiles (call : SimpleFs → Bool × SimpleFs) : MemDemo :=
  -- Without a volume the record is kept in memory only.
  if s.files.fsMounted then
    match call { s.files with ata := s.disk } with
    -- Whether the call succeeded is not looked at.
    | (_, files) => { s with files := files, disk := files.ata }
  else s

/-- Write bytes to the file with the record, as one of the two calls that do so. -/
def logBytes (call : CString → (Nat → UInt8) → Nat → SimpleFs → Bool × SimpleFs) (bytes : List UInt8) :
    MemDemo :=
  withFiles s (call memdemoLogName (fun k => bytes.getD k 0) bytes.length)

/-- `memdemo_reset`: take all pages back and start the record anew. -/
def memdemoReset : MemDemo :=
  -- Slots are cleared even if they held nothing.
  let s := (List.range memdemoPageCount).foldl (fun s i => (s.freeSlot i).clearSlot i) s
  let s := { s with events := FixedArray.fill emptyEvent, activePages := 0, sequence := 0 }
  logBytes s simplefsWriteFile memdemoLogHeader

/-- The first part of `memdemo_apply_op` for `ALLOC`: give the slot a page, unless it has one. -/
def allocSlot (page : Nat) : Bool × MemDemo :=
  -- A slot keeps its page, whatever space it was given in.
  if (s.slots.get page).allocated then (true, s)
  else
    match s.toVmm.alloc with
    | (physAddr, vmm) =>
      -- There is no page left, and nothing to undo.
      if physAddr == 0 then (false, s.withVmm vmm)
      else
        match vmmMapPageInDirectory s.currentPageDirectoryPhys (slotVirt page) physAddr
          (vmmPageWritable ||| vmmPageUser) (vmm.clearPage physAddr) with
        -- The page cannot be mapped, and goes back.
        | (false, vmm) => (false, s.withVmm (vmm.free physAddr))
        | (true, vmm) =>
          -- The slot remembers the space it was given in.
          let slot : MemDemoSlot := ⟨true, s.currentPageDirectoryPhys, slotVirt page, physAddr⟩
          (true, { s.withVmm vmm with
            slots := s.slots.set page slot
            activePages := s.activePages + 1 })

/-- `memdemo_apply_op`: do something to a page of the current program, and record it. -/
def memdemoApplyOp (op page : UInt32) : UInt32 × MemDemo :=
  let i := page.toNat
  -- A full record stops every operation, before it does anything.
  if i ≥ memdemoPageCount ∨ s.sequence ≥ memdemoEventCount then (0, s)
  else if op == memdemoOpAlloc then
    -- The page is given first, and recorded then.
    match allocSlot s i with
    | (false, s) => (0, s)
    | (true, s) =>
      match s.recordEvent op i (s.slots.get i).virtAddr (s.slots.get i).physAddr with
      | (false, s) => (0, s)
      | (true, s) => ((s.slots.get i).virtAddr, s)
  else if op == memdemoOpTouch then
    -- A page that was not given cannot be touched.
    if !(s.slots.get i).allocated then (0, s)
    else
      match s.recordEvent op i (s.slots.get i).virtAddr (s.slots.get i).physAddr with
      | (false, s) => (0, s)
      | (true, s) => ((s.slots.get i).virtAddr, s)
  else if op == memdemoOpFree then
    -- A page that was not given cannot be taken back.
    if !(s.slots.get i).allocated then (0, s)
    else
      -- The address is kept, for the slot is cleared by then.
      let physAddr := (s.slots.get i).physAddr
      match (s.freeSlot i).recordEvent op i (slotVirt i) physAddr with
      | (false, s) => (0, s)
      | (true, s) => (1, s)
  -- A number that names no operation.
  else (0, s)

/-- `memdemo_report_event`: add an event to the file with the record, once. -/
def memdemoReportEvent (requestedSequence : UInt32) : UInt32 × MemDemo :=
  let i := requestedSequence.toNat
  -- Events are counted from one.
  if i = 0 ∨ i > memdemoEventCount then (0, s)
  else
    let event := s.events.get (i - 1)
    if !event.valid then (0, s)
    -- An event goes to the file once.
    else if event.reported then (1, s)
    else
      -- The line ends in a line feed, and the buffer has room for both.
      let line := (buildEventLine event ++ textBytes "\n").take 163
      let s := logBytes s simplefsAppendFile line
      -- The event counts as reported whether or not the file was written.
      (1, { s with events := s.events.set (i - 1) { event with reported := true } })

/-- `memdemo_release_for_directory`: take back the pages of a program that goes away. -/
def memdemoReleaseForDirectory (pageDirectoryPhys : UInt32) : MemDemo :=
  (List.range memdemoPageCount).foldl (fun s i =>
    -- Only the slots given in this space.
    if (s.slots.get i).allocated && (s.slots.get i).pageDirectoryPhys == pageDirectoryPhys then
      s.freeSlot i
    else s) s

end Calls

end MyOS.Kernel
