import MyOS.Kernel.System
import MyOS.Mm.PagerContents

/-!
Memory as each process has a right to expect it: what it was born with, and what it wrote since.

Beside it stands what the machine really holds for a process, in frames and on the disk.
-/

namespace MyOS.Kernel

open MyOS.Mm

/-- The memory of the process in each slot: the bytes at the addresses that it has. -/
abbrev Memories := Nat → UInt32 → Option UInt8

/-- Whether two addresses lie in one page. -/
def samePage (first second : UInt32) : Bool := first.toNat / 4096 == second.toNat / 4096

section Real

variable (m : MemDemo)

/-- The byte at an address of a space whose page is registered with the pager. -/
def MemDemo.pagedByte (dir virtAddr : UInt32) : Option UInt8 :=
  (m.findPageByVirt dir virtAddr).map fun j => m.toPager.byteAt j (virtAddr.toNat % 4096)

/-- Whether a slot of the demonstration has a page at an address of a space. -/
def MemDemo.lends (dir virtAddr : UInt32) (k : Nat) : Bool :=
  (m.slots.get k).allocated && (m.slots.get k).pageDirectoryPhys == dir && samePage virtAddr (slotVirt k)

/-- Whether any slot has. -/
def MemDemo.lent (dir virtAddr : UInt32) : Bool :=
  (List.range memdemoPageCount).any (m.lends dir virtAddr)

/-- The byte at an address of a space whose page is that of a slot. -/
def MemDemo.lentByte (dir virtAddr : UInt32) : Option UInt8 :=
  ((List.range memdemoPageCount).find? (m.lends dir virtAddr)).map fun k =>
    m.memory ((m.slots.get k).physAddr.toNat + virtAddr.toNat % 4096)

/-- The byte that the machine holds at an address of a space. -/
def MemDemo.byteIn (dir virtAddr : UInt32) : Option UInt8 :=
  (m.pagedByte dir virtAddr).or (m.lentByte dir virtAddr)

/-- The byte that the machine holds at an address of the process in a slot. -/
def KernelState.byteOf (s : KernelState) (i : Nat) (virtAddr : UInt32) : Option UInt8 :=
  s.byteIn (s.processes.get i).pageDirectoryPhys virtAddr

/-- Whether an address lies in a page that a process asked for. -/
def Process.asked (p : Process) (virtAddr : UInt32) : Bool :=
  (List.range processUserVmPageCount).any fun k =>
    p.vmPageBitmap &&& (1 <<< UInt32.ofNat k) != 0 &&
      samePage virtAddr (processUserVmBase + UInt32.ofNat k * pageSize)

/-- Whether an address lies in a page that a process was given after it was made. -/
def KernelState.grants (s : KernelState) (i : Nat) (virtAddr : UInt32) : Bool :=
  -- Either it asked for the page, or the demonstration lent it one.
  (s.processes.get i).asked virtAddr || s.lent (s.processes.get i).pageDirectoryPhys virtAddr

end Real

section Ghost

/-- What a process finds when it is made: its image at the start of its code, and zeros. -/
def bornMemory (image : Nat → UInt8) (imageSize : Nat) (virtAddr : UInt32) : Option UInt8 :=
  if samePage virtAddr processUserCodeBase then
    some (if virtAddr.toNat % 4096 < imageSize then image (virtAddr.toNat % 4096) else 0)
  else if samePage virtAddr processUserStackPage then some 0
  else none

variable (builtin : UInt32 → Option (List UInt8))

/-- The image of the process that an act may make. -/
def bornImage : Act → Option ((Nat → UInt8) × Nat)
  | .event (.spawn _ (some image) imageSize _) => some (image, imageSize)
  | .event (.syscall frame) =>
    -- A process makes a child by the number of a program.
    (builtin frame.ebx).map fun image => (fun k => image.getD k 0, image.length)
  | _ => none

/-- What becomes of a byte when its page is given or taken back. -/
def regranted (before after : Bool) (byte : Option UInt8) : Option UInt8 :=
  -- A page that is given holds zeros, and one that is taken back is there no more.
  if after && !before then some 0 else if before && !after then none else byte

/-- The byte that an act writes at an address of the process in a slot. -/
def writtenByte (m : Machine) (act : Act) (i : Nat) (virtAddr : UInt32) : Option UInt8 :=
  match m.mode, act with
  | .user slot _, .event (.write target value) =>
    -- Only a write that goes through writes anything, and only for the process that runs.
    match (userWrite m.kernel.currentPageDirectoryPhys target value m.kernel.toVmm).1 with
    | .ok () => if slot = i ∧ target = virtAddr then some value else none
    | .error _ => none
  | _, _ => none

/-- What an act does to the memory of the processes, by what it does to the tables of the kernel. -/
def memoriesStep (before : Machine) (act : Act) (after : Machine) (memories : Memories) : Memories :=
  fun i virtAddr =>
    -- Memory ends with its process, and begins with it.
    if !(after.kernel.processes.get i).used then none
    else if !(before.kernel.processes.get i).used then
      (bornImage builtin act).bind fun image => bornMemory image.1 image.2 virtAddr
    else
      regranted (before.kernel.grants i virtAddr) (after.kernel.grants i virtAddr)
        ((writtenByte before act i virtAddr).or (memories i virtAddr))

/-- The memory of the processes after a whole run, with the machine. -/
def memoriesRun (m : Machine) (memories : Memories) : List Act → Memories
  | [] => memories
  | act :: acts =>
    let after := systemStep builtin m act
    memoriesRun after (memoriesStep builtin m act after memories) acts

end Ghost

end MyOS.Kernel
