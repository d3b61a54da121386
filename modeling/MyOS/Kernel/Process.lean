import MyOS.Kernel.Banker
import MyOS.Kernel.Memdemo

/-! Processes: the table, how they come to be, run and end, and which one runs next. -/

namespace MyOS.Kernel

open MyOS.Mm

/-- How many processes there can be. -/
def processMax : Nat := 8

/-- How many bytes of code a process can have. -/
def processImageMax : Nat := 4096

/-- Where the code of a process begins. -/
def processUserCodeBase : UInt32 := 0x00800000

/-- Where the stack of a process begins, growing downwards. -/
def processUserStackTop : UInt32 := 0xBFFF0000

/-- The page the stack of a process lies in. -/
def processUserStackPage : UInt32 := processUserStackTop - pageSize

/-- Where the pages begin that a process asks for. -/
def processUserVmBase : UInt32 := 0x03000000

/-- How many pages a process can ask for. -/
def processUserVmPageCount : Nat := 24

/-- The priority of a process nobody gave one. -/
def processPriorityDefault : Int := 5

/-- The least priority a process can have. -/
def processPriorityMin : Int := 0

/-- The greatest priority a process can have. -/
def processPriorityMax : Int := 10

/-- What a process is doing. -/
inductive ProcessState where
  | unused
  | ready
  | running
  | waiting
  | zombie
  deriving Inhabited, DecidableEq

/-- The registers with which a process goes on. -/
structure UserContext where
  eip : UInt32
  userEsp : UInt32
  eflags : UInt32
  eax : UInt32
  ebx : UInt32
  ecx : UInt32
  edx : UInt32
  esi : UInt32
  edi : UInt32
  ebp : UInt32
  deriving Inhabited, DecidableEq

/-- The registers as the entry code of an interrupt leaves them on the stack. -/
structure InterruptFrame where
  gs : UInt32
  fs : UInt32
  es : UInt32
  ds : UInt32
  edi : UInt32
  esi : UInt32
  ebp : UInt32
  esp : UInt32
  ebx : UInt32
  edx : UInt32
  ecx : UInt32
  eax : UInt32
  intNo : UInt32
  errCode : UInt32
  eip : UInt32
  cs : UInt32
  eflags : UInt32
  useresp : UInt32
  ss : UInt32
  deriving Inhabited, DecidableEq

/-- A slot of the process table. -/
structure Process where
  used : Bool
  pid : Int
  /-- The process that made this one, or `0` for the shell and for orphans. -/
  parentPid : Int
  state : ProcessState
  priority : Int
  context : UserContext
  pageDirectoryPhys : UInt32
  vmPageBitmap : UInt32
  exitCode : UInt32
  imageSize : Nat
  deriving Inhabited, DecidableEq

/-- The whole kernel: memory, the disk, the banker and the static variables of processes. -/
structure KernelState extends MemDemo where
  banker : Banker
  processes : FixedArray 8 Process
  nextPid : Int
  /-- The process that runs, or `0`. -/
  currentPid : Int
  scheduleCursor : Nat

/-- The value of a signed 32-bit variable, which wraps around. -/
def wrapInt (value : Int) : Int := (value + 2 ^ 31) % 2 ^ 32 - 2 ^ 31

/-- The registers with which a process begins. -/
def initialContext : UserContext :=
  -- The flags are `0x202`: interrupts are on when the program begins.
  ⟨processUserCodeBase, processUserStackTop, 0x202, 0, 0, 0, 0, 0, 0, 0⟩

namespace KernelState

variable (s : KernelState)

/-- Replace a slot of the process table. -/
def setProcess (i : Nat) (process : Process) : KernelState :=
  { s with processes := s.processes.set i process }

/-- Replace everything but the process table and the banker. -/
def withMemDemo (memDemo : MemDemo) : KernelState := { s with toMemDemo := memDemo }

/-- Replace memory, the disk and what the pager knows about them. -/
def withPager (pager : Pager) : KernelState := s.withMemDemo { s.toMemDemo with toPager := pager }

/-- Replace memory and what the virtual memory manager knows about it. -/
def withVmm (vmm : Vmm) : KernelState := s.withPager { s.toPager with toVmm := vmm }

/-- `find_process_by_pid`: the first slot in use of a process. -/
def findProcessByPid (pid : Int) : Option Nat :=
  (List.range processMax).find? fun i => (s.processes.get i).used && (s.processes.get i).pid == pid

/-- What `allocate_process` fills a slot with. -/
def freshProcess (pid : Int) : Process where
  used := true
  pid := pid
  parentPid := 0
  state := .ready
  priority := processPriorityDefault
  context := initialContext
  pageDirectoryPhys := 0
  vmPageBitmap := 0
  exitCode := 0
  imageSize := 0

/-- `allocate_process`: the first slot that is not in use, with the next number. -/
def allocateProcess : Option Nat × KernelState :=
  match (List.range processMax).find? fun i => !(s.processes.get i).used with
  -- A table without a free slot uses up no number.
  | none => (none, s)
  | some i =>
    -- The counter of numbers is a signed variable, which nothing keeps from wrapping around.
    (some i, { s.setProcess i (freshProcess s.nextPid) with nextPid := wrapInt (s.nextPid + 1) })

/-- `parent_pid_is_valid`: the shell, or a process that has not ended. -/
def parentPidIsValid (parentPid : Int) : Bool :=
  -- The shell counts as a parent, though it is no process.
  parentPid == 0 ||
    match s.findProcessByPid parentPid with
    | none => false
    | some i => (s.processes.get i).state != .zombie

/-- One round of the loop of `adopt_children`. -/
def adoptChild (parentPid : Int) (s : KernelState) (i : Nat) : KernelState :=
  if (s.processes.get i).used && (s.processes.get i).parentPid == parentPid then
    s.setProcess i { s.processes.get i with parentPid := 0 }
  else s

/-- `adopt_children`: the children of a process become orphans. -/
def adoptChildren (parentPid : Int) : KernelState :=
  -- Orphans have the parent `0` already, and stay with the shell.
  if parentPid == 0 then s else (List.range processMax).foldl (adoptChild parentPid) s

/-- Give up a slot that could not be filled. -/
def abandonProcess (i : Nat) : KernelState :=
  s.setProcess i { s.processes.get i with used := false, state := .unused }

/-- `vmm_destroy_address_space` for the space of a slot. -/
def destroySpace (i : Nat) : KernelState :=
  s.withVmm (vmmDestroyAddressSpace (s.processes.get i).pageDirectoryPhys s.toVmm)

/-- `pager_pin_page_in_directory` for a page of a slot. -/
def pinPage (i : Nat) (virtAddr : UInt32) : KernelState :=
  s.withPager (pagerPinPageInDirectory s.toPager (s.processes.get i).pageDirectoryPhys virtAddr true).2

/-- The last part of a spawn: register the stack, and pin it. -/
def spawnStack (i : Nat) : Int × KernelState :=
  match pagerRegisterPageInDirectory s.toPager (s.processes.get i).pageDirectoryPhys
    processUserStackPage (vmmPageWritable ||| vmmPageUser) with
  | (false, pager) =>
    -- The stack found no page: what the parts before have made is given up again.
    let s := s.withPager pager
    let s := s.withMemDemo
      (memdemoReleaseForDirectory s.toMemDemo (s.processes.get i).pageDirectoryPhys)
    let s := s.withPager
      (pagerUnregisterPage s.toPager (s.processes.get i).pageDirectoryPhys processUserCodeBase)
    (0, (s.destroySpace i).abandonProcess i)
  | (true, pager) =>
    -- The answer of the pin is not looked at.
    let s := (s.withPager pager).pinPage i processUserStackPage
    ((s.processes.get i).pid, s)

/-- The middle part of a spawn: register the code, and pin it. -/
def spawnCode (i : Nat) (image : Nat → UInt8) (imageSize : Nat) : Int × KernelState :=
  match pagerRegisterPageData s.toPager (s.processes.get i).pageDirectoryPhys processUserCodeBase
    vmmPageUser (some image) imageSize with
  -- The code found no page: only the address space has been made so far.
  | (false, pager) => (0, ((s.withPager pager).destroySpace i).abandonProcess i)
  | (true, pager) => ((s.withPager pager).pinPage i processUserCodeBase).spawnStack i

/-- The part of a spawn that makes the address space. -/
def spawnSpace (i : Nat) (image : Nat → UInt8) (imageSize : Nat) : Int × KernelState :=
  match vmmCreateAddressSpace s.toVmm with
  -- Without an address space there is nothing to give up but the slot.
  | (none, vmm) => (0, (s.withVmm vmm).abandonProcess i)
  | (some pageDirectoryPhys, vmm) =>
    let s := s.withVmm vmm
    -- The slot has its directory before the code is registered under it.
    let s := s.setProcess i { s.processes.get i with pageDirectoryPhys := pageDirectoryPhys }
    s.spawnCode i image imageSize

end KernelState

section Calls

variable (s : KernelState)

/-- `process_spawn_child_from_buffer_with_priority`: make a process, and give its number or `0`. -/
def processSpawnChildFromBufferWithPriority (parentPid : Int) (image : Option (Nat → UInt8))
    (imageSize : Nat) (priority : Int) : Int × KernelState :=
  match image with
  -- Every check comes before the first change, so a bad request costs nothing.
  | none => (0, s)
  | some image =>
    if imageSize = 0 ∨ imageSize > processImageMax ∨ s.parentPidIsValid parentPid = false ∨
        priority < processPriorityMin ∨ priority > processPriorityMax then (0, s)
    else
      match s.allocateProcess with
      -- A full table is found out before anything is filled in.
      | (none, s) => (0, s)
      | (some i, s) =>
        let s := s.setProcess i { s.processes.get i with
          parentPid := parentPid
          priority := priority
          imageSize := imageSize }
        s.spawnSpace i image imageSize

/-- `process_spawn_child_from_buffer`: the same with the default priority. -/
def processSpawnChildFromBuffer (parentPid : Int) (image : Option (Nat → UInt8)) (imageSize : Nat) :
    Int × KernelState :=
  processSpawnChildFromBufferWithPriority s parentPid image imageSize processPriorityDefault

/--
`process_spawn_builtin_child_for_current`: the process that runs makes a child.

The programs built into the kernel are given by their number, each with its image.
-/
def processSpawnBuiltinChildForCurrent (builtin : UInt32 → Option (List UInt8)) (appId : UInt32) :
    Int × KernelState :=
  -- The shell does not run as a process, and makes its children through the other call.
  if s.currentPid == 0 then (0, s)
  else
    match s.findProcessByPid s.currentPid with
    | none => (0, s)
    | some parent =>
      if (s.processes.get parent).state != .running then (0, s)
      else
        -- A number that names no program makes no child.
        match builtin appId with
        | none => (0, s)
        | some image =>
          processSpawnChildFromBuffer s s.currentPid (some fun k => image.getD k 0) image.length

/-- `process_vm_alloc_page`: give the process that runs one more page. -/
def processVmAllocPage (pageIndex : UInt32) : UInt32 × KernelState :=
  -- The index is checked before it becomes a bit of the map below.
  if s.currentPid == 0 || decide (pageIndex.toNat ≥ processUserVmPageCount) then (0, s)
  else
    match s.findProcessByPid s.currentPid with
    | none => (0, s)
    | some i =>
      if (s.processes.get i).state != .running then (0, s)
      else
        let virtAddr := processUserVmBase + pageIndex * pageSize
        let bit : UInt32 := 1 <<< pageIndex
        -- A page the process has already is given again, and costs nothing.
        if (s.processes.get i).vmPageBitmap &&& bit != 0 then (virtAddr, s)
        else
          match pagerRegisterPageInDirectory s.toPager (s.processes.get i).pageDirectoryPhys virtAddr
            (vmmPageWritable ||| vmmPageUser) with
          -- The pager has no room: the map of pages stays as it is.
          | (false, pager) => (0, s.withPager pager)
          | (true, pager) =>
            let s := s.withPager pager
            (virtAddr, s.setProcess i { s.processes.get i with
              vmPageBitmap := (s.processes.get i).vmPageBitmap ||| bit })

/-- The first half of `process_run`, up to the entry into user mode. -/
def processEnter (pid : Int) : Option Nat × KernelState :=
  match s.findProcessByPid pid with
  -- A number that names no process changes nothing.
  | none => (none, s)
  | some i =>
    if (s.processes.get i).state != .ready then (none, s)
    else
      match vmmSwitchPageDirectory (s.processes.get i).pageDirectoryPhys s.toVmm with
      -- A directory that cannot be switched to leaves the process ready.
      | (false, vmm) => (none, s.withVmm vmm)
      | (true, vmm) =>
        let s := s.withVmm vmm
        -- The number is set before the state, with nothing in between that could fail.
        let s := { s with currentPid := (s.processes.get i).pid }
        (some i, s.setProcess i { s.processes.get i with state := .running })

/-- What user mode returns for a process that goes on later. -/
def usermodeReturnYield : UInt32 := 0xFFFFFFFE

/-- The second half of `process_run`, from the return from user mode on. -/
def processLeave (i : Nat) (result : UInt32) : KernelState :=
  -- The kernel runs in its own space from here on, whatever the process did.
  let s := s.withVmm (vmmSwitchPageDirectory s.kernelPageDirectoryPhys s.toVmm).2
  let s :=
    if result == usermodeReturnYield then
      -- A process that gave way goes on later, from the registers saved before.
      s.setProcess i { s.processes.get i with state := .ready }
    else
      -- Every other result ends the process, and its children become orphans.
      let s := s.setProcess i { s.processes.get i with exitCode := result, state := .zombie }
      s.adoptChildren (s.processes.get i).pid
  { s with currentPid := 0 }

/-- The part of `release_process` that gives up the memory of a process. -/
def releaseMemory (i : Nat) : KernelState :=
  let directory := (s.processes.get i).pageDirectoryPhys
  -- A slot without a directory never came to have memory.
  if directory == 0 then s
  else
    -- The demonstration lets go of its pages first, then the pager of those it registered.
    let s := s.withMemDemo (memdemoReleaseForDirectory s.toMemDemo directory)
    let s := s.withPager (pagerUnregisterPage s.toPager directory processUserCodeBase)
    let s := s.withPager (pagerUnregisterPage s.toPager directory processUserStackPage)
    -- Only the pages the process asked for have their bit in the map.
    let s := (List.range processUserVmPageCount).foldl (fun s k =>
      if (s.processes.get i).vmPageBitmap &&& (1 <<< UInt32.ofNat k) != 0 then
        s.withPager
          (pagerUnregisterPage s.toPager directory (processUserVmBase + UInt32.ofNat k * pageSize))
      else s) s
    -- The tables and the directory go last, when no page is in them any more.
    s.withVmm (vmmDestroyAddressSpace directory s.toVmm)

/-- A slot that is not in use. -/
def emptyProcess : Process where
  used := false
  pid := 0
  parentPid := 0
  state := .unused
  priority := processPriorityDefault
  context := ⟨0, 0, 0, 0, 0, 0, 0, 0, 0, 0⟩
  pageDirectoryPhys := 0
  vmPageBitmap := 0
  exitCode := 0
  imageSize := 0

/-- `release_process`: give up a process that does not run. -/
def releaseProcess (i : Nat) : KernelState :=
  -- A process that runs is left alone, and so is an empty slot.
  if !(s.processes.get i).used || (s.processes.get i).state == .running then s
  else
    let pid := (s.processes.get i).pid
    -- The number is kept, for the slot is cleared at the end.
    let s := s.adoptChildren pid
    let s := { s with banker := bankerUnregisterProcess pid s.banker }
    (releaseMemory s i).setProcess i emptyProcess

/-- `process_init`: start with no process. -/
def processInit : KernelState :=
  -- The memory of old slots is not looked at: at the start there is none.
  { s with
    processes := FixedArray.ofFn fun i => { s.processes.get i with
      used := false
      pid := 0
      parentPid := 0
      state := .unused
      priority := processPriorityDefault
      vmPageBitmap := 0 }
    nextPid := 1
    currentPid := 0
    scheduleCursor := 0 }

/-- The best slot so far of `select_next_ready_process`, with its priority. -/
structure Selection where
  selected : Option Nat
  bestPriority : Int

/-- One round of the loop of `select_next_ready_process`. -/
def selectStep (s : KernelState) (best : Selection) (offset : Nat) : Selection :=
  -- The search begins behind the slot chosen last, and goes around the table once.
  let i := (s.scheduleCursor + offset) % processMax
  if (s.processes.get i).used && (s.processes.get i).state == .ready &&
      decide ((s.processes.get i).priority > best.bestPriority) then
    ⟨some i, (s.processes.get i).priority⟩
  else best

/-- `select_next_ready_process`: the slot that runs next, if any is ready. -/
def selectNextReadyProcess : Option Nat :=
  -- Any priority a process can have is above the first bound.
  ((List.range processMax).foldl (selectStep s) ⟨none, processPriorityMin - 1⟩).selected

/-- `process_has_ready`: whether any process waits for its turn. -/
def processHasReady : Bool :=
  (List.range processMax).any fun i => (s.processes.get i).used && (s.processes.get i).state == .ready

/-- `process_save_yield_frame`: keep the registers of the process that runs. -/
def processSaveYieldFrame (frame : InterruptFrame) : KernelState :=
  -- Without a process that runs there is nowhere to keep registers.
  if s.currentPid == 0 then s
  else
    match s.findProcessByPid s.currentPid with
    | none => s
    | some i =>
      s.setProcess i { s.processes.get i with
        -- The segment registers and the number of the interrupt are not kept.
        context :=
          { eip := frame.eip
            userEsp := frame.useresp
            eflags := frame.eflags
            eax := frame.eax
            ebx := frame.ebx
            ecx := frame.ecx
            edx := frame.edx
            esi := frame.esi
            edi := frame.edi
            ebp := frame.ebp } }

/-- `process_set_priority`: change how soon a process runs. -/
def processSetPriority (pid priority : Int) : Bool × KernelState :=
  -- The bounds are checked before the number is looked up.
  if priority < processPriorityMin ∨ priority > processPriorityMax then (false, s)
  else
    match s.findProcessByPid pid with
    | none => (false, s)
    | some i =>
      -- A process that has ended has no turn to be sooner or later.
      if (s.processes.get i).state == .zombie then (false, s)
      else (true, s.setProcess i { s.processes.get i with priority := priority })

/-- What `process_wait_child` reports. -/
inductive WaitResult where
  | ok (waitedPid : Int) (exitCode : UInt32)
  | noChild
  | notExited
  | badParent
  deriving DecidableEq

/-- A child that `process_wait_child` looks at. -/
def isWaitedChild (parentPid childPid : Int) (i : Nat) : Bool :=
  (s.processes.get i).used && (s.processes.get i).parentPid == parentPid &&
    (childPid == 0 || (s.processes.get i).pid == childPid)

/-- `process_wait_child`: collect a child that has ended. -/
def processWaitChild (parentPid childPid : Int) : WaitResult × KernelState :=
  -- The shell may always wait, and a parent must be in the table.
  if parentPid != 0 && (s.findProcessByPid parentPid).isNone then (.badParent, s)
  else
    match (List.range processMax).find? fun i =>
      isWaitedChild s parentPid childPid i && (s.processes.get i).state == .zombie with
    | none =>
      -- A child that has not ended makes the difference between waiting and nothing to wait for.
      if (List.range processMax).any (isWaitedChild s parentPid childPid) then (.notExited, s)
      else (.noChild, s)
    -- The answer is read off the slot before it is given up.
    | some i => (.ok (s.processes.get i).pid (s.processes.get i).exitCode, releaseProcess s i)

/-- What `process_kill` reports. -/
inductive KillResult where
  | ok
  | notFound
  | running
  deriving DecidableEq

/-- `process_kill`: give up a process that does not run. -/
def processKill (pid : Int) : KillResult × KernelState :=
  match s.findProcessByPid pid with
  | none => (.notFound, s)
  | some i =>
    if (s.processes.get i).state == .running then (.running, s) else (.ok, releaseProcess s i)

/-- One round of the loop of `process_reap_zombies`. -/
def reapStep (s : KernelState) (i : Nat) : KernelState :=
  if (s.processes.get i).used && (s.processes.get i).state == .zombie &&
      (s.processes.get i).parentPid == 0 then releaseProcess s i
  else s

/-- `process_reap_zombies`: give up every orphan that has ended. -/
def processReapZombies : KernelState := (List.range processMax).foldl reapStep s

end Calls

end MyOS.Kernel
