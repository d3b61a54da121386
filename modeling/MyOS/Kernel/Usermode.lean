import MyOS.Lib.Run
import MyOS.Kernel.Process
import MyOS.Mm.Mmu

/-!
User mode: how a process is entered and left, and the system calls it makes.

While a process runs the kernel acts only when the processor hands control to it: for a system
call, for a page that is not there, or for the clock.
-/

namespace MyOS.Kernel

open MyOS.Mm

/-- Puts a text on the console. -/
def sysWrite : UInt32 := 1

/-- Ends the process. -/
def sysExit : UInt32 := 2

/-- Gives the processor to the next process. -/
def sysYield : UInt32 := 3

/-- Does something to a page of the demonstration. -/
def sysMemdemoOp : UInt32 := 4

/-- Adds an event of the demonstration to its file. -/
def sysMemdemoReport : UInt32 := 5

/-- Starts the demonstration anew. -/
def sysMemdemoReset : UInt32 := 6

/-- Asks for one more page. -/
def sysVmAlloc : UInt32 := 7

/-- Counts the pages accessed so far. -/
def sysVmSample : UInt32 := 8

/-- Forgets the latest victims. -/
def sysPagerTraceReset : UInt32 := 9

/-- Makes a child that runs a program of the kernel. -/
def sysSpawnApp : UInt32 := 10

/-- The words of a context in the order of its fields, as they lie in memory. -/
def UserContext.words (context : UserContext) : List UInt32 :=
  -- The order is that of the fields of the structure.
  [context.eip, context.userEsp, context.eflags, context.eax, context.ebx, context.ecx, context.edx,
    context.esi, context.edi, context.ebp]

/-- The bytes of a context in memory. -/
def UserContext.bytes (context : UserContext) (k : Nat) : UInt8 :=
  -- Four bytes to a word, the lowest first.
  byteOf32 (context.words.getD (k / 4) 0) (k % 4)

/-- The registers of the processor that a process sees. -/
structure Registers where
  eip : UInt32
  esp : UInt32
  eflags : UInt32
  eax : UInt32
  ebx : UInt32
  ecx : UInt32
  edx : UInt32
  esi : UInt32
  edi : UInt32
  ebp : UInt32
  deriving DecidableEq

/-- Set in the flags of the processor while interrupts are let through. -/
def interruptFlag : UInt32 := 0x200

/-- `usermode_enter_context`: load the registers from a context, each from its own offset. -/
def usermodeEnterContext (context : Nat → UInt8) : Registers where
  -- The interrupt flag is raised, whatever the context says.
  eip := wordAt context 0
  esp := wordAt context 4
  eflags := wordAt context 8 ||| interruptFlag
  ebp := wordAt context 36
  ebx := wordAt context 16
  ecx := wordAt context 20
  edx := wordAt context 24
  edi := wordAt context 32
  eax := wordAt context 12
  esi := wordAt context 28

/-- How a system call ends: back in the process, or in the kernel with a value. -/
inductive Outcome where
  | resume (frame : InterruptFrame)
  | leave (value : UInt32)

/--
`usermode_handle_syscall`: do what a process asks for.

What a process writes goes to the console and changes nothing here.
-/
def usermodeHandleSyscall (builtin : UInt32 → Option (List UInt8)) (frame : InterruptFrame)
    (s : KernelState) : Outcome × KernelState :=
  -- At most 512 characters are written, and the answer says how many.
  if frame.eax == sysWrite then
    (.resume { frame with eax := if frame.ecx > 512 then 512 else frame.ecx }, s)
  -- The process ends with the value it gives.
  else if frame.eax == sysExit then (.leave frame.ebx, s)
  -- The registers are kept for the time the process goes on.
  else if frame.eax == sysYield then (.leave usermodeReturnYield, processSaveYieldFrame s frame)
  else if frame.eax == sysMemdemoOp then
    -- The demonstration works on the current space.
    match memdemoApplyOp s.toMemDemo frame.ebx frame.ecx with
    | (result, memDemo) => (.resume { frame with eax := result }, s.withMemDemo memDemo)
  else if frame.eax == sysMemdemoReset then
    (.resume { frame with eax := 1 }, s.withMemDemo (memdemoReset s.toMemDemo))
  else if frame.eax == sysMemdemoReport then
    match memdemoReportEvent s.toMemDemo frame.ebx with
    | (result, memDemo) => (.resume { frame with eax := result }, s.withMemDemo memDemo)
  -- A page for the process itself, through the pager.
  else if frame.eax == sysVmAlloc then
    match processVmAllocPage s frame.ebx with
    | (result, s) => (.resume { frame with eax := result }, s)
  else if frame.eax == sysVmSample then
    -- Only the choice by use looks at the accesses.
    (.resume { frame with eax := 1 },
      if s.currentAlgorithm = .lru then s.withPager (pagerSampleUsage s.toPager) else s)
  else if frame.eax == sysPagerTraceReset then
    (.resume { frame with eax := 1 }, s.withPager (pagerClearVictimTrace s.toPager))
  else if frame.eax == sysSpawnApp then
    -- The child is entered in the table, and runs when its turn comes.
    match processSpawnBuiltinChildForCurrent s builtin frame.ebx with
    | (pid, s) => (.resume { frame with eax := UInt32.ofInt pid }, s)
  -- A call there is not ends the process, with the number of the call.
  else (.leave frame.eax, s)

/-- `process_preempt_if_needed`: whether the clock takes the processor from a process. -/
def processPreemptIfNeeded (scheduleEvent : Bool) (frame : InterruptFrame) (s : KernelState) :
    Bool × KernelState :=
  -- The clock interrupts the kernel too, and there it takes nothing.
  if s.currentPid == 0 || frame.cs &&& 0x3 != 0x3 then (false, s)
  -- The slice is not over yet.
  else if !scheduleEvent then (false, s)
  -- Nobody waits for the processor.
  else if !processHasReady s then (false, s)
  else (true, processSaveYieldFrame s frame)

/-- Who has the processor. -/
inductive Mode where
  /-- The shell and the main loop of the kernel. -/
  | kernel
  /-- The process of a slot. If the scheduler runs it, the slot it selected is known too. -/
  | user (slot : Nat) (selected : Option Nat)
  /-- Nobody any more, after a page fault that nobody could resolve. -/
  | halted
  deriving DecidableEq

/-- The kernel with who has the processor. -/
structure Machine where
  kernel : KernelState
  mode : Mode

/-- What happens to the kernel. -/
inductive Event where
  | spawn (parentPid : Int) (image : Option (Nat → UInt8)) (imageSize : Nat) (priority : Int)
  | kill (pid : Int)
  | waitChild (parentPid childPid : Int)
  | reapZombies
  | setPriority (pid priority : Int)
  | scheduleAuto
  | runPid (pid : Int)
  | syscall (frame : InterruptFrame)
  | clock (scheduleEvent : Bool) (frame : InterruptFrame)
  | pageFault (faultAddr errCode : UInt32)
  | read (virtAddr : UInt32)
  | write (virtAddr : UInt32) (value : UInt8)

namespace Machine

variable (m : Machine)

/-- The processor goes to a process, if it can be entered. -/
def enter (pid : Int) (selected : Option Nat) : Machine :=
  match processEnter m.kernel pid with
  -- A process that cannot be entered leaves the processor with the kernel.
  | (none, kernel) => ⟨kernel, .kernel⟩
  | (some slot, kernel) => ⟨kernel, .user slot selected⟩

/-- The processor comes back to the kernel, and the scheduler goes on behind the slot it selected. -/
def leave (slot : Nat) (selected : Option Nat) (result : UInt32) : Machine :=
  let kernel := processLeave m.kernel slot result
  -- A process that was run by its number does not move the scheduler.
  match selected with
  | none => ⟨kernel, .kernel⟩
  | some selected => ⟨{ kernel with scheduleCursor := (selected + 1) % processMax }, .kernel⟩

end Machine

section Steps

variable (builtin : UInt32 → Option (List UInt8))

/-- What the shell and the main loop do. -/
def kernelStep (m : Machine) : Event → Machine
  | .spawn parentPid image imageSize priority =>
    { m with kernel :=
      (processSpawnChildFromBufferWithPriority m.kernel parentPid image imageSize priority).2 }
  | .kill pid => { m with kernel := (processKill m.kernel pid).2 }
  | .waitChild parentPid childPid => { m with kernel := (processWaitChild m.kernel parentPid childPid).2 }
  | .reapZombies => { m with kernel := processReapZombies m.kernel }
  | .setPriority pid priority => { m with kernel := (processSetPriority m.kernel pid priority).2 }
  | .scheduleAuto =>
    -- Nobody is ready, and the scheduler stays where it is.
    match selectNextReadyProcess m.kernel with
    | none => m
    | some slot => m.enter (m.kernel.processes.get slot).pid (some slot)
  | .runPid pid => m.enter pid none
  -- These happen only while a process runs.
  | .syscall _ | .clock _ _ | .pageFault _ _ | .read _ | .write _ _ => m

/-- What happens while a process runs. -/
def userStep (m : Machine) (slot : Nat) (selected : Option Nat) : Event → Machine
  | .syscall frame =>
    match usermodeHandleSyscall builtin frame m.kernel with
    -- The process goes on with the answer.
    | (.resume _, kernel) => { m with kernel }
    | (.leave value, kernel) => { m with kernel }.leave slot selected value
  | .clock scheduleEvent frame =>
    match processPreemptIfNeeded scheduleEvent frame m.kernel with
    -- The process goes on as if nothing had happened.
    | (false, kernel) => { m with kernel }
    | (true, kernel) => { m with kernel }.leave slot selected usermodeReturnYield
  | .pageFault faultAddr errCode =>
    match pagerHandlePageFault m.kernel.toPager faultAddr errCode with
    -- A fault that the pager cannot resolve stops the machine.
    | (false, pager) => ⟨m.kernel.withPager pager, .halted⟩
    | (true, pager) => { m with kernel := m.kernel.withPager pager }
  -- An access that does not go through shows as a page fault, and here it changes nothing.
  | .read virtAddr =>
    let read := userRead m.kernel.currentPageDirectoryPhys virtAddr m.kernel.toVmm
    { m with kernel := m.kernel.withVmm read.2 }
  | .write virtAddr value =>
    let written := userWrite m.kernel.currentPageDirectoryPhys virtAddr value m.kernel.toVmm
    { m with kernel := m.kernel.withVmm written.2 }
  -- These come from the kernel, which does not run now.
  | .spawn _ _ _ _ | .kill _ | .waitChild _ _ | .reapZombies | .setPriority _ _ | .scheduleAuto
  | .runPid _ => m

/-- One event. What cannot happen where the processor is leaves everything as it is. -/
def machineStep (m : Machine) (event : Event) : Machine :=
  -- What an event does depends on who has the processor.
  match m.mode with
  | .kernel => kernelStep m event
  | .user slot selected => userStep builtin m slot selected event
  | .halted => m

/-- A whole run of events. -/
def machineRun (m : Machine) (events : List Event) : Machine := events.foldl (machineStep builtin) m

end Steps

/-- The machine once processes can be made. -/
def machineStart (s : KernelState) : Machine := ⟨processInit s, .kernel⟩

end MyOS.Kernel
