import MyOS.Drivers.Keyboard
import MyOS.Fs.Sessions
import MyOS.Kernel.Usermode
import MyOS.Mm.DemoSpace
import MyOS.Shell.BigFile
import MyOS.Shell.Commands

/-!
The shell with the machine it runs on: the line that is typed, the commands, and the main loop.

What goes to the console changes nothing here, and the length of the time slice shows only in when
the clock asks for another process.
-/

namespace MyOS.Shell

open MyOS.Mm MyOS.Fs MyOS.Kernel MyOS.Drivers

/-- How many characters the line buffer has. -/
def inputMax : Nat := 128

/-- What the name of a process points to. -/
inductive NamePlace where
  /-- A text that is part of the kernel. -/
  | literal (text : String)
  /-- The text in the line buffer from a position on. -/
  | input (position : Nat)
  deriving Inhabited, DecidableEq

/-- The variables of the shell, and the machine. -/
structure ShellState where
  machine : Machine
  inputBuffer : FixedArray 128 UInt8
  inputLen : Nat
  autoScheduleEnabled : Bool
  demoUserSpaceReady : Bool
  /-- Where the demonstration of user mode begins and has its stack, once it is loaded. -/
  ring3DemoSpace : Option VmmUserSpaceInfo
  /-- Whether a command is still at work while a process runs. -/
  busy : Bool
  /-- The name of the process in each slot. -/
  names : FixedArray 8 NamePlace
  /-- The file name in the command that made the process in a slot. The shell does not keep it. -/
  given : FixedArray 8 (Option (List UInt8))

/-- A row of the table that `process_print_table` prints. -/
structure ProcessRow where
  pid : Int
  parentPid : Int
  priority : Int
  state : ProcessState
  name : List UInt8
  pageDirectoryPhys : UInt32

/-- A C string with the characters of a list up to the first zero. -/
def cString (text : List UInt8) : CString where
  chars := text.takeWhile (· != 0)
  noNul := fun zero => absurd (List.mem_takeWhile_imp zero) (by decide)

/-- The demonstration program of user mode. -/
def ring3DemoCode : List UInt8 := [0xB8, 0xFE, 0xCA, 0xAD, 0x2B, 0xCD, 0x80, 0xEB, 0xFE]

/-- Where the test of the pager has its pages. -/
def pagerTestBase : UInt32 := 0x40000000

/-- The sizes that the suite of big files goes through. -/
def bigfileTestSizes : List UInt32 := [511, 512, 513, 3072, 3073, 8192, 68608, 68609]

/-- The programs that are built into the kernel, by their names. -/
def builtinNames : List String :=
  ["hello", "counter", "busy", "spawner", "memalloc", "memtrack", "pagerdemo"]

section Machine

/-- A call on the file system, whose disk is the one the pager swaps to. -/
def onFiles {α : Type} (call : SimpleFs → α × SimpleFs) (s : KernelState) : α × KernelState :=
  -- The disk is handed over to the file system and taken back with what it wrote.
  match call { s.files with ata := s.disk } with
  | (answer, files) => (answer, s.withMemDemo { s.toMemDemo with files := files, disk := files.ata })

/-- `load_app_file`: the bytes of a program in a file. -/
def loadAppFile (name : List UInt8) (s : KernelState) : Option (List UInt8) × KernelState :=
  match onFiles (fun files => fsStep files (.readFile (cString name) maxFileSize)) s with
  -- A file that is empty is no program.
  | (answer, s) => (if answer.code != 0 && !answer.bytes.isEmpty then some answer.bytes else none, s)

/--
The kernel stores a word, with the help of the pager where the page is not there.

It gives nothing where the page fault is not resolved, which stops the machine.
-/
def kernelStore (virtAddr word : UInt32) (s : Pager) : Option Pager :=
  let store (physAddr : UInt32) (s : Pager) : Pager :=
    -- The processor notes the write in the tables before the word is stored.
    let vmm := markAccess s.currentPageDirectoryPhys virtAddr true s.toVmm
    { s with toVmm := { vmm with memory := vmm.memory.storeWord physAddr.toNat word } }
  match vmmGetMappingInDirectory s.currentPageDirectoryPhys virtAddr s.toVmm with
  | some physAddr => some (store physAddr s)
  | none =>
    -- A write of the kernel to a page that is not there.
    match pagerHandlePageFault s virtAddr 2 with
    | (false, _) => none
    | (true, s) =>
      -- The page is there now, and the store is tried again.
      (vmmGetMappingInDirectory s.currentPageDirectoryPhys virtAddr s.toVmm).map (store · s)

/-- The address of a page of the test. -/
def pagerTestPage (i : Nat) : UInt32 := pagerTestBase + UInt32.ofNat i * pageSize

/-- The first loop of `run_pager_fault_test` that registers pages, up to the first failure. -/
def pagerTestRegister : List Nat → Pager → Bool × Pager
  | [], s => (true, s)
  -- Pages registered before a failure stay registered.
  | i :: rest, s =>
    match pagerRegisterPageInDirectory s s.currentPageDirectoryPhys (pagerTestPage i) vmmPageWritable with
    | (false, s) => (false, s)
    | (true, s) => pagerTestRegister rest s

/-- `run_pager_fault_test`, or nothing where the machine stops. -/
def runPagerFaultTest (s : Pager) : Option Pager :=
  -- Without a pager the test prints that, and ends.
  if !s.pagerReady then some s
  else
    -- Pages an earlier test left behind go first.
    let s := (List.range 20).foldl
      (fun s i => pagerUnregisterPage s s.currentPageDirectoryPhys (pagerTestPage i)) s
    -- One page more than there are frames is registered.
    let s := pagerClearVictimTrace s
    match pagerTestRegister (List.range (pagerFrameLimit + 1)) s with
    | (false, s) => some s
    | (true, s) => do
      -- Every frame is filled, each page with a word of its own.
      let s ← (List.range pagerFrameLimit).foldlM
        (fun s i => kernelStore (pagerTestPage i) (0xC1000000 ||| UInt32.ofNat i) s) s
      -- Under the choice by use the accesses so far are counted before the first page is used again.
      let s := if s.currentAlgorithm = .lru then pagerSampleUsage s else s
      -- The first page is used once more, and the last one makes the pager choose a victim.
      let s ← kernelStore pagerTestBase 0xC1001000 s
      kernelStore (pagerTestPage pagerFrameLimit) (0xC1002000 ||| UInt32.ofNat pagerFrameLimit) s

end Machine

section Commands

/-- A call on the files that a command makes, and whether it asks first that they are mounted. -/
def fileCall : Command UInt32 → Option (Bool × SessionCall)
  | .mkfs => some (false, .format)
  -- The commands that look at what is mounted themselves do not ask first.
  | .ls => some (false, .list)
  | .pwd => some (false, .printWorkingDirectory)
  | .mkdir name => some (true, .call (.makeDir (cString name)))
  | .rmdir name => some (true, .call (.removeDir (cString name)))
  | .cd name => some (true, .call (.changeDir (cString name)))
  | .touch name => some (true, .call (.create (cString name)))
  | .rm name => some (true, .call (.delete (cString name)))
  | .cat name => some (true, .call (.readFile (cString name) maxFileSize))
  | .write name text => some (true, .call (.writeFile (cString name) text))
  | .append name text => some (true, .call (.appendFile (cString name) text))
  | .openFile name => some (true, .call (.open_ (cString name)))
  -- A descriptor is typed as a number without a sign, and taken as one with a sign.
  | .close fd => some (false, .call (.close (wrapInt fd.toNat)))
  | .read fd => some (true, .call (.readFd (wrapInt fd.toNat) maxFileSize))
  | .writefd fd text => some (true, .call (.writeFd (wrapInt fd.toNat) text))
  | .seek fd offset => some (true, .call (.seek (wrapInt fd.toNat) offset.toNat))
  | _ => none

/-- The amounts of the three resources. -/
def resources (r0 r1 r2 : UInt32) : Resources := fun r => [r0, r1, r2].getD r.val 0

/-- What a command does to the banker. -/
def bankerCommand (s : Banker) : Command UInt32 → Option Banker
  | .bankerInit r0 r1 r2 => some (bankerInit (resources r0 r1 r2))
  | .bankerAdd pid r0 r1 r2 =>
    some (bankerRegisterProcess (wrapInt pid.toNat) (resources r0 r1 r2) s).2
  | .bankerReq pid r0 r1 r2 => some (bankerRequest (wrapInt pid.toNat) (resources r0 r1 r2) s).2
  | .bankerRel pid r0 r1 r2 => some (bankerRelease (wrapInt pid.toNat) (resources r0 r1 r2) s).2
  | _ => none

/-- What a command asks the table of processes for, apart from a new process. -/
def processEvent : Command UInt32 → Option Event
  | .wait parentPid childPid =>
    -- Without a number any child is waited for.
    some (.waitChild (wrapInt parentPid.toNat) (wrapInt (childPid.getD 0).toNat))
  | .kill pid => some (.kill (wrapInt pid.toNat))
  | .prio pid priority => some (.setPriority (wrapInt pid.toNat) (wrapInt priority.toNat))
  | .sched => some .scheduleAuto
  | .reap => some .reapZombies
  | _ => none

end Commands

section Code

-- The images of the built-in programs, by their names.
variable (image : String → Option (List UInt8))

/-- The built-in programs that a process can ask for, by their numbers. -/
def appName (appId : UInt32) : String :=
  -- Other numbers name no program.
  if appId == 1 then "hello" else if appId == 2 then "counter" else if appId == 3 then "busy" else ""

/-- The image of such a program. -/
def appImage (appId : UInt32) : Option (List UInt8) :=
  if appId == 1 || appId == 2 || appId == 3 then image (appName appId) else none

namespace ShellState

variable (s : ShellState)

/-- The text in the line buffer from a position on. -/
def textFrom (position : Nat) : List UInt8 :=
  -- The text ends at the first zero, or at the end of the buffer.
  ((List.range' position (inputMax - position)).map s.inputBuffer.get).takeWhile (· != 0)

/-- The name that is found for the process in a slot. -/
def nameOf (i : Nat) : List UInt8 :=
  match s.names.get i with
  -- A text of the kernel stays the same for ever.
  | .literal text => textBytes text
  -- What is in the line now is what the name shows.
  | .input position => s.textFrom position

/-- The row of a slot in the table of processes, if there is a process in it. -/
def processRow (i : Nat) : Option ProcessRow :=
  let process := s.machine.kernel.processes.get i
  -- Empty slots have no row.
  if process.used then
    some ⟨process.pid, process.parentPid, process.priority, process.state, s.nameOf i,
      process.pageDirectoryPhys⟩
  else none

/-- `process_print_table` -/
def processPrintTable : List ProcessRow := (List.range 8).filterMap s.processRow

/-- Replace the kernel. -/
def withKernel (kernel : KernelState) : ShellState := { s with machine := { s.machine with kernel } }

/-- Replace what belongs to the pager. -/
def withPager (pager : Pager) : ShellState := s.withKernel (s.machine.kernel.withPager pager)

/-- The machine goes on, and a process that is made gets its name. -/
def withMachine (machine : Machine) (place : NamePlace) (given : Option (List UInt8)) : ShellState :=
  -- A slot that was not in use and is now has a new process.
  let made (i : Nat) : Bool :=
    !(s.machine.kernel.processes.get i).used && (machine.kernel.processes.get i).used
  { s with
    machine
    names := FixedArray.ofFn fun i => if made i then place else s.names.get i
    given := FixedArray.ofFn fun i => if made i then given else s.given.get i }

/-- A process is made from an image, and its number is given, or `0`. -/
def spawn (parentPid : Int) (image : List UInt8) (priority : Int) (place : NamePlace)
    (given : Option (List UInt8)) : Int × ShellState :=
  -- What is made, and where, is up to the table of processes.
  match processSpawnChildFromBufferWithPriority s.machine.kernel parentPid
    (some fun k => image.getD k 0) image.length priority with
  | (pid, kernel) => (pid, s.withMachine { s.machine with kernel } place given)

/--
The part of `exec`, `execp` and `spawn` behind their arguments: make a process from a file.

The name of the process is the file name where it stands in the line.
-/
def spawnFromFile (cmd name : List UInt8) (parentPid priority : Int) : ShellState :=
  -- Without a volume no file is looked for.
  if !s.machine.kernel.files.fsMounted then s
  else
    match loadAppFile name s.machine.kernel with
    -- A file that cannot be read makes no process, but the disk was used.
    | (none, kernel) => s.withKernel kernel
    | (some image, kernel) =>
      -- The name is the end of the line, so it begins where the rest of the line stops.
      ((s.withKernel kernel).spawn parentPid image priority (.input (cmd.length - name.length))
        (if name.isEmpty then none else some name)).2

/-- A built-in program is started under the name of its file. -/
def spawnBuiltin (name : String) : Int × ShellState :=
  match image name with
  | none => (0, s)
  | some image => s.spawn 0 image processPriorityDefault (.literal (name ++ ".app")) none

/-- `spawn_memdemo_processes`: the second program is started only where the first one was. -/
def spawnMemdemoProcesses : ShellState :=
  -- The slots of the last demonstration are given back first.
  let s := s.withKernel (s.machine.kernel.withMemDemo (memdemoReset s.machine.kernel.toMemDemo))
  match s.spawnBuiltin image "memalloc" with
  | (pid, s) => if pid == 0 then s else (s.spawnBuiltin image "memtrack").2

/-- `print_user_vm_demo`: a space is made the first time. -/
def printUserVmDemo : ShellState :=
  -- The space is made once, and kept.
  if !s.machine.kernel.vmmReady || s.demoUserSpaceReady then s
  else
    match vmmCreateUserDemoSpace true s.machine.kernel.toVmm with
    | (none, vmm) => s.withKernel (s.machine.kernel.withVmm vmm)
    | (some _, vmm) => { s.withKernel (s.machine.kernel.withVmm vmm) with demoUserSpaceReady := true }

/--
`usermode_run_demo`: the program loads a number and calls the kernel, which comes back at once.

All that shows of it is that its page was accessed.
-/
def usermodeRunDemo : ShellState :=
  let enter (s : ShellState) (info : VmmUserSpaceInfo) : ShellState :=
    -- The first instruction is fetched from the page of the program.
    let read := userRead s.machine.kernel.currentPageDirectoryPhys info.codeVirt s.machine.kernel.toVmm
    s.withKernel (s.machine.kernel.withVmm read.2)
  match s.ring3DemoSpace with
  | some info => enter s info
  | none =>
    -- The program is put into the current space.
    match vmmCreateCurrentUserDemoSpace true (some fun k => ring3DemoCode.getD k 0)
      (UInt32.ofNat ring3DemoCode.length) s.machine.kernel.toVmm with
    | (none, vmm) => s.withKernel (s.machine.kernel.withVmm vmm)
    | (some info, vmm) =>
      enter { s.withKernel (s.machine.kernel.withVmm vmm) with ring3DemoSpace := some info } info

/-- The test of the pager, which may stop the machine. -/
def pagerTest : ShellState :=
  match runPagerFaultTest s.machine.kernel.toPager with
  -- A store of the kernel that faults for good stops the machine.
  | none => { s with machine := { s.machine with mode := .halted } }
  | some pager => s.withPager pager

/-- `installapps`: the built-in programs are written to files, as far as that works. -/
def installApps : ShellState :=
  if !s.machine.kernel.files.fsMounted then s
  else
    -- The programs are written one after the other, also behind one that failed.
    builtinNames.foldl (fun s name =>
      match image name with
      | none => s
      | some image =>
        s.withKernel (onFiles (fun files =>
          fsStep files (.writeFile (cString (textBytes (name ++ ".app"))) image)) s.machine.kernel).2) s

/-- The test of a big file, of one size after the other. -/
def bigfileTest (sizes : List UInt32) : ShellState :=
  if !s.machine.kernel.files.fsMounted then s
  else
    -- Each size starts from the files the one before left.
    sizes.foldl (fun s size => s.withKernel
      (onFiles (fun files => ((), (runBigfileTestCase size files).fs)) s.machine.kernel).2) s

/-- The commands that are about files, the banker or the table of processes, and those that only print. -/
def runOther (command : Command UInt32) : ShellState :=
  match fileCall command with
  | some (asks, call) =>
    -- The command only says that nothing is mounted.
    if asks && !s.machine.kernel.files.fsMounted then s
    else s.withKernel (onFiles (fun files => sessionStep files call) s.machine.kernel).2
  | none =>
    match bankerCommand s.machine.kernel.banker command with
    -- The answer of the banker is printed and no more.
    | some banker => s.withKernel { s.machine.kernel with banker }
    | none =>
      match processEvent command with
      | some event => { s with machine := machineStep (appImage image) s.machine event }
      -- The command only prints.
      | none => s

/-- `run_command` -/
def runCommand (cmd : List UInt8) : ShellState :=
  match commandOf shellNumbers cmd with
  -- The name begins behind the word of the command.
  | .exec name => s.spawnFromFile cmd name 0 processPriorityDefault
  | .execp priority name => s.spawnFromFile cmd name 0 (wrapInt priority.toNat)
  | .spawn parentPid name => s.spawnFromFile cmd name (wrapInt parentPid.toNat) processPriorityDefault
  | .memdemo => s.spawnMemdemoProcesses image
  | .installapps => s.installApps image
  | .bigfiletestSuite => s.bigfileTest bigfileTestSizes
  | .bigfiletest size => s.bigfileTest [size]
  | .autoschedOn => { s with autoScheduleEnabled := true }
  | .autoschedOff => { s with autoScheduleEnabled := false }
  | .uservm => s.printUserVmDemo
  | .ring3 => s.usermodeRunDemo
  | .pagertest => s.pagerTest
  | .pageralgoClock => s.withPager (pagerSetAlgorithm s.machine.kernel.toPager .clock)
  | .pageralgoLru => s.withPager (pagerSetAlgorithm s.machine.kernel.toPager .lru)
  -- The other commands go to the part of the kernel they are about.
  | command => s.runOther image command

/-- What `shell_handle_key` does once a command has returned: the line is empty again. -/
def finishCommand : ShellState := { s with inputLen := 0, inputBuffer := FixedArray.fill 0, busy := false }

/-- A command that waits for a process has returned when the kernel has the processor again. -/
def settle : ShellState := if s.busy && s.machine.mode == .kernel then s.finishCommand else s

end ShellState

/-- `shell_handle_key` -/
def shellHandleKey (key : UInt16) (s : ShellState) : ShellState :=
  -- The two keys scroll the view.
  if key == keyboardKeyUp || key == keyboardKeyDown then s
  -- Keys without a character do nothing.
  else if key > 0xFF then s
  else
    let c := key.toUInt8
    if c == 10 then
      -- A newline ends the line with a zero, and the command runs.
      let s := { s with inputBuffer := s.inputBuffer.set s.inputLen 0 }
      { s.runCommand image (s.textFrom 0) with busy := true }.settle
    -- A backspace takes the last character away.
    else if c == 8 then
      if s.inputLen > 0 then
        { s with inputLen := s.inputLen - 1, inputBuffer := s.inputBuffer.set (s.inputLen - 1) 0 }
      else s
    -- Only characters that can be printed are taken.
    else if c < 32 || c > 126 then s
    -- The last place of the buffer is left for the zero.
    else if s.inputLen ≥ inputMax - 1 then s
    else { s with inputLen := s.inputLen + 1, inputBuffer := s.inputBuffer.set s.inputLen c }

/-- What happens to the shell. -/
inductive ShellEvent where
  /-- The main loop takes a key from the keyboard. -/
  | key (key : UInt16)
  /-- The main loop takes an event of the clock. -/
  | schedule
  /-- Something happens while a process runs. -/
  | program (event : Event)

/-- The name under which a system call makes a process. -/
def childName : Event → String
  | .syscall frame => appName frame.ebx ++ ".app"
  | _ => ""

/-- One event. While a process runs, the main loop waits. -/
def shellStep (s : ShellState) : ShellEvent → ShellState
  -- Keys wait in the keyboard while a process runs.
  | .key key => if s.machine.mode == .kernel then shellHandleKey image key s else s
  | .schedule =>
    -- The scheduler is switched off and on by a command.
    if s.machine.mode == .kernel && s.autoScheduleEnabled && processHasReady s.machine.kernel then
      { s with machine := machineStep (appImage image) s.machine .scheduleAuto }
    else s
  | .program event =>
    match s.machine.mode with
    -- A process that makes a child does so under the name of the program.
    | .user _ _ =>
      (s.withMachine (machineStep (appImage image) s.machine event) (.literal (childName event)) none).settle
    -- Without a process nothing of that kind happens.
    | _ => s

/-- A whole run. -/
def shellRun (s : ShellState) (events : List ShellEvent) : ShellState := events.foldl (shellStep image) s

/-- `shell_init`, on a machine that has just started. -/
def shellStart (s : KernelState) : ShellState where
  machine := machineStart s
  inputBuffer := FixedArray.fill 0
  inputLen := 0
  autoScheduleEnabled := true
  demoUserSpaceReady := false
  ring3DemoSpace := none
  busy := false
  names := FixedArray.fill (.literal "")
  given := FixedArray.fill none

end Code

end MyOS.Shell
