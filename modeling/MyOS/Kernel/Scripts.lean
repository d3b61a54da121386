import MyOS.Kernel.Programs
import MyOS.Lib.Ia32

/-!
The programs of the kernel as scripts: what each of them asks for, statement by statement, and that
the processor does so when it runs the image.
-/

namespace MyOS.Kernel

open MyOS.Mm MyOS.Ia32

/-- What a program can ask of the kernel and then go on. -/
inductive Service where
  | yield
  | memdemoOp (op page : UInt32)
  | memdemoReport (sequence : UInt32)
  | memdemoReset
  | vmAlloc (page : UInt32)
  | vmSample
  | pagerTraceReset
  | spawnApp (appId : UInt32)
  deriving DecidableEq

/-- The number of the call that asks for a service. -/
def Service.number : Service → UInt32
  | yield => sysYield
  | memdemoOp _ _ => sysMemdemoOp
  | memdemoReport _ => sysMemdemoReport
  | memdemoReset => sysMemdemoReset
  | vmAlloc _ => sysVmAlloc
  | vmSample => sysVmSample
  | pagerTraceReset => sysPagerTraceReset
  | spawnApp _ => sysSpawnApp

/-- The arguments of a service, with the registers they are in. -/
def Service.arguments : Service → List (Reg × UInt32)
  | memdemoOp op page => [(.ebx, op), (.ecx, page)]
  | memdemoReport argument | vmAlloc argument | spawnApp argument => [(.ebx, argument)]
  | yield | memdemoReset | vmSample | pagerTraceReset => []

/-- What the kernel reads off the registers of a program that calls it. -/
inductive Request where
  /-- Characters to put on the console, as far as they are in memory. -/
  | write (text : List (Option UInt8))
  | exit (code : UInt32)
  | service (service : Service)
  | unknown (number : UInt32)
  deriving DecidableEq

/-- A program does not go on behind these. -/
def Request.ends : Request → Bool
  | exit _ | unknown _ => true
  | write _ | service _ => false

/-- How `usermode_handle_syscall` reads a request. -/
def requestOf (fetch : UInt32 → Option UInt8) (cpu : State) : Request :=
  let number := cpu.reg .eax
  let first := cpu.reg .ebx
  let second := cpu.reg .ecx
  -- A text is cut off behind 512 characters.
  if number = sysWrite then
    .write ((List.range (min second.toNat 512)).map fun i => fetch (first + UInt32.ofNat i))
  else if number = sysExit then .exit first
  else if number = sysYield then .service .yield
  else if number = sysMemdemoOp then .service (.memdemoOp first second)
  else if number = sysMemdemoReset then .service .memdemoReset
  else if number = sysMemdemoReport then .service (.memdemoReport first)
  else if number = sysVmAlloc then .service (.vmAlloc first)
  else if number = sysVmSample then .service .vmSample
  else if number = sysPagerTraceReset then .service .pagerTraceReset
  else if number = sysSpawnApp then .service (.spawnApp first)
  else .unknown number

/-- What a program does that shows outside of its registers. -/
inductive Deed where
  | asked (request : Request)
  | stored (address value : UInt32)
  deriving DecidableEq

/-- Where a program is. -/
inductive Phase where
  | running (cpu : State)
  /-- Waiting for the answer to a call. -/
  | asking (cpu : State)
  | ended
  /-- A store went to an address that the program may not write to, and the machine stopped. -/
  | pageFault (address : UInt32)
  /-- An instruction was none, or called for an interrupt that programs may not call for. -/
  | faulted

/-- A program with the answers it is going to get, and what it did so far. -/
structure Session where
  phase : Phase
  answers : List UInt32
  trace : List Deed

/-- The program asks for something, and the kernel ends it or prepares an answer. -/
def Session.ask (s : Session) (request : Request) (cpu : State) : Session :=
  { s with
    phase := if request.ends then .ended else .asking cpu
    trace := s.trace ++ [.asked request] }

section Steps

-- What instructions are fetched from, and where a store goes through after what was done before.
variable (fetch : UInt32 → Option UInt8) (writable : List Deed → UInt32 → Bool)

/-- What becomes of a program by what the processor does. -/
def Session.obey (s : Session) : Action → Session
  | .next cpu => { s with phase := .running cpu }
  | .store address value cpu =>
    -- The pager is asked for a page that is not there; where it has none the kernel panics.
    if writable s.trace address then
      { s with phase := .running cpu, trace := s.trace ++ [.stored address value] }
    else { s with phase := .pageFault address }
  -- Of all interrupts a program can call for only this one.
  | .trap vector cpu => if vector = 0x80 then s.ask (requestOf fetch cpu) cpu
      else { s with phase := .faulted }
  | .fault => { s with phase := .faulted }

/-- The program gets an answer, if there is one. -/
def Session.hear (s : Session) (cpu : State) : List UInt32 → Session
  | [] => s
  | answer :: rest => { s with phase := .running (cpu.setReg .eax answer), answers := rest }

/-- One step of a program: an instruction, or the answer to a call. -/
def sessionStep (s : Session) : Session :=
  match s.phase with
  | .running cpu => s.obey fetch writable (cpu.act fetch)
  | .asking cpu => s.hear cpu s.answers
  | .ended | .pageFault _ | .faulted => s

end Steps

/-- The memory of a program, as far as what it does depends on it. -/
structure UserMemory where
  /-- What instructions and messages are read from. -/
  fetch : UInt32 → Option UInt8
  /-- Whether a store at an address goes through, after what the program has done before. -/
  writable : List Deed → UInt32 → Bool
  /-- The page of the code is mapped for reading, so that no store changes what is fetched there. -/
  readOnly : ∀ deeds address k, writable deeds address = true → k < 4 →
    4096 ≤ (address + UInt32.ofNat k - processUserCodeBase).toNat

/-- A statement of a script. -/
inductive Statement where
  | write (message : List UInt8)
  | ask (service : Service)
  /-- Store a word where the last answer points to. -/
  | storeAnswer (value : UInt32)
  /-- Count down to zero. -/
  | busy (count : UInt32)
  /-- Ask for the record of an event, letting others run, until the answer is 1. -/
  | await (sequence : UInt32)

/-- A program: its statements, and the code it ends with. -/
structure Script where
  statements : List Statement
  exitCode : UInt32

/-- What a program does that waits for the record of an event, and the answers that remain then. -/
def awaitTrace (sequence : UInt32) : List UInt32 → List Deed × Option (List UInt32)
  | [] => ([.asked (.service (.memdemoReport sequence))], none)
  | answer :: rest =>
    if answer = 1 then ([.asked (.service (.memdemoReport sequence))], some rest)
    else
      -- Not recorded yet: the processor goes to others once, whatever that is answered with.
      match rest with
      | [] => ([.asked (.service (.memdemoReport sequence)), .asked (.service .yield)], none)
      | _ :: rest =>
        let (deeds, remaining) := awaitTrace sequence rest
        (.asked (.service (.memdemoReport sequence)) :: .asked (.service .yield) :: deeds, remaining)

/-- What a script does, with the last answer and those to come. -/
def scriptTrace (exitCode : UInt32) : List Statement → UInt32 → List UInt32 → List Deed
  | [], _, _ => [.asked (.exit exitCode)]
  | .write message :: rest, _, answers =>
    .asked (.write ((message.take 512).map some)) :: match answers with
      | [] => []
      | answer :: answers => scriptTrace exitCode rest answer answers
  | .ask service :: rest, _, answers =>
    .asked (.service service) :: match answers with
      | [] => []
      | answer :: answers => scriptTrace exitCode rest answer answers
  | .storeAnswer value :: rest, last, answers =>
    .stored last value :: scriptTrace exitCode rest last answers
  | .busy _ :: rest, last, answers => scriptTrace exitCode rest last answers
  | .await sequence :: rest, _, answers =>
    match awaitTrace sequence answers with
    | (deeds, none) => deeds
    | (deeds, some answers) => deeds ++ scriptTrace exitCode rest 1 answers

/-- What is done of some deeds behind others, up to the first store that does not go through. -/
def granted (writable : List Deed → UInt32 → Bool) : List Deed → List Deed → List Deed
  | _, [] => []
  | done, .asked request :: rest => .asked request :: granted writable (done ++ [.asked request]) rest
  | done, .stored address value :: rest =>
    if writable done address then
      .stored address value :: granted writable (done ++ [.stored address value]) rest
    else []

/-- The registers loaded one after the other. -/
def loads (values : List (Reg × UInt32)) : List Instr := values.map fun entry => .movImm entry.1 entry.2

/-- The instructions of a statement, with the address of the message it writes. -/
def Statement.code (address : UInt32) : Statement → List Instr
  | write message =>
    loads [(.eax, sysWrite), (.ebx, address), (.ecx, UInt32.ofNat message.length)] ++ [.int 0x80]
  | ask service => loads ((.eax, service.number) :: service.arguments) ++ [.int 0x80]
  | storeAnswer value => [.storeImm .eax value]
  -- The jump goes back to the decrement.
  | busy count => [.movImm .ecx count, .dec .ecx, .jne 0xFD]
  | await sequence =>
    loads [(.eax, sysMemdemoReport), (.ebx, sequence)] ++ [.int 0x80, .cmpImm .eax 1, .je 12] ++
      loads [(.eax, sysYield)] ++ [.int 0x80, .jmpNear (UInt32.ofInt (-29))]

/-- The instructions with which a program ends. -/
def exitInstrs (exitCode : UInt32) : List Instr :=
  loads [(.eax, sysExit), (.ebx, exitCode)] ++ [.int 0x80, .jmpShort 0xFE]

/-- The bytes of some instructions. -/
def encodeAll (code : List Instr) : List UInt8 := code.flatMap Instr.encode

/-- The message that a statement writes, if it writes one. -/
def Statement.text? : Statement → Option (List UInt8)
  | write message => some message
  | ask _ | storeAnswer _ | busy _ | await _ => none

/-- The characters that a statement needs behind the code. -/
def Statement.message (statement : Statement) : List UInt8 := statement.text?.getD []

/-- The messages of a script, one behind the other. -/
def messages (statements : List Statement) : List UInt8 := statements.flatMap Statement.message

/--
The code of some statements, with the place of the first message of them.

As long as the place is not known the addresses are zero.
-/
def laid (place : Option Nat) : List Statement → List UInt8
  | [] => []
  | statement :: rest =>
    encodeAll (statement.code (place.elim 0 fun place => processUserCodeBase + UInt32.ofNat place)) ++
      laid (place.map (· + statement.message.length)) rest

namespace Script

/-- The length of the code of a script. -/
def codeLength (script : Script) : Nat :=
  (laid none script.statements).length + (encodeAll (exitInstrs script.exitCode)).length

/-- The whole image of a script. -/
def bytes (script : Script) : List UInt8 :=
  laid (some script.codeLength) script.statements ++ encodeAll (exitInstrs script.exitCode) ++
    messages script.statements

end Script

section Assembling

/-- Put a statement into an image, and tell where the address of its message is missing. -/
def Statement.emit (e : Emitter) : Statement → Emitter × List (Nat × List UInt8)
  | write message =>
    let (e, patch) := e.emitWriteString message
    (e, [(patch, message)])
  | ask .yield => (e.emitYield, [])
  | ask (.memdemoOp op page) => (e.emitMemdemoOp op page, [])
  | ask (.memdemoReport sequence) =>
    (((e.emitMovEax sysMemdemoReport).emitMovEbx sequence).emitInt80, [])
  | ask .memdemoReset => (e.emitMemdemoReset, [])
  | ask (.vmAlloc page) => (e.emitVmAlloc page, [])
  | ask .vmSample => (e.emitVmSample, [])
  | ask .pagerTraceReset => (e.emitPagerTraceReset, [])
  | ask (.spawnApp appId) => (e.emitSpawnApp appId, [])
  | storeAnswer value => (e.emitUserWriteEax value, [])
  | busy count => (e.emitBusyLoop count, [])
  | await sequence => (e.emitWaitMemdemoReport sequence, [])

/-- Put statements into an image, one behind the other. -/
def emitStatements : List Statement → Emitter → Emitter × List (Nat × List UInt8)
  | [], e => (e, [])
  | statement :: rest, e =>
    let (e, missing) := statement.emit e
    let (e, more) := emitStatements rest e
    (e, missing ++ more)

/-- Put messages behind the code, and tell where each of them is. -/
def emitMessages : List (Nat × List UInt8) → Emitter → Emitter × List (Nat × Nat)
  | [], e => (e, [])
  | (patch, message) :: rest, e =>
    let (e', more) := emitMessages rest (e.emitMessage message)
    (e', (patch, e.offset) :: more)

/-- Complete the instructions that load the addresses of messages. -/
def patchMessages (e : Emitter) (patches : List (Nat × Nat)) : Emitter :=
  patches.foldl (fun e patch => e.patchMessageAddress patch.1 patch.2) e

/-- The way in which every program of the kernel is put together. -/
def assemble (script : Script) : Emitter :=
  let (e, missing) := emitStatements script.statements Emitter.start
  let (e, patches) := emitMessages missing (e.emitExit script.exitCode)
  patchMessages e patches

end Assembling

/-- The script of each program of the kernel. -/
def Builtin.script : Builtin → Script
  | hello => ⟨[.write (textBytes "hello from user process\n")], 0⟩
  | counter => ⟨[.write (textBytes "counter step 1\n"), .ask .yield,
      .write (textBytes "counter step 2\n"), .ask .yield, .write (textBytes "counter step 3\n")], 0⟩
  | busy => ⟨[.write (textBytes "busy step 1\n"), .busy 0x02000000,
      .write (textBytes "busy step 2\n"), .busy 0x02000000, .write (textBytes "busy step 3\n")], 0⟩
  | spawner => ⟨[.ask (.spawnApp processAppHello), .write (textBytes "spawner: hello child created\n"),
      .ask .yield, .write (textBytes "spawner: exiting\n")], 0⟩
  | memalloc => ⟨.ask .memdemoReset :: (List.range memdemoEventCount).flatMap fun i =>
      let (op, page) := memallocOps.getD i (0, 0)
      .ask (.memdemoOp op page) ::
        (if op != memdemoOpFree then
          [.storeAnswer ((0xA1100000 : UInt32) ||| (UInt32.ofNat i <<< 8) ||| page)] else []) ++
        [.ask .yield], 0⟩
  | memtrack => ⟨(List.range memdemoEventCount).flatMap fun i =>
      [.await (UInt32.ofNat (i + 1)), .ask .yield], 0⟩
  | pagerdemo => ⟨[.write (textBytes "pagerdemo: user process starts\n"), .ask .pagerTraceReset] ++
      (List.range (pagerFrameLimit + 1)).map (fun i => .ask (.vmAlloc (UInt32.ofNat i))) ++
      (List.range (pagerFrameLimit - 1)).flatMap (fun i =>
        [.ask (.vmAlloc (UInt32.ofNat i)), .storeAnswer ((0xD0A00000 : UInt32) ||| UInt32.ofNat i)]) ++
      [.ask .vmSample, .ask (.vmAlloc 0), .storeAnswer 0xD0A01000,
        .ask (.vmAlloc (UInt32.ofNat (pagerFrameLimit - 1))),
        .storeAnswer (0xD0A02000 ||| UInt32.ofNat (pagerFrameLimit - 1)),
        .ask (.vmAlloc (UInt32.ofNat pagerFrameLimit)),
        .storeAnswer (0xD0A03000 ||| UInt32.ofNat pagerFrameLimit),
        .write (textBytes "pagerdemo: done, run pager to inspect victim trace\n")], 0⟩

/-- Every program of the kernel is assembled from its script. -/
theorem Builtin.image_eq (builtin : Builtin) : builtin.image = assemble builtin.script := by
  cases builtin <;> rfl

end MyOS.Kernel
