import MyOS.Kernel.TableRuns
import MyOS.Mm.DemoSpace

/-! The registers of the processes: each goes on where it was itself interrupted. -/

namespace MyOS.Kernel

open MyOS.Mm Relation

/-- A word of a context lies at its place in memory. -/
theorem UserContext.wordAt_bytes (context : UserContext) (k : Nat) :
    wordAt context.bytes (4 * k) = context.words.getD k 0 := by
  -- Byte by byte.
  apply wordAt_of_bytes
  intro j inside
  unfold UserContext.bytes
  rw [show (4 * k + j) / 4 = k by omega, show (4 * k + j) % 4 = j by omega]

/-- The registers that a context stands for, with interrupts let through. -/
def UserContext.registers (context : UserContext) : Registers where
  eip := context.eip
  esp := context.userEsp
  eflags := context.eflags ||| interruptFlag
  eax := context.eax
  ebx := context.ebx
  ecx := context.ecx
  edx := context.edx
  esi := context.esi
  edi := context.edi
  ebp := context.ebp

/-- The offsets in the entry code are those of the fields of a context. -/
theorem usermodeEnterContext_registers (context : UserContext) :
    usermodeEnterContext context.bytes = context.registers := by
  -- Each register is loaded from the word at its offset.
  have word := context.wordAt_bytes
  have eip := word 0
  have esp := word 1
  have eflags := word 2
  have eax := word 3
  have ebx := word 4
  have ecx := word 5
  have edx := word 6
  have esi := word 7
  have edi := word 8
  have ebp := word 9
  unfold usermodeEnterContext
  rw [eip, esp, eflags, eax, ebx, ecx, edx, esi, edi, ebp]
  rfl

/-- The frame that was last saved for each process since it was made. -/
abbrev History := Int → Option InterruptFrame

/-- The registers a process should go on with. -/
def resumes : Option InterruptFrame → Registers
  | none =>
    { eip := 0x00800000
      esp := 0xBFFF0000
      eflags := 0x202
      eax := 0
      ebx := 0
      ecx := 0
      edx := 0
      esi := 0
      edi := 0
      ebp := 0 }
  | some frame =>
    { eip := frame.eip
      esp := frame.useresp
      eflags := frame.eflags ||| interruptFlag
      eax := frame.eax
      ebx := frame.ebx
      ecx := frame.ecx
      edx := frame.edx
      esi := frame.esi
      edi := frame.edi
      ebp := frame.ebp }

/-- What an event adds to the history: a new process has none, and a yield leaves its frame. -/
def Machine.remember (m : Machine) (event : Event) (history : History) : History :=
  match m.mode, m.label event with
  | _, .spawn => Function.update history m.kernel.nextPid none
  | .user slot _, .save frame =>
    Function.update history (m.kernel.processes.get slot).pid (some frame)
  | _, _ => history

/-- The machine and its history after a run. -/
def machineHistory (builtin : UInt32 → Option (List UInt8)) (m : Machine) (history : History)
    (events : List Event) : Machine × History :=
  events.foldl (fun now event => (machineStep builtin now.1 event, now.1.remember event now.2))
    (m, history)

/--
Whenever a process is entered it goes on with the registers it should have.

These are the registers of its own last yield or preemption, or the first ones of a new process.
-/
def Isolated (builtin : UInt32 → Option (List UInt8)) (s : KernelState) (events : List Event) : Prop :=
  ∀ before event after, events = before ++ event :: after →
    ∀ slot selected, (machineRun builtin (machineStart s) before).mode = .kernel →
      (machineStep builtin (machineRun builtin (machineStart s) before) event).mode =
        .user slot selected →
      let entered :=
        (machineStep builtin (machineRun builtin (machineStart s) before) event).kernel.processes.get slot
      usermodeEnterContext entered.context.bytes =
        resumes ((machineHistory builtin (machineStart s) (fun _ => none) before).2 entered.pid)

/-- A run of two lists of events runs one after the other. -/
theorem machineRun_append (builtin : UInt32 → Option (List UInt8)) (m : Machine)
    (first second : List Event) :
    machineRun builtin m (first ++ second) = machineRun builtin (machineRun builtin m first) second :=
  -- A run is a fold.
  List.foldl_append

/-- The last event of a run adds to the history before it. -/
theorem machineHistory_append (builtin : UInt32 → Option (List UInt8)) (m : Machine)
    (history : History) (first : List Event) (event : Event) :
    machineHistory builtin m history (first ++ [event]) =
      (machineStep builtin (machineHistory builtin m history first).1 event,
        (machineHistory builtin m history first).1.remember event
          (machineHistory builtin m history first).2) :=
  -- A history is a fold.
  List.foldl_append

/-- The history does not disturb the machine. -/
theorem machineHistory_fst (builtin : UInt32 → Option (List UInt8)) (m : Machine)
    (history : History) (events : List Event) :
    (machineHistory builtin m history events).1 = machineRun builtin m events := by
  -- Induction on the events.
  induction events generalizing m history with
  | nil => rfl
  | cons event rest ih => exact ih _ _

section Moves

variable {t u : Table}

/-- The processes of a table were all there before, where they go on included. -/
def Table.Inherits (t u : Table) : Prop :=
  ∀ i, i < 8 → (u.processes.get i).used = true →
    (t.processes.get i).used = true ∧ (u.processes.get i).pid = (t.processes.get i).pid ∧
      (u.processes.get i).context = (t.processes.get i).context

/-- Inheriting twice is inheriting. -/
theorem Table.Inherits.trans {v : Table} (first : t.Inherits u) (second : u.Inherits v) :
    t.Inherits v := by
  -- Number and context come from the same slot in between.
  intro i inside used
  obtain ⟨used', pid, context⟩ := second i inside used
  obtain ⟨used'', pid', context'⟩ := first i inside used'
  exact ⟨used'', pid.trans pid', context.trans context'⟩

/-- Replacing a slot that stays who it is. -/
theorem Table.Inherits.put {i : Nat} {p : Process}
    (same : p.used = true → (t.processes.get i).used = true ∧ p.pid = (t.processes.get i).pid ∧
      p.context = (t.processes.get i).context) : t.Inherits (t.put i p) := by
  -- At slot `i` it is assumed, elsewhere the process is the same.
  intro j inside used
  rw [t.put_get i p inside] at used ⊢
  split at used
  · next here =>
    subst here
    rw [if_pos rfl]
    exact same used
  · next other =>
    rw [if_neg other]
    exact ⟨used, rfl, rfl⟩

/-- Orphans inherit from themselves. -/
theorem Table.Inherits.adopt (t : Table) (parentPid : Int) : t.Inherits (t.adopt parentPid) := by
  -- Only the parent and the flag of a child change.
  intro i inside
  rw [show (t.adopt parentPid).processes.get i = _ from orphaned_get _ _ inside]
  split
  · exact fun used => ⟨used, rfl, rfl⟩
  · exact fun used => ⟨used, rfl, rfl⟩

/-- No move makes a process, or changes where one goes on. -/
theorem Move.inherits (move : Move t u) : t.Inherits u := by
  -- One case for each move.
  cases move with
  | edited i p inside used kept pid parent state context exitCode priority =>
    exact .put fun _ => ⟨used, pid, context⟩
  | released i inside used stopped => exact (Table.Inherits.adopt t _).trans (.put nofun)
  | entered i inside used ready idle =>
    exact Table.Inherits.put (p := { t.processes.get i with state := .running })
      fun _ => ⟨used, rfl, rfl⟩
  | yielded i inside used current =>
    exact Table.Inherits.put (p := { t.processes.get i with state := .ready })
      fun _ => ⟨used, rfl, rfl⟩
  | exited i result inside used current =>
    have ended : t.Inherits
        (t.put i { t.processes.get i with exitCode := result, state := .zombie }) :=
      .put fun _ => ⟨used, rfl, rfl⟩
    exact ended.trans (Table.Inherits.adopt _ _)
  | cursor cursor => exact fun i _ used => ⟨used, rfl, rfl⟩

/-- Nor do several moves. -/
theorem moves_inherit (moves : ReflTransGen Move t u) : t.Inherits u := by
  -- Induction on the moves.
  induction moves with
  | refl => exact fun i _ used => ⟨used, rfl, rfl⟩
  | tail _ move ih => exact ih.trans move.inherits

end Moves

/-- The context a process has, by its history. -/
def contextFor : Option InterruptFrame → UserContext
  | none => initialContext
  | some frame => contextOf frame

/-- Entering with the context of a history gives the registers of the history. -/
theorem contextFor_registers (saved : Option InterruptFrame) :
    (contextFor saved).registers = resumes saved := by
  -- Without a history the context is the first one, otherwise that of the frame.
  cases saved with
  | none => decide
  | some frame => rfl

/-- Every process has the context of its own history. -/
def Table.Remembers (t : Table) (history : History) : Prop :=
  ∀ i, i < 8 → (t.processes.get i).used = true →
    (t.processes.get i).context = contextFor (history (t.processes.get i).pid)

/-- Processes that were all there before have the contexts they had. -/
theorem Table.Remembers.inherit {t u : Table} {history : History} (remembers : t.Remembers history)
    (inherits : t.Inherits u) : u.Remembers history := by
  -- The number is the same, so the history is.
  intro i inside used
  obtain ⟨used', pid, context⟩ := inherits i inside used
  rw [context, pid]
  exact remembers i inside used'

section Runs

variable {builtin : UInt32 → Option (List UInt8)} {m : Machine} {history : History}

/-- A history of a process that is not there yet may be forgotten. -/
theorem Table.Remembers.forget {t : Table} (ok : t.Ok) (remembers : t.Remembers history) :
    t.Remembers (Function.update history t.nextPid none) := by
  -- Every process in the table has a smaller number.
  intro i inside used
  have old := (ok.pids inside used).2
  rw [Function.update_of_ne (by omega)]
  exact remembers i inside used

/-- Every event keeps the contexts and the history together. -/
theorem machineStep_remembers (ok : m.Ok) (remembers : m.kernel.table.Remembers history) (event : Event)
    (room : m.label event = .spawn → m.kernel.nextPid + 1 < 2 ^ 31) :
    (machineStep builtin m event).kernel.table.Remembers (m.remember event history) := by
  obtain ⟨effect, -⟩ := machineStep_effect builtin ok event room
  generalize (machineStep builtin m event).kernel.table = u at effect
  cases label : m.label event with
  | spawn =>
    rw [label] at effect
    have forgotten := remembers.forget ok.table
    have after : m.remember event history = Function.update history m.kernel.nextPid none := by
      unfold Machine.remember
      rw [label]
    rw [after]
    cases effect with
    | refused => exact forgotten
    | spawned _ i p inside free born =>
      intro j small used
      rw [show Table.processes _ = (m.kernel.table.put i p).processes from rfl,
        m.kernel.table.put_get i p small] at used ⊢
      split at used
      · next here =>
        obtain ⟨pid, -, -, context, -⟩ := born used
        rw [if_pos here, context, pid]
        exact congrArg contextFor (Function.update_self m.kernel.nextPid none history).symm
      · next other =>
        rw [if_neg other]
        exact forgotten j small used
  | other =>
    rw [label] at effect
    have after : m.remember event history = history := by
      unfold Machine.remember
      rw [label]
    rw [after]
    cases effect with
    | moved _ _ moves => exact remembers.inherit (moves_inherit moves)
  | save frame =>
    rw [label] at effect
    -- Only a process that runs has its registers kept.
    cases mode : m.mode with
    | kernel =>
      unfold Machine.label at label
      rw [mode] at label
      cases event <;> cases label
    | halted =>
      unfold Machine.label at label
      rw [mode] at label
      cases event <;> cases label
    | user slot selected =>
      obtain ⟨inside, used, current⟩ := ok.busy mode
      have after : m.remember event history =
          Function.update history (m.kernel.processes.get slot).pid (some frame) := by
        unfold Machine.remember
        rw [label, mode]
      rw [after]
      cases effect with
      | saved _ _ _ i inside' used' current' moves =>
        have here : i = slot :=
          ok.table.distinct inside' inside used' used (current'.trans current.symm)
        subst here
        refine Table.Remembers.inherit ?_ (moves_inherit moves)
        intro j small used''
        rw [Table.put_get _ _ _ small] at used'' ⊢
        split at used''
        · next same =>
          rw [if_pos same]
          exact congrArg contextFor
            (Function.update_self (m.kernel.processes.get i).pid (some frame) history).symm
        · next other =>
          rw [if_neg other]
          have apart : (m.kernel.table.processes.get j).pid ≠ (m.kernel.processes.get i).pid :=
            fun same => other (ok.table.distinct small inside used'' used same)
          rw [Function.update_of_ne apart]
          exact remembers j small used''

/-- The contexts and the history stay together all along a run. -/
theorem machineHistory_remembers (ok : m.Ok) (remembers : m.kernel.table.Remembers history)
    {events : List Event} (few : m.kernel.nextPid + events.countP Event.isSpawn < 2 ^ 31) :
    (machineRun builtin m events).kernel.table.Remembers
      (machineHistory builtin m history events).2 := by
  -- Induction on the events, one number is spent by each spawn.
  induction events generalizing m history with
  | nil => exact remembers
  | cons event rest ih =>
    obtain ⟨room, next⟩ := @machineStep_few builtin m ok event rest few
    obtain ⟨-, after⟩ := machineStep_effect builtin ok event room
    exact ih after (machineStep_remembers ok remembers event room) next

end Runs

/-- Entering a process adds nothing to the history. -/
theorem Machine.label_enter {builtin : UInt32 → Option (List UInt8)} {m : Machine} {event : Event}
    {slot : Nat} {selected : Option Nat} (idle : m.mode = .kernel)
    (busy : (machineStep builtin m event).mode = .user slot selected) : m.label event = .other := by
  -- Of the events that start in the kernel only a spawn is labelled, and it enters nobody.
  unfold Machine.label
  rw [idle]
  cases event with
  | spawn parentPid image imageSize priority =>
    unfold machineStep at busy
    rw [idle] at busy
    exact nomatch idle.symm.trans busy
  | _ => rfl

/--
Every process goes on where it was itself interrupted, whatever the others did in between.

The numbers of processes come from a signed counter, so a run is one in which it does not overflow.
-/
theorem machineRun_isolated (builtin : UInt32 → Option (List UInt8)) (s : KernelState) (events : List Event)
    (few : events.countP Event.isSpawn < 2 ^ 31 - 1) : Isolated builtin s events := by
  rintro before event after rfl slot selected idle busy
  rw [List.countP_append] at few
  have start := machineStart_ok s
  have fewer : (machineStart s).kernel.nextPid + before.countP Event.isSpawn < 2 ^ 31 := by
    change (1 : Int) + before.countP Event.isSpawn < 2 ^ 31
    omega
  have ok := @machineRun_ok builtin _ start before fewer
  have remembers := @machineHistory_remembers builtin _ (fun _ => none) start (fun i inside used =>
    nomatch ((machineStart_unused s inside).symm.trans used)) before fewer
  generalize machineRun builtin (machineStart s) before = m at ok remembers idle busy
  generalize (machineHistory builtin (machineStart s) (fun _ => none) before).2 = history at remembers
  -- The event that enters the process makes none and saves nothing.
  have label := Machine.label_enter idle busy
  have room : m.label event = .spawn → m.kernel.nextPid + 1 < 2 ^ 31 :=
    fun spawns => nomatch label.symm.trans spawns
  have same : m.remember event history = history := by
    unfold Machine.remember
    rw [label]
  have kept := @machineStep_remembers builtin m history ok remembers event room
  obtain ⟨inside, used, -⟩ := (machineStep_effect builtin ok event room).2.busy busy
  have context := kept slot inside used
  rw [same] at context
  change _ = resumes (history _)
  rw [usermodeEnterContext_registers, ← contextFor_registers]
  exact congrArg UserContext.registers context

section Example

/-- A short run with a process that has a child. -/
theorem machineRun_isolated_small :
    smallEvents.countP Event.isSpawn < 2 ^ 31 - 1 ∧
      Isolated (fun _ => none) smallKernel smallEvents :=
  -- The run has fewer spawns than there are numbers.
  ⟨by decide, machineRun_isolated (fun _ => none) smallKernel smallEvents (by decide)⟩

/-- The kernel as it starts on a machine with memory for one process that asks for a page. -/
def tinyKernel : KernelState := { smallKernel with toPager := pagerOn tinyMachine }

/-- A process takes all the memory there is. -/
def takeMemory : List Event :=
  [.spawnByte 0 5, .runPid 1,
    .syscall { (default : InterruptFrame) with eax := sysMemdemoOp, ebx := memdemoOpAlloc },
    .call sysYield 0]

/-- The machine once its memory is full. -/
def fullMachine : Machine := machineRun (fun _ => none) (machineStart tinyKernel) takeMemory

/-- What is left in a slot of a process for which there was no memory. -/
def lostProcess (pid : Int) : Process :=
  { KernelState.freshProcess pid with used := false, state := .unused, imageSize := 1 }

/-- A kernel without memory for a second process. -/
structure KernelState.Full (s : KernelState) : Prop where
  space : vmmCreateAddressSpace s.toVmm = (none, s.toVmm)
  first : (s.processes.get 0).used = true
  free : (s.processes.get 1).used = false

/-- The kernel after numbers were given out for a second process. -/
def KernelState.lose (s : KernelState) (pid nextPid : Int) : KernelState :=
  { s with processes := s.processes.set 1 (lostProcess pid), nextPid }

/-- With the first slots full a lost process takes the next number only. -/
theorem KernelState.Full.lose {s : KernelState} (full : s.Full) (pid nextPid : Int) :
    (s.lose pid nextPid).Full := by
  -- The lost one is put into slot 1, which stays free.
  have slots : ∀ i, i < 8 → (s.lose pid nextPid).processes.get i =
      if i = 1 then lostProcess pid else s.processes.get i :=
    fun i inside => FixedArray.get_set _ _ inside
  refine ⟨full.space, ?_, ?_⟩
  · rw [slots 0 (by decide)]
    exact full.first
  · rw [slots 1 (by decide)]
    rfl

/-- Asking for a second process takes a number, and nothing else. -/
theorem KernelState.Full.spawn {s : KernelState} (full : s.Full) :
    machineStep (fun _ => none) ⟨s, .kernel⟩ (.spawnByte 0 5) =
      ⟨s.lose s.nextPid (wrapInt (s.nextPid + 1)), .kernel⟩ := by
  -- Slot 1 is found free, but there is no memory for its space.
  obtain ⟨space, used, free⟩ := full
  have slot : (List.range processMax).find? (fun i => !(s.processes.get i).used) = some 1 := by
    rw [List.find?_range_eq_some]
    refine ⟨by simp [free], by decide, fun j below => ?_⟩
    match j, below with
    | 0, _ => simp [used]
  have spawned : (processSpawnChildFromBufferWithPriority s 0 (some fun _ => 0) 1 5).2 =
      s.lose s.nextPid (wrapInt (s.nextPid + 1)) := by
    unfold processSpawnChildFromBufferWithPriority
    simp only
    rw [if_neg (by rw [show s.parentPidIsValid 0 = true from rfl]; decide)]
    unfold KernelState.allocateProcess
    rw [slot]
    simp only
    unfold KernelState.spawnSpace
    simp only [show ∀ a b c, (KernelState.setProcess a b c).toVmm = a.toVmm from fun _ _ _ => rfl]
    rw [space]
    simp only
    unfold KernelState.lose
    simp [KernelState.abandonProcess, KernelState.setProcess, FixedArray.get_set]
    exact ⟨rfl, rfl, rfl, rfl, rfl, rfl⟩
  exact congrArg (fun kernel => (⟨kernel, .kernel⟩ : Machine)) spawned

/-- Counting on after a wrap is counting on before it. -/
theorem wrapInt_succ (value : Int) : wrapInt (wrapInt value + 1) = wrapInt (value + 1) := by
  unfold wrapInt
  omega

/-- Asking again and again takes as many numbers. -/
theorem KernelState.Full.spawns {s : KernelState} (full : s.Full) (small : wrapInt s.nextPid = s.nextPid)
    (n : Nat) :
    machineRun (fun _ => none) ⟨s, .kernel⟩ (List.replicate (n + 1) (.spawnByte 0 5)) =
      ⟨s.lose (wrapInt (s.nextPid + n)) (wrapInt (s.nextPid + n + 1)), .kernel⟩ := by
  -- Induction on `n`, each spawn takes the next number.
  have next : ∀ k : Nat, s.nextPid + (k + 1 : Nat) = s.nextPid + k + 1 := by
    intro k
    push_cast
    omega
  induction n with
  | zero =>
    have first : s.nextPid + (0 : Nat) = s.nextPid := by simp
    rw [first, small]
    exact full.spawn
  | succ n ih =>
    rw [List.replicate_succ', machineRun_append, ih]
    refine ((full.lose _ _).spawn).trans ?_
    unfold KernelState.lose
    simp only [FixedArray.set_set, wrapInt_succ, next]

/-- A second process is asked for until the counter comes round to zero. -/
def manySpawns : List Event := List.replicate (2 ^ 32 - 3 + 1) (.spawnByte 0 5)

/-- Nothing happens where there is no memory for a directory. -/
theorem vmmCreateAddressSpace_full {s : Vmm}
    (full : (List.range s.totalPages.toNat).find? (fun page => !s.bitmapTest page) = none) :
    vmmCreateAddressSpace s = (none, s) := by
  -- No page is free, so the allocation fails first.
  have none_ : pmmAllocPage s.toPmm = (0, s.toPmm) := by
    unfold pmmAllocPage
    split
    · rfl
    · rw [full]
  unfold vmmCreateAddressSpace Vmm.alloc
  rw [none_]
  split <;> rfl

/-- The machine once the counter has come round. -/
def wrappedMachine : Machine := ⟨fullMachine.kernel.lose (-1) 0, .kernel⟩

/-- What the machine that is full looks like. -/
theorem fullMachine_facts : fullMachine.mode = .kernel ∧ fullMachine.kernel.nextPid = 2 ∧
    (List.range fullMachine.kernel.totalPages.toNat).find? (fun page =>
      !fullMachine.kernel.bitmapTest page) = none ∧
    (fullMachine.kernel.processes.get 0).used = true ∧
    (fullMachine.kernel.processes.get 1).used = false := by
  -- Evaluated.
  decide +kernel

/-- So many spawns bring its counter round. -/
theorem fullMachine_spawns : machineRun (fun _ => none) fullMachine manySpawns = wrappedMachine := by
  -- The counter goes round to 0, since each spawn takes one number.
  obtain ⟨mode, next, space, slots, free⟩ := fullMachine_facts
  have full : fullMachine.kernel.Full := ⟨vmmCreateAddressSpace_full space, slots, free⟩
  have same : fullMachine = ⟨fullMachine.kernel, .kernel⟩ := by
    rw [← mode]
  rw [same]
  unfold manySpawns wrappedMachine
  rw [full.spawns (by rw [next]; rfl), next]
  rfl

/-- The frame of a process that yields after its first instructions. -/
def yieldFrame : InterruptFrame := { (default : InterruptFrame) with eax := sysYield, eip := 0x00800004 }

/-- The process gives its page back, and the second one is made and runs. -/
def makeRoom : List Event :=
  [.runPid 1, .call sysMemdemoReset 0, .call sysYield 0, .spawnByte 0 9, .scheduleAuto]

/-- Then a process with the number 0 runs. -/
theorem wrappedMachine_facts :
    (machineRun (fun _ => none) wrappedMachine makeRoom).mode = .user 1 (some 1) ∧
    ((machineRun (fun _ => none) wrappedMachine makeRoom).kernel.processes.get 1).pid = 0 := by
  -- Evaluated.
  decide +kernel

/-- The process that has yielded is entered again, with the first address of its code. -/
theorem yielded_facts :
    let yielded := machineRun (fun _ => none) (machineRun (fun _ => none) wrappedMachine makeRoom)
      [.syscall yieldFrame]
    let again := machineStep (fun _ => none) yielded .scheduleAuto
    yielded.mode = .kernel ∧ again.mode = .user 1 (some 1) ∧ (again.kernel.processes.get 1).pid = 0 ∧
      (usermodeEnterContext (again.kernel.processes.get 1).context.bytes).eip ≠ yieldFrame.eip := by
  -- Evaluated.
  decide +kernel

/-- The number zero stands for no process, so a process that has it loses its registers. -/
theorem number_zero_loses : ¬ Isolated (fun _ => none) tinyKernel
    (takeMemory ++ manySpawns ++ makeRoom ++ [.syscall yieldFrame] ++ [.scheduleAuto]) := by
  -- The history has the frame of the yield, but the context is the first one.
  intro isolated
  have entered := isolated _ .scheduleAuto [] rfl 1 (some 1)
  have before : machineRun (fun _ => none) (machineStart tinyKernel) (takeMemory ++ manySpawns ++ makeRoom) =
      machineRun (fun _ => none) wrappedMachine makeRoom := by
    rw [machineRun_append, machineRun_append]
    exact congrArg (machineRun (fun _ => none) · makeRoom) fullMachine_spawns
  rw [machineHistory_append, machineHistory_fst, machineRun_append, before] at entered
  obtain ⟨mode, pid⟩ := wrappedMachine_facts
  obtain ⟨idle, busy, pid', eip⟩ := yielded_facts
  have same := entered idle busy
  have remembered : ∀ history : History, (machineRun (fun _ => none) wrappedMachine makeRoom).remember
      (.syscall yieldFrame) history 0 = some yieldFrame := by
    intro history
    have label : (machineRun (fun _ => none) wrappedMachine makeRoom).label (.syscall yieldFrame) =
        .save yieldFrame := by
      unfold Machine.label
      rw [mode]
      rfl
    unfold Machine.remember
    rw [label, mode]
    simp only
    rw [pid, Function.update_self]
  simp only at same
  rw [pid', remembered] at same
  exact absurd (congrArg Registers.eip same) eip

end Example
end MyOS.Kernel
