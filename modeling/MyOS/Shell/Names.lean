import MyOS.Kernel.TableRuns
import MyOS.Shell.Shell

/-! The names that the table of processes shows, along a run of the shell. -/

namespace MyOS.Shell

open MyOS.Mm MyOS.Fs MyOS.Kernel MyOS.Drivers

/-- The file name in a command that makes a process from a file, empty for all others. -/
def namedFile : Command UInt32 → List UInt8
  | .exec name => name
  | .execp _ name => name
  | .spawn _ name => name
  | _ => []

namespace ShellState

/-- The command line that a newline would end. -/
def line (s : ShellState) : List UInt8 :=
  { s with inputBuffer := s.inputBuffer.set s.inputLen 0 }.textFrom 0

/-- A process made by a command with a file name is shown under that name. -/
def NamesKept (s : ShellState) : Prop :=
  ∀ i row name, i < 8 → s.processRow i = some row → s.given.get i = some name → row.name = name

/-- No process was made by a command with a file name. -/
def NoneGiven (s : ShellState) : Prop := ∀ i, i < 8 → s.given.get i = none

/-- A slot has a process that was not there before. -/
def MadeIn (s s' : ShellState) (i : Nat) : Prop :=
  (s.machine.kernel.processes.get i).used = false ∧ (s'.machine.kernel.processes.get i).used = true

end ShellState

section Runs

variable (image : String → Option (List UInt8))

/-- A command with a file name is ended by a newline, and makes a process. -/
structure Starts (s : ShellState) (event : ShellEvent) : Prop where
  newline : event = .key 10
  ready : s.machine.mode = .kernel
  named : namedFile (commandOf shellNumbers s.line) ≠ []
  made : ∃ i, i < 8 ∧ s.MadeIn (shellStep image s event) i

variable {image} {s s' : ShellState} {i : Nat}

section Quiet

/-- A machine that goes on after an event without a file name gives no name. -/
theorem ShellState.NoneGiven.withMachine (unnamed : s.NoneGiven) (machine : Machine) (place : NamePlace) :
    (s.withMachine machine place none).NoneGiven := by
  intro i inside
  -- A slot with a new process was given no name, and the others keep theirs.
  unfold ShellState.withMachine
  simp only [FixedArray.get_ofFn _ inside]
  split
  · rfl
  · exact unnamed i inside

/-- What the kernel does apart from a new process gives no name. -/
theorem ShellState.NoneGiven.withKernel (unnamed : s.NoneGiven) (kernel : KernelState) :
    (s.withKernel kernel).NoneGiven := unnamed

/-- A process that is made without a file name gets none. -/
theorem ShellState.NoneGiven.spawn (unnamed : s.NoneGiven) (parentPid : Int) (code : List UInt8)
    (priority : Int) (place : NamePlace) :
    (s.spawn parentPid code priority place none).2.NoneGiven := by
  -- The pointer stays null in the slot.
  unfold ShellState.spawn
  exact unnamed.withMachine _ _

/-- A built-in program is started without a file name. -/
theorem ShellState.NoneGiven.spawnBuiltin (unnamed : s.NoneGiven) (name : String) :
    (s.spawnBuiltin image name).2.NoneGiven := by
  unfold ShellState.spawnBuiltin
  -- The program has an image or has none.
  cases image name with
  | none => exact unnamed
  | some code => exact unnamed.spawn 0 code _ _

/-- Neither program of the memory demonstration has a file name. -/
theorem ShellState.NoneGiven.spawnMemdemoProcesses (unnamed : s.NoneGiven) :
    (s.spawnMemdemoProcesses image).NoneGiven := by
  -- The first program is made on a machine whose slots were given back.
  unfold ShellState.spawnMemdemoProcesses
  have first := @ShellState.NoneGiven.spawnBuiltin image _ (unnamed.withKernel
    (s.machine.kernel.withMemDemo (memdemoReset s.machine.kernel.toMemDemo))) "memalloc"
  simp only
  split
  · exact first
  · exact first.spawnBuiltin "memtrack"

/-- The demonstration of a user space makes no process. -/
theorem ShellState.NoneGiven.printUserVmDemo (unnamed : s.NoneGiven) : s.printUserVmDemo.NoneGiven := by
  unfold ShellState.printUserVmDemo
  -- A space is made, or the kernel stays as it is.
  split
  · exact unnamed
  · split <;> exact unnamed

/-- The demonstration of user mode makes no process. -/
theorem ShellState.NoneGiven.usermodeRunDemo (unnamed : s.NoneGiven) : s.usermodeRunDemo.NoneGiven := by
  unfold ShellState.usermodeRunDemo
  -- The space is there, is made, or cannot be made.
  simp only
  split
  · exact unnamed
  · split <;> exact unnamed

/-- The test of the pager makes no process, even where it stops the machine. -/
theorem ShellState.NoneGiven.pagerTest (unnamed : s.NoneGiven) : s.pagerTest.NoneGiven := by
  -- The pager changes, or the machine stops.
  unfold ShellState.pagerTest
  split <;> exact unnamed

/-- Programs that are written to files are not started. -/
theorem ShellState.NoneGiven.installApps (unnamed : s.NoneGiven) : (s.installApps image).NoneGiven := by
  unfold ShellState.installApps
  split
  · exact unnamed
  -- Writing one program after the other leaves the names alone.
  · refine List.foldlRecOn builtinNames _ unnamed fun t quiet name _ => ?_
    cases image name <;> exact quiet

/-- The test of a big file makes no process. -/
theorem ShellState.NoneGiven.bigfileTest (unnamed : s.NoneGiven) (sizes : List UInt32) :
    (s.bigfileTest sizes).NoneGiven := by
  unfold ShellState.bigfileTest
  split
  · exact unnamed
  -- Every size is tested on the files, and no more.
  · exact List.foldlRecOn sizes _ unnamed fun t quiet size _ => quiet

/-- The commands without a program make no process. -/
theorem ShellState.NoneGiven.runOther (unnamed : s.NoneGiven) (command : Command UInt32) :
    (s.runOther image command).NoneGiven := by
  unfold ShellState.runOther
  -- The command is about files, about the banker, about processes, or about none of these.
  split
  · split <;> exact unnamed
  · split
    · exact unnamed
    · split <;> exact unnamed

/-- A command that returns gives no name. -/
theorem ShellState.NoneGiven.settle (unnamed : s.NoneGiven) : s.settle.NoneGiven := by
  unfold ShellState.settle
  split <;> exact unnamed

end Quiet

section Files

/-- Reading a program leaves the processes as they are. -/
theorem loadAppFile_processes (name : List UInt8) (k : KernelState) :
    (loadAppFile name k).2.processes = k.processes := rfl

/-- A process that is made when the machine goes on gets the name that is there for it. -/
theorem withMachine_made {machine : Machine} {place : NamePlace} {given : Option (List UInt8)}
    (inside : i < 8) (made : s.MadeIn (s.withMachine machine place given) i) :
    (s.withMachine machine place given).names.get i = place ∧
      (s.withMachine machine place given).given.get i = given := by
  -- The slot was free, and is in use now.
  have here : (!(s.machine.kernel.processes.get i).used && (machine.kernel.processes.get i).used) =
      true := by
    rw [made.1]
    exact made.2
  unfold ShellState.withMachine
  simp only [FixedArray.get_ofFn _ inside]
  exact ⟨if_pos here, if_pos here⟩

/-- Where no process is made, the names stay. -/
theorem withMachine_unmade {machine : Machine} {place : NamePlace} {given : Option (List UInt8)}
    (inside : i < 8) (unmade : ¬ s.MadeIn (s.withMachine machine place given) i) :
    (s.withMachine machine place given).given.get i = s.given.get i := by
  -- The slot was in use already, or is free still.
  have absent : ¬ (!(s.machine.kernel.processes.get i).used &&
      (machine.kernel.processes.get i).used) = true := by
    intro here
    rw [Bool.and_eq_true, Bool.not_eq_true'] at here
    exact unmade here
  unfold ShellState.withMachine
  simp only [FixedArray.get_ofFn _ inside]
  exact if_neg absent

/-- The part of a command behind its arguments reads a file, and goes on to a process if it can. -/
theorem spawnFromFile_cases (s : ShellState) (cmd name : List UInt8) (parentPid priority : Int) :
    ∃ kernel : KernelState, kernel.processes = s.machine.kernel.processes ∧
      (s.spawnFromFile cmd name parentPid priority = s.withKernel kernel ∨
        ∃ kernel' : KernelState, s.spawnFromFile cmd name parentPid priority =
          (s.withKernel kernel).withMachine { s.machine with kernel := kernel' }
            (.input (cmd.length - name.length)) (if name.isEmpty then none else some name)) := by
  have old := loadAppFile_processes name s.machine.kernel
  -- Without a volume nothing happens, without a program only the disk is used.
  unfold ShellState.spawnFromFile
  split
  · exact ⟨s.machine.kernel, rfl, .inl rfl⟩
  · split
    · rename_i kernel loaded
      rw [loaded] at old
      exact ⟨kernel, old, .inl rfl⟩
    · rename_i code kernel loaded
      rw [loaded] at old
      exact ⟨kernel, old, .inr ⟨_, rfl⟩⟩

/-- What is new does not depend on what the kernel did apart from its processes. -/
theorem madeIn_withKernel {kernel : KernelState} (old : kernel.processes = s.machine.kernel.processes) :
    (s.withKernel kernel).MadeIn s' i ↔ s.MadeIn s' i := by
  -- Reading the file left the slots as they were.
  unfold ShellState.MadeIn ShellState.withKernel
  rw [old]

/-- A process that is made from a file has its name in the line. -/
theorem spawnFromFile_made {cmd name : List UInt8} {parentPid priority : Int} (given : name ≠ [])
    (inside : i < 8) (made : s.MadeIn (s.spawnFromFile cmd name parentPid priority) i) :
    (∃ position, (s.spawnFromFile cmd name parentPid priority).names.get i = .input position) ∧
      (s.spawnFromFile cmd name parentPid priority).given.get i = some name := by
  have named : ¬ name.isEmpty = true := List.isEmpty_iff.not.mpr given
  obtain ⟨kernel, old, same | ⟨kernel', same⟩⟩ := spawnFromFile_cases s cmd name parentPid priority
  · -- Nothing was made.
    rw [same] at made
    have free := made.1
    rw [← old] at free
    exact absurd (free.symm.trans made.2) Bool.false_ne_true
  -- The slot is one that was filled, with the name where it stands in the line.
  · rw [if_neg named] at same
    rw [same] at made ⊢
    obtain ⟨place, known⟩ := withMachine_made inside ((madeIn_withKernel old).mpr made)
    exact ⟨⟨_, place⟩, known⟩

/-- Where no process is made from a file with a name, no name is given. -/
theorem ShellState.NoneGiven.spawnFromFile (unnamed : s.NoneGiven) {cmd name : List UInt8}
    {parentPid priority : Int}
    (quiet : name = [] ∨ ∀ i, i < 8 → ¬ s.MadeIn (s.spawnFromFile cmd name parentPid priority) i) :
    (s.spawnFromFile cmd name parentPid priority).NoneGiven := by
  obtain ⟨kernel, old, same | ⟨kernel', same⟩⟩ := spawnFromFile_cases s cmd name parentPid priority
  -- No process was tried.
  · rw [same]
    exact unnamed
  -- A process was tried, without a name or without success.
  · rw [same] at quiet ⊢
    cases quiet with
    | inl empty =>
      subst empty
      exact (unnamed.withKernel kernel).withMachine _ _
    | inr unmade =>
      intro i inside
      rw [withMachine_unmade inside fun made => unmade i inside ((madeIn_withKernel old).mp made)]
      exact unnamed i inside

end Files

/-- What the commands with a file name have in common. -/
theorem runCommand_named {cmd : List UInt8} (named : namedFile (commandOf shellNumbers cmd) ≠ []) :
    ∃ parentPid priority, s.runCommand image cmd =
      s.spawnFromFile cmd (namedFile (commandOf shellNumbers cmd)) parentPid priority := by
  -- Only three commands have a file name, and all of them end in the same part.
  revert named
  unfold ShellState.runCommand
  generalize commandOf shellNumbers cmd = command
  cases command <;> first | exact fun _ => ⟨_, _, rfl⟩ | exact fun named => absurd rfl named

/-- A line that makes no process from a file with a name gives no name. -/
theorem runCommand_none (unnamed : s.NoneGiven) {cmd : List UInt8}
    (quiet : namedFile (commandOf shellNumbers cmd) = [] ∨
      ∀ i, i < 8 → ¬ s.MadeIn (s.runCommand image cmd) i) : (s.runCommand image cmd).NoneGiven := by
  -- The commands are gone through, each with the law of what it does.
  revert quiet
  unfold ShellState.runCommand
  generalize commandOf shellNumbers cmd = command
  cases command with
  | exec name => exact unnamed.spawnFromFile
  | execp priority name => exact unnamed.spawnFromFile
  | spawn parentPid name => exact unnamed.spawnFromFile
  | memdemo => exact fun _ => unnamed.spawnMemdemoProcesses
  | installapps => exact fun _ => unnamed.installApps
  | bigfiletestSuite => exact fun _ => unnamed.bigfileTest _
  | bigfiletest size => exact fun _ => unnamed.bigfileTest _
  | autoschedOn => exact fun _ => unnamed
  | autoschedOff => exact fun _ => unnamed
  | uservm => exact fun _ => unnamed.printUserVmDemo
  | ring3 => exact fun _ => unnamed.usermodeRunDemo
  | pagertest => exact fun _ => unnamed.pagerTest
  | pageralgoClock => exact fun _ => unnamed
  | pageralgoLru => exact fun _ => unnamed
  | _ => exact fun _ => unnamed.runOther _

/-- The line is empty once a command has returned, so that a name in it is gone. -/
theorem finishCommand_textFrom (position : Nat) : s.finishCommand.textFrom position = [] := by
  -- Every place of the buffer holds a zero.
  have zero (k : Nat) : (FixedArray.fill 0 : FixedArray 128 UInt8).get k = 0 := by
    unfold FixedArray.get
    split <;> rfl
  -- So the text ends before it begins.
  unfold ShellState.textFrom ShellState.finishCommand
  cases List.range' position (inputMax - position) with
  | nil => rfl
  | cons k rest => rw [List.map_cons, zero, List.takeWhile_cons_of_neg (by decide)]

/-- A command that returns leaves the machine as it is. -/
theorem settle_machine (s : ShellState) : s.settle.machine = s.machine := by
  unfold ShellState.settle
  split <;> rfl

/-- A newline runs the command in the line. -/
theorem shellStep_newline (ready : s.machine.mode = .kernel) :
    shellStep image s (.key 10) =
      { { s with inputBuffer := s.inputBuffer.set s.inputLen 0 }.runCommand image s.line with
        busy := true }.settle := by
  -- The line is ended and run, and then the prompt settles.
  unfold shellStep
  rw [ready]
  rfl

/-- Making a process from a file leaves the kernel with the processor. -/
theorem spawnFromFile_mode (s : ShellState) (cmd name : List UInt8) (parentPid priority : Int) :
    (s.spawnFromFile cmd name parentPid priority).machine.mode = s.machine.mode := by
  -- Neither the file nor the slots say who has the processor.
  obtain ⟨kernel, -, same | ⟨kernel', same⟩⟩ := spawnFromFile_cases s cmd name parentPid priority
  · rw [same]
    rfl
  · rw [same]
    rfl

/-- A command that makes a process from a file leaves it without its name. -/
theorem Starts.lost {event : ShellEvent} (starts : Starts image s event) :
    ¬ (shellStep image s event).NamesKept := by
  -- The key is a newline, and the command in the line makes a process in some slot.
  obtain ⟨rfl, ready, named, i, inside, made⟩ := starts
  rw [shellStep_newline ready] at made ⊢
  obtain ⟨parentPid, priority, same⟩ := @runCommand_named image
    { s with inputBuffer := s.inputBuffer.set s.inputLen 0 } s.line named
  rw [same] at made ⊢
  -- The command returns at once, and the line is cleared.
  have mode := spawnFromFile_mode { s with inputBuffer := s.inputBuffer.set s.inputLen 0 } s.line
    (namedFile (commandOf shellNumbers s.line)) parentPid priority
  generalize ran : ShellState.spawnFromFile _ _ _ _ _ = t at made mode ⊢
  have done : ({ t with busy := true } : ShellState).settle = t.finishCommand := by
    unfold ShellState.settle
    rw [mode, ready]
    rfl
  rw [done] at made ⊢
  obtain ⟨⟨position, place⟩, given⟩ := spawnFromFile_made named inside (by rw [ran]; exact made)
  rw [ran] at place given
  -- The process is in the table, and was given a name.
  intro kept
  have shown := kept i _ _ inside (if_pos made.2) given
  -- But its name points into the line, where nothing is left.
  have empty : t.finishCommand.nameOf i = [] := by
    unfold ShellState.nameOf
    have here : t.finishCommand.names.get i = .input position := place
    rw [here]
    exact finishCommand_textFrom position
  exact named (shown.symm.trans empty)

/-- A key that makes no process from a file gives no name. -/
theorem shellHandleKey_none (unnamed : s.NoneGiven) (ready : s.machine.mode = .kernel) {key : UInt16}
    (quiet : ¬ Starts image s (.key key)) : (shellHandleKey image key s).NoneGiven := by
  have step : shellStep image s (.key key) = shellHandleKey image key s := by
    unfold shellStep
    rw [ready]
    rfl
  -- The keys are gone through as the source does.
  unfold shellHandleKey
  split
  · exact unnamed
  · split
    · exact unnamed
    · rename_i small
      simp only
      split
      · rename_i newline
        -- The command is run, and a process that it makes from a file is what `Starts` speaks of.
        have enter : key = 10 := by
          rw [beq_iff_eq, ← UInt8.toNat_inj, UInt16.toNat_toUInt8] at newline
          rw [gt_iff_lt, UInt16.lt_iff_toNat_lt, Nat.not_lt] at small
          apply UInt16.toNat_inj.mp
          rw [← Nat.mod_eq_of_lt (Nat.lt_succ_of_le small)]
          exact newline
        subst enter
        have given := @runCommand_none image { s with inputBuffer := s.inputBuffer.set s.inputLen 0 }
          unnamed s.line
        refine ShellState.NoneGiven.settle (given ?_)
        by_contra other
        rw [not_or] at other
        refine other.2 fun i inside made => quiet ⟨rfl, ready, other.1, i, inside, ?_⟩
        rw [shellStep_newline ready]
        exact ⟨made.1, by rw [settle_machine]; exact made.2⟩
      · split
        · split <;> exact unnamed
        · split
          · exact unnamed
          · split <;> exact unnamed

/-- Where no process is made from a file, no name is given. -/
theorem shellStep_none (unnamed : s.NoneGiven) {event : ShellEvent} (quiet : ¬ Starts image s event) :
    (shellStep image s event).NoneGiven := by
  -- A clock event makes no process, and a program makes them without a file.
  cases event with
  | schedule =>
    simp only [shellStep]
    split <;> exact unnamed
  | program event =>
    simp only [shellStep]
    split
    · exact (unnamed.withMachine _ _).settle
    · exact unnamed
  | key key =>
    simp only [shellStep]
    split
    · rename_i ready
      exact shellHandleKey_none unnamed (beq_iff_eq.mp ready) quiet
    · exact unnamed

/-- Nothing was given, so that nothing is lost. -/
theorem ShellState.NoneGiven.kept (unnamed : s.NoneGiven) : s.NamesKept := by
  -- Where no name was given there is none to differ from.
  intro i row name inside _ given
  rw [unnamed i inside] at given
  exact absurd given nofun

end Runs

section Kept

variable (image : String → Option (List UInt8))

/--
Every process that a command made from a file is shown under the file's name exactly in the runs
in which no command makes one.
-/
theorem names_kept_iff (s : KernelState) (events : List ShellEvent) :
    (∀ before, before <+: events → (shellRun image (shellStart s) before).NamesKept) ↔
      ∀ before event after, events = before ++ event :: after →
        ¬ Starts image (shellRun image (shellStart s) before) event := by
  constructor
  -- A command that makes a process loses the name, in the state behind it.
  · intro kept before event after split starts
    have here := kept (before ++ [event]) ⟨after, by rw [split, List.append_assoc]; rfl⟩
    unfold shellRun at here
    rw [List.foldl_append] at here
    exact starts.lost here
  -- Until such a command there are no names given, by induction on the run.
  · intro quiet before front
    suffices unnamed : (shellRun image (shellStart s) before).NoneGiven from unnamed.kept
    induction before using List.reverseRecOn with
    | nil => exact fun i inside => FixedArray.get_fill none inside
    | append_singleton first last ih =>
      have earlier := ih ((List.prefix_append first [last]).trans front)
      obtain ⟨after, split⟩ := front
      unfold shellRun
      rw [List.foldl_append]
      exact shellStep_none earlier (quiet first last after (by rw [← split, List.append_assoc]; rfl))

end Kept

section Example

/-- A line that is typed, with its end. -/
def typedLine (text : String) : List ShellEvent :=
  (textBytes text).map (fun c => .key c.toUInt16) ++ [.key 10]

/-- The disk is formatted, and a file is written and started. -/
def startFile : List ShellEvent := typedLine "mkfs" ++ typedLine "write a x" ++ typedLine "exec a"

/-- The process that was started from the file is shown without a name. -/
theorem started_file_nameless :
    ¬ (shellRun (fun _ => none) (shellStart smallKernel) startFile).NamesKept := by
  -- The run is computed: the process is there, it has a name, and the name shows as nothing.
  intro kept
  let final := shellRun (fun _ => none) (shellStart smallKernel) startFile
  have used : (final.machine.kernel.processes.get 0).used = true := by decide +kernel
  have given : final.given.get 0 = some (textBytes "a") := by decide +kernel
  have shown : final.nameOf 0 = [] := by decide +kernel
  have same := kept 0 _ _ (by decide) (if_pos used) given
  exact absurd (shown.symm.trans same) (by decide)

end Example

end MyOS.Shell
