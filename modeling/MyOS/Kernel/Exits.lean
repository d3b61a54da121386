import MyOS.Kernel.Contexts

/-! How a process ends, and what its parent learns of it. -/

namespace MyOS.Kernel

open MyOS.Mm Relation

/-- Whoever has a number has ended with a code, and the number is not given again. -/
structure Table.Ended (t : Table) (pid : Int) (code : UInt32) : Prop where
  taken : pid < t.nextPid
  ended : ∀ {i}, i < 8 → (t.processes.get i).used = true → (t.processes.get i).pid = pid →
    (t.processes.get i).state = .zombie ∧ (t.processes.get i).exitCode = code

section Keeping

variable {t u : Table} {pid : Int} {code : UInt32}

/-- Replacing a slot by one that is somebody else, or has ended the same way. -/
theorem Table.Ended.put {i : Nat} {p : Process} (ended : t.Ended pid code)
    (same : p.used = true → p.pid = pid → p.state = .zombie ∧ p.exitCode = code) :
    (t.put i p).Ended pid code := by
  -- At slot `i` it is assumed, elsewhere the process is the same.
  refine ⟨ended.taken, fun {j} inside used number => ?_⟩
  rw [t.put_get i p inside] at used number ⊢
  split at used
  · next here =>
    rw [if_pos here] at number ⊢
    exact same used number
  · next other =>
    rw [if_neg other] at number ⊢
    exact ended.ended inside used number

/-- Making orphans ends nobody and wakes nobody. -/
theorem Table.Ended.adopt (ended : t.Ended pid code) (parentPid : Int) :
    (t.adopt parentPid).Ended pid code := by
  -- Only the parent and the flag of a child change.
  refine ⟨ended.taken, fun {i} inside => ?_⟩
  rw [show (t.adopt parentPid).processes.get i = _ from orphaned_get _ _ inside]
  split
  · exact fun used number => ended.ended inside used number
  · exact fun used number => ended.ended inside used number

/-- A process that has ended is not the current one. -/
theorem Table.Ended.not_current {i : Nat} (ended : t.Ended pid code) (ok : t.Ok) (inside : i < 8)
    (used : (t.processes.get i).used = true) (current : (t.processes.get i).pid = t.currentPid) :
    (t.processes.get i).pid ≠ pid := by
  -- The current process is running, the one that has ended is a zombie.
  intro number
  have positive := (ok.pids inside used).1
  have runs := (ok.running inside used).mpr ⟨by omega, current⟩
  rw [(ended.ended inside used number).1] at runs
  cases runs

/-- No move makes a process of one that has ended. -/
theorem Table.Ended.move (ended : t.Ended pid code) (ok : t.Ok) (move : Move t u) :
    u.Ended pid code := by
  cases move with
  | edited i p inside used kept number parent state context exitCode priority =>
    refine ended.put fun _ same => ?_
    rw [state, exitCode]
    exact ended.ended inside used (number.symm.trans same)
  | released i inside used stopped => exact (ended.adopt _).put nofun
  | entered i inside used ready idle =>
    have kept := ended.put (i := i) (p := { t.processes.get i with state := .running })
      fun _ number => by
        -- Who is entered was ready.
        have zombie := (ended.ended inside used number).1
        rw [ready] at zombie
        cases zombie
    exact ⟨kept.taken, kept.ended⟩
  | yielded i inside used current =>
    have kept := ended.put (i := i) (p := { t.processes.get i with state := .ready })
      fun _ number => absurd number (ended.not_current ok inside used current)
    exact ⟨kept.taken, kept.ended⟩
  | exited i result inside used current =>
    have kept := (ended.put (i := i)
      (p := { t.processes.get i with exitCode := result, state := .zombie })
      fun _ number => absurd number (ended.not_current ok inside used current)).adopt
        (t.processes.get i).pid
    exact ⟨kept.taken, kept.ended⟩
  | cursor cursor => exact ⟨ended.taken, ended.ended⟩

/-- Nor do several moves. -/
theorem Table.Ended.moves (ended : t.Ended pid code) (ok : t.Ok) (moves : ReflTransGen Move t u) :
    u.Ended pid code := by
  -- Induction on the moves.
  induction moves with
  | refl => exact ended
  | tail before move ih => exact ih.move (ok.moves before) move

/-- No event makes a process of one that has ended. -/
theorem Table.Ended.effect {label : Label} (ended : t.Ended pid code) (ok : t.Ok)
    (effect : Effect label t u) (room : label = .spawn → t.nextPid + 1 < 2 ^ 31) :
    u.Ended pid code := by
  cases effect with
  | refused => exact ended
  | spawned _ i p inside free born =>
    have first := ok.next
    have taken := ended.taken
    -- A new process gets a number that nobody had before.
    have kept := ended.put (i := i) (p := p) fun used number => by
      have fresh := (born used).1
      omega
    refine ⟨?_, kept.ended⟩
    rw [wrapInt_eq (by omega) (room rfl)]
    exact Int.lt_trans taken (Int.lt_succ _)
  | saved _ _ frame i inside used current moves =>
    have ok' := (Effect.saved t _ frame i inside used current .refl).ok ok nofun
    refine (ended.put fun _ number => ?_).moves ok' moves
    exact absurd number (ended.not_current ok inside used current)
  | moved _ _ moves => exact ended.moves ok moves

end Keeping

section Waiting

variable {s : KernelState}

/-- What a parent learns is about a process that has ended, and is what it ended with. -/
theorem processWaitChild_ok {parentPid childPid pid : Int} {code : UInt32}
    (reported : (processWaitChild s parentPid childPid).1 = .ok pid code) :
    ∃ i, i < 8 ∧ (s.processes.get i).used = true ∧ (s.processes.get i).pid = pid ∧
      (s.processes.get i).exitCode = code := by
  -- The search found a zombie, and its number and code are returned.
  unfold processWaitChild at reported
  split at reported
  · cases reported
  · split at reported
    · split at reported <;> cases reported
    · next i found =>
      obtain ⟨here, member, -⟩ := List.find?_range_eq_some.mp found
      simp only [isWaitedChild, Bool.and_eq_true, beq_iff_eq] at here
      simp only [WaitResult.ok.injEq] at reported
      exact ⟨i, List.mem_range.mp member, here.1.1.1, reported⟩

/-- A parent that waits for a child that has ended learns how it ended. -/
theorem processWaitChild_reports {i : Nat} (ok : s.table.Ok) (inside : i < 8)
    (used : (s.processes.get i).used = true) (ended : (s.processes.get i).state = .zombie) :
    (processWaitChild s (s.processes.get i).parentPid (s.processes.get i).pid).1 =
      .ok (s.processes.get i).pid (s.processes.get i).exitCode := by
  rcases ok.parents inside used with orphan | ⟨j, inside', used', same, -, -⟩
  · -- The shell waits for orphans.
    have positive : (1 : Int) ≤ (s.processes.get i).pid := (ok.pids inside used).1
    have here : (List.range processMax).find? (fun j =>
        isWaitedChild s (s.processes.get i).parentPid (s.processes.get i).pid j &&
          (s.processes.get j).state == .zombie) = some i := by
      rw [List.find?_range_eq_some]
      refine ⟨by simp [isWaitedChild, used, ended], List.mem_range.mpr inside, fun j below => ?_⟩
      by_contra waited
      simp only [isWaitedChild, Bool.not_eq_true, Bool.not_eq_false', Bool.and_eq_true, beq_iff_eq,
        Bool.or_eq_true] at waited
      have small : j < 8 := by omega
      have earlier : j = i := by
        refine ok.distinct small inside waited.1.1.1 used ?_
        rcases waited.1.2 with zero | same
        · omega
        · exact same
      omega
    unfold processWaitChild
    rw [if_neg (by rw [show (s.processes.get i).parentPid = 0 from orphan]; simp), here]
  · exact (processWaitChild_frees ok inside used ended ⟨j, inside', used', same⟩).1

end Waiting

/-- What is left of a process that has ended with a code, and what can be learned of it. -/
structure KernelState.Reports (s : KernelState) (pid : Int) (code : UInt32) : Prop where
  /-- As long as its slot is not given up it has ended, and its parent learns how. -/
  there : ∀ {i}, i < 8 → (s.processes.get i).used = true → (s.processes.get i).pid = pid →
    (s.processes.get i).state = .zombie ∧ (s.processes.get i).exitCode = code ∧
      (processWaitChild s (s.processes.get i).parentPid pid).1 = .ok pid code
  /-- Nobody learns anything else of it. -/
  only : ∀ {parentPid childPid reported},
    (processWaitChild s parentPid childPid).1 = .ok pid reported → reported = code

/-- Where a process has ended, its parent is told so. -/
theorem Table.Ended.reports {s : KernelState} {pid : Int} {code : UInt32} (ended : s.table.Ended pid code)
    (ok : s.table.Ok) : s.Reports pid code := by
  -- The zombie is the one that has ended, so its code is what the parent is told.
  refine ⟨fun inside used number => ?_, fun told => ?_⟩
  · obtain ⟨zombie, left_⟩ := ended.ended inside used number
    have reported := processWaitChild_reports ok inside used zombie
    subst number
    refine ⟨zombie, left_, reported.trans ?_⟩
    exact congrArg (WaitResult.ok _) left_
  · obtain ⟨i, inside, used, number, rfl⟩ := processWaitChild_ok told
    exact (ended.ended inside used number).2

/--
What the end of the process of a slot comes to, when it asks for it with a system call.

It is about all that happens later, while there are numbers for the processes that are asked for.
-/
structure ExitEnds (builtin : UInt32 → Option (List UInt8)) (m : Machine) (slot : Nat)
    (frame : InterruptFrame) : Prop where
  back : (machineStep builtin m (.syscall frame)).mode = .kernel
  zombie :
    (machineStep builtin m (.syscall frame)).kernel.processes.get slot =
      { m.kernel.processes.get slot with state := .zombie, exitCode := frame.ebx }
  /-- Its children belong to the shell. -/
  orphans : ∀ {j}, j < 8 → (m.kernel.processes.get j).used = true →
    (m.kernel.processes.get j).parentPid = (m.kernel.processes.get slot).pid →
    (machineStep builtin m (.syscall frame)).kernel.processes.get j =
      { m.kernel.processes.get j with parentPid := 0 }
  /-- It does not run again. -/
  never : ∀ {events j selected},
    m.kernel.nextPid + events.countP Event.isSpawn < 2 ^ 31 →
    (machineRun builtin m (.syscall frame :: events)).mode = .user j selected →
    ((machineRun builtin m (.syscall frame :: events)).kernel.processes.get j).pid ≠
      (m.kernel.processes.get slot).pid
  reports : ∀ {events}, m.kernel.nextPid + events.countP Event.isSpawn < 2 ^ 31 →
    (machineRun builtin m (.syscall frame :: events)).kernel.Reports
      (m.kernel.processes.get slot).pid frame.ebx

/-- A process is not its own parent. -/
theorem Table.Ok.own_parent {t : Table} (ok : t.Ok) {i : Nat} (inside : i < 8)
    (used : (t.processes.get i).used = true) :
    (t.processes.get i).parentPid ≠ (t.processes.get i).pid := by
  -- A parent is older than its child.
  intro own
  have positive := (ok.pids inside used).1
  rcases ok.parents inside used with orphan | ⟨j, -, -, same, older, -⟩
  · omega
  · omega

section Exit

variable {builtin : UInt32 → Option (List UInt8)} {m : Machine}

/-- Who has ended stays so all along a run. -/
theorem machineRun_ended {pid : Int} {code : UInt32} (ok : m.Ok)
    (ended : m.kernel.table.Ended pid code) {events : List Event}
    (few : m.kernel.nextPid + events.countP Event.isSpawn < 2 ^ 31) :
    (machineRun builtin m events).kernel.table.Ended pid code := by
  -- Induction on the events.
  induction events generalizing m with
  | nil => exact ended
  | cons event rest ih =>
    obtain ⟨room, next⟩ := @machineStep_few builtin m ok event rest few
    obtain ⟨effect, ok'⟩ := machineStep_effect builtin ok event room
    exact ih ok' (ended.effect ok.table effect room) next

/-- A system call to exit leaves the process with the value it gives. -/
theorem machineStep_exit {slot : Nat} {selected : Option Nat} (busy : m.mode = .user slot selected)
    {frame : InterruptFrame} (exits : frame.eax = sysExit) :
    machineStep builtin m (.syscall frame) = m.leave slot selected frame.ebx := by
  -- The number of the call is compared with that of a write first.
  have here : usermodeHandleSyscall builtin frame m.kernel = (.leave frame.ebx, m.kernel) := by
    unfold usermodeHandleSyscall
    rw [if_neg (by rw [exits]; decide), if_pos (by rw [exits]; decide)]
  unfold machineStep
  rw [busy]
  simp only [userStep, here]

/-- The processes once a process was left. -/
theorem Machine.leave_processes (slot : Nat) (selected : Option Nat) (result : UInt32) :
    (m.leave slot selected result).mode = .kernel ∧
      (m.leave slot selected result).kernel.processes = (processLeave m.kernel slot result).processes := by
  -- Whoever was selected, the slot is left in the same way.
  unfold Machine.leave
  cases selected with
  | none => exact ⟨rfl, rfl⟩
  | some selected => exact ⟨rfl, rfl⟩

/-- A process that leaves for good is a zombie, and its children are orphans. -/
theorem processLeave_exit {s : KernelState} {i : Nat} (inside : i < 8) {result : UInt32}
    (ends : result ≠ usermodeReturnYield) (positive : 1 ≤ (s.processes.get i).pid) :
    (processLeave s i result).processes = orphaned (s.processes.get i).pid
      (s.processes.set i { s.processes.get i with exitCode := result, state := .zombie }) := by
  -- The result does not stand for giving way, so the process ends.
  unfold processLeave
  simp only
  rw [if_neg (by simpa using ends)]
  generalize ended : KernelState.setProcess (s.withVmm _) i _ = u
  have table : u.table =
      s.table.put i { s.processes.get i with exitCode := result, state := .zombie } := by
    rw [← ended]
    rfl
  have slot : (u.processes.get i).pid = (s.processes.get i).pid := by
    have here := congrArg (fun table => (table.processes.get i).pid) table
    refine here.trans ?_
    rw [Table.put_get _ _ _ inside, if_pos rfl]
  have adopted := @adoptChildren_table u (u.processes.get i).pid (by omega)
  have processes := congrArg Table.processes adopted
  rw [slot] at processes
  rw [slot]
  refine processes.trans ?_
  show orphaned _ u.table.processes = _
  rw [table]
  rfl

/-- A process that gives way is ready again. -/
theorem processLeave_yield {s : KernelState} {i : Nat} (inside : i < 8) :
    ((processLeave s i usermodeReturnYield).processes.get i).state = .ready := by
  -- The result stands for giving way.
  unfold processLeave
  simp only
  rw [if_pos (by rw [beq_self_eq_true])]
  show ((s.processes.set i _).get i).state = .ready
  rw [FixedArray.get_set_same _ _ inside]

/-- The end of a process, from a machine that is in order. -/
theorem Machine.Ok.exit_iff (ok : m.Ok) {slot : Nat} {selected : Option Nat}
    (busy : m.mode = .user slot selected) {frame : InterruptFrame} (exits : frame.eax = sysExit) :
    ExitEnds builtin m slot frame ↔ frame.ebx ≠ usermodeReturnYield := by
  obtain ⟨inside, used, current⟩ := ok.busy busy
  have positive := (ok.table.pids inside used).1
  have step := @machineStep_exit builtin m slot selected busy frame exits
  obtain ⟨mode, processes⟩ := @Machine.leave_processes m slot selected frame.ebx
  constructor
  · -- A process that ends with the value that stands for giving way is ready afterwards.
    rintro ends yields
    have state := congrArg Process.state ends.zombie
    rw [step, processes, yields, processLeave_yield inside] at state
    cases state
  · intro other
    rw [processLeave_exit inside other positive] at processes
    have own := ok.table.own_parent inside used
    have slotAfter : (machineStep builtin m (.syscall frame)).kernel.processes.get slot =
        { m.kernel.processes.get slot with state := .zombie, exitCode := frame.ebx } := by
      rw [step, processes, orphaned_get _ _ inside, FixedArray.get_set_same _ _ inside]
      exact if_neg fun both => own both.2
    -- The call takes no number.
    have quiet : (Event.syscall frame).isSpawn = false := by
      show (frame.eax == sysSpawnApp) = false
      rw [exits]
      decide
    have room' : m.label (.syscall frame) = .spawn → m.kernel.nextPid + 1 < 2 ^ 31 := by
      intro spawns
      rw [Machine.label_spawn spawns] at quiet
      cases quiet
    obtain ⟨effect, ok'⟩ := machineStep_effect builtin ok (.syscall frame) room'
    have after : (machineStep builtin m (.syscall frame)).kernel.table.Ended
        (m.kernel.processes.get slot).pid frame.ebx := by
      refine ⟨?_, fun {i} small used' number => ?_⟩
      · have next := (effect.nextPid ok.table room').1
        have below := (ok.table.pids inside used).2
        exact Int.lt_of_lt_of_le below next
      · have here : i = slot := by
          refine ok'.table.distinct small inside used' ?_ ?_
          · exact (congrArg Process.used slotAfter).trans used
          · exact number.trans (congrArg Process.pid slotAfter).symm
        subst here
        exact ⟨congrArg Process.state slotAfter, congrArg Process.exitCode slotAfter⟩
    have later : ∀ {events : List Event}, m.kernel.nextPid + events.countP Event.isSpawn < 2 ^ 31 →
        (machineRun builtin m (.syscall frame :: events)).Ok ∧
        (machineRun builtin m (.syscall frame :: events)).kernel.table.Ended
          (m.kernel.processes.get slot).pid frame.ebx := by
      intro events few
      have all : m.kernel.nextPid + (Event.syscall frame :: events).countP Event.isSpawn < 2 ^ 31 := by
        rw [List.countP_cons_of_neg (by rw [quiet]; exact Bool.false_ne_true)]
        exact few
      obtain ⟨-, few'⟩ := @machineStep_few builtin m ok (.syscall frame) events all
      exact ⟨machineRun_ok ok' few', machineRun_ended ok' after few'⟩
    refine ⟨by rw [step]; exact mode, slotAfter, fun {j} small used' child => ?_,
      fun {events j selected'} few busy' => ?_, fun {events} few => ?_⟩
    · have apart : j ≠ slot := by
        rintro rfl
        exact own child
      rw [step, processes, orphaned_get _ _ small, FixedArray.get_set _ _ small, if_neg apart,
        if_pos ⟨used', child⟩]
      rfl
    · obtain ⟨ok'', ended⟩ := later few
      obtain ⟨small, used', current'⟩ := ok''.busy busy'
      exact ended.not_current ok''.table small used' current'
    · obtain ⟨ok'', ended⟩ := later few
      exact ended.reports ok''.table

end Exit

/--
A system call to exit ends a process with its code, whatever the code but one.

The value that stands for giving way takes the same road out of user mode as the code of an exit.
-/
theorem exit_ends_iff (builtin : UInt32 → Option (List UInt8)) (s : KernelState) (events : List Event)
    (few : events.countP Event.isSpawn < 2 ^ 31 - 1) (slot : Nat) (selected : Option Nat)
    (busy : (machineRun builtin (machineStart s) events).mode = .user slot selected)
    (frame : InterruptFrame) (exits : frame.eax = sysExit) :
    ExitEnds builtin (machineRun builtin (machineStart s) events) slot frame ↔
      frame.ebx ≠ usermodeReturnYield :=
  -- The state is reached by a run, so the invariant of the table decides.
  (@machineStart_run_ok builtin s events few).exit_iff busy exits

section Example

/-- A process that asks to end. -/
def exitFrame (code : UInt32) : InterruptFrame :=
  { (default : InterruptFrame) with eax := sysExit, ebx := code }

/-- A process is made, and runs. -/
def smallRun : List Event := [.spawnByte 0 5, .runPid 1]

/-- A process ends with a code of its own. -/
theorem exit_ends_small :
    ExitEnds (fun _ => none) (machineRun (fun _ => none) (machineStart smallKernel) smallRun) 0
      (exitFrame 7) :=
  -- The code 7 does not stand for giving way.
  (exit_ends_iff (fun _ => none) smallKernel smallRun (by decide) 0 none (by decide +kernel)
    (exitFrame 7) rfl).mpr (by decide)

/-- A process that ends with the value that stands for giving way goes on later. -/
theorem exit_yields :
    ¬ ExitEnds (fun _ => none) (machineRun (fun _ => none) (machineStart smallKernel) smallRun) 0
      (exitFrame 0xFFFFFFFE) := by
  -- The slot is ready after the call, not a zombie.
  intro ends
  have state := congrArg Process.state ends.zombie
  exact absurd state (by decide +kernel)

end Example

end MyOS.Kernel
