import MyOS.Kernel.ProcessTable

/-! What every event does to the process table, and what is true of the table after every run. -/

namespace MyOS.Kernel

open MyOS.Mm Relation

/-- Moves after which the same process runs, and the scheduler goes on at the same place. -/
structure Quiet (t u : Table) : Prop where
  moves : ReflTransGen Move t u
  current : u.currentPid = t.currentPid
  cursor : u.scheduleCursor = t.scheduleCursor

namespace Quiet

variable {t u v : Table}

/-- Doing nothing is quiet. -/
theorem refl (t : Table) : Quiet t t := ⟨.refl, rfl, rfl⟩

/-- Quiet steps are composed. -/
theorem trans (first : Quiet t u) (second : Quiet u v) : Quiet t v :=
  ⟨first.moves.trans second.moves, second.current.trans first.current,
    second.cursor.trans first.cursor⟩

end Quiet

section Calls

variable {s : KernelState} {i : Nat} (ok : s.table.Ok)

include ok

/-- Giving up a process makes its children orphans and empties its slot. -/
theorem releaseProcess_table (inside : i < 8) (used : (s.processes.get i).used = true)
    (stopped : (s.processes.get i).state ≠ .running) :
    (releaseProcess s i).table = (s.table.adopt (s.processes.get i).pid).put i emptyProcess := by
  -- A process that does not run is given up in the order of the source.
  have positive : (1 : Int) ≤ (s.processes.get i).pid := (ok.pids inside used).1
  unfold releaseProcess
  rw [if_neg (by simp [used, stopped])]
  simp only [setProcess_table]
  rw [releaseMemory_table]
  exact congrArg (Table.put · i emptyProcess) (adoptChildren_table s (by omega))

/-- Giving up a process is quiet. -/
theorem releaseProcess_quiet (inside : i < 8) (used : (s.processes.get i).used = true)
    (stopped : (s.processes.get i).state ≠ .running) : Quiet s.table (releaseProcess s i).table := by
  -- It is one move.
  rw [releaseProcess_table ok inside used stopped]
  exact ⟨.single (Move.released s.table i inside used stopped), rfl, rfl⟩

/-- `process_kill` -/
theorem processKill_quiet (pid : Int) : Quiet s.table (processKill s pid).2.table := by
  -- Refused, or the process is given up.
  unfold processKill
  split
  · exact .refl _
  · next i found =>
    obtain ⟨inside, used, -⟩ := findProcessByPid_some found
    split
    · exact .refl _
    · next stopped => exact releaseProcess_quiet ok inside used (by simpa using stopped)

/-- `process_wait_child` -/
theorem processWaitChild_quiet (parentPid childPid : Int) :
    Quiet s.table (processWaitChild s parentPid childPid).2.table := by
  -- Nothing to wait for, or the zombie is given up.
  unfold processWaitChild
  split
  · exact .refl _
  · split
    · split <;> exact .refl _
    · next i found =>
      obtain ⟨here, member, -⟩ := List.find?_range_eq_some.mp found
      simp only [isWaitedChild, Bool.and_eq_true, beq_iff_eq] at here
      refine releaseProcess_quiet ok (List.mem_range.mp member) here.1.1.1 ?_
      rw [here.2]
      nofun

/-- One round of the loop over the zombies. -/
theorem reapStep_quiet (inside : i < 8) : Quiet s.table (reapStep s i).table := by
  -- A zombie is given up, everybody else is passed over.
  unfold reapStep
  split
  · next ended =>
    simp only [Bool.and_eq_true, beq_iff_eq] at ended
    refine releaseProcess_quiet ok inside ended.1.1 ?_
    rw [ended.1.2]
    nofun
  · exact .refl _

/-- The first rounds of the loop over the zombies. -/
theorem reapLoop_quiet (n : Nat) (inside : n ≤ 8) :
    Quiet s.table ((List.range n).foldl reapStep s).table := by
  -- Induction on the number of rounds.
  induction n with
  | zero => exact .refl _
  | succ n ih =>
    have before := ih (by omega)
    rw [List.range_succ, List.foldl_append]
    exact before.trans (reapStep_quiet (ok.moves before.moves) inside)

/-- `process_reap_zombies` -/
theorem processReapZombies_quiet : Quiet s.table (processReapZombies s).table :=
  reapLoop_quiet ok 8 (Nat.le_refl _)

omit ok in
/-- `process_set_priority` -/
theorem processSetPriority_quiet (pid priority : Int) :
    Quiet s.table (processSetPriority s pid priority).2.table := by
  -- Refused, or the priority of one slot changes.
  unfold processSetPriority
  split
  · exact .refl _
  · next range =>
    simp only [not_or, Int.not_lt, gt_iff_lt] at range
    split
    · exact .refl _
    · next i found =>
      obtain ⟨inside, used, -⟩ := findProcessByPid_some found
      split
      · exact .refl _
      · exact ⟨.single (Move.edited s.table i _ inside used used rfl rfl rfl rfl rfl range), rfl, rfl⟩

omit ok in
/-- A process that is entered was ready, and is the current one afterwards. -/
theorem processEnter_cases (pid : Int) (idle : s.currentPid = 0) :
    ((processEnter s pid).1 = none ∧ (processEnter s pid).2.table = s.table) ∨
    ∃ i, (processEnter s pid).1 = some i ∧ i < 8 ∧ s.findProcessByPid pid = some i ∧
      (s.processes.get i).used = true ∧ (s.processes.get i).pid = pid ∧
      (s.processes.get i).state = .ready ∧
      (processEnter s pid).2.table =
        { s.table.put i { s.processes.get i with state := .running } with currentPid := pid } ∧
      Move s.table (processEnter s pid).2.table := by
  -- Unknown or not ready, otherwise it becomes the current process and runs.
  unfold processEnter
  split
  · exact Or.inl ⟨rfl, rfl⟩
  · next i found =>
    obtain ⟨inside, used, same⟩ := findProcessByPid_some found
    split
    · exact Or.inl ⟨rfl, rfl⟩
    · next ready =>
      split
      · exact Or.inl ⟨rfl, rfl⟩
      · right
        have state : (s.processes.get i).state = .ready := by simpa using ready
        have table : (⟨s.processes.set i { s.processes.get i with state := .running }, s.nextPid,
            (s.processes.get i).pid, s.scheduleCursor⟩ : Table) =
            { s.table.put i { s.processes.get i with state := .running } with currentPid := pid } := by
          rw [same]
          rfl
        refine ⟨i, rfl, inside, found, used, same, state, table, ?_⟩
        exact Move.entered s.table i inside used state idle

/-- A process that is left is ready again, or it has ended. -/
theorem processLeave_move (inside : i < 8) (used : (s.processes.get i).used = true)
    (current : (s.processes.get i).pid = s.currentPid) (result : UInt32) :
    Move s.table (processLeave s i result).table ∧
      (processLeave s i result).scheduleCursor = s.scheduleCursor := by
  have positive : (1 : Int) ≤ (s.processes.get i).pid := (ok.pids inside used).1
  unfold processLeave
  simp only
  split
  · exact ⟨Move.yielded s.table i inside used current, rfl⟩
  · generalize ended : KernelState.setProcess (s.withVmm _) i _ = u
    have table : u.table =
        s.table.put i { s.processes.get i with exitCode := result, state := .zombie } := by
      rw [← ended]
      rfl
    have slot : (u.processes.get i).pid = (s.processes.get i).pid := by
      have here := congrArg (fun table => (table.processes.get i).pid) table
      refine here.trans ?_
      rw [Table.put_get _ _ _ inside, if_pos rfl]
    -- The children are adopted once the process has become a zombie.
    have adopted := @adoptChildren_table u (s.processes.get i).pid (by omega)
    rw [table] at adopted
    rw [slot]
    refine ⟨?_, congrArg Table.scheduleCursor adopted⟩
    change Move s.table (KernelState.table _).idle
    rw [adopted]
    exact Move.exited s.table i result inside used current

/-- Keeping the registers of the current process changes its context only. -/
theorem processSaveYieldFrame_table (inside : i < 8) (used : (s.processes.get i).used = true)
    (current : (s.processes.get i).pid = s.currentPid) (frame : InterruptFrame) :
    (processSaveYieldFrame s frame).table =
      s.table.put i { s.processes.get i with context := contextOf frame } := by
  -- The slot of the current process is found and only its context replaced.
  have positive : (1 : Int) ≤ (s.processes.get i).pid := (ok.pids inside used).1
  unfold processSaveYieldFrame
  rw [if_neg (by rw [beq_iff_eq]; omega)]
  cases found : s.findProcessByPid s.currentPid with
  | none => exact absurd current (findProcessByPid_none found inside used)
  | some j =>
    obtain ⟨inside', used', same⟩ := findProcessByPid_some found
    have here : j = i := ok.distinct inside' inside used' used (same.trans current.symm)
    subst here
    rfl

/-- One more page for the current process is noted in its slot. -/
theorem processVmAllocPage_moves (pageIndex : UInt32) :
    ReflTransGen Move s.table (processVmAllocPage s pageIndex).2.table := by
  -- Refused without a current process, otherwise its slot notes the page.
  unfold processVmAllocPage
  split
  · exact .refl
  · split
    · exact .refl
    · next i found =>
      obtain ⟨inside, used, -⟩ := findProcessByPid_some found
      split
      · exact .refl
      · simp only
        split
        · exact .refl
        · split
          · exact .refl
          · exact .single (Move.edited s.table i _ inside used used rfl rfl rfl rfl rfl
              (ok.priority inside used))

end Calls

/-- A parent that is accepted is the shell, or a process that has not ended. -/
theorem parentPidIsValid_cases {s : KernelState} {parentPid : Int}
    (valid : s.parentPidIsValid parentPid = true) :
    parentPid = 0 ∨ ∃ j, j < 8 ∧ (s.processes.get j).used = true ∧
      (s.processes.get j).pid = parentPid ∧ (s.processes.get j).state ≠ .zombie := by
  -- The shell is accepted by its number, a process by the search.
  unfold KernelState.parentPidIsValid at valid
  rw [Bool.or_eq_true, beq_iff_eq] at valid
  rcases valid with zero | found
  · exact Or.inl zero
  · right
    split at found
    · cases found
    · next j here =>
      obtain ⟨inside, used, same⟩ := findProcessByPid_some here
      exact ⟨j, inside, used, same, by simpa using found⟩

/-- A spawn has the effect of a spawn. -/
theorem Spawned.effect {s : KernelState} {parentPid priority : Int} {imageSize : Nat} {result : Int}
    {u : Table} (spawned : Spawned s parentPid priority imageSize result u) :
    Effect .spawn s.table u := by
  -- Refused, given up, or made.
  cases spawned with
  | refused => exact .refused _
  | abandoned i p inside free unused =>
    exact Effect.spawned s.table i p inside free fun used => nomatch unused.symm.trans used
  | born i directory inside free parent low high =>
    exact Effect.spawned s.table i _ inside free fun _ =>
      ⟨rfl, rfl, ⟨low, high⟩, rfl, parentPidIsValid_cases parent⟩

/-- A program built into the kernel is spawned like any other. -/
theorem processSpawnBuiltin_effect (builtin : UInt32 → Option (List UInt8)) (appId : UInt32)
    (s : KernelState) :
    Effect .spawn s.table (processSpawnBuiltinChildForCurrent s builtin appId).2.table := by
  -- An unknown program is refused, and so is a spawn without a current process.
  unfold processSpawnBuiltinChildForCurrent
  split
  · exact .refused _
  · split
    · exact .refused _
    · split
      · exact .refused _
      · split
        · exact .refused _
        · exact (processSpawn_table s _ _ _ _).effect

/-- The machine is in order: its table is, and its mode agrees with it. -/
structure Machine.Ok (m : Machine) : Prop where
  table : m.kernel.table.Ok
  idle : m.mode = .kernel → m.kernel.currentPid = 0
  busy : ∀ {slot selected}, m.mode = .user slot selected → slot < 8 ∧
    (m.kernel.processes.get slot).used = true ∧
    (m.kernel.processes.get slot).pid = m.kernel.currentPid

/-- What a system call is about. -/
def syscallLabel (frame : InterruptFrame) : Label :=
  if frame.eax == sysYield then .save frame
  else if frame.eax == sysSpawnApp then .spawn
  else .other

/-- What an event is about. -/
def Machine.label (m : Machine) (event : Event) : Label :=
  match m.mode, event with
  | .kernel, .spawn _ _ _ _ => .spawn
  | .user _ _, .syscall frame => syscallLabel frame
  | .user _ _, .clock scheduleEvent frame =>
    if (processPreemptIfNeeded scheduleEvent frame m.kernel).1 then .save frame else .other
  | _, _ => .other

/-- The processes that were there are there still, and the current one is the same. -/
structure Table.Keeps (t u : Table) : Prop where
  current : u.currentPid = t.currentPid
  cursor : u.scheduleCursor = t.scheduleCursor
  slots : ∀ {j}, j < 8 → (t.processes.get j).used = true →
    (u.processes.get j).used = true ∧ (u.processes.get j).pid = (t.processes.get j).pid

namespace Table.Keeps

variable {t : Table} {i : Nat} {p : Process}

/-- Who is there stays. -/
theorem refl (t : Table) : t.Keeps t := ⟨rfl, rfl, fun _ used => ⟨used, rfl⟩⟩

/-- Replacing a slot in use by one with the same number. -/
theorem put_used (kept : p.used = true) (pid : p.pid = (t.processes.get i).pid) : t.Keeps (t.put i p) := by
  -- At slot `i` it is assumed, elsewhere the slot is as before.
  refine ⟨rfl, rfl, fun {j} small used => ?_⟩
  rw [t.put_get i p small]
  split
  · next here =>
    subst here
    exact ⟨kept, pid⟩
  · exact ⟨used, rfl⟩

/-- Filling a free slot. -/
theorem put_free (free : (t.processes.get i).used = false) (n : Int) :
    t.Keeps { t.put i p with nextPid := n } := by
  -- Slot `i` was free, elsewhere the slot is as before.
  refine ⟨rfl, rfl, fun {j} small used => ?_⟩
  rw [show Table.processes _ = (t.put i p).processes from rfl, t.put_get i p small]
  split
  · next here =>
    subst here
    exact nomatch free.symm.trans used
  · exact ⟨used, rfl⟩

end Table.Keeps

/-- A spawn leaves the processes that were there alone. -/
theorem Effect.keeps {t u : Table} (effect : Effect .spawn t u) : t.Keeps u := by
  -- A new process takes a free slot.
  cases effect with
  | refused => exact .refl t
  | spawned _ _ _ _ free _ => exact .put_free free _

/-- What comes after is part of the effect. -/
theorem Effect.extend {label : Label} {t u v : Table} (effect : Effect label t u)
    (other : label ≠ .spawn) (moves : ReflTransGen Move u v) : Effect label t v := by
  -- Only a spawn does not go on.
  cases effect with
  | refused => exact absurd rfl other
  | spawned => exact absurd rfl other
  | saved _ _ frame i inside used current before =>
    exact .saved t v frame i inside used current (before.trans moves)
  | moved _ _ before => exact .moved t v (before.trans moves)

/-- Keeping registers is no spawn. -/
theorem Label.save_ne_spawn (frame : InterruptFrame) : Label.save frame ≠ .spawn := nofun

/-- A page for the current process keeps who is there. -/
theorem processVmAllocPage_keeps (s : KernelState) (pageIndex : UInt32) :
    s.table.Keeps (processVmAllocPage s pageIndex).2.table := by
  -- The slot that notes the page keeps its number.
  unfold processVmAllocPage
  split
  · exact .refl _
  · split
    · exact .refl _
    · next i found =>
      obtain ⟨inside, used, -⟩ := findProcessByPid_some found
      split
      · exact .refl _
      · simp only
        split
        · exact .refl _
        · split
          · exact .refl _
          · exact Table.Keeps.put_used used rfl

/-- A system call that is neither of the two is like any other. -/
theorem syscallLabel_other {frame : InterruptFrame} (notYield : frame.eax ≠ sysYield)
    (notSpawn : frame.eax ≠ sysSpawnApp) : syscallLabel frame = .other := by
  -- Both tests fail.
  unfold syscallLabel
  rw [if_neg (by simpa using notYield), if_neg (by simpa using notSpawn)]

/-- What a system call does to the table, before the process may be left. -/
theorem usermodeHandleSyscall_effect (builtin : UInt32 → Option (List UInt8)) (frame : InterruptFrame)
    {s : KernelState} {slot : Nat} (ok : s.table.Ok) (inside : slot < 8)
    (used : (s.processes.get slot).used = true)
    (current : (s.processes.get slot).pid = s.currentPid) :
    Effect (syscallLabel frame) s.table (usermodeHandleSyscall builtin frame s).2.table ∧
      s.table.Keeps (usermodeHandleSyscall builtin frame s).2.table ∧
      (syscallLabel frame = .spawn →
        ∃ frame', (usermodeHandleSyscall builtin frame s).1 = .resume frame') := by
  -- A call other than these two leaves the processes as they are.
  have other : ∀ {number : UInt32} {k : KernelState} {outcome : Outcome},
      (frame.eax == number) = true → number ≠ sysYield → number ≠ sysSpawnApp →
      ReflTransGen Move s.table k.table → s.table.Keeps k.table →
      Effect (syscallLabel frame) s.table k.table ∧ s.table.Keeps k.table ∧
        (syscallLabel frame = .spawn → ∃ frame', outcome = .resume frame') := by
    intro number k outcome here notYield notSpawn moves keeps
    rw [beq_iff_eq] at here
    rw [syscallLabel_other (by rw [here]; exact notYield) (by rw [here]; exact notSpawn)]
    exact ⟨.moved _ _ moves, keeps, nofun⟩
  unfold usermodeHandleSyscall
  by_cases here : (frame.eax == sysWrite) = true
  · rw [if_pos here]
    exact other here (by decide) (by decide) .refl (.refl _)
  rw [if_neg here]
  by_cases here : (frame.eax == sysExit) = true
  · rw [if_pos here]
    exact other here (by decide) (by decide) .refl (.refl _)
  rw [if_neg here]
  by_cases yields : (frame.eax == sysYield) = true
  · have saved := processSaveYieldFrame_table ok inside used current frame
    rw [if_pos yields]
    unfold syscallLabel
    rw [if_pos yields]
    simp only [saved]
    exact ⟨.saved _ _ frame slot inside used current .refl, .put_used used rfl, nofun⟩
  rw [if_neg yields]
  by_cases here : (frame.eax == sysMemdemoOp) = true
  · rw [if_pos here]
    exact other here (by decide) (by decide) .refl (.refl _)
  rw [if_neg here]
  by_cases here : (frame.eax == sysMemdemoReset) = true
  · rw [if_pos here]
    exact other here (by decide) (by decide) .refl (.refl _)
  rw [if_neg here]
  by_cases here : (frame.eax == sysMemdemoReport) = true
  · rw [if_pos here]
    exact other here (by decide) (by decide) .refl (.refl _)
  rw [if_neg here]
  by_cases here : (frame.eax == sysVmAlloc) = true
  · rw [if_pos here]
    exact other here (by decide) (by decide) (processVmAllocPage_moves ok frame.ebx)
      (processVmAllocPage_keeps s frame.ebx)
  rw [if_neg here]
  by_cases here : (frame.eax == sysVmSample) = true
  · have same : (if s.currentAlgorithm = .lru then s.withPager (pagerSampleUsage s.toPager)
        else s).table = s.table := by split <;> rfl
    rw [if_pos here]
    refine other here (by decide) (by decide) ?_ ?_
    · rw [same]
    · rw [same]
      exact .refl _
  rw [if_neg here]
  by_cases here : (frame.eax == sysPagerTraceReset) = true
  · rw [if_pos here]
    exact other here (by decide) (by decide) .refl (.refl _)
  rw [if_neg here]
  by_cases spawns : (frame.eax == sysSpawnApp) = true
  · have spawned := processSpawnBuiltin_effect builtin frame.ebx s
    rw [if_pos spawns]
    unfold syscallLabel
    rw [if_neg yields, if_pos spawns]
    exact ⟨spawned, spawned.keeps, fun _ => ⟨_, rfl⟩⟩
  · rw [if_neg spawns, syscallLabel_other (by simpa using yields) (by simpa using spawns)]
    exact ⟨.moved _ _ .refl, .refl _, nofun⟩

/-- Every effect keeps what is always true, as long as there are numbers for new processes. -/
theorem Effect.ok {label : Label} {t u : Table} (effect : Effect label t u) (ok : t.Ok)
    (room : label = .spawn → t.nextPid + 1 < 2 ^ 31) : u.Ok := by
  -- Each kind of effect is a list of moves, or a process born into a free slot.
  cases effect with
  | refused => exact ok
  | spawned _ i p inside free born =>
    refine ok.put_free inside free (room rfl) fun used => ?_
    obtain ⟨pid, ready, priority, -, parent⟩ := born used
    exact ⟨pid, ready, priority, parent⟩
  | saved _ _ frame i inside used current moves =>
    have mine := ok.running inside used
    have zombie : (t.processes.get i).state = .zombie → ∀ j, j < 8 →
        (t.processes.get j).used = true → (t.processes.get j).parentPid ≠ (t.processes.get i).pid := by
      intro ended j small used' child
      have := @ok.parents j
      have := @ok.distinct i
      have := @ok.pids i
      grind
    have kept := ok.put_used (p := { t.processes.get i with context := contextOf frame }) inside used
      used rfl rfl (ok.priority inside used) mine (fun j small _ used' => ok.running small used')
      ok.current zombie
    exact Table.Ok.moves kept moves
  | moved _ _ moves => exact ok.moves moves

section Steps

variable {builtin : UInt32 → Option (List UInt8)} {m : Machine}

/-- The processor goes to a process that was ready, or stays where it is. -/
theorem Machine.enter_spec (ok : m.Ok) (idle : m.mode = .kernel) (pid : Int) (selected : Option Nat) :
    ((m.enter pid selected).kernel.table = m.kernel.table ∧
      (m.enter pid selected).mode = .kernel) ∨
    ∃ i, i < 8 ∧ (m.kernel.processes.get i).used = true ∧ (m.kernel.processes.get i).pid = pid ∧
      (m.kernel.processes.get i).state = .ready ∧ (m.enter pid selected).mode = .user i selected ∧
      (m.enter pid selected).kernel.table =
        { m.kernel.table.put i { m.kernel.processes.get i with state := .running } with
          currentPid := pid } ∧
      Move m.kernel.table (m.enter pid selected).kernel.table := by
  -- The process was found ready and becomes current, or nothing changed.
  unfold Machine.enter
  rcases processEnter_cases pid (ok.idle idle) with
    ⟨result, same⟩ | ⟨i, result, inside, -, used, pid_, ready, table, move⟩
  · left
    generalize processEnter m.kernel pid = entered at result same
    obtain ⟨slot, kernel⟩ := entered
    cases result
    exact ⟨same, rfl⟩
  · right
    generalize processEnter m.kernel pid = entered at result table move
    obtain ⟨slot, kernel⟩ := entered
    cases result
    exact ⟨i, inside, used, pid_, ready, rfl, table, move⟩

/-- The processor comes back to the kernel. -/
theorem Machine.leave_spec {slot : Nat} (ok : m.kernel.table.Ok) (inside : slot < 8)
    (used : (m.kernel.processes.get slot).used = true)
    (current : (m.kernel.processes.get slot).pid = m.kernel.currentPid) (selected : Option Nat)
    (result : UInt32) :
    ReflTransGen Move m.kernel.table (m.leave slot selected result).kernel.table ∧
      (m.leave slot selected result).mode = .kernel ∧
      (m.leave slot selected result).kernel.currentPid = 0 ∧
      (m.leave slot selected result).kernel.scheduleCursor =
        match selected with
        | none => m.kernel.scheduleCursor
        | some selected => (selected + 1) % 8 := by
  -- The move is the one of leaving, whoever was selected.
  obtain ⟨move, cursor⟩ := processLeave_move ok inside used current result
  unfold Machine.leave
  cases selected with
  | none => exact ⟨.single move, rfl, rfl, cursor⟩
  | some selected =>
    exact ⟨.tail (.single move) (Move.cursor _ _), rfl, rfl, rfl⟩

/-- A system call or a tick of the clock, with the process left behind it if need be. -/
theorem Machine.afterwards {label : Label} {kernel : KernelState} {slot : Nat} {selected : Option Nat}
    (ok : m.Ok) (busy : m.mode = .user slot selected) (effect : Effect label m.kernel.table kernel.table)
    (keeps : m.kernel.table.Keeps kernel.table) (room : label = .spawn → m.kernel.nextPid + 1 < 2 ^ 31) :
    ({ m with kernel } : Machine).Ok ∧
    (label ≠ .spawn → ∀ value,
      Effect label m.kernel.table (({ m with kernel } : Machine).leave slot selected value).kernel.table ∧
      (({ m with kernel } : Machine).leave slot selected value).Ok) := by
  -- The process goes on, or it is left as the call says.
  obtain ⟨inside, used, current⟩ := ok.busy busy
  obtain ⟨used', pid⟩ := keeps.slots inside used
  have after := effect.ok ok.table room
  have current' : (kernel.processes.get slot).pid = kernel.currentPid := by
    refine pid.trans (current.trans ?_)
    exact keeps.current.symm
  refine ⟨⟨after, fun idle => ?_, fun {slot' selected'} here => ?_⟩, fun other value => ?_⟩
  · exact nomatch idle.symm.trans busy
  · obtain ⟨rfl, rfl⟩ : slot' = slot ∧ selected' = selected := by
      have := here.symm.trans busy
      simpa using this
    exact ⟨inside, used', current'⟩
  · obtain ⟨moves, mode, zero, -⟩ :=
      Machine.leave_spec (m := { m with kernel }) after inside used' current' selected value
    have whole := effect.extend other moves
    exact ⟨whole, whole.ok ok.table room, fun _ => zero, fun here => nomatch here.symm.trans mode⟩

/-- The clock takes the processor from a process whose registers it keeps, or does nothing. -/
theorem processPreemptIfNeeded_cases (scheduleEvent : Bool) (frame : InterruptFrame) (s : KernelState) :
    processPreemptIfNeeded scheduleEvent frame s = (false, s) ∨
      processPreemptIfNeeded scheduleEvent frame s = (true, processSaveYieldFrame s frame) := by
  -- With time left nothing happens, without it the registers are kept.
  unfold processPreemptIfNeeded
  split
  · exact Or.inl rfl
  · split
    · exact Or.inl rfl
    · split
      · exact Or.inl rfl
      · exact Or.inr rfl

/-- A process that is entered runs, or everything is as it was. -/
theorem Machine.enter_effect (ok : m.Ok) (mode : m.mode = .kernel) (pid : Int)
    (selected : Option Nat) :
    Effect .other m.kernel.table (m.enter pid selected).kernel.table ∧ (m.enter pid selected).Ok := by
  rcases Machine.enter_spec ok mode pid selected with
    ⟨same, still⟩ | ⟨i, inside, used, rfl, -, busy, table, move⟩
  · -- No process was entered.
    rw [same]
    refine ⟨.moved _ _ .refl, same ▸ ok.table, fun _ => ?_, fun here => nomatch here.symm.trans still⟩
    exact (congrArg Table.currentPid same).trans (ok.idle mode)
  · -- The process entered is the current one.
    refine ⟨.moved _ _ (.single move), ok.table.move move,
      fun idle => (nomatch idle.symm.trans busy), fun {slot selected'} here => ?_⟩
    obtain ⟨rfl, rfl⟩ : slot = i ∧ selected' = selected := by simpa using here.symm.trans busy
    have slots : (m.enter (m.kernel.processes.get slot).pid selected').kernel.processes.get slot =
        { m.kernel.processes.get slot with state := .running } := by
      have := congrArg (fun table => table.processes.get slot) table
      exact this.trans ((Table.put_get _ _ _ inside).trans (if_pos rfl))
    have current : (m.enter (m.kernel.processes.get slot).pid selected').kernel.currentPid =
        (m.kernel.processes.get slot).pid := congrArg Table.currentPid table
    rw [slots, current]
    exact ⟨inside, used, rfl⟩

/-- What happens while the kernel has the processor has the effect that its label says. -/
theorem kernelStep_effect (ok : m.Ok) (mode : m.mode = .kernel) (event : Event)
    (room : m.label event = .spawn → m.kernel.nextPid + 1 < 2 ^ 31) :
    Effect (m.label event) m.kernel.table (kernelStep m event).kernel.table ∧
      (kernelStep m event).Ok := by
  have nothing : Effect .other m.kernel.table m.kernel.table ∧ m.Ok := ⟨.moved _ _ .refl, ok⟩
  have zero := ok.idle mode
  -- What the kernel does by itself leaves the processor with it.
  have stays : ∀ {label : Label} {kernel : KernelState}, Effect label m.kernel.table kernel.table →
      (label = .spawn → m.kernel.nextPid + 1 < 2 ^ 31) → kernel.currentPid = 0 →
      Effect label m.kernel.table kernel.table ∧ ({ m with kernel } : Machine).Ok :=
    fun effect room current => ⟨effect, effect.ok ok.table room, fun _ => current,
      fun here => nomatch here.symm.trans mode⟩
  have quiet : ∀ {kernel : KernelState}, Quiet m.kernel.table kernel.table →
      Effect .other m.kernel.table kernel.table ∧ ({ m with kernel } : Machine).Ok :=
    fun quiet => stays (.moved _ _ quiet.moves) nofun (quiet.current.trans zero)
  simp only [Machine.label, mode] at room ⊢
  cases event with
  | spawn parentPid image imageSize priority =>
    have spawned := (processSpawn_table m.kernel parentPid image imageSize priority).effect
    exact stays spawned room (spawned.keeps.current.trans zero)
  | kill pid => exact quiet (processKill_quiet ok.table pid)
  | waitChild parentPid childPid => exact quiet (processWaitChild_quiet ok.table parentPid childPid)
  | reapZombies => exact quiet (processReapZombies_quiet ok.table)
  | setPriority pid priority => exact quiet (processSetPriority_quiet pid priority)
  | scheduleAuto =>
    simp only [kernelStep]
    -- No process is ready, or the one selected is entered.
    split
    · exact nothing
    · exact Machine.enter_effect ok mode _ _
  | runPid pid => exact Machine.enter_effect ok mode pid none
  | syscall frame => exact nothing
  | clock scheduleEvent frame => exact nothing
  | pageFault faultAddr errCode => exact nothing
  | read virtAddr => exact nothing
  | write virtAddr value => exact nothing

/-- What happens while a program has the processor has the effect that its label says. -/
theorem userStep_effect (builtin : UInt32 → Option (List UInt8)) (ok : m.Ok) {slot : Nat}
    {selected : Option Nat} (mode : m.mode = .user slot selected) (event : Event)
    (room : m.label event = .spawn → m.kernel.nextPid + 1 < 2 ^ 31) :
    Effect (m.label event) m.kernel.table (userStep builtin m slot selected event).kernel.table ∧
      (userStep builtin m slot selected event).Ok := by
  have nothing : Effect .other m.kernel.table m.kernel.table ∧ m.Ok := ⟨.moved _ _ .refl, ok⟩
  obtain ⟨inside, used, current⟩ := ok.busy mode
  -- An access to memory does not change the table.
  have same : ∀ {kernel : KernelState}, kernel.table = m.kernel.table →
      Effect .other m.kernel.table kernel.table ∧ ({ m with kernel } : Machine).Ok := by
    intro kernel table
    have effect : Effect .other m.kernel.table kernel.table := by
      rw [table]
      exact .moved _ _ .refl
    refine ⟨effect, (Machine.afterwards ok mode effect ?_ nofun).1⟩
    rw [table]
    exact .refl _
  simp only [Machine.label, mode] at room ⊢
  cases event with
  | syscall frame =>
    obtain ⟨effect, keeps, resumes⟩ :=
      usermodeHandleSyscall_effect builtin frame ok.table inside used current
    obtain ⟨stays, leaves⟩ := Machine.afterwards ok mode effect keeps room
    simp only [userStep]
    -- The program goes on, or the processor goes back to the kernel.
    split
    · next _ kernel result =>
      rw [result] at effect stays
      exact ⟨effect, stays⟩
    · next value kernel result =>
      rw [result] at leaves resumes
      refine leaves (fun spawns => ?_) value
      obtain ⟨frame', back⟩ := resumes spawns
      cases back
  | clock scheduleEvent frame =>
    simp only [userStep]
    rcases processPreemptIfNeeded_cases scheduleEvent frame m.kernel with result | result
    · rw [result]
      exact same rfl
    · -- The registers are kept before the processor goes back.
      have saved := processSaveYieldFrame_table ok.table inside used current frame
      have effect : Effect (.save frame) m.kernel.table
          (processSaveYieldFrame m.kernel frame).table := by
        rw [saved]
        exact .saved _ _ frame slot inside used current .refl
      have keeps : m.kernel.table.Keeps (processSaveYieldFrame m.kernel frame).table := by
        rw [saved]
        exact .put_used used rfl
      rw [result]
      exact (Machine.afterwards ok mode effect keeps nofun).2 (Label.save_ne_spawn frame)
        usermodeReturnYield
  | pageFault faultAddr errCode =>
    simp only [userStep]
    -- A fault that is not resolved stops the machine.
    split
    · exact ⟨nothing.1, ok.table, nofun, nofun⟩
    · exact same rfl
  | read virtAddr => exact same rfl
  | write virtAddr value => exact same rfl
  | spawn => exact nothing
  | kill => exact nothing
  | waitChild => exact nothing
  | reapZombies => exact nothing
  | setPriority => exact nothing
  | scheduleAuto => exact nothing
  | runPid => exact nothing

/-- Every event has the effect that its label says, and leaves the machine in order. -/
theorem machineStep_effect (builtin : UInt32 → Option (List UInt8)) (ok : m.Ok) (event : Event)
    (room : m.label event = .spawn → m.kernel.nextPid + 1 < 2 ^ 31) :
    Effect (m.label event) m.kernel.table (machineStep builtin m event).kernel.table ∧
      (machineStep builtin m event).Ok := by
  unfold machineStep
  cases mode : m.mode with
  | halted =>
    -- A machine that stopped does nothing.
    simp only [Machine.label, mode]
    exact ⟨.moved _ _ .refl, ok⟩
  | kernel => exact kernelStep_effect ok mode event room
  | user slot selected => exact userStep_effect builtin ok mode event room

end Steps

end MyOS.Kernel
