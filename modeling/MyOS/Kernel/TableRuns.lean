import MyOS.Fs.Volume
import MyOS.Kernel.MachineLaws
import MyOS.Mm.PagerRuns
import MyOS.Mm.Translation

/-! What is true of the process table all along a run, and how processes that have ended are collected. -/

namespace MyOS.Kernel

open MyOS.Fs MyOS.Mm Relation

/-- Whether an event asks for a process. -/
def Event.isSpawn : Event → Bool
  | .spawn _ _ _ _ => true
  | .syscall frame => frame.eax == sysSpawnApp
  | _ => false

section Numbers

variable {t u : Table}

/-- A move takes no number. -/
theorem Move.nextPid (move : Move t u) : u.nextPid = t.nextPid := by
  cases move <;> rfl

/-- Nor do several moves. -/
theorem moves_nextPid (moves : ReflTransGen Move t u) : u.nextPid = t.nextPid := by
  -- Induction on the moves.
  induction moves with
  | refl => rfl
  | tail _ move ih => exact move.nextPid.trans ih

/-- A spawn takes at most one number, and nothing else takes any. -/
theorem Effect.nextPid {label : Label} (effect : Effect label t u) (ok : t.Ok)
    (room : label = .spawn → t.nextPid + 1 < 2 ^ 31) :
    t.nextPid ≤ u.nextPid ∧ u.nextPid ≤ t.nextPid + 1 ∧ (label ≠ .spawn → u.nextPid = t.nextPid) := by
  -- Refused, born, or a list of moves.
  have first := ok.next
  cases effect with
  | refused => exact ⟨by omega, by omega, fun _ => rfl⟩
  | spawned _ i p inside free born =>
    have next : wrapInt (t.nextPid + 1) = t.nextPid + 1 := wrapInt_eq (by omega) (room rfl)
    simp only [next]
    exact ⟨by omega, by omega, fun other => absurd rfl other⟩
  | saved _ _ frame i inside used current moves =>
    have kept := moves_nextPid moves
    have same : u.nextPid = t.nextPid := kept
    exact ⟨by omega, by omega, fun _ => same⟩
  | moved _ _ moves =>
    have same : u.nextPid = t.nextPid := moves_nextPid moves
    exact ⟨by omega, by omega, fun _ => same⟩

end Numbers

/-- Only an event that asks for a process may spawn one. -/
theorem Machine.label_spawn {m : Machine} {event : Event} (spawns : m.label event = .spawn) :
    event.isSpawn = true := by
  -- By who runs and what happens.
  unfold Machine.label at spawns
  split at spawns
  · rfl
  · next frame _ =>
    unfold syscallLabel at spawns
    split at spawns
    · cases spawns
    · split at spawns
      · next here => exact here
      · cases spawns
  · split at spawns <;> cases spawns
  · cases spawns

/-- Once processes can be made, there are none. -/
theorem machineStart_unused (s : KernelState) {i : Nat} (inside : i < 8) :
    ((machineStart s).kernel.table.processes.get i).used = false := by
  -- Every slot is cleared.
  unfold machineStart KernelState.table processInit
  simp only
  rw [FixedArray.get_ofFn _ inside]

/-- The machine is in order at the start. -/
theorem machineStart_ok (s : KernelState) : (machineStart s).Ok := by
  -- No slot is used and nobody is the current process.
  have none_ : ∀ {i} {P : Prop}, i < 8 →
      ((machineStart s).kernel.table.processes.get i).used = true → P :=
    fun inside used => nomatch (machineStart_unused s inside).symm.trans used
  refine ⟨⟨Int.le_refl 1, none_, ?_, none_, none_, Or.inl rfl, none_⟩, fun _ => rfl, nofun⟩
  exact fun inside _ used => none_ inside used

section Runs

variable {builtin : UInt32 → Option (List UInt8)}

/-- While there are numbers for all the processes that are asked for, there is one for the next. -/
theorem machineStep_few {m : Machine} (ok : m.Ok) {event : Event} {rest : List Event}
    (few : m.kernel.nextPid + (event :: rest).countP Event.isSpawn < 2 ^ 31) :
    (m.label event = .spawn → m.kernel.nextPid + 1 < 2 ^ 31) ∧
      (machineStep builtin m event).kernel.nextPid + rest.countP Event.isSpawn < 2 ^ 31 := by
  -- A spawn takes one number and is one of those counted.
  rw [List.countP_cons] at few
  have room : m.label event = .spawn → m.kernel.nextPid + 1 < 2 ^ 31 := by
    intro spawns
    rw [if_pos (Machine.label_spawn spawns)] at few
    push_cast at few
    omega
  obtain ⟨effect, -⟩ := machineStep_effect builtin ok event room
  obtain ⟨-, most, same⟩ := effect.nextPid ok.table room
  change (machineStep builtin m event).kernel.nextPid ≤ m.kernel.nextPid + 1 at most
  change _ → (machineStep builtin m event).kernel.nextPid = m.kernel.nextPid at same
  refine ⟨room, ?_⟩
  by_cases spawns : m.label event = .spawn
  · rw [if_pos (Machine.label_spawn spawns)] at few
    push_cast at few
    omega
  · rw [same spawns]
    push_cast at few
    omega

/-- A machine in order stays so while there are numbers for all the processes that are asked for. -/
theorem machineRun_ok {m : Machine} (ok : m.Ok) {events : List Event}
    (few : m.kernel.nextPid + events.countP Event.isSpawn < 2 ^ 31) :
    (machineRun builtin m events).Ok := by
  -- Induction on the events.
  induction events generalizing m with
  | nil => exact ok
  | cons event rest ih =>
    obtain ⟨room, next⟩ := @machineStep_few builtin m ok event rest few
    exact ih (machineStep_effect builtin ok event room).2 next

/-- The machine is in order after every run with fewer spawns than there are numbers. -/
theorem machineStart_run_ok (s : KernelState) {events : List Event}
    (few : events.countP Event.isSpawn < 2 ^ 31 - 1) :
    (machineRun builtin (machineStart s) events).Ok := by
  -- The first number is 1.
  refine machineRun_ok (machineStart_ok s) ?_
  change (1 : Int) + events.countP Event.isSpawn < 2 ^ 31
  omega

end Runs

section Collecting

variable {s : KernelState} {i j : Nat}

/-- Whether a process is an orphan that has ended. -/
def Process.stray (p : Process) : Prop := p.used = true ∧ p.state = .zombie ∧ p.parentPid = 0

/-- A slot whose process is given up is free. -/
theorem releaseProcess_frees (ok : s.table.Ok) (inside : i < 8)
    (used : (s.processes.get i).used = true) (stopped : (s.processes.get i).state ≠ .running) :
    ((releaseProcess s i).processes.get i).used = false := by
  -- The slot was emptied last.
  have table := congrArg (fun table => table.processes.get i) (releaseProcess_table ok inside used stopped)
  change (releaseProcess s i).processes.get i = _ at table
  rw [table, Table.put_get _ _ _ inside, if_pos rfl]
  rfl

/-- The loop over the zombies frees the slot of an orphan when it comes to it. -/
theorem reapStep_frees (ok : s.table.Ok) (inside : i < 8) (stray : (s.processes.get i).stray) :
    ((reapStep s i).processes.get i).used = false := by
  -- The slot holds a zombie without a parent.
  obtain ⟨used, ended, orphan⟩ := stray
  unfold reapStep
  rw [if_pos (by simp [used, ended, orphan])]
  refine releaseProcess_frees ok inside used ?_
  rw [ended]
  nofun

/-- The loop over the zombies leaves the other orphans, and the free slots, as they are. -/
theorem reapStep_others (ok : s.table.Ok) (inside : i < 8) (inside' : j < 8) (apart : j ≠ i) :
    ((s.processes.get j).stray → ((reapStep s i).processes.get j).stray) ∧
      ((s.processes.get j).used = false → ((reapStep s i).processes.get j).used = false) := by
  -- Only a zombie without a parent is given up, and this one is in another slot.
  unfold reapStep
  split
  · next ended =>
    simp only [Bool.and_eq_true, beq_iff_eq] at ended
    have stopped : (s.processes.get i).state ≠ .running := by
      rw [ended.1.2]
      nofun
    have table := congrArg (fun table => table.processes.get j)
      (releaseProcess_table ok inside ended.1.1 stopped)
    change (releaseProcess s i).processes.get j = _ at table
    rw [table, Table.put_get _ _ _ inside', if_neg apart]
    change (_ → ((orphaned _ _).get j).stray) ∧ (_ → ((orphaned _ _).get j).used = false)
    rw [orphaned_get _ _ inside']
    split
    · exact ⟨fun ⟨used, ended, _⟩ => ⟨used, ended, rfl⟩, id⟩
    · exact ⟨id, id⟩
  · exact ⟨id, id⟩

/-- After the loop over the zombies every orphan that had ended is gone. -/
theorem processReapZombies_frees (ok : s.table.Ok) (inside : i < 8) (stray : (s.processes.get i).stray) :
    ((processReapZombies s).processes.get i).used = false := by
  -- The orphan waits for its turn in the loop, and its slot is free from then on.
  have loop : ∀ n, n ≤ 8 →
      (n ≤ i → (((List.range n).foldl reapStep s).processes.get i).stray) ∧
      (i < n → (((List.range n).foldl reapStep s).processes.get i).used = false) := by
    intro n
    induction n with
    | zero => exact fun _ => ⟨fun _ => stray, fun none_ => absurd none_ (Nat.not_lt_zero i)⟩
    | succ n ih =>
      intro most
      obtain ⟨before, after⟩ := ih (by omega)
      have ok' := ok.moves (reapLoop_quiet ok n (by omega)).moves
      rw [List.range_succ, List.foldl_append]
      simp only [List.foldl_cons, List.foldl_nil]
      refine ⟨fun later => ?_, fun done => ?_⟩
      · exact (reapStep_others ok' most inside (by omega)).1 (before (by omega))
      · by_cases now : i = n
        · subst now
          exact reapStep_frees ok' inside (before (Nat.le_refl _))
        · exact (reapStep_others ok' most inside now).2 (after (by omega))
  exact (loop 8 (Nat.le_refl _)).2 inside

/-- A parent that waits for a child that has ended learns how it ended, and the slot is free. -/
theorem processWaitChild_frees (ok : s.table.Ok) (inside : i < 8)
    (used : (s.processes.get i).used = true) (ended : (s.processes.get i).state = .zombie)
    (parent : ∃ j, j < 8 ∧ (s.processes.get j).used = true ∧
      (s.processes.get j).pid = (s.processes.get i).parentPid) :
    (processWaitChild s (s.processes.get i).parentPid (s.processes.get i).pid).1 =
        .ok (s.processes.get i).pid (s.processes.get i).exitCode ∧
      ((processWaitChild s (s.processes.get i).parentPid
        (s.processes.get i).pid).2.processes.get i).used = false := by
  have positive : (1 : Int) ≤ (s.processes.get i).pid := (ok.pids inside used).1
  obtain ⟨k, inside', used', same⟩ := parent
  have there : (s.findProcessByPid (s.processes.get i).parentPid).isNone = false := by
    cases found : s.findProcessByPid (s.processes.get i).parentPid with
    | none => exact absurd same (findProcessByPid_none found inside' used')
    | some _ => rfl
  have here : (List.range processMax).find? (fun j =>
      isWaitedChild s (s.processes.get i).parentPid (s.processes.get i).pid j &&
        (s.processes.get j).state == .zombie) = some i := by
    rw [List.find?_range_eq_some]
    refine ⟨by simp [isWaitedChild, used, ended], List.mem_range.mpr inside, fun j below => ?_⟩
    -- An earlier slot holds another process.
    by_contra waited
    simp only [isWaitedChild, Bool.not_eq_true, Bool.not_eq_false', Bool.and_eq_true, beq_iff_eq,
      Bool.or_eq_true] at waited
    have small : j < 8 := by omega
    have earlier : j = i := by
      refine ok.distinct small inside waited.1.1.1 used ?_
      rcases waited.1.2 with zero | same
      · omega
      · exact same
    omega
  unfold processWaitChild
  rw [there, Bool.and_false, if_neg Bool.false_ne_true, here]
  refine ⟨rfl, releaseProcess_frees ok inside used ?_⟩
  rw [ended]
  intro running
  cases running

end Collecting

/-- A process that has ended can be collected, by the loop over the zombies or by its parent. -/
def KernelState.Collectable (s : KernelState) (i : Nat) : Prop :=
  ((s.processes.get i).parentPid = 0 ∧ ((processReapZombies s).processes.get i).used = false) ∨
  ((∃ j, j < 8 ∧ (s.processes.get j).used = true ∧
      (s.processes.get j).pid = (s.processes.get i).parentPid) ∧
    (processWaitChild s (s.processes.get i).parentPid (s.processes.get i).pid).1 =
      .ok (s.processes.get i).pid (s.processes.get i).exitCode ∧
    ((processWaitChild s (s.processes.get i).parentPid
      (s.processes.get i).pid).2.processes.get i).used = false)

/-- Every process that has ended can be collected. -/
theorem Table.Ok.collectable {s : KernelState} (ok : s.table.Ok) {i : Nat} (inside : i < 8)
    (used : (s.processes.get i).used = true) (ended : (s.processes.get i).state = .zombie) :
    s.Collectable i := by
  -- An orphan is reaped, a child of somebody can be waited for.
  rcases ok.parents inside used with orphan | ⟨j, inside', used', same, -, -⟩
  · exact Or.inl ⟨orphan, processReapZombies_frees ok inside ⟨used, ended, orphan⟩⟩
  · have parent : ∃ j, j < 8 ∧ (s.processes.get j).used = true ∧
        (s.processes.get j).pid = (s.processes.get i).parentPid := ⟨j, inside', used', same⟩
    exact Or.inr ⟨parent, processWaitChild_frees ok inside used ended parent⟩

/-- One slot holds the parent of the process of another. -/
def Table.IsParent (t : Table) (i j : Nat) : Prop :=
  i < 8 ∧ j < 8 ∧ (t.processes.get i).used = true ∧ (t.processes.get j).used = true ∧
    (t.processes.get j).parentPid = (t.processes.get i).pid

/-- A process is older than its descendants. -/
theorem Table.Ok.older {t : Table} (ok : t.Ok) {i j : Nat} (above : TransGen t.IsParent i j) :
    (t.processes.get i).pid < (t.processes.get j).pid := by
  -- From parent to child the numbers grow.
  have step : ∀ {i j}, t.IsParent i j → (t.processes.get i).pid < (t.processes.get j).pid := by
    intro i j ⟨inside, inside', used, used', parent⟩
    have positive := (ok.pids inside used).1
    rcases ok.parents inside' used' with orphan | ⟨k, _, _, same, older, _⟩
    · omega
    · omega
  induction above with
  | single last => exact step last
  | tail _ last ih => exact Int.lt_trans ih (step last)

/--
After every run from the start the process table is in order.

Nobody is their own ancestor, at most one process runs, and whoever has ended can be collected.
-/
theorem machineRun_table (builtin : UInt32 → Option (List UInt8)) (s : KernelState) (events : List Event)
    (few : events.countP Event.isSpawn < 2 ^ 31 - 1) :
    let final := (machineRun builtin (machineStart s) events).kernel
    final.table.Ok ∧
    (∀ i j, i < 8 → j < 8 → (final.processes.get i).used = true →
      (final.processes.get j).used = true → (final.processes.get i).state = .running →
      (final.processes.get j).state = .running → i = j) ∧
    (∀ i, ¬ TransGen final.table.IsParent i i) ∧
    ∀ i, i < 8 → (final.processes.get i).used = true → (final.processes.get i).state = .zombie →
      final.Collectable i := by
  have ok := (@machineStart_run_ok builtin s events few).table
  refine ⟨ok, ?_, fun i cycle => ?_, fun i inside used ended => ok.collectable inside used ended⟩
  · intro i j inside inside' used used' runs runs'
    -- Both are the current process.
    have first := ((ok.running inside used).mp runs).2
    have second := ((ok.running inside' used').mp runs').2
    exact ok.distinct inside inside' used used' (first.trans second.symm)
  · exact absurd (ok.older cycle) (Int.lt_irrefl _)

section Example

/-- The kernel as it starts on a small machine. -/
def smallKernel : KernelState :=
  { pagerOn smallMachine with
    files := SimpleFs.blank
    slots := FixedArray.fill emptySlot
    events := FixedArray.fill emptyEvent
    activePages := 0
    sequence := 0
    banker := ⟨false, fun _ => 0, FixedArray.fill .empty⟩
    processes := FixedArray.fill emptyProcess
    nextPid := 0
    currentPid := 0
    scheduleCursor := 0 }

/-- A program of one byte. -/
def Event.spawnByte (parentPid priority : Int) : Event := .spawn parentPid (some fun _ => 0) 1 priority

/-- A system call with a number and an argument. -/
def Event.call (number argument : UInt32) : Event :=
  .syscall { (default : InterruptFrame) with eax := number, ebx := argument }

/-- A process, and a child of it that runs and ends with a code. -/
def smallEvents : List Event :=
  [.spawnByte 0 5, .spawnByte 1 5, .runPid 2, .call sysExit 7]

/-- The child that has ended can be collected by its parent. -/
theorem machineRun_table_small :
    smallEvents.countP Event.isSpawn < 2 ^ 31 - 1 ∧
      (machineRun (fun _ => none) (machineStart smallKernel) smallEvents).kernel.Collectable 1 := by
  -- The invariant of the run, at slot 1.
  have few : smallEvents.countP Event.isSpawn < 2 ^ 31 - 1 := by decide
  obtain ⟨-, -, -, collectable⟩ := machineRun_table (fun _ => none) smallKernel smallEvents few
  exact ⟨few, collectable 1 (by decide) (by decide +kernel) (by decide +kernel)⟩

end Example

end MyOS.Kernel
