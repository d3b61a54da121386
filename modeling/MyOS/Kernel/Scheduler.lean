import MyOS.Kernel.TableRuns

/-! The scheduler: whom it selects, and when processes of one priority take turns. -/

namespace MyOS.Kernel

open MyOS.Mm

/-- A process in a slot waits for the processor. -/
def KernelState.Waits (s : KernelState) (i : Nat) : Prop :=
  i < 8 ∧ (s.processes.get i).used = true ∧ (s.processes.get i).state = .ready

/-- Whether a process waits is decidable. -/
instance (s : KernelState) (i : Nat) : Decidable (s.Waits i) := by
  unfold KernelState.Waits
  infer_instance

/-- How many slots the scheduler passes, going round from one slot, before it comes to another. -/
def ahead (start slot : Nat) : Nat := (slot + 8 - start) % 8

section Selection

variable {s : KernelState}

/-- What the loop of the scheduler knows about the slots it has passed. -/
structure Selection.Best (s : KernelState) (n : Nat) (best : Selection) : Prop where
  highest : ∀ k, k < n → s.Waits ((s.scheduleCursor + k) % 8) →
    (s.processes.get ((s.scheduleCursor + k) % 8)).priority ≤ best.bestPriority
  selected : ∀ i, best.selected = some i → ∃ k, k < n ∧ i = (s.scheduleCursor + k) % 8 ∧ s.Waits i ∧
    (s.processes.get i).priority = best.bestPriority ∧
    ∀ j, j < k → s.Waits ((s.scheduleCursor + j) % 8) →
      (s.processes.get ((s.scheduleCursor + j) % 8)).priority < best.bestPriority

/-- One round of the loop takes a slot of higher priority, or leaves the best one as it is. -/
theorem selectStep_best {n : Nat} {best : Selection} (good : best.Best s n) :
    (selectStep s best n).Best s (n + 1) := by
  -- The slot looked at waits with a higher priority, or the best one remains.
  have inside : (s.scheduleCursor + n) % 8 < 8 := Nat.mod_lt _ (by decide)
  unfold selectStep
  simp only [show processMax = 8 from rfl]
  split
  · next better =>
    simp only [Bool.and_eq_true, beq_iff_eq, decide_eq_true_eq] at better
    obtain ⟨⟨used, ready⟩, higher⟩ := better
    refine ⟨fun k below waits => ?_, fun i here => ?_⟩
    · rcases Nat.lt_succ_iff_lt_or_eq.mp below with earlier | rfl
      · have := good.highest k earlier waits
        simp only
        omega
      · exact Int.le_refl _
    · cases here
      refine ⟨n, by omega, rfl, ⟨inside, used, ready⟩, rfl, fun j earlier waits => ?_⟩
      have := good.highest j earlier waits
      simp only
      omega
  · next worse =>
    simp only [Bool.and_eq_true, beq_iff_eq, decide_eq_true_eq] at worse
    refine ⟨fun k below waits => ?_, fun i here => ?_⟩
    · rcases Nat.lt_succ_iff_lt_or_eq.mp below with earlier | rfl
      · exact good.highest k earlier waits
      · by_contra higher
        exact worse ⟨⟨waits.2.1, waits.2.2⟩, by omega⟩
    · obtain ⟨k, below, rest⟩ := good.selected i here
      exact ⟨k, by omega, rest⟩

/-- Whom the scheduler selects: the nearest one of the highest priority. -/
structure Selected (s : KernelState) (i : Nat) : Prop where
  waits : s.Waits i
  highest : ∀ j, s.Waits j → (s.processes.get j).priority ≤ (s.processes.get i).priority
  nearest : ∀ j, s.Waits j → (s.processes.get j).priority = (s.processes.get i).priority →
    ahead s.scheduleCursor i ≤ ahead s.scheduleCursor j

/-- The slot that is selected is the nearest of the highest priority. -/
theorem selectNextReadyProcess_selected {i : Nat} (inside : s.scheduleCursor < 8)
    (found : selectNextReadyProcess s = some i) : Selected s i := by
  have loop : ∀ n, Selection.Best s n
      ((List.range n).foldl (selectStep s) ⟨none, processPriorityMin - 1⟩) := by
    intro n
    induction n with
    | zero => exact ⟨fun k none_ => absurd none_ (Nat.not_lt_zero k), nofun⟩
    | succ n ih =>
      rw [List.range_succ, List.foldl_append]
      exact selectStep_best ih
  obtain ⟨highest, selected⟩ := loop 8
  obtain ⟨k, below, at_, waits, priority, first⟩ := selected i found
  -- Every slot comes up once while the scheduler goes round.
  have round : ∀ j, j < 8 → (s.scheduleCursor + ahead s.scheduleCursor j) % 8 = j := by
    intro j small
    unfold ahead
    omega
  have offset : ∀ j, ahead s.scheduleCursor j < 8 := fun j => Nat.mod_lt _ (by decide)
  refine ⟨waits, fun j waits' => ?_, fun j waits' same => ?_⟩
  · have := highest (ahead s.scheduleCursor j) (offset j)
    rw [round j waits'.1] at this
    rw [priority]
    exact this waits'
  · by_contra nearer
    have here : ahead s.scheduleCursor i = k := by
      unfold ahead
      omega
    have := first (ahead s.scheduleCursor j) (by omega)
    rw [round j waits'.1] at this
    have := this waits'
    omega

end Selection

section Cursor

variable (s : KernelState)

/-- Making orphans does not move the scheduler. -/
theorem adoptChildren_cursor (parentPid : Int) :
    (s.adoptChildren parentPid).scheduleCursor = s.scheduleCursor := by
  -- Only the slots are written.
  by_cases someone : parentPid = 0
  · unfold KernelState.adoptChildren
    rw [if_pos (by simpa using someone)]
  · exact congrArg Table.scheduleCursor (adoptChildren_table s someone)

/-- Giving up a process does not move the scheduler. -/
theorem releaseProcess_cursor (i : Nat) : (releaseProcess s i).scheduleCursor = s.scheduleCursor := by
  -- Slots and memory are written.
  unfold releaseProcess
  split
  · rfl
  · simp only
    refine (congrArg Table.scheduleCursor (releaseMemory_table _ i)).trans ?_
    exact adoptChildren_cursor s _

/-- `process_kill` does not move the scheduler. -/
theorem processKill_cursor (pid : Int) : (processKill s pid).2.scheduleCursor = s.scheduleCursor := by
  -- Refused, or the process is given up.
  unfold processKill
  split
  · rfl
  · split
    · rfl
    · exact releaseProcess_cursor s _

/-- `process_wait_child` does not move the scheduler. -/
theorem processWaitChild_cursor (parentPid childPid : Int) :
    (processWaitChild s parentPid childPid).2.scheduleCursor = s.scheduleCursor := by
  -- Nothing to wait for, or the zombie is given up.
  unfold processWaitChild
  split
  · rfl
  · split
    · split <;> rfl
    · exact releaseProcess_cursor s _

/-- `process_reap_zombies` does not move the scheduler. -/
theorem processReapZombies_cursor : (processReapZombies s).scheduleCursor = s.scheduleCursor := by
  -- Induction on the slots.
  unfold processReapZombies
  induction List.range processMax generalizing s with
  | nil => rfl
  | cons i rest ih =>
    rw [List.foldl_cons, ih]
    unfold reapStep
    split
    · exact releaseProcess_cursor s i
    · rfl

/-- `process_set_priority` does not move the scheduler. -/
theorem processSetPriority_cursor (pid priority : Int) :
    (processSetPriority s pid priority).2.scheduleCursor = s.scheduleCursor := by
  -- Refused, or the priority of one slot changes.
  unfold processSetPriority
  split
  · rfl
  · split
    · rfl
    · split <;> rfl

/-- Entering a process does not move the scheduler. -/
theorem processEnter_cursor (pid : Int) :
    (processEnter s pid).2.scheduleCursor = s.scheduleCursor := by
  -- The slot and the current space change.
  unfold processEnter
  split
  · rfl
  · split
    · rfl
    · split <;> rfl

/-- Keeping registers does not move the scheduler. -/
theorem processSaveYieldFrame_cursor (frame : InterruptFrame) :
    (processSaveYieldFrame s frame).scheduleCursor = s.scheduleCursor := by
  -- The context of one slot changes.
  unfold processSaveYieldFrame
  split
  · rfl
  · split <;> rfl

/-- Leaving a process does not move the scheduler. -/
theorem processLeave_cursor (i : Nat) (result : UInt32) :
    (processLeave s i result).scheduleCursor = s.scheduleCursor := by
  -- The process gives way or ends.
  unfold processLeave
  simp only
  split
  · rfl
  · exact adoptChildren_cursor _ _

/-- No system call moves the scheduler on. -/
theorem usermodeHandleSyscall_cursor (builtin : UInt32 → Option (List UInt8)) (frame : InterruptFrame) :
    (usermodeHandleSyscall builtin frame s).2.scheduleCursor = s.scheduleCursor := by
  -- One case for each number of a call, in the order of the source.
  unfold usermodeHandleSyscall
  by_cases here : (frame.eax == sysWrite) = true
  · rw [if_pos here]
  rw [if_neg here]
  by_cases here : (frame.eax == sysExit) = true
  · rw [if_pos here]
  rw [if_neg here]
  by_cases here : (frame.eax == sysYield) = true
  · rw [if_pos here]
    exact processSaveYieldFrame_cursor s frame
  rw [if_neg here]
  by_cases here : (frame.eax == sysMemdemoOp) = true
  · rw [if_pos here]
    rfl
  rw [if_neg here]
  by_cases here : (frame.eax == sysMemdemoReset) = true
  · rw [if_pos here]
    rfl
  rw [if_neg here]
  by_cases here : (frame.eax == sysMemdemoReport) = true
  · rw [if_pos here]
    rfl
  rw [if_neg here]
  by_cases here : (frame.eax == sysVmAlloc) = true
  · rw [if_pos here]
    exact (processVmAllocPage_keeps s frame.ebx).cursor
  rw [if_neg here]
  by_cases here : (frame.eax == sysVmSample) = true
  · rw [if_pos here]
    simp only
    split <;> rfl
  rw [if_neg here]
  by_cases here : (frame.eax == sysPagerTraceReset) = true
  · rw [if_pos here]
    rfl
  rw [if_neg here]
  by_cases here : (frame.eax == sysSpawnApp) = true
  · rw [if_pos here]
    exact (processSpawnBuiltin_effect builtin frame.ebx s).keeps.cursor
  · rw [if_neg here]

end Cursor

/-- Where the scheduler goes on once the processor is back. -/
def Machine.nextCursor (m : Machine) : Nat :=
  match m.mode with
  | .user _ (some selected) => (selected + 1) % 8
  | _ => m.kernel.scheduleCursor

/-- The scheduler selects the process of a slot, and the processor goes to it. -/
def Machine.Selects (m : Machine) (i : Nat) : Prop :=
  m.mode = .kernel ∧ selectNextReadyProcess m.kernel = some i ∧
    (processEnter m.kernel (m.kernel.processes.get i).pid).1.isSome = true

section Steps

variable {builtin : UInt32 → Option (List UInt8)} {m : Machine}

/-- The processor goes to a process, or nothing about the scheduler changes. -/
theorem Machine.enter_cursor (idle : m.mode = .kernel) (pid : Int) (selected : Option Nat) :
    ((processEnter m.kernel pid).1.isSome = true ∧
      (m.enter pid selected).nextCursor =
        match selected with
        | none => m.nextCursor
        | some selected => (selected + 1) % 8) ∨
    (m.enter pid selected).nextCursor = m.nextCursor := by
  -- A process that cannot be entered leaves the scheduler where it is.
  have before : m.nextCursor = m.kernel.scheduleCursor := by
    unfold Machine.nextCursor
    rw [idle]
  have kept := processEnter_cursor m.kernel pid
  unfold Machine.enter
  generalize processEnter m.kernel pid = entered at kept
  obtain ⟨slot, kernel⟩ := entered
  cases slot with
  | none => exact Or.inr (kept.trans before.symm)
  | some slot =>
    left
    refine ⟨rfl, ?_⟩
    cases selected with
    | none => exact kept.trans before.symm
    | some selected => rfl

/-- The scheduler goes on where it would have once the processor is back. -/
theorem Machine.leave_cursor {slot : Nat} {selected : Option Nat} {kernel : KernelState} (result : UInt32)
    (busy : m.mode = .user slot selected) (kept : kernel.scheduleCursor = m.kernel.scheduleCursor) :
    (({ m with kernel } : Machine).leave slot selected result).nextCursor = m.nextCursor := by
  -- The cursor moved when the slot was selected.
  unfold Machine.leave Machine.nextCursor
  rw [busy]
  cases selected with
  | none => exact (processLeave_cursor kernel slot result).trans kept
  | some selected => rfl

/-- An event moves the scheduler on only by a selection, or it is the end. -/
theorem machineStep_cursor (event : Event) :
    (machineStep builtin m event).nextCursor = m.nextCursor ∨
    (∃ i, event = .scheduleAuto ∧ m.Selects i ∧
      (machineStep builtin m event).nextCursor = (i + 1) % 8) ∨
    (machineStep builtin m event).mode = .halted := by
  -- One case for each event, in the kernel and in a program.
  unfold machineStep
  cases mode : m.mode with
  | halted => exact Or.inl rfl
  | kernel =>
    have before : m.nextCursor = m.kernel.scheduleCursor := by
      unfold Machine.nextCursor
      rw [mode]
    have stays : ∀ {kernel : KernelState}, kernel.scheduleCursor = m.kernel.scheduleCursor →
        ({ m with kernel } : Machine).nextCursor = m.nextCursor := by
      intro kernel same
      rw [before, ← same]
      unfold Machine.nextCursor
      simp only [mode]
    cases event with
    | spawn parentPid image imageSize priority =>
      exact Or.inl (stays (processSpawn_table m.kernel parentPid image imageSize
        priority).effect.keeps.cursor)
    | kill pid => exact Or.inl (stays (processKill_cursor m.kernel pid))
    | waitChild parentPid childPid =>
      exact Or.inl (stays (processWaitChild_cursor m.kernel parentPid childPid))
    | reapZombies => exact Or.inl (stays (processReapZombies_cursor m.kernel))
    | setPriority pid priority => exact Or.inl (stays (processSetPriority_cursor m.kernel pid priority))
    | scheduleAuto =>
      simp only [kernelStep]
      cases found : selectNextReadyProcess m.kernel with
      | none => exact Or.inl rfl
      | some i =>
        rcases Machine.enter_cursor mode (m.kernel.processes.get i).pid (some i) with
          ⟨entered, next⟩ | same
        · exact Or.inr (Or.inl ⟨i, trivial, ⟨mode, found, entered⟩, next⟩)
        · exact Or.inl same
    | runPid pid =>
      rcases Machine.enter_cursor mode pid none with ⟨-, same⟩ | same
      · exact Or.inl same
      · exact Or.inl same
    | syscall frame => exact Or.inl rfl
    | clock scheduleEvent frame => exact Or.inl rfl
    | pageFault faultAddr errCode => exact Or.inl rfl
    | read virtAddr => exact Or.inl rfl
    | write virtAddr value => exact Or.inl rfl
  | user slot selected =>
    have stays : ∀ {kernel : KernelState}, kernel.scheduleCursor = m.kernel.scheduleCursor →
        ({ m with kernel } : Machine).nextCursor = m.nextCursor := by
      intro kernel same
      unfold Machine.nextCursor
      simp only [mode, same]
    cases event with
    | syscall frame =>
      have kept := usermodeHandleSyscall_cursor m.kernel builtin frame
      left
      simp only [userStep]
      split
      · next result =>
        rw [result] at kept
        exact stays kept
      · next result =>
        rw [result] at kept
        exact Machine.leave_cursor _ mode kept
    | clock scheduleEvent frame =>
      left
      simp only [userStep]
      rcases processPreemptIfNeeded_cases scheduleEvent frame m.kernel with result | result
      · rw [result]
      · rw [result]
        exact Machine.leave_cursor _ mode (processSaveYieldFrame_cursor m.kernel frame)
    | pageFault faultAddr errCode =>
      simp only [userStep]
      split
      · exact Or.inr (Or.inr rfl)
      · exact Or.inl (stays rfl)
    | read virtAddr => exact Or.inl (stays rfl)
    | write virtAddr value => exact Or.inl (stays rfl)
    | spawn => exact Or.inl rfl
    | kill => exact Or.inl rfl
    | waitChild => exact Or.inl rfl
    | reapZombies => exact Or.inl rfl
    | setPriority => exact Or.inl rfl
    | scheduleAuto => exact Or.inl rfl
    | runPid => exact Or.inl rfl

/-- A machine that has stopped does nothing more. -/
theorem machineStep_halted (halted : m.mode = .halted) (event : Event) :
    machineStep builtin m event = m := by
  -- By definition.
  unfold machineStep
  rw [halted]

end Steps

section RoundRobin

variable (builtin : UInt32 → Option (List UInt8))

/-- Two processes wait for the processor with the same priority. -/
def KernelState.Equals (s : KernelState) (p q : Nat) : Prop :=
  s.Waits p ∧ s.Waits q ∧ (s.processes.get p).priority = (s.processes.get q).priority

/--
Somebody of the highest priority, above that of two processes, stands between them.

The slots between them are those that the scheduler passes on its way from `q` round to `p`.
-/
def KernelState.Overtakes (s : KernelState) (p q : Nat) : Prop :=
  ∃ r, s.Waits r ∧ (∀ j, s.Waits j → (s.processes.get j).priority ≤ (s.processes.get r).priority) ∧
    (s.processes.get q).priority < (s.processes.get r).priority ∧
    0 < ahead q r ∧ ahead q r < ahead q p

/--
Events between two selections of one process, while another waits with the same priority.

A process keeps its slot for as long as it lives, so the slots stand for the processes.
-/
structure Turns (m : Machine) (events : List Event) (p q : Nat) : Prop where
  apart : p ≠ q
  first : m.Selects p
  second : (machineRun builtin m (.scheduleAuto :: events)).Selects p
  /-- At every scheduling point, up to the second selection, both wait. -/
  equals : ∀ done rest, events ++ [.scheduleAuto] = done ++ .scheduleAuto :: rest →
    (machineRun builtin m (.scheduleAuto :: done)).mode = .kernel →
    (machineRun builtin m (.scheduleAuto :: done)).kernel.Equals p q

/-- Between two selections of one process the other is selected too. -/
def RoundRobin (m : Machine) (events : List Event) (p q : Nat) : Prop :=
  Turns builtin m events p q →
    ∃ done rest, events = done ++ .scheduleAuto :: rest ∧
      (machineRun builtin m (.scheduleAuto :: done)).Selects q

/-- At no scheduling point does somebody stand between two processes, until the second had its turn. -/
def Undisturbed (m : Machine) (events : List Event) (p q : Nat) : Prop :=
  ∀ done rest, events = done ++ .scheduleAuto :: rest →
    (∀ earlier later, done = earlier ++ .scheduleAuto :: later →
      ¬ (machineRun builtin m (.scheduleAuto :: earlier)).Selects q) →
    (machineRun builtin m (.scheduleAuto :: done)).mode = .kernel →
    ¬ (machineRun builtin m (.scheduleAuto :: done)).kernel.Overtakes p q

/-- The scheduler comes to one process before it comes to another. -/
def Machine.Sooner (m : Machine) (q p : Nat) : Prop :=
  m.nextCursor < 8 ∧ ahead m.nextCursor q < ahead m.nextCursor p

variable {builtin} {m : Machine} {p q : Nat}

/-- Whoever is selected was the nearest of the highest priority. -/
theorem Machine.Selects.selected {i : Nat} (selects : m.Selects i) (inside : m.nextCursor < 8) :
    Selected m.kernel i := by
  -- The machine is idle, so the scheduler stands at its cursor.
  have here : m.nextCursor = m.kernel.scheduleCursor := by
    unfold Machine.nextCursor
    rw [selects.1]
  exact selectNextReadyProcess_selected (here ▸ inside) selects.2.1

/-- Who comes later is not selected before somebody of the same priority. -/
theorem Machine.Sooner.not_selects (sooner : m.Sooner q p) (equals : m.kernel.Equals p q) :
    ¬ m.Selects p := by
  -- Both wait with one priority, and the nearer one is selected.
  intro selects
  have here : m.nextCursor = m.kernel.scheduleCursor := by
    unfold Machine.nextCursor
    rw [selects.1]
  obtain ⟨inside, order⟩ := sooner
  have nearest := (selects.selected inside).nearest q equals.2.1 equals.2.2.symm
  rw [← here] at nearest
  omega

/-- A selection of somebody else, who does not stand between the two, keeps their order. -/
theorem Machine.Sooner.select {i : Nat} (sooner : m.Sooner q p) (equals : m.kernel.Equals p q)
    (clear : ¬ m.kernel.Overtakes p q) (selects : m.Selects i) (other : i ≠ q) :
    ahead ((i + 1) % 8) q < ahead ((i + 1) % 8) p := by
  have here : m.nextCursor = m.kernel.scheduleCursor := by
    unfold Machine.nextCursor
    rw [selects.1]
  obtain ⟨inside, order⟩ := sooner
  have chosen := selects.selected inside
  obtain ⟨waitsP, waitsQ, same⟩ := equals
  have small := waitsP.1
  have small' := waitsQ.1
  have small'' := chosen.waits.1
  rcases Int.lt_or_eq_of_le (chosen.highest q waitsQ) with higher | equal
  · -- Somebody of higher priority does not stand between the two.
    have outside : ¬ (0 < ahead q i ∧ ahead q i < ahead q p) := by
      rintro ⟨after, before⟩
      exact clear ⟨i, chosen.waits, chosen.highest, higher, after, before⟩
    have notP : i ≠ p := by
      rintro rfl
      omega
    unfold ahead at outside order ⊢
    omega
  · -- Of those with the same priority the nearest is taken, which is not behind the one that waits.
    have nearest := chosen.nearest q waitsQ equal
    rw [← here] at nearest
    unfold ahead at nearest order ⊢
    omega

/-- As long as the one that is due is not selected, the other is not either. -/
theorem Machine.Sooner.run {events : List Event} (sooner : m.mode = .halted ∨ m.Sooner q p)
    (last : (machineRun builtin m events).Selects p)
    (equals : ∀ done rest, events ++ [.scheduleAuto] = done ++ .scheduleAuto :: rest →
      (machineRun builtin m done).mode = .kernel → (machineRun builtin m done).kernel.Equals p q)
    (clear : ∀ done rest, events = done ++ .scheduleAuto :: rest →
      (machineRun builtin m done).mode = .kernel → ¬ (machineRun builtin m done).kernel.Overtakes p q) :
    ∃ done rest, events = done ++ .scheduleAuto :: rest ∧ (machineRun builtin m done).Selects q := by
  induction events generalizing m with
  | nil =>
    rcases sooner with halted | sooner
    · exact nomatch halted.symm.trans last.1
    · exact absurd last (sooner.not_selects (equals [] [] rfl last.1))
  | cons event rest ih =>
    -- Unless this event selects the one that is due, the order of the two is kept by it.
    by_cases now : event = .scheduleAuto ∧ m.Selects q
    · obtain ⟨rfl, selects⟩ := now
      exact ⟨[], rest, rfl, selects⟩
    have next : (machineStep builtin m event).mode = .halted ∨
        (machineStep builtin m event).Sooner q p := by
      rcases sooner with halted | sooner
      · rw [machineStep_halted halted]
        exact Or.inl halted
      · rcases @machineStep_cursor builtin m event with same | ⟨i, rfl, selects, next⟩ | halted
        · right
          unfold Machine.Sooner
          rw [same]
          exact sooner
        · right
          have other : i ≠ q := by
            rintro rfl
            exact now ⟨rfl, selects⟩
          unfold Machine.Sooner
          rw [next]
          refine ⟨Nat.mod_lt _ (by decide), ?_⟩
          exact sooner.select (equals [] _ rfl selects.1) (clear [] rest rfl selects.1) selects other
        · exact Or.inl halted
    obtain ⟨done, more, split, selects⟩ := ih next last
      (fun done more split => equals (event :: done) more (by rw [List.cons_append, split]; rfl))
      (fun done more split => clear (event :: done) more (by rw [split]; rfl))
    exact ⟨event :: done, more, by rw [split]; rfl, selects⟩

/--
Two processes of one priority take turns, as long as nobody above them stands between them.

The scheduler has one cursor for all priorities. Whoever runs takes it along, and what lies
between `q` and the slot behind them is passed over.
-/
theorem schedule_roundRobin (builtin : UInt32 → Option (List UInt8)) (s : KernelState)
    (before events : List Event) (p q : Nat)
    (undisturbed : Undisturbed builtin (machineRun builtin (machineStart s) before) events p q) :
    RoundRobin builtin (machineRun builtin (machineStart s) before) events p q := by
  intro turns
  generalize machineRun builtin (machineStart s) before = m at undisturbed turns ⊢
  by_contra passed
  -- Were `q` never selected, the condition would speak of every scheduling point.
  have clear : ∀ done rest, events = done ++ .scheduleAuto :: rest →
      (machineRun builtin m (.scheduleAuto :: done)).mode = .kernel →
      ¬ (machineRun builtin m (.scheduleAuto :: done)).kernel.Overtakes p q :=
    fun done rest split => undisturbed done rest split fun earlier later first selects =>
      passed ⟨earlier, later ++ .scheduleAuto :: rest, by rw [split, first]; simp, selects⟩
  -- Once a process was selected, it is the last one that the scheduler comes to.
  have start : (machineStep builtin m .scheduleAuto).nextCursor = (p + 1) % 8 := by
    obtain ⟨idle, found, entered⟩ := turns.first
    unfold machineStep
    rw [idle]
    simp only [kernelStep, found]
    unfold Machine.enter
    generalize processEnter m.kernel (m.kernel.processes.get p).pid = result at entered
    obtain ⟨slot, kernel⟩ := result
    cases slot with
    | none => cases entered
    | some slot => rfl
  have equals := turns.equals events [] rfl turns.second.1
  have sooner : (machineStep builtin m .scheduleAuto).Sooner q p := by
    have small := equals.1.1
    have small' := equals.2.1.1
    have apart := turns.apart
    unfold Machine.Sooner
    rw [start]
    refine ⟨Nat.mod_lt _ (by decide), ?_⟩
    unfold ahead
    omega
  exact passed (Machine.Sooner.run (Or.inr sooner) turns.second turns.equals clear)

end RoundRobin

section Example

/-- Two processes of one priority, and a third one of a lower priority behind them. -/
def smallCrowd : Machine :=
  machineRun (fun _ => none) (machineStart smallKernel)
    [.spawnByte 0 5, .spawnByte 0 5, .spawnByte 0 0]

/-- The first process gives way, and so does the second. -/
def smallTurns : List Event := [.call sysYield 0, .scheduleAuto, .call sysYield 0]

/-- The first process gives way to the third, which is above the others for one turn. -/
def smallDetour : List Event :=
  [.call sysYield 0, .setPriority 3 10, .scheduleAuto, .call sysYield 0, .setPriority 3 0]

/-- In the small crowd the first process is selected. -/
theorem smallCrowd_selects : smallCrowd.Selects 0 :=
  ⟨by decide +kernel, by decide +kernel, by decide +kernel⟩

/-- Whether an event is a scheduling point. -/
def Event.isSchedule : Event → Bool
  | .scheduleAuto => true
  | _ => false

/-- What comes before a scheduling point is the events up to a place where there is one. -/
theorem split_at_schedule {events done rest : List Event}
    (split : events = done ++ .scheduleAuto :: rest) :
    ∃ k, k < events.length ∧ (events[k]?).any Event.isSchedule = true ∧ done = events.take k := by
  -- The place is the number of events before it.
  subst split
  refine ⟨done.length, ?_, ?_, ?_⟩
  · rw [List.length_append, List.length_cons]
    omega
  · rw [List.getElem?_append_right (Nat.le_refl _), Nat.sub_self]
    rfl
  · rw [List.take_left]

/-- The first two processes take turns while the third stays below them. -/
theorem schedule_roundRobin_small :
    ∃ done rest, smallTurns = done ++ .scheduleAuto :: rest ∧
      (machineRun (fun _ => none) smallCrowd (.scheduleAuto :: done)).Selects 1 := by
  have fair : Undisturbed (fun _ => none) smallCrowd smallTurns 0 1 →
      RoundRobin (fun _ => none) smallCrowd smallTurns 0 1 :=
    schedule_roundRobin (fun _ => none) smallKernel _ smallTurns 0 1
  refine fair ?_
    ⟨by decide, smallCrowd_selects, ⟨by decide +kernel, by decide +kernel, by decide +kernel⟩, ?_⟩
  · intro done rest split _ _
    obtain ⟨k, inside, point, rfl⟩ := split_at_schedule split
    have place : ∀ k, k < 3 → (smallTurns[k]?).any Event.isSchedule = true → k = 1 := by decide
    rw [place k inside point]
    -- The only one behind the two is below them.
    rintro ⟨r, waits, -, higher, between⟩
    have below : ∀ r, r < 8 → 0 < ahead 1 r → ahead 1 r < ahead 1 0 →
        ¬ ((machineRun (fun _ => none) smallCrowd
            (.scheduleAuto :: smallTurns.take 1)).kernel.processes.get 1).priority <
          ((machineRun (fun _ => none) smallCrowd
            (.scheduleAuto :: smallTurns.take 1)).kernel.processes.get r).priority := by
      decide +kernel
    exact below r waits.1 between.1 between.2 higher
  · intro done rest split _
    obtain ⟨k, inside, point, rfl⟩ := split_at_schedule split
    have place : ∀ k, k < 4 → ((smallTurns ++ [.scheduleAuto])[k]?).any Event.isSchedule = true →
        k = 1 ∨ k = 3 := by decide
    unfold KernelState.Equals
    rcases place k inside point with rfl | rfl
    · decide +kernel
    · decide +kernel

/-- The third process takes the scheduler past the second one, back to the first. -/
theorem schedule_detour : ¬ RoundRobin (fun _ => none) smallCrowd smallDetour 0 1 := by
  -- The third one is selected in between, so the first comes before the second again.
  have turns : Turns (fun _ => none) smallCrowd smallDetour 0 1 := by
    refine ⟨by decide, smallCrowd_selects, ⟨by decide +kernel, by decide +kernel, by decide +kernel⟩, ?_⟩
    intro done rest split _
    obtain ⟨k, inside, point, rfl⟩ := split_at_schedule split
    have place : ∀ k, k < 6 → ((smallDetour ++ [.scheduleAuto])[k]?).any Event.isSchedule = true →
        k = 2 ∨ k = 5 := by decide
    unfold KernelState.Equals
    rcases place k inside point with rfl | rfl
    · decide +kernel
    · decide +kernel
  intro fair
  obtain ⟨done, rest, split, selects⟩ := fair turns
  obtain ⟨k, inside, point, rfl⟩ := split_at_schedule split
  have place : ∀ k, k < 5 → (smallDetour[k]?).any Event.isSchedule = true → k = 2 := by decide
  rw [place k inside point] at selects
  exact absurd selects.2.1 (by decide +kernel)

end Example

end MyOS.Kernel
