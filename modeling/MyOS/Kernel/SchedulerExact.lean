import MyOS.Kernel.Scheduler

/-! Which process the scheduler selects among those that wait, and which one a call of it runs. -/

namespace MyOS.Kernel

open MyOS.Mm

/-- A process table that the scheduler can choose from. -/
structure KernelState.Schedulable (s : KernelState) : Prop where
  cursor : s.scheduleCursor < 8
  priority : ∀ {i}, i < 8 → (s.processes.get i).used = true →
    processPriorityMin ≤ (s.processes.get i).priority ∧ (s.processes.get i).priority ≤ processPriorityMax
  positive : ∀ {i}, i < 8 → (s.processes.get i).used = true → 1 ≤ (s.processes.get i).pid
  distinct : ∀ {i j}, i < 8 → j < 8 → (s.processes.get i).used = true →
    (s.processes.get j).used = true → (s.processes.get i).pid = (s.processes.get j).pid → i = j

section Selecting

variable {s : KernelState} {i : Nat}

/-- The loop that looks for a process that waits finds one if there is one. -/
theorem processHasReady_iff : processHasReady s = true ↔ ∃ i, s.Waits i := by
  -- The loop goes over every slot.
  unfold processHasReady KernelState.Waits
  simp only [List.any_eq_true, List.mem_range, Bool.and_eq_true, beq_iff_eq]
  rfl

/-- Once the scheduler has passed a process that waits, it has a choice. -/
theorem selectStep_some {n : Nat} {best : Selection}
    (low : best.selected = none → best.bestPriority = processPriorityMin - 1)
    (priority : ∀ {i}, i < 8 → (s.processes.get i).used = true →
      processPriorityMin ≤ (s.processes.get i).priority) :
    ((selectStep s best n).selected = none →
        (selectStep s best n).bestPriority = processPriorityMin - 1) ∧
      (s.Waits ((s.scheduleCursor + n) % 8) → (selectStep s best n).selected ≠ none) := by
  have inside : (s.scheduleCursor + n) % 8 < 8 := Nat.mod_lt _ (by decide)
  unfold selectStep
  simp only [show processMax = 8 from rfl]
  split
  · exact ⟨nofun, fun _ => nofun⟩
  · next worse =>
    refine ⟨low, fun waits nobody => worse ?_⟩
    -- As long as there is no choice, every priority is above the one to beat.
    have above := priority inside waits.2.1
    have start := low nobody
    simp only [Bool.and_eq_true, beq_iff_eq, decide_eq_true_eq]
    exact ⟨⟨waits.2.1, waits.2.2⟩, by omega⟩

/-- A choice that was made stays one. -/
theorem selectStep_keeps {n : Nat} {best : Selection} (chosen : best.selected ≠ none) :
    (selectStep s best n).selected ≠ none := by
  -- The choice is kept or replaced by another one.
  unfold selectStep
  simp only
  split
  · exact nofun
  · exact chosen

/-- While somebody waits the scheduler selects a process. -/
theorem selectNextReadyProcess_some (schedulable : s.Schedulable) (waits : s.Waits i) :
    selectNextReadyProcess s ≠ none := by
  have priority : ∀ {i}, i < 8 → (s.processes.get i).used = true →
      processPriorityMin ≤ (s.processes.get i).priority :=
    fun inside used => (schedulable.priority inside used).1
  have loop : ∀ n,
      Selection.Best s n ((List.range n).foldl (selectStep s) ⟨none, processPriorityMin - 1⟩) ∧
      (((List.range n).foldl (selectStep s) ⟨none, processPriorityMin - 1⟩).selected = none →
        ((List.range n).foldl (selectStep s) ⟨none, processPriorityMin - 1⟩).bestPriority =
          processPriorityMin - 1) ∧
      ∀ k, k < n → s.Waits ((s.scheduleCursor + k) % 8) →
        ((List.range n).foldl (selectStep s) ⟨none, processPriorityMin - 1⟩).selected ≠ none := by
    intro n
    induction n with
    | zero =>
      refine ⟨⟨fun k below => absurd below (Nat.not_lt_zero k), nofun⟩, fun _ => rfl, ?_⟩
      exact fun k below => absurd below (Nat.not_lt_zero k)
    | succ n ih =>
      obtain ⟨good, low, passed⟩ := ih
      obtain ⟨low', here⟩ := @selectStep_some s n _ low priority
      rw [List.range_succ, List.foldl_append]
      refine ⟨selectStep_best good, low', fun k below waits => ?_⟩
      rcases Nat.lt_succ_iff_lt_or_eq.mp below with earlier | rfl
      · exact selectStep_keeps (passed k earlier waits)
      · exact here waits
  -- The slot comes up while the scheduler goes round.
  have small := waits.1
  have round : (s.scheduleCursor + ahead s.scheduleCursor i) % 8 = i := by
    have := schedulable.cursor
    unfold ahead
    omega
  exact (loop 8).2.2 (ahead s.scheduleCursor i) (Nat.mod_lt _ (by decide)) (by rwa [round])

/-- The nearest slot of the highest priority is one slot. -/
theorem Selected.unique {j : Nat} (inside : s.scheduleCursor < 8) (first : Selected s i)
    (second : Selected s j) : i = j := by
  -- Both have the highest priority, and each is as near as the other.
  have same : (s.processes.get i).priority = (s.processes.get j).priority :=
    Int.le_antisymm (second.highest i first.waits) (first.highest j second.waits)
  have near := first.nearest j second.waits same.symm
  have near' := second.nearest i first.waits same
  have small := first.waits.1
  have small' := second.waits.1
  unfold ahead at near near'
  omega

/-- The scheduler selects nobody exactly when nobody waits. -/
theorem selectNextReadyProcess_none_iff (schedulable : s.Schedulable) :
    selectNextReadyProcess s = none ↔ processHasReady s = false := by
  -- Were somebody to wait, the loop would have chosen a slot.
  constructor
  · intro nobody
    rw [← Bool.not_eq_true, processHasReady_iff]
    rintro ⟨i, waits⟩
    exact selectNextReadyProcess_some schedulable waits nobody
  · intro nobody
    cases found : selectNextReadyProcess s with
    | none => rfl
    | some i =>
      have waits := (selectNextReadyProcess_selected schedulable.cursor found).waits
      rw [processHasReady_iff.mpr ⟨i, waits⟩] at nobody
      cases nobody

/-- The scheduler selects the nearest slot of the highest priority, and no other. -/
theorem selectNextReadyProcess_iff (schedulable : s.Schedulable) :
    selectNextReadyProcess s = some i ↔ Selected s i := by
  -- One slot is selected if somebody waits, and there is only one such slot.
  constructor
  · exact selectNextReadyProcess_selected schedulable.cursor
  · intro chosen
    cases found : selectNextReadyProcess s with
    | none => exact absurd found (selectNextReadyProcess_some schedulable chosen.waits)
    | some j =>
      have other := selectNextReadyProcess_selected schedulable.cursor found
      rw [other.unique schedulable.cursor chosen]

end Selecting

section Calls

variable (builtin : UInt32 → Option (List UInt8))

/-- The machine when the processor is first back in the kernel, with the number of events until then. -/
def Machine.back : Machine → List Event → Option (Nat × KernelState)
  | m, [] => if m.mode = .kernel then some (0, m.kernel) else none
  | m, event :: rest =>
    if m.mode = .kernel then some (0, m.kernel)
    else ((machineStep builtin m event).back rest).map fun (n, kernel) => (n + 1, kernel)

/--
`process_schedule_auto`: run the process that is selected, and give its number or `0`.

While the process runs the events happen, and the call returns when the processor is back, if it
comes back.
-/
def processScheduleAuto (s : KernelState) (events : List Event) : Option (Int × KernelState) :=
  match selectNextReadyProcess s with
  | none => some (0, s)
  | some selected =>
    let pid := (s.processes.get selected).pid
    let entered := Machine.enter ⟨s, .kernel⟩ pid (some selected)
    if entered.mode = .kernel then some (0, entered.kernel)
    else (entered.back builtin events).map fun (_, kernel) => (pid, kernel)

/-- The slot of the process that has the processor. -/
def Machine.runner (m : Machine) : Option Nat :=
  match m.mode with
  | .user slot _ => some slot
  | _ => none

/-- A call of the scheduler ran the process of one slot and nobody else, up to its return. -/
def RanOnly (s : KernelState) (events : List Event) (i : Nat) (t : KernelState) : Prop :=
  ∃ n, 0 < n ∧ n ≤ events.length ∧
    (∀ k, k < n → (machineRun builtin ⟨s, .kernel⟩ (.scheduleAuto :: events.take k)).runner = some i) ∧
    machineRun builtin ⟨s, .kernel⟩ (.scheduleAuto :: events.take n) = ⟨t, .kernel⟩

variable {builtin} {m : Machine} {i : Nat} {selected : Option Nat}

/-- A process that runs goes on, or the processor comes back, or the machine stops. -/
theorem userStep_mode (busy : m.mode = .user i selected) (event : Event) :
    (machineStep builtin m event).mode = .user i selected ∨
      (machineStep builtin m event).mode = .kernel ∨ (machineStep builtin m event).mode = .halted := by
  -- One case for each event.
  have left_ : ∀ (kernel : KernelState) (result : UInt32),
      (({ m with kernel } : Machine).leave i selected result).mode = .kernel := by
    intro kernel result
    unfold Machine.leave
    cases selected <;> rfl
  unfold machineStep
  rw [busy]
  cases event with
  | syscall frame =>
    simp only [userStep]
    split
    · exact Or.inl busy
    · exact Or.inr (Or.inl (left_ _ _))
  | clock scheduleEvent frame =>
    simp only [userStep]
    split
    · exact Or.inl busy
    · exact Or.inr (Or.inl (left_ _ _))
  | pageFault faultAddr errCode =>
    simp only [userStep]
    split
    · exact Or.inr (Or.inr rfl)
    · exact Or.inl busy
  | read virtAddr => exact Or.inl busy
  | write virtAddr value => exact Or.inl busy
  | spawn => exact Or.inl busy
  | kill => exact Or.inl busy
  | waitChild => exact Or.inl busy
  | reapZombies => exact Or.inl busy
  | setPriority => exact Or.inl busy
  | scheduleAuto => exact Or.inl busy
  | runPid => exact Or.inl busy

/-- A machine that has stopped does not come back. -/
theorem Machine.back_halted (halted : m.mode = .halted) (events : List Event) :
    m.back builtin events = none := by
  -- Induction on the events, none of which starts it again.
  induction events with
  | nil =>
    unfold Machine.back
    rw [if_neg (by rw [halted]; exact nofun)]
  | cons event rest ih =>
    unfold Machine.back
    rw [if_neg (by rw [halted]; exact nofun), machineStep_halted halted, ih]
    rfl

/-- Up to the return the same process runs, and then the scheduler goes on behind it. -/
theorem Machine.back_spec {events : List Event} {n : Nat} {t : KernelState}
    (busy : m.mode = .user i selected) (returns : m.back builtin events = some (n, t)) :
    0 < n ∧ n ≤ events.length ∧
      (∀ k, k < n → (machineRun builtin m (events.take k)).runner = some i) ∧
      machineRun builtin m (events.take n) = ⟨t, .kernel⟩ ∧ t.scheduleCursor = m.nextCursor := by
  induction events generalizing m n with
  | nil =>
    unfold Machine.back at returns
    rw [if_neg (by rw [busy]; exact nofun)] at returns
    cases returns
  | cons event rest ih =>
    unfold Machine.back at returns
    rw [if_neg (by rw [busy]; exact nofun), Option.map_eq_some_iff] at returns
    obtain ⟨⟨n', t'⟩, returns, same⟩ := returns
    obtain ⟨rfl, rfl⟩ : n' + 1 = n ∧ t' = t := by simpa using same
    have here : (machineRun builtin m ((event :: rest).take 0)).runner = some i := by
      unfold machineRun Machine.runner
      simp only [List.take_zero, List.foldl_nil, busy]
    -- While a process runs no other one is selected.
    have cursor : (machineStep builtin m event).mode ≠ .halted →
        (machineStep builtin m event).nextCursor = m.nextCursor := by
      intro awake
      rcases @machineStep_cursor builtin m event with same | ⟨_, -, selects, -⟩ | halted
      · exact same
      · exact nomatch busy.symm.trans selects.1
      · exact absurd halted awake
    rcases userStep_mode busy event with stays | back | halted
    · obtain ⟨positive, most, ran, final, next⟩ := ih stays returns
      have most' : n' + 1 ≤ rest.length + 1 := by omega
      refine ⟨by omega, most', fun k below => ?_, final, next.trans (cursor ?_)⟩
      · cases k with
        | zero => exact here
        | succ k => exact ran k (by omega)
      · rw [stays]
        exact nofun
    · have now : (machineStep builtin m event).back builtin rest =
          some (0, (machineStep builtin m event).kernel) := by
        cases rest with
        | nil =>
          unfold Machine.back
          rw [if_pos back]
        | cons =>
          unfold Machine.back
          rw [if_pos back]
      rw [now] at returns
      obtain ⟨rfl, rfl⟩ : 0 = n' ∧ (machineStep builtin m event).kernel = t' := by simpa using returns
      have next := cursor (by rw [back]; exact nofun)
      unfold Machine.nextCursor at next
      rw [back] at next
      have most' : 0 + 1 ≤ rest.length + 1 := by omega
      refine ⟨by omega, most', fun k below => ?_, ?_, next⟩
      · obtain rfl : k = 0 := by omega
        exact here
      · show machineStep builtin m event = _
        generalize machineStep builtin m event = m' at back
        cases m'
        cases back
        rfl
    · rw [Machine.back_halted halted] at returns
      cases returns

/-- The process that is entered is the one with the number. -/
theorem processEnter_slot {s : KernelState} {pid : Int} {slot : Nat}
    (entered : (processEnter s pid).1 = some slot) : s.findProcessByPid pid = some slot := by
  -- The slot comes from the search for the number.
  unfold processEnter at entered
  split at entered
  · cases entered
  · next found =>
    rw [found]
    split at entered
    · cases entered
    · split at entered
      · cases entered
      · exact entered

end Calls

/--
The scheduler selects exactly the nearest process of the highest priority.

A call of it runs the process that was selected and gives its number, or it runs nobody and gives
`0`.
-/
theorem scheduler_exact (builtin : UInt32 → Option (List UInt8)) (s : KernelState)
    (schedulable : s.Schedulable) :
    (selectNextReadyProcess s = none ↔ processHasReady s = false) ∧
    (∀ i, selectNextReadyProcess s = some i ↔ Selected s i) ∧
    ∀ events pid t, processScheduleAuto builtin s events = some (pid, t) →
      (pid ≠ 0 → ∃ i, Selected s i ∧ pid = (s.processes.get i).pid ∧
        RanOnly builtin s events i t ∧ t.scheduleCursor = (i + 1) % 8) ∧
      (pid = 0 → machineStep builtin ⟨s, .kernel⟩ .scheduleAuto = ⟨t, .kernel⟩ ∧
        t.scheduleCursor = s.scheduleCursor) := by
  refine ⟨selectNextReadyProcess_none_iff schedulable,
    fun i => selectNextReadyProcess_iff schedulable, fun events pid t returns => ?_⟩
  unfold processScheduleAuto at returns
  cases found : selectNextReadyProcess s with
  | none =>
    simp only [found, Option.some.injEq, Prod.mk.injEq] at returns
    obtain ⟨rfl, rfl⟩ := returns
    refine ⟨fun someone => absurd rfl someone, fun _ => ⟨?_, rfl⟩⟩
    simp only [machineStep, kernelStep, found]
  | some i =>
    have chosen := selectNextReadyProcess_selected schedulable.cursor found
    have positive := schedulable.positive chosen.waits.1 chosen.waits.2.1
    have step : machineStep builtin ⟨s, .kernel⟩ .scheduleAuto =
        Machine.enter ⟨s, .kernel⟩ (s.processes.get i).pid (some i) := by
      simp only [machineStep, kernelStep, found]
    have run : ∀ events, machineRun builtin ⟨s, .kernel⟩ (.scheduleAuto :: events) =
        machineRun builtin (Machine.enter ⟨s, .kernel⟩ (s.processes.get i).pid (some i)) events := by
      intro events
      rw [← step]
      rfl
    have cursor := processEnter_cursor s (s.processes.get i).pid
    have slot := @processEnter_slot s (s.processes.get i).pid
    unfold RanOnly
    simp only [run, step]
    simp only [found] at returns
    unfold Machine.enter at returns ⊢
    simp only at returns ⊢
    generalize processEnter s (s.processes.get i).pid = entered at cursor slot returns
    obtain ⟨entered, u⟩ := entered
    cases entered with
    | none =>
      -- The process could not be entered, and nothing ran.
      simp only [if_true, Option.some.injEq, Prod.mk.injEq] at returns
      obtain ⟨rfl, rfl⟩ := returns
      exact ⟨fun someone => absurd rfl someone, fun _ => ⟨rfl, cursor⟩⟩
    | some j =>
      obtain ⟨inside, used, same⟩ := findProcessByPid_some (slot rfl)
      obtain rfl : j = i := schedulable.distinct inside chosen.waits.1 used chosen.waits.2.1 same
      simp only [reduceCtorEq, if_false, Option.map_eq_some_iff, Prod.mk.injEq] at returns
      obtain ⟨⟨n, t'⟩, back, rfl, rfl⟩ := returns
      obtain ⟨first, most, ran, final, next⟩ := Machine.back_spec rfl back
      refine ⟨fun _ => ⟨j, chosen, rfl, ⟨n, first, most, ran, final⟩, next⟩, fun nobody => ?_⟩
      omega

section Example

/-- The first of two processes of one priority is selected, runs, and ends with a code. -/
theorem scheduler_exact_small :
    selectNextReadyProcess smallCrowd.kernel = some 0 ∧ Selected smallCrowd.kernel 0 ∧
      (processScheduleAuto (fun _ => none) smallCrowd.kernel [.call sysExit 7]).map Prod.fst = some 1 := by
  -- The crowd has three processes in order, so the theorem applies.
  have schedulable : smallCrowd.kernel.Schedulable := by
    have slots : ∀ i, i < 8 → (smallCrowd.kernel.processes.get i).used = true →
        (smallCrowd.kernel.processes.get i).pid = i + 1 ∧
        0 ≤ (smallCrowd.kernel.processes.get i).priority ∧
        (smallCrowd.kernel.processes.get i).priority ≤ 10 := by
      decide +kernel
    refine ⟨by decide +kernel, fun inside used => (slots _ inside used).2, fun inside used => ?_,
      fun inside inside' used used' same => ?_⟩
    · have := (slots _ inside used).1
      omega
    · have := (slots _ inside used).1
      have := (slots _ inside' used').1
      omega
  obtain ⟨-, exact_, -⟩ := scheduler_exact (fun _ => none) smallCrowd.kernel schedulable
  have first : selectNextReadyProcess smallCrowd.kernel = some 0 := by decide +kernel
  exact ⟨first, (exact_ 0).mp first, by decide +kernel⟩

end Example

end MyOS.Kernel
