import MyOS.Kernel.Usermode

/-! What each step of the kernel does to the process table, and what is always true of it. -/

namespace MyOS.Kernel

open MyOS.Mm

/-- The part of the kernel that says which processes there are. -/
structure Table where
  processes : FixedArray 8 Process
  nextPid : Int
  currentPid : Int
  scheduleCursor : Nat

/-- The table with one slot replaced. -/
def Table.put (t : Table) (i : Nat) (p : Process) : Table := { t with processes := t.processes.set i p }

/-- The last process put into a slot stays there. -/
@[simp] theorem Table.put_put (t : Table) (i : Nat) (p q : Process) :
    (t.put i p).put i q = t.put i q := by
  -- The array keeps the last one.
  unfold Table.put
  simp only [FixedArray.set_set]

/-- A slot after a process was put into one of them. -/
theorem Table.put_get (t : Table) (i : Nat) (p : Process) {j : Nat} (inside : j < 8) :
    (t.put i p).processes.get j = if j = i then p else t.processes.get j :=
  FixedArray.get_set _ _ inside

/-- The process table of the kernel. -/
def KernelState.table (s : KernelState) : Table := ⟨s.processes, s.nextPid, s.currentPid, s.scheduleCursor⟩

section Frames

variable (s : KernelState)

/-- The table is no part of memory. -/
@[simp] theorem withMemDemo_table (memDemo : MemDemo) : (s.withMemDemo memDemo).table = s.table := rfl

/-- The table is no part of the pager. -/
@[simp] theorem withPager_table (pager : Pager) : (s.withPager pager).table = s.table := rfl

/-- The table is no part of the spaces. -/
@[simp] theorem withVmm_table (vmm : Vmm) : (s.withVmm vmm).table = s.table := rfl

/-- The processes are no part of memory. -/
@[simp] theorem withMemDemo_processes (memDemo : MemDemo) :
    (s.withMemDemo memDemo).processes = s.processes := rfl

/-- The processes are no part of the pager. -/
@[simp] theorem withPager_processes (pager : Pager) : (s.withPager pager).processes = s.processes := rfl

/-- The processes are no part of the spaces. -/
@[simp] theorem withVmm_processes (vmm : Vmm) : (s.withVmm vmm).processes = s.processes := rfl

/-- The processes after one slot was written. -/
@[simp] theorem setProcess_processes (i : Nat) (process : Process) :
    (s.setProcess i process).processes = s.processes.set i process := rfl

/-- The table after one slot was written. -/
@[simp] theorem setProcess_table (i : Nat) (process : Process) :
    (s.setProcess i process).table = s.table.put i process := rfl

/-- Giving up the memory of a process leaves the table alone. -/
theorem releaseMemory_table (i : Nat) : (releaseMemory s i).table = s.table := by
  unfold releaseMemory
  simp only
  split
  · rfl
  · rw [withVmm_table]
    -- The loop over the pages of the process works on the pager only.
    have loop : ∀ (pages : List Nat) (directory : UInt32) (t : KernelState), (pages.foldl (fun s k =>
        if (s.processes.get i).vmPageBitmap &&& (1 <<< UInt32.ofNat k) != 0 then
          s.withPager (pagerUnregisterPage s.toPager directory
            (processUserVmBase + UInt32.ofNat k * pageSize))
        else s) t).table = t.table := by
      intro pages directory
      induction pages with
      | nil => exact fun _ => rfl
      | cons k rest ih =>
        intro t
        rw [List.foldl_cons, ih]
        split <;> rfl
    rw [loop]
    rfl

end Frames

/-- A process without a parent. -/
def Process.orphan (p : Process) : Process := { p with parentPid := 0 }

/-- The processes once those of a parent are orphans. -/
def orphaned (parentPid : Int) (processes : FixedArray 8 Process) : FixedArray 8 Process :=
  FixedArray.ofFn fun j =>
    if (processes.get j).used = true ∧ (processes.get j).parentPid = parentPid then
      (processes.get j).orphan
    else processes.get j

/-- A slot after the children of a process became orphans. -/
theorem orphaned_get (parentPid : Int) (processes : FixedArray 8 Process) {j : Nat} (inside : j < 8) :
    (orphaned parentPid processes).get j =
      if (processes.get j).used = true ∧ (processes.get j).parentPid = parentPid then
        (processes.get j).orphan
      else processes.get j :=
  -- Slot by slot.
  FixedArray.get_ofFn _ inside

/-- The table once the children of a process are orphans. -/
def Table.adopt (t : Table) (parentPid : Int) : Table :=
  { t with processes := orphaned parentPid t.processes }

/-- The table while no process runs. -/
def Table.idle (t : Table) : Table := { t with currentPid := 0 }

/-- The children of a process become orphans, and nothing else changes. -/
theorem adoptChildren_table (s : KernelState) {parentPid : Int} (someone : parentPid ≠ 0) :
    (s.adoptChildren parentPid).table = s.table.adopt parentPid := by
  unfold KernelState.adoptChildren
  rw [if_neg (by simpa using someone)]
  -- After the first rounds of the loop the first slots are done.
  have loop : ∀ n, n ≤ 8 → ∃ processes : FixedArray 8 Process,
      ((List.range n).foldl (KernelState.adoptChild parentPid) s).table = { s.table with processes } ∧
      ∀ j, j < 8 → processes.get j =
        if j < n then (orphaned parentPid s.processes).get j else s.processes.get j := by
    intro n
    induction n with
    | zero => exact fun _ => ⟨s.processes, rfl, fun j _ => by simp⟩
    | succ n ih =>
      intro inside
      obtain ⟨processes, table, slots⟩ := ih (by omega)
      rw [List.range_succ, List.foldl_append]
      generalize (List.range n).foldl (KernelState.adoptChild parentPid) s = t at table
      have here : t.processes = processes := congrArg Table.processes table
      have slot : t.processes.get n = s.processes.get n := by
        rw [here, slots n (by omega), if_neg (by omega)]
      simp only [List.foldl_cons, List.foldl_nil, KernelState.adoptChild]
      split
      · next child =>
        refine ⟨processes.set n { s.processes.get n with parentPid := 0 }, ?_, fun j small => ?_⟩
        · rw [setProcess_table, table, slot]
          rfl
        · rw [FixedArray.get_set _ _ small]
          by_cases same : j = n
          · subst same
            rw [slot] at child
            rw [if_pos rfl, if_pos (by omega), orphaned_get _ _ small,
              if_pos (by simpa using child)]
            rfl
          · rw [if_neg same, slots j small]
            by_cases low : j < n
            · rw [if_pos low, if_pos (by omega)]
            · rw [if_neg low, if_neg (by omega)]
      · next other =>
        refine ⟨processes, table, fun j small => ?_⟩
        rw [slots j small]
        by_cases same : j = n
        · subst same
          rw [slot] at other
          rw [if_neg (by omega), if_pos (by omega), orphaned_get _ _ small,
            if_neg (by simpa using other)]
        · by_cases low : j < n
          · rw [if_pos low, if_pos (by omega)]
          · rw [if_neg low, if_neg (by omega)]
  obtain ⟨processes, table, slots⟩ := loop 8 (Nat.le_refl _)
  have same : processes = orphaned parentPid s.processes :=
    FixedArray.ext_get fun j small => by rw [slots j small, if_pos small]
  unfold Table.adopt
  rw [show s.table.processes = s.processes from rfl, ← same]
  exact table

section Find

variable {s : KernelState} {pid : Int} {i : Nat}

/-- The slot found for a number is in use and has that number. -/
theorem findProcessByPid_some (found : s.findProcessByPid pid = some i) :
    i < 8 ∧ (s.processes.get i).used = true ∧ (s.processes.get i).pid = pid := by
  -- The search tests the flag and the number.
  obtain ⟨here, member, -⟩ := List.find?_range_eq_some.mp found
  simp only [Bool.and_eq_true, beq_iff_eq] at here
  exact ⟨List.mem_range.mp member, here⟩

/-- If no slot is found for a number, no slot in use has it. -/
theorem findProcessByPid_none (missing : s.findProcessByPid pid = none) (inside : i < 8)
    (used : (s.processes.get i).used = true) : (s.processes.get i).pid ≠ pid := by
  -- The search went over every slot.
  have here := List.find?_eq_none.mp missing i (List.mem_range.mpr inside)
  simpa [used] using here

end Find

/-- A process right after it was made. -/
def bornProcess (pid parentPid priority : Int) (imageSize : Nat) (pageDirectoryPhys : UInt32) : Process :=
  { KernelState.freshProcess pid with
    parentPid := parentPid
    priority := priority
    imageSize := imageSize
    pageDirectoryPhys := pageDirectoryPhys }

/-- What became of the table when a process was asked for. -/
inductive Spawned (s : KernelState) (parentPid priority : Int) (imageSize : Nat) : Int → Table → Prop where
  | refused : Spawned s parentPid priority imageSize 0 s.table
  /-- A slot was taken, but there was no room for the memory of the process. -/
  | abandoned (i : Nat) (p : Process) (inside : i < 8) (free : (s.processes.get i).used = false)
      (unused : p.used = false) :
      Spawned s parentPid priority imageSize 0
        { s.table.put i p with nextPid := wrapInt (s.nextPid + 1) }
  | born (i : Nat) (pageDirectoryPhys : UInt32) (inside : i < 8)
      (free : (s.processes.get i).used = false) (parent : s.parentPidIsValid parentPid = true)
      (low : 0 ≤ priority) (high : priority ≤ 10) :
      Spawned s parentPid priority imageSize s.nextPid
        { s.table.put i (bornProcess s.nextPid parentPid priority imageSize pageDirectoryPhys) with
          nextPid := wrapInt (s.nextPid + 1) }

section Spawn

variable {t : KernelState} {i : Nat}

/-- Giving up a space leaves the table alone. -/
@[simp] theorem destroySpace_table (t : KernelState) (i : Nat) : (t.destroySpace i).table = t.table := rfl

/-- Pinning a page leaves the table alone. -/
@[simp] theorem pinPage_table (t : KernelState) (i : Nat) (virtAddr : UInt32) :
    (t.pinPage i virtAddr).table = t.table := rfl

/-- The last part of a spawn keeps the slot, or gives it up. -/
theorem spawnStack_table (t : KernelState) (i : Nat) :
    ((t.spawnStack i).1 = (t.processes.get i).pid ∧ (t.spawnStack i).2.table = t.table) ∨
    ((t.spawnStack i).1 = 0 ∧ (t.spawnStack i).2.table =
      t.table.put i { t.processes.get i with used := false, state := .unused }) := by
  -- The stack page is registered and pinned, or the slot is given up.
  unfold KernelState.spawnStack
  split
  · exact Or.inr ⟨rfl, rfl⟩
  · exact Or.inl ⟨rfl, rfl⟩

/-- The part before it keeps the slot, or gives it up. -/
theorem spawnCode_table (t : KernelState) (i : Nat) (image : Nat → UInt8) (imageSize : Nat) :
    ((t.spawnCode i image imageSize).1 = (t.processes.get i).pid ∧
      (t.spawnCode i image imageSize).2.table = t.table) ∨
    ((t.spawnCode i image imageSize).1 = 0 ∧
      (t.spawnCode i image imageSize).2.table =
        t.table.put i { t.processes.get i with used := false, state := .unused }) := by
  -- The code page is registered and pinned, or the slot is given up.
  unfold KernelState.spawnCode
  split
  · exact Or.inr ⟨rfl, rfl⟩
  · exact spawnStack_table _ i

/-- Making the memory of a process fills its slot, or gives it up. -/
theorem spawnSpace_table (t : KernelState) (inside : i < 8) (image : Nat → UInt8) (imageSize : Nat) :
    (∃ directory, (t.spawnSpace i image imageSize).1 = (t.processes.get i).pid ∧
      (t.spawnSpace i image imageSize).2.table =
        t.table.put i { t.processes.get i with pageDirectoryPhys := directory }) ∨
    ∃ p : Process, p.used = false ∧ (t.spawnSpace i image imageSize).1 = 0 ∧
      (t.spawnSpace i image imageSize).2.table = t.table.put i p := by
  -- The directory is noted in the slot first, then the parts before decide.
  unfold KernelState.spawnSpace
  split
  · exact Or.inr ⟨_, rfl, rfl, rfl⟩
  · next directory vmm _ =>
    simp only
    generalize filled : (t.withVmm vmm).setProcess i
      { (t.withVmm vmm).processes.get i with pageDirectoryPhys := directory } = u
    have table : u.table = t.table.put i { t.processes.get i with pageDirectoryPhys := directory } := by
      rw [← filled]
      rfl
    have slot : u.processes.get i = { t.processes.get i with pageDirectoryPhys := directory } := by
      have here := congrArg (fun table => table.processes.get i) table
      refine here.trans ?_
      rw [Table.put_get _ _ _ inside, if_pos rfl]
    rcases spawnCode_table u i image imageSize with ⟨result, same⟩ | ⟨result, gone⟩
    · exact Or.inl ⟨directory, by rw [result, slot], by rw [same, table]⟩
    · right
      refine ⟨{ u.processes.get i with used := false, state := .unused }, rfl, result, ?_⟩
      rw [gone, table, Table.put_put]

/-- Asking for a process is refused, or takes a slot that was free. -/
theorem processSpawn_table (s : KernelState) (parentPid : Int) (image : Option (Nat → UInt8))
    (imageSize : Nat) (priority : Int) :
    Spawned s parentPid priority imageSize
      (processSpawnChildFromBufferWithPriority s parentPid image imageSize priority).1
      (processSpawnChildFromBufferWithPriority s parentPid image imageSize priority).2.table := by
  -- The checks of the source come one by one, then a free slot is searched.
  unfold processSpawnChildFromBufferWithPriority
  cases image with
  | none => exact .refused
  | some image =>
    simp only
    split
    · exact .refused
    · next accepted =>
      simp only [not_or, Bool.not_eq_false, Int.not_lt, gt_iff_lt] at accepted
      obtain ⟨-, -, parent, low, high⟩ := accepted
      unfold KernelState.allocateProcess
      split
      · next _ none_ =>
        split at none_
        · cases none_
          exact .refused
        · cases none_
      · next i u taken =>
        split at taken
        · cases taken
        · next slot found =>
          obtain ⟨rfl, rfl⟩ : slot = i ∧ _ = u := by simpa using taken
          obtain ⟨free, member, -⟩ := List.find?_range_eq_some.mp found
          have inside : slot < 8 := List.mem_range.mp member
          have unused : (s.processes.get slot).used = false := by simpa using free
          simp only
          generalize filled : KernelState.setProcess _ slot _ = v
          have table : v.table = { s.table.put slot { KernelState.freshProcess s.nextPid with
              parentPid := parentPid, priority := priority, imageSize := imageSize } with
              nextPid := wrapInt (s.nextPid + 1) } := by
            rw [← filled]
            simp only [FixedArray.get_set_same _ _ inside]
            exact congrArg (fun processes => Table.mk processes _ _ _) (FixedArray.set_set ..)
          have slotIs : v.processes.get slot = { KernelState.freshProcess s.nextPid with
              parentPid := parentPid, priority := priority, imageSize := imageSize } := by
            have here := congrArg (fun table => table.processes.get slot) table
            refine here.trans ?_
            exact (Table.put_get _ _ _ inside).trans (if_pos rfl)
          rcases spawnSpace_table v inside image imageSize with
            ⟨directory, result, same⟩ | ⟨p, gone, result, same⟩
          · have born := @Spawned.born s parentPid priority imageSize slot directory inside unused
              parent low high
            have merged : v.table.put slot { v.processes.get slot with pageDirectoryPhys := directory } =
                { s.table.put slot (bornProcess s.nextPid parentPid priority imageSize directory) with
                  nextPid := wrapInt (s.nextPid + 1) } := by
              rw [table, slotIs]
              exact congrArg (fun processes => Table.mk processes _ _ _) (FixedArray.set_set ..)
            rw [result, same, merged, slotIs]
            exact born
          · have lost := @Spawned.abandoned s parentPid priority imageSize slot p inside unused gone
            have merged : v.table.put slot p =
                { s.table.put slot p with nextPid := wrapInt (s.nextPid + 1) } := by
              rw [table]
              exact congrArg (fun processes => Table.mk processes _ _ _) (FixedArray.set_set ..)
            rw [result, same, merged]
            exact lost

end Spawn

/-- What is always true of the process table. -/
structure Table.Ok (t : Table) : Prop where
  next : 1 ≤ t.nextPid
  pids : ∀ {i}, i < 8 → (t.processes.get i).used = true →
    1 ≤ (t.processes.get i).pid ∧ (t.processes.get i).pid < t.nextPid
  distinct : ∀ {i j}, i < 8 → j < 8 → (t.processes.get i).used = true →
    (t.processes.get j).used = true → (t.processes.get i).pid = (t.processes.get j).pid → i = j
  priority : ∀ {i}, i < 8 → (t.processes.get i).used = true →
    0 ≤ (t.processes.get i).priority ∧ (t.processes.get i).priority ≤ 10
  /-- The process that runs is the current one. -/
  running : ∀ {i}, i < 8 → (t.processes.get i).used = true →
    ((t.processes.get i).state = .running ↔
      t.currentPid ≠ 0 ∧ (t.processes.get i).pid = t.currentPid)
  current : t.currentPid = 0 ∨ ∃ i, i < 8 ∧ (t.processes.get i).used = true ∧
    (t.processes.get i).pid = t.currentPid
  /-- A parent is an older process that has not ended. -/
  parents : ∀ {i}, i < 8 → (t.processes.get i).used = true →
    (t.processes.get i).parentPid = 0 ∨
      ∃ j, j < 8 ∧ (t.processes.get j).used = true ∧
        (t.processes.get j).pid = (t.processes.get i).parentPid ∧
        (t.processes.get j).pid < (t.processes.get i).pid ∧ (t.processes.get j).state ≠ .zombie

/-- The registers a frame keeps for a process. -/
def contextOf (frame : InterruptFrame) : UserContext :=
  { eip := frame.eip
    userEsp := frame.useresp
    eflags := frame.eflags
    eax := frame.eax
    ebx := frame.ebx
    ecx := frame.ecx
    edx := frame.edx
    esi := frame.esi
    edi := frame.edi
    ebp := frame.ebp }

/-- What a single step can do to the processes there are. -/
inductive Move : Table → Table → Prop where
  /-- Something about a process changes that is not about who it is or where it goes on. -/
  | edited (t : Table) (i : Nat) (p : Process) (inside : i < 8)
      (used : (t.processes.get i).used = true) (kept : p.used = true)
      (pid : p.pid = (t.processes.get i).pid) (parent : p.parentPid = (t.processes.get i).parentPid)
      (state : p.state = (t.processes.get i).state)
      (context : p.context = (t.processes.get i).context)
      (exitCode : p.exitCode = (t.processes.get i).exitCode)
      (priority : 0 ≤ p.priority ∧ p.priority ≤ 10) : Move t (t.put i p)
  | released (t : Table) (i : Nat) (inside : i < 8) (used : (t.processes.get i).used = true)
      (stopped : (t.processes.get i).state ≠ .running) :
      Move t ((t.adopt (t.processes.get i).pid).put i emptyProcess)
  | entered (t : Table) (i : Nat) (inside : i < 8) (used : (t.processes.get i).used = true)
      (ready : (t.processes.get i).state = .ready) (idle : t.currentPid = 0) :
      Move t { t.put i { t.processes.get i with state := .running } with
        currentPid := (t.processes.get i).pid }
  | yielded (t : Table) (i : Nat) (inside : i < 8) (used : (t.processes.get i).used = true)
      (current : (t.processes.get i).pid = t.currentPid) :
      Move t (t.put i { t.processes.get i with state := .ready }).idle
  | exited (t : Table) (i : Nat) (result : UInt32) (inside : i < 8)
      (used : (t.processes.get i).used = true) (current : (t.processes.get i).pid = t.currentPid) :
      Move t ((t.put i { t.processes.get i with exitCode := result, state := .zombie }).adopt
        (t.processes.get i).pid).idle
  | cursor (t : Table) (cursor : Nat) : Move t { t with scheduleCursor := cursor }

/-- What an event is about, as far as the process table is concerned. -/
inductive Label where
  | spawn
  /-- The registers of the current process are kept. -/
  | save (frame : InterruptFrame)
  | other

/-- What an event does to the process table. -/
inductive Effect : Label → Table → Table → Prop where
  | refused (t : Table) : Effect .spawn t t
  | spawned (t : Table) (i : Nat) (p : Process) (inside : i < 8)
      (free : (t.processes.get i).used = false)
      (born : p.used = true → p.pid = t.nextPid ∧ p.state = .ready ∧
        (0 ≤ p.priority ∧ p.priority ≤ 10) ∧ p.context = initialContext ∧
        (p.parentPid = 0 ∨ ∃ j, j < 8 ∧ (t.processes.get j).used = true ∧
          (t.processes.get j).pid = p.parentPid ∧ (t.processes.get j).state ≠ .zombie)) :
      Effect .spawn t { t.put i p with nextPid := wrapInt (t.nextPid + 1) }
  | saved (t u : Table) (frame : InterruptFrame) (i : Nat) (inside : i < 8)
      (used : (t.processes.get i).used = true) (current : (t.processes.get i).pid = t.currentPid)
      (moves : Relation.ReflTransGen Move
        (t.put i { t.processes.get i with context := contextOf frame }) u) : Effect (.save frame) t u
  | moved (t u : Table) (moves : Relation.ReflTransGen Move t u) : Effect .other t u

/-- A number that does not run over the top is itself. -/
theorem wrapInt_eq {value : Int} (low : 0 ≤ value) (high : value < 2 ^ 31) : wrapInt value = value := by
  unfold wrapInt
  omega

namespace Table.Ok

variable {t : Table} {i : Nat} {p : Process}

/-- A slot that was not in use may come to be a process with the next number. -/
theorem put_free (ok : t.Ok) (inside : i < 8) (free : (t.processes.get i).used = false)
    (room : t.nextPid + 1 < 2 ^ 31)
    (born : p.used = true → p.pid = t.nextPid ∧ p.state = .ready ∧
      (0 ≤ p.priority ∧ p.priority ≤ 10) ∧
      (p.parentPid = 0 ∨ ∃ j, j < 8 ∧ (t.processes.get j).used = true ∧
        (t.processes.get j).pid = p.parentPid ∧ (t.processes.get j).state ≠ .zombie)) :
    Table.Ok { t.put i p with nextPid := wrapInt (t.nextPid + 1) } := by
  have first := ok.next
  have slots : ∀ j, j < 8 → (t.put i p).processes.get j = if j = i then p else t.processes.get j :=
    fun j small => t.put_get i p small
  have same : (t.put i p).currentPid = t.currentPid := rfl
  -- The processes that were there have smaller numbers, the current one among them.
  have older := @ok.pids
  have current := ok.current
  rw [wrapInt_eq (by omega) room]
  refine ⟨by simp only; omega, ?_, ?_, ?_, ?_, ?_, ?_⟩
  · intro j small used
    grind
  · intro j k small small' used used'
    have := @ok.distinct j k
    grind
  · intro j small used
    have := @ok.priority j
    grind
  · intro j small used
    have := @ok.running j
    grind
  · grind
  · intro j small used
    have := @ok.parents j
    grind

/-- A process that stays who it is may change in other ways. -/
theorem put_used (ok : t.Ok) (inside : i < 8) (used : (t.processes.get i).used = true)
    (kept : p.used = true) (pid : p.pid = (t.processes.get i).pid)
    (parent : p.parentPid = (t.processes.get i).parentPid)
    (priority : 0 ≤ p.priority ∧ p.priority ≤ 10) {currentPid : Int}
    (running : p.state = .running ↔ currentPid ≠ 0 ∧ p.pid = currentPid)
    (others : ∀ j, j < 8 → j ≠ i → (t.processes.get j).used = true →
      ((t.processes.get j).state = .running ↔
        currentPid ≠ 0 ∧ (t.processes.get j).pid = currentPid))
    (current : currentPid = 0 ∨ ∃ j, j < 8 ∧ (t.processes.get j).used = true ∧
      (t.processes.get j).pid = currentPid)
    (childless : p.state = .zombie → ∀ j, j < 8 → (t.processes.get j).used = true →
      (t.processes.get j).parentPid ≠ p.pid) :
    Table.Ok { t.put i p with currentPid } := by
  -- At slot `i` it is assumed, elsewhere the clause is as before.
  have slots : ∀ j, j < 8 → (t.put i p).processes.get j = if j = i then p else t.processes.get j :=
    fun j small => t.put_get i p small
  have same : (t.put i p).nextPid = t.nextPid := rfl
  refine ⟨ok.next, ?_, ?_, ?_, ?_, ?_, ?_⟩
  · intro j small used'
    have := @ok.pids j
    grind
  · intro j k small small' used' used''
    have := @ok.distinct j k
    grind
  · intro j small used'
    have := @ok.priority j
    grind
  · intro j small used'
    grind
  · grind
  · intro j small used'
    have := @ok.parents j
    have := @ok.parents i
    grind

/-- A process that neither runs nor has children may go. -/
theorem put_unused (ok : t.Ok) (inside : i < 8) (used : (t.processes.get i).used = true)
    (stopped : (t.processes.get i).state ≠ .running) (gone : p.used = false)
    (childless : ∀ j, j < 8 → (t.processes.get j).used = true →
      (t.processes.get j).parentPid ≠ (t.processes.get i).pid) : (t.put i p).Ok := by
  -- The slot is empty now, and nobody has lost a parent.
  have slots : ∀ j, j < 8 → (t.put i p).processes.get j = if j = i then p else t.processes.get j :=
    fun j small => t.put_get i p small
  have same : (t.put i p).nextPid = t.nextPid ∧ (t.put i p).currentPid = t.currentPid := ⟨rfl, rfl⟩
  have mine := @ok.running i
  refine ⟨ok.next, ?_, ?_, ?_, ?_, ?_, ?_⟩
  · intro j small used'
    have := @ok.pids j
    grind
  · intro j k small small' used' used''
    have := @ok.distinct j k
    grind
  · intro j small used'
    have := @ok.priority j
    grind
  · intro j small used'
    have := @ok.running j
    grind
  · have := ok.current
    grind
  · intro j small used'
    have := @ok.parents j
    grind

/-- Children may become orphans. -/
theorem adopt (ok : t.Ok) (parentPid : Int) : (t.adopt parentPid).Ok := by
  -- An orphan has no parent to be found, the others keep theirs.
  have slots : ∀ j, j < 8 → (t.adopt parentPid).processes.get j =
      if (t.processes.get j).used = true ∧ (t.processes.get j).parentPid = parentPid then
        (t.processes.get j).orphan
      else t.processes.get j := fun j small => orphaned_get _ _ small
  have same : (t.adopt parentPid).nextPid = t.nextPid ∧
    (t.adopt parentPid).currentPid = t.currentPid := ⟨rfl, rfl⟩
  have orphan : ∀ p : Process, p.orphan.used = p.used ∧ p.orphan.pid = p.pid ∧
      p.orphan.state = p.state ∧ p.orphan.priority = p.priority ∧ p.orphan.parentPid = 0 :=
    fun _ => ⟨rfl, rfl, rfl, rfl, rfl⟩
  refine ⟨ok.next, ?_, ?_, ?_, ?_, ?_, ?_⟩
  · intro j small used'
    have := @ok.pids j
    grind
  · intro j k small small' used' used''
    have := @ok.distinct j k
    grind
  · intro j small used'
    have := @ok.priority j
    grind
  · intro j small used'
    have := @ok.running j
    grind
  · have := ok.current
    grind
  · intro j small used'
    have := @ok.parents j
    grind

/-- An adopted process has no children left. -/
theorem adopt_childless {parentPid : Int} (someone : parentPid ≠ 0) {j : Nat} (small : j < 8) :
    ((t.adopt parentPid).processes.get j).parentPid ≠ parentPid ∨
      ((t.adopt parentPid).processes.get j).used = false := by
  -- A child that was adopted has the parent 0 now.
  rw [show (t.adopt parentPid).processes.get j = _ from orphaned_get _ _ small]
  split
  · exact Or.inl someone.symm
  · next other =>
    by_cases used : (t.processes.get j).used = true
    · exact Or.inl fun same => other ⟨used, same⟩
    · exact Or.inr (Bool.eq_false_iff.mpr used)

end Table.Ok

section Moves

variable {t u : Table}

/-- A zombie is made and its children adopted in either order. -/
theorem Table.adopt_put (t : Table) {i : Nat} {p : Process} {parentPid : Int}
    (other : p.parentPid ≠ parentPid) :
    (t.put i p).adopt parentPid = (t.adopt parentPid).put i p := by
  -- Slot by slot: the zombie is not among the children.
  have same : orphaned parentPid (t.processes.set i p) = (orphaned parentPid t.processes).set i p := by
    apply FixedArray.ext_get
    intro j small
    rw [orphaned_get _ _ small, FixedArray.get_set _ _ small, FixedArray.get_set _ _ small]
    by_cases here : j = i
    · rw [if_pos here, if_pos here, if_neg fun both => other both.2]
    · rw [if_neg here, if_neg here, orphaned_get _ _ small]
  unfold Table.adopt Table.put
  simp only [same]

/-- Every move keeps what is always true. -/
theorem Table.Ok.move (ok : t.Ok) (move : Move t u) : u.Ok := by
  cases move with
  | edited i p inside used kept pid parent state context exitCode priority =>
    have mine := @ok.running i
    have zombie : p.state = .zombie → ∀ j, j < 8 → (t.processes.get j).used = true →
        (t.processes.get j).parentPid ≠ p.pid := by
      intro ended j small used' child
      have := @ok.parents j
      have := @ok.distinct i
      have := @ok.pids i
      grind
    have running : p.state = .running ↔ t.currentPid ≠ 0 ∧ p.pid = t.currentPid := by grind
    exact ok.put_used inside used kept pid parent priority running
      (fun j small _ used' => ok.running small used') ok.current zombie
  | released i inside used stopped =>
    have positive := (ok.pids inside used).1
    have adopted := ok.adopt (t.processes.get i).pid
    have slot : (t.adopt (t.processes.get i).pid).processes.get i = t.processes.get i := by
      rw [show (t.adopt (t.processes.get i).pid).processes.get i = _ from orphaned_get _ _ inside,
        if_neg]
      rintro ⟨-, own⟩
      -- A process is not its own parent, which would have to be older.
      have := ok.parents inside used
      have := @ok.distinct i
      grind
    refine adopted.put_unused inside (by rw [slot]; exact used) (by rw [slot]; exact stopped) rfl ?_
    intro j small used'
    rw [slot]
    rcases @Table.Ok.adopt_childless t (t.processes.get i).pid (by omega) j small with apart | gone
    · exact apart
    · rw [gone] at used'
      cases used'
  | entered i inside used ready idle =>
    have positive := (ok.pids inside used).1
    refine ok.put_used (p := { t.processes.get i with state := .running }) inside used used rfl rfl
      (ok.priority inside used) ?_ ?_ ?_ nofun
    · grind
    · intro j small apart used'
      have := ok.running small used'
      have := @ok.distinct i j
      grind
    · exact Or.inr ⟨i, inside, used, rfl⟩
  | yielded i inside used current =>
    refine ok.put_used (p := { t.processes.get i with state := .ready }) inside used used rfl rfl
      (ok.priority inside used) ?_ ?_ (Or.inl rfl) nofun
    · simp
    · intro j small apart used'
      have := ok.running small used'
      have := @ok.distinct i j
      grind
  | exited i result inside used current =>
    have positive := (ok.pids inside used).1
    have own : (t.processes.get i).parentPid ≠ (t.processes.get i).pid := by
      intro own
      have := ok.parents inside used
      have := @ok.distinct i
      grind
    rw [Table.adopt_put (p := { t.processes.get i with exitCode := result, state := .zombie }) t own]
    have adopted := ok.adopt (t.processes.get i).pid
    have slots : ∀ j, j < 8 → (t.adopt (t.processes.get i).pid).processes.get j = _ :=
      fun j small => orphaned_get _ _ small
    have slot : (t.adopt (t.processes.get i).pid).processes.get i = t.processes.get i := by
      rw [slots i inside, if_neg fun both => own both.2]
    refine adopted.put_used (p := { t.processes.get i with exitCode := result, state := .zombie })
      inside (by rw [slot]; exact used) used (by rw [slot]) (by rw [slot]) (ok.priority inside used)
      ?_ ?_ (Or.inl rfl) ?_
    · simp
    · intro j small apart used'
      have := adopted.running small used'
      have := @adopted.distinct i j
      have same : (t.adopt (t.processes.get i).pid).currentPid = t.currentPid := rfl
      grind
    · intro _ j small used'
      rcases @Table.Ok.adopt_childless t (t.processes.get i).pid (by omega) j small with apart | gone
      · exact apart
      · rw [gone] at used'
        cases used'
  | cursor cursor => exact ⟨ok.next, ok.pids, ok.distinct, ok.priority, ok.running, ok.current, ok.parents⟩

/-- Nor do several moves break what is always true. -/
theorem Table.Ok.moves (ok : t.Ok) (moves : Relation.ReflTransGen Move t u) : u.Ok := by
  -- Induction on the moves.
  induction moves with
  | refl => exact ok
  | tail _ move ih => exact ih.move move

end Moves

end MyOS.Kernel
