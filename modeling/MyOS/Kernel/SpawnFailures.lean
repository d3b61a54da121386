import MyOS.Kernel.Charges
import MyOS.Kernel.Contexts
import MyOS.Mm.PagerUndo
import MyOS.Mm.SpaceUndo

/-! What a spawn that fails leaves behind. -/

namespace MyOS.Kernel

open MyOS.Mm MemDemo

/-- What a spawn that failed leaves of the kernel: all that was in use before. -/
structure KernelState.Unspawned (s t : KernelState) : Prop where
  /-- Nothing else may have changed at all. -/
  rest : t = { s with
    processes := t.processes, nextPid := t.nextPid
    memory := t.memory, pages := t.pages, disk := t.disk }
  processes : ∀ {i}, i < 8 → (t.processes.get i).used = (s.processes.get i).used ∧
    ((s.processes.get i).used = true → t.processes.get i = s.processes.get i)
  /-- Every byte of memory is the same, apart from those in free pages. -/
  memory : ∀ {a}, ¬ s.IsFree (a / 4096) → t.memory a = s.memory a
  free : ∀ {page}, page < s.totalPages.toNat → t.bitmapTest page = s.bitmapTest page
  /-- The space of every process maps what it mapped. -/
  spaces : ∀ {i v}, i < 8 → (s.processes.get i).used = true → v < 1048576 →
    t.cell (pageOf (s.processes.get i).pageDirectoryPhys) v =
      s.cell (pageOf (s.processes.get i).pageDirectoryPhys) v
  entries : ∀ {j}, j < 128 → (t.pages.get j).used = (s.pages.get j).used ∧
    ((s.pages.get j).used = true → t.pages.get j = s.pages.get j)
  bytes : ∀ {j k}, j < 128 → (s.pages.get j).used = true → k < 4096 → t.byteAt j k = s.byteAt j k
  disk : s.Scribbled t.disk

/-- Memory, the pager and the memory demonstration after a spawn that failed. -/
structure MemDemo.Unspawned (s t : MemDemo) : Prop where
  rest : t = { s with memory := t.memory, pages := t.pages, disk := t.disk }
  memory : ∀ {a}, ¬ s.IsFree (a / 4096) → t.memory a = s.memory a
  entries : ∀ {j}, j < 128 → (t.pages.get j).used = (s.pages.get j).used ∧
    ((s.pages.get j).used = true → t.pages.get j = s.pages.get j)
  disk : s.Scribbled t.disk

namespace MemDemo.Unspawned

variable {s t : MemDemo} {u v : Vmm} {q : Pager} {f : Nat}

/-- Nothing was spawned in a state left alone. -/
theorem refl (s : MemDemo) : Unspawned s s := ⟨rfl, fun _ => rfl, fun _ => ⟨rfl, fun _ => rfl⟩, .refl _⟩

/-- What the pager did in a space, and the space itself, are taken back. -/
theorem of_retracted (changed : PageChanged s.toVmm v f) (free : s.IsFree f)
    (retracted : Pager.Retracted { s.toPager with toVmm := u } q) :
    Unspawned s { s with toPager := { q with toVmm := v } } := by
  -- The page was free before, so whatever is in it now was nobody's.
  refine ⟨?_, fun {a} taken => ?_, retracted.entries, retracted.disk.ready, retracted.disk.fails,
    retracted.disk.sectors⟩
  · have pager := congrArg (fun q : Pager => { s with toPager := { q with toVmm := v } }) retracted.rest
    have vmm := congrArg (fun v : Vmm => { s with
      toPager := { s.toPager with toVmm := v, pages := q.pages, disk := q.disk } }) changed.rest
    exact pager.trans vmm
  · refine changed.outside a ?_
    by_contra inside
    refine taken ?_
    rw [show a / 4096 = f by omega]
    exact free

end MemDemo.Unspawned

section Steps

variable {s : MemDemo} {t : KernelState} {u v : Vmm} {i f : Nat} {dir : UInt32}

/-- No page of a space is registered, and no slot has one. -/
structure MemDemo.Lacks (s : MemDemo) (dir : UInt32) : Prop where
  entries : s.toPager.Lacks dir
  slots : NoSlotIn s dir

/-- A kernel that differs from another in what belongs to the pager, and in its processes. -/
def Beside (s : MemDemo) (t : KernelState) : Prop :=
  ∀ pager, { t.toMemDemo with toPager := pager } = { s with toPager := pager }

/-- Giving up a process whose space is taken apart. -/
theorem abandonProcess_memory (t : KernelState) (q : Pager) (i : Nat) :
    (((t.withPager q).destroySpace i).abandonProcess i).toMemDemo = { t.toMemDemo with
      toPager :=
  -- By definition.
  { q with
        toVmm := vmmDestroyAddressSpace (t.processes.get i).pageDirectoryPhys q.toVmm } } := rfl

section Space

variable (lacks : s.Lacks dir) (changed : PageChanged s.toVmm v f) (free : s.IsFree f)
  (destroyed : vmmDestroyAddressSpace dir u = v)
  (directory : (t.processes.get i).pageDirectoryPhys = dir)

include changed free destroyed directory

/-- The space is taken apart, and the pager has nothing of it any more. -/
theorem abandonProcess_unspawned {q : Pager} (beside : Beside s t)
    (retracted : Pager.Retracted { s.toPager with toVmm := u } q) :
    MemDemo.Unspawned s (((t.withPager q).destroySpace i).abandonProcess i).toMemDemo := by
  -- The space took one free page, and nothing of the pager is left in it.
  have vmm : q.toVmm = u := by
    rw [retracted.rest]
  rw [abandonProcess_memory, directory, beside, vmm, destroyed]
  exact .of_retracted changed free retracted

include lacks

/-- The last part of a spawn, once the page of the code is registered. -/
theorem spawnStack_unspawned {j : Nat} (beside : Beside s t)
    (entered : Pager.Entered { s.toPager with toVmm := u } t.toPager j dir processUserCodeBase)
    (numbered : (t.processes.get i).pid ≠ 0) (failed : (t.spawnStack i).1 = 0) :
    MemDemo.Unspawned s (t.spawnStack i).2.toMemDemo := by
  have apart : alignDownPage processUserStackPage ≠ processUserCodeBase := by decide
  have aligned : alignDownPage processUserCodeBase = processUserCodeBase := by decide
  revert failed
  unfold KernelState.spawnStack pagerRegisterPageInDirectory
  rw [directory]
  rcases pagerRegisterPageData_missing (entered.find_other lacks.entries apart) (some fun _ => 0) 0
    with ⟨disk, result, scribbled⟩ | ⟨_, disk, -, -, -, -, -, result⟩
  · intro _
    rw [result]
    have slots : NoSlotIn (t.withPager { t.toPager with disk }).toMemDemo dir := by
      intro k inside
      have same : t.slots = s.slots := by
        have fields := congrArg MemDemo.slots (beside s.toPager)
        exact fields
      change (t.slots.get k).allocated = true → (t.slots.get k).pageDirectoryPhys ≠ dir
      rw [same]
      exact lacks.slots k inside
    simp only [withPager_processes, directory]
    rw [memdemoReleaseForDirectory_none slots]
    -- No slot has a page there, so the page of the code is all there is to give up.
    change MemDemo.Unspawned s (((t.withPager (pagerUnregisterPage { t.toPager with disk }
      (t.processes.get i).pageDirectoryPhys processUserCodeBase)).destroySpace i).abandonProcess i).toMemDemo
    rw [directory]
    exact abandonProcess_unspawned changed free destroyed directory beside
      ((entered.scribble scribbled).retract lacks.entries aligned)
  · -- The last part comes to an end, and the process has a number.
    rw [result]
    exact fun failed => absurd failed numbered

/-- The part of a spawn that registers the code. -/
theorem spawnCode_unspawned (beside : Beside s t) (pager : t.toPager = { s.toPager with toVmm := u })
    (numbered : (t.processes.get i).pid ≠ 0) {image : Nat → UInt8} {imageSize : Nat}
    (failed : (t.spawnCode i image imageSize).1 = 0) :
    MemDemo.Unspawned s (t.spawnCode i image imageSize).2.toMemDemo := by
  -- The page could not be registered, or it was and is taken back.
  have missing : t.toPager.Lacks dir := by
    rw [pager]
    exact lacks.entries
  have aligned : alignDownPage processUserCodeBase = processUserCodeBase := by decide
  revert failed
  unfold KernelState.spawnCode
  rw [directory]
  rcases pagerRegisterPageData_missing (missing.find processUserCodeBase) (some image) imageSize
    with ⟨disk, result, scribbled⟩ | ⟨j, disk, inside, unused, scribbled, ready, space, result⟩
  · intro _
    rw [result]
    refine abandonProcess_unspawned changed free destroyed directory beside ?_
    rw [pager] at scribbled ⊢
    exact ⟨rfl, fun _ => ⟨rfl, fun _ => rfl⟩, scribbled⟩
  · rw [result, aligned]
    refine spawnStack_unspawned lacks changed free destroyed directory (j := j) beside ?_ numbered
    rw [← pager]
    change Pager.Entered t.toPager (pagerPinPageInDirectory (enterPage { t.toPager with disk } j dir
      processUserCodeBase vmmPageUser) (t.processes.get i).pageDirectoryPhys processUserCodeBase true).2
      j dir processUserCodeBase
    rw [directory]
    exact (Pager.Entered.of_enterPage inside unused ready space scribbled).pin missing _

end Space

/-- A page that nobody has is no directory that a page or a slot could be in. -/
theorem Accounts.lacks {base owner : Owners Holder} {o : Vmm} {processes : FixedArray 8 Process}
    (accounts : Accounts base o owner processes s) (at_ : dir.toNat = f * 4096) (free : s.IsFree f) :
    s.Lacks dir := by
  -- An entry or a slot there would own the page.
  have page : pageOf dir = f := by
    unfold pageOf
    omega
  have none_ : ¬ owner (pageOf dir) = some .directory := by
    intro live
    have taken := accounts.spaces.used f free.1
    rw [← page, live, page, free.2] at taken
    cases taken
  refine ⟨fun j inside used same => none_ ?_, fun k inside allocated same => none_ ?_⟩
  · rw [← same]
    exact (accounts.pager.lives inside used).live
  · rw [← same]
    exact (accounts.slots.lent inside allocated).lease.live

/-- The part of a spawn that makes the address space. -/
theorem spawnSpace_unspawned {base owner : Owners Holder} {o : Vmm} {processes : FixedArray 8 Process}
    (accounts : Accounts base o owner processes s) (inside : i < 8) (memory : t.toMemDemo = s)
    (numbered : (t.processes.get i).pid ≠ 0) {image : Nat → UInt8} {imageSize : Nat}
    (failed : (t.spawnSpace i image imageSize).1 = 0) :
    MemDemo.Unspawned s (t.spawnSpace i image imageSize).2.toMemDemo := by
  subst memory
  revert failed
  unfold KernelState.spawnSpace
  cases created : vmmCreateAddressSpace t.toVmm with
  | mk made u =>
  cases made with
  | none =>
    -- There is no page for the directory.
    rcases vmmCreateAddressSpace_cases accounts.spaces with ⟨result, -⟩ | ⟨_, _, result, -⟩
    · obtain rfl : t.toVmm = u := congrArg Prod.snd (result.symm.trans created)
      exact fun _ => .refl _
    · exact nomatch result.symm.trans created
  | some dir =>
    obtain ⟨f, at_, pool, clear, changed⟩ := vmmDestroyAddressSpace_created accounts.spaces created
    have free : t.IsFree f := ⟨pool.below, clear⟩
    have slot := FixedArray.get_set_same t.processes
      { t.processes.get i with pageDirectoryPhys := dir } inside
    simp only
    generalize filled : (t.withVmm u).setProcess i _ = w
    have slot' : w.processes.get i = { t.processes.get i with pageDirectoryPhys := dir } := by
      rw [← filled]
      exact slot
    have beside : Beside t.toMemDemo w := by
      rw [← filled]
      exact fun _ => rfl
    have pager : w.toPager = { t.toPager with toVmm := u } := by
      rw [← filled]
      rfl
    refine spawnCode_unspawned (accounts.lacks at_ free) changed free rfl ?_ beside pager ?_
    · rw [slot']
    · rw [slot']
      exact numbered

end Steps

section Spawn

variable {s : KernelState} {parentPid priority : Int} {imageSize : Nat}

/-- A spawn that does not give the number of a process leaves the processes there are. -/
theorem Spawned.kept {pid : Int} {table : Table}
    (spawned : Spawned s parentPid priority imageSize pid table) (numbered : s.nextPid ≠ 0)
    (failed : pid = 0) :
    (∀ {i}, i < 8 → (table.processes.get i).used = (s.processes.get i).used ∧
      ((s.processes.get i).used = true → table.processes.get i = s.processes.get i)) ∧
    table.currentPid = s.currentPid ∧ table.scheduleCursor = s.scheduleCursor := by
  -- Refused, or given up again; a process that was made has a number.
  cases spawned with
  | refused => exact ⟨fun _ => ⟨rfl, fun _ => rfl⟩, rfl, rfl⟩
  | abandoned i p inside free unused =>
    refine ⟨fun {j} small => ?_, rfl, rfl⟩
    have slot : ({ s.table.put i p with nextPid := wrapInt (s.nextPid + 1) } : Table).processes.get j =
        if j = i then p else s.processes.get j := Table.put_get s.table i p small
    rw [slot]
    split
    · next here =>
      subst here
      exact ⟨unused.trans free.symm, fun used => nomatch free.symm.trans used⟩
    · exact ⟨rfl, fun _ => rfl⟩
  | born => exact absurd failed numbered

/-- Spawning has nothing to do with the banker. -/
theorem processSpawn_banker (s : KernelState) (parentPid : Int) (image : Option (Nat → UInt8))
    (imageSize : Nat) (priority : Int) :
    (processSpawnChildFromBufferWithPriority s parentPid image imageSize priority).2.banker =
      s.banker := by
  -- No part of a spawn writes to the table of the banker.
  have stack (t : KernelState) (i : Nat) : (t.spawnStack i).2.banker = t.banker := by
    unfold KernelState.spawnStack
    split <;> rfl
  have code (t : KernelState) (i : Nat) (image : Nat → UInt8) :
      (t.spawnCode i image imageSize).2.banker = t.banker := by
    unfold KernelState.spawnCode
    split
    · rfl
    · exact stack _ i
  have space (t : KernelState) (i : Nat) (image : Nat → UInt8) :
      (t.spawnSpace i image imageSize).2.banker = t.banker := by
    unfold KernelState.spawnSpace
    split
    · rfl
    · exact code _ i image
  unfold processSpawnChildFromBufferWithPriority KernelState.allocateProcess
  cases image with
  | none => rfl
  | some image =>
    simp only
    split
    · rfl
    · cases (List.range processMax).find? fun i => !(s.processes.get i).used with
      | none => rfl
      | some i => exact space _ i image

/-- A spawn that fails leaves memory, the pager and the memory demonstration as they were. -/
theorem processSpawn_memory {base owner : Owners Holder} {o : Vmm}
    (accounts : Accounts base o owner s.processes s.toMemDemo) (numbered : s.nextPid ≠ 0)
    {image : Option (Nat → UInt8)}
    (failed : (processSpawnChildFromBufferWithPriority s parentPid image imageSize priority).1 = 0) :
    MemDemo.Unspawned s.toMemDemo
      (processSpawnChildFromBufferWithPriority s parentPid image imageSize priority).2.toMemDemo := by
  -- The checks fail before anything is done, and each later failure is taken back.
  revert failed
  unfold processSpawnChildFromBufferWithPriority KernelState.allocateProcess
  cases image with
  | none => exact fun _ => .refl _
  | some image =>
    simp only
    split
    · exact fun _ => .refl _
    · cases found : (List.range processMax).find? fun i => !(s.processes.get i).used with
      | none => exact fun _ => .refl _
      | some i =>
        obtain ⟨-, member, -⟩ := List.find?_range_eq_some.mp found
        have inside : i < 8 := List.mem_range.mp member
        simp only
        generalize filled : KernelState.setProcess _ i _ = t
        have memory : t.toMemDemo = s.toMemDemo := by
          rw [← filled]
          rfl
        have pid : (t.processes.get i).pid = s.nextPid := by
          have taken := FixedArray.get_set_same s.processes (KernelState.freshProcess s.nextPid) inside
          rw [← filled, setProcess_processes, FixedArray.get_set_same _ _ inside]
          exact congrArg Process.pid taken
        exact spawnSpace_unspawned accounts inside memory (pid ▸ numbered)

end Spawn

section Kept

variable {base owner : Owners Holder} {o : Vmm} {processes : FixedArray 8 Process} {s t : MemDemo}

/-- A page with an owner is not free. -/
theorem Accounts.taken (accounts : Accounts base o owner processes s) {f : Nat} {r : Owner Holder}
    (owned : owner f = some r) : ¬ s.IsFree f := by
  -- A page that is owned is marked.
  rintro ⟨inside, clear⟩
  have used := accounts.spaces.used f inside
  rw [owned, clear] at used
  cases used

namespace MemDemo.Unspawned

/-- A page that is not free has the bytes it had. -/
theorem samePage (unspawned : Unspawned s t) {f : Nat} (taken : ¬ s.IsFree f) :
    s.memory.SamePage t.memory f := by
  -- The bytes of the page lie in it.
  intro k small
  refine unspawned.memory ?_
  rw [show (f * 4096 + k) / 4096 = f by omega]
  exact taken

/-- The same pages are free. -/
theorem bitmapTest (unspawned : Unspawned s t) (sound : s.toPmm.Sound) {page : Nat}
    (inside : page < s.totalPages.toNat) : t.bitmapTest page = s.bitmapTest page := by
  have flag := sound.flag_inside inside
  have base : t.bitmapBase = s.bitmapBase := by
    rw [unspawned.rest]
  unfold Pmm.bitmapTest
  rw [base, unspawned.memory]
  -- The bitmap lies in front of the pages that are handed out.
  rintro ⟨below, clear⟩
  rw [sound.reserved _ (by omega) below] at clear
  cases clear

/-- The spaces there are map what they mapped. -/
theorem cell (unspawned : Unspawned s t) (accounts : Accounts base o owner processes s) {d v : Nat}
    (live : owner d = some .directory) (inside : v < 1048576) : t.cell d v = s.cell d v := by
  have entry : t.pde d (v / 1024) = s.pde d (v / 1024) :=
    pde_congr (unspawned.samePage (accounts.taken live)) (by omega)
  cases present : flagOf (s.pde d (v / 1024)) 0 with
  | false => rw [cell_eq_zero (by rw [entry]; exact present), cell_eq_zero present]
  | true =>
    -- The table has an owner, whichever half it is for.
    have table : ¬ s.IsFree (pageOf (s.pde d (v / 1024))) := by
      by_cases half : v / 1024 < 768
      · exact accounts.taken (accounts.spaces.table_owner live half present)
      · have shared := accounts.spaces.shared live (Nat.le_of_not_lt half) (show v / 1024 < 1024 by omega)
        rw [shared] at present ⊢
        exact accounts.taken (accounts.spaces.kernelTables (Nat.le_of_not_lt half) (by omega) present).1
    unfold Vmm.cell
    rw [entry, if_pos present, if_pos present]
    exact (unspawned.samePage table).wordAt (Nat.mod_lt _ (by decide))

/-- Every page that is registered has the bytes it had. -/
theorem byteAt (unspawned : Unspawned s t) (accounts : Accounts base o owner processes s) {j k : Nat}
    (inside : j < 128) (used : (s.pages.get j).used = true) (small : k < 4096) :
    t.byteAt j k = s.byteAt j k := by
  have ok := accounts.pager.of_used inside used
  have same := (unspawned.entries inside).2 used
  unfold Pager.byteAt
  rw [same]
  split
  · next present => exact unspawned.samePage (accounts.taken (ok.frames inside used present).owned) k small
  · unfold slotByte
    rw [unspawned.disk.sectors]
    -- The place on the disk is that of a page in use.
    intro l below unused occupies
    have other : l ≠ j := by
      rintro rfl
      exact nomatch unused.symm.trans used
    unfold PagerPage.Occupies at occupies
    rw [ok.books.slots below, lba28_swapLbaForSlot below] at occupies
    omega

end MemDemo.Unspawned

/-- A spawn that fails leaves all that was in use as it was. -/
theorem processSpawn_unspawned {s : KernelState} (accounts : Accounts base o owner s.processes s.toMemDemo)
    (numbered : s.nextPid ≠ 0) {parentPid priority : Int} {image : Option (Nat → UInt8)} {imageSize : Nat}
    (failed : (processSpawnChildFromBufferWithPriority s parentPid image imageSize priority).1 = 0) :
    s.Unspawned (processSpawnChildFromBufferWithPriority s parentPid image imageSize priority).2 := by
  -- Memory, table and banker, each by its own lemma.
  have memory := processSpawn_memory accounts numbered failed
  have banker := processSpawn_banker s parentPid image imageSize priority
  obtain ⟨processes, current, cursor⟩ :=
    (processSpawn_table s parentPid image imageSize priority).kept numbered failed
  generalize (processSpawnChildFromBufferWithPriority s parentPid image imageSize priority).2 = t
    at memory banker processes current cursor ⊢
  refine ⟨?_, processes, memory.memory, memory.bitmapTest accounts.spaces.pmm, fun inside used => ?_,
    memory.entries, memory.byteAt accounts, memory.disk⟩
  · have current : t.currentPid = s.currentPid := current
    have cursor : t.scheduleCursor = s.scheduleCursor := cursor
    have fields := congrArg (fun m : MemDemo =>
      (⟨m, t.banker, t.processes, t.nextPid, t.currentPid, t.scheduleCursor⟩ : KernelState)) memory.rest
    simp only [banker, current, cursor] at fields
    refine Eq.trans ?_ fields
    rw [← banker, ← current, ← cursor]
  · exact memory.cell accounts (accounts.home inside used).1

end Kept

section Runs

/--
In every state that is reached a spawn that fails leaves all that was in use as it was.

A page fault that is not resolved halts the machine, so these are the runs in which each one is.
-/
theorem failed_spawn_unspawned {base : Owners Holder} {s : KernelState} {events : List Event}
    (boots : s.Boots base) (builtin : UInt32 → Option (List UInt8))
    (goes : (machineRun builtin (machineStart s) events).mode ≠ .halted)
    (parentPid : Int) (image : Option (Nat → UInt8)) (imageSize : Nat) (priority : Int) :
    let t := (machineRun builtin (machineStart s) events).kernel
    let spawned := processSpawnChildFromBufferWithPriority t parentPid image imageSize priority
    t.nextPid ≠ 0 → spawned.1 = 0 → t.Unspawned spawned.2 := by
  -- The accounts hold in the state reached.
  intro t spawned numbered failed
  obtain ⟨owner, accounts⟩ := machineRun_accounted boots builtin goes
  exact processSpawn_unspawned accounts numbered failed

end Runs

section Example

/-- The tiny kernel has started. -/
theorem tinyKernel_boots : tinyKernel.Boots (@emptyOwners Holder) :=
  emptyKernel_boots tinyMachine_spaces (fun _ behind => if_neg (by omega)) (by decide)

/-- Where the memory is full there is none for another process, and the first one is as it was. -/
theorem failed_spawn_unspawned_small :
    fullMachine.kernel.Unspawned
      (processSpawnChildFromBufferWithPriority fullMachine.kernel 0 (some fun _ => 0) 1 5).2 :=
  -- Evaluated, the table has a free slot and memory has no page.
  failed_spawn_unspawned tinyKernel_boots (fun _ => none) (by decide +kernel) 0 (some fun _ => 0) 1 5
    (by decide +kernel) (by decide +kernel)

/-- The first process gives its page back. -/
def freeRoom : List Event := [.runPid 1, .call sysMemdemoReset 0, .call sysYield 0]

/-- A process that is made with the number zero looks like a spawn that failed. -/
theorem number_zero_spawned : tinyKernel.Boots (@emptyOwners Holder) ∧
    let t := machineRun (fun _ => none) (machineStart tinyKernel) (takeMemory ++ manySpawns ++ freeRoom)
    let spawned := processSpawnChildFromBufferWithPriority t.kernel 0 (some fun _ => 0) 1 9
    t.mode = .kernel ∧ spawned.1 = 0 ∧ ¬ t.kernel.Unspawned spawned.2 := by
  refine ⟨tinyKernel_boots, ?_⟩
  intro t spawned
  have before : t = machineRun (fun _ => none) wrappedMachine freeRoom := by
    change machineRun _ _ (takeMemory ++ manySpawns ++ freeRoom) = _
    rw [machineRun_append, machineRun_append]
    exact congrArg (machineRun (fun _ => none) · freeRoom) fullMachine_spawns
  clear_value t
  have facts : (machineRun (fun _ => none) wrappedMachine freeRoom).mode = .kernel ∧
      (processSpawnChildFromBufferWithPriority (machineRun (fun _ => none) wrappedMachine freeRoom).kernel 0
        (some fun _ => 0) 1 9).1 = 0 ∧
      ((processSpawnChildFromBufferWithPriority (machineRun (fun _ => none) wrappedMachine freeRoom).kernel 0
        (some fun _ => 0) 1 9).2.processes.get 1).used = true ∧
      ((machineRun (fun _ => none) wrappedMachine freeRoom).kernel.processes.get 1).used = false := by
    decide +kernel
  rw [← before] at facts
  obtain ⟨mode, zero, made, free⟩ := facts
  refine ⟨mode, zero, fun unspawned => ?_⟩
  -- A slot that was free is in use.
  have same := (unspawned.processes (show 1 < 8 by decide)).1
  exact Bool.false_ne_true (free.symm.trans (same.symm.trans made))

end Example

end MyOS.Kernel
