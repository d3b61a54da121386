import MyOS.Kernel.Accounts
import MyOS.Kernel.MachineLaws
import MyOS.Kernel.TableRuns

/-! Which process every page of memory belongs to after any run of the kernel. -/

namespace MyOS.Kernel

open MyOS.Mm

variable {base : Owners Holder} {o : Vmm} {owner : Owners Holder} {s t u : KernelState} {i : Nat}

/-- The accounts of the kernel are in order. -/
def KernelState.Accounted (base : Owners Holder) (o : Vmm) (s : KernelState) : Prop :=
  ∃ owner, Accounts base o owner s.processes s.toMemDemo

/-- The space that is in use, and the spaces of the processes there are, stay. -/
structure Stays (s t : KernelState) : Prop where
  current : t.currentPageDirectoryPhys = s.currentPageDirectoryPhys
  homes : ∀ {i}, i < 8 → (s.processes.get i).used = true → (t.processes.get i).used = true ∧
    (t.processes.get i).pageDirectoryPhys = (s.processes.get i).pageDirectoryPhys

namespace Stays

/-- Nothing changes for the processes. -/
theorem refl (s : KernelState) : Stays s s := ⟨rfl, fun _ used => ⟨used, rfl⟩⟩

end Stays

/-- A step that leaves memory alone, and to every process its pages. -/
structure PagesKept (s t : KernelState) : Prop where
  memory : t.toMemDemo = s.toMemDemo
  slots : ∀ {i}, i < 8 → (t.processes.get i).used = (s.processes.get i).used ∧
    ((s.processes.get i).used = true →
      (t.processes.get i).pageDirectoryPhys = (s.processes.get i).pageDirectoryPhys ∧
        (t.processes.get i).vmPageBitmap = (s.processes.get i).vmPageBitmap)

namespace PagesKept

/-- Nothing changes for the pages. -/
theorem refl (s : KernelState) : PagesKept s s := ⟨rfl, fun _ => ⟨rfl, fun _ => ⟨rfl, rfl⟩⟩⟩

/-- What keeps the pages twice keeps them. -/
theorem trans (first : PagesKept s t) (second : PagesKept t u) : PagesKept s u := by
  -- Slot by slot, a used one says the same after both.
  refine ⟨second.memory.trans first.memory, fun inside => ?_⟩
  obtain ⟨used, same⟩ := first.slots inside
  obtain ⟨used', same'⟩ := second.slots inside
  refine ⟨used'.trans used, fun before => ?_⟩
  obtain ⟨directory', pages'⟩ := same' (used.trans before)
  exact ⟨directory'.trans (same before).1, pages'.trans (same before).2⟩

/-- A slot is written that says the same about memory. -/
theorem setProcess {p : Process} (used : p.used = (s.processes.get i).used)
    (directory : p.pageDirectoryPhys = (s.processes.get i).pageDirectoryPhys)
    (pages : p.vmPageBitmap = (s.processes.get i).vmPageBitmap) : PagesKept s (s.setProcess i p) := by
  -- At slot `i` it is assumed, the others are as they were.
  refine ⟨rfl, fun {j} small => ?_⟩
  have slot : (s.setProcess i p).processes.get j = if j = i then p else s.processes.get j :=
    FixedArray.get_set _ _ small
  rw [slot]
  split
  · next here => exact here ▸ ⟨used, fun _ => ⟨directory, pages⟩⟩
  · exact ⟨rfl, fun _ => ⟨rfl, rfl⟩⟩

/-- Which process runs has nothing to do with whose pages there are. -/
theorem setCurrent (s : KernelState) (pid : Int) : PagesKept s { s with currentPid := pid } :=
  ⟨rfl, fun _ => ⟨rfl, fun _ => ⟨rfl, rfl⟩⟩⟩

/-- The accounts stay in order where the pages are kept. -/
theorem accounted (pagesKept : PagesKept s t) (accounted : s.Accounted base o) :
    t.Accounted base o := by
  -- The memory is the same, and so are the lists of the used slots.
  obtain ⟨owner, accounts⟩ := accounted
  refine ⟨owner, ?_⟩
  rw [pagesKept.memory]
  refine accounts.congr fun j small => ⟨(pagesKept.slots small).1, fun used => ?_⟩
  obtain ⟨directory, pages⟩ := (pagesKept.slots small).2 used
  refine ⟨directory, fun virtAddr lists => ?_⟩
  unfold Process.Lists
  rw [pages]
  exact lists

/-- Whose pages are kept, they stay where they were. -/
theorem stays (pagesKept : PagesKept s t) : Stays s t := by
  -- The directory of a used slot is part of what is kept.
  refine ⟨by rw [pagesKept.memory], fun inside used => ?_⟩
  obtain ⟨same, rest⟩ := pagesKept.slots inside
  exact ⟨same.trans used, (rest used).1⟩

/-- The children of a process become orphans. -/
theorem adoptChildren (s : KernelState) (parentPid : Int) : PagesKept s (s.adoptChildren parentPid) := by
  -- Only the parent and the flag of the children change.
  unfold KernelState.adoptChildren
  split
  · exact .refl s
  · refine foldl_range_invariant (fun _ t => PagesKept s t) (.refl s) fun k t inside before => ?_
    unfold KernelState.adoptChild
    split
    · exact before.trans (.setProcess rfl rfl rfl)
    · exact before

end PagesKept

section Release

variable {processes : FixedArray 8 Process} {m : MemDemo} {kind : UInt32 → Prop}

/-- A process is giving up its pages; those it still has are of a kind. -/
structure Emptying (base : Owners Holder) (o : Vmm) (processes : FixedArray 8 Process) (i : Nat)
    (m : MemDemo) (kind : UInt32 → Prop) : Prop where
  accounts : ∃ owner, Accounts base o owner processes m
  slots : NoSlotIn m (processes.get i).pageDirectoryPhys
  entries : RegisteredIn m (processes.get i).pageDirectoryPhys kind

/-- A process has no other pages than those it lists. -/
theorem Accounts.listed (accounts : Accounts base o owner processes m) (inside : i < 8)
    (used : (processes.get i).used = true) :
    RegisteredIn m (processes.get i).pageDirectoryPhys (processes.get i).Lists := by
  -- The entry belongs to some process, which has this space and so is this one.
  intro j small used' there
  obtain ⟨l, small', used'', home, lists⟩ := accounts.homes.entries small used'
  obtain rfl : l = i :=
    accounts.homes.distinct small' inside used'' used (congrArg pageOf (home.trans there))
  exact lists

/-- One page fewer. -/
theorem Emptying.unregister (emptying : Emptying base o processes i m kind)
    (some_ : (processes.get i).pageDirectoryPhys ≠ 0) {virtAddr : UInt32}
    (aligned : virtAddr.toNat % 4096 = 0) :
    Emptying base o processes i
      { m with toPager := pagerUnregisterPage m.toPager (processes.get i).pageDirectoryPhys virtAddr }
      fun v => kind v ∧ v ≠ virtAddr := by
  -- One entry goes, and the others of the process are those it had but for `virtAddr`.
  obtain ⟨⟨owner, accounts⟩, slots, entries⟩ := emptying
  obtain ⟨owner', accounts', fewer, without⟩ := accounts.unregister some_ virtAddr
  rw [alignDownPage_eq aligned] at without
  exact ⟨⟨owner', accounts'⟩, slots.fewer fewer, fun j small used there =>
    ⟨entries.fewer fewer j small used there, without j small used there⟩⟩

/-- The pages a process asked for, one after another. -/
theorem Emptying.unregisterVmPages (emptying : Emptying base o s.processes i s.toMemDemo fun v =>
      ∃ k, k < processUserVmPageCount ∧
        ((s.processes.get i).vmPageBitmap &&& (1 <<< UInt32.ofNat k) != 0) = true ∧
        v = processUserVmBase + UInt32.ofNat k * pageSize)
    (some_ : (s.processes.get i).pageDirectoryPhys ≠ 0) :
    let t := (List.range processUserVmPageCount).foldl (fun (t : KernelState) k =>
      if (t.processes.get i).vmPageBitmap &&& (1 <<< UInt32.ofNat k) != 0 then
        t.withPager (pagerUnregisterPage t.toPager (s.processes.get i).pageDirectoryPhys
          (processUserVmBase + UInt32.ofNat k * pageSize))
      else t) s
    t.processes = s.processes ∧ Emptying base o s.processes i t.toMemDemo fun _ => False := by
  intro t
  -- After so many rounds only the later pages are left.
  have rounds : t.processes = s.processes ∧ Emptying base o s.processes i t.toMemDemo fun v =>
      ∃ k, processUserVmPageCount ≤ k ∧ k < processUserVmPageCount ∧
        ((s.processes.get i).vmPageBitmap &&& (1 <<< UInt32.ofNat k) != 0) = true ∧
        v = processUserVmBase + UInt32.ofNat k * pageSize := by
    refine foldl_range_invariant (fun n (t : KernelState) => t.processes = s.processes ∧
      Emptying base o s.processes i t.toMemDemo fun v => ∃ k, n ≤ k ∧ k < processUserVmPageCount ∧
        ((s.processes.get i).vmPageBitmap &&& (1 <<< UInt32.ofNat k) != 0) = true ∧
        v = processUserVmBase + UInt32.ofNat k * pageSize)
      ⟨rfl, emptying.accounts, emptying.slots, fun j small used there => ?_⟩
      fun n t below ⟨same, emptying⟩ => ?_
    · obtain ⟨k, below, set, virt⟩ := emptying.entries j small used there
      exact ⟨k, Nat.zero_le _, below, set, virt⟩
    rw [same]
    split
    · have next := emptying.unregister some_
        (show (processUserVmBase + UInt32.ofNat n * pageSize).toNat % 4096 = 0 by
          rw [toNat_vmPage below]
          omega)
      refine ⟨same, next.accounts, next.slots, fun j small used there => ?_⟩
      obtain ⟨⟨k, low, high, set, virt⟩, other⟩ := next.entries j small used there
      refine ⟨k, Nat.lt_of_le_of_ne low ?_, high, set, virt⟩
      rintro rfl
      exact other virt
    · next clear =>
      refine ⟨same, emptying.accounts, emptying.slots, fun j small used there => ?_⟩
      obtain ⟨k, low, high, set, virt⟩ := emptying.entries j small used there
      refine ⟨k, Nat.lt_of_le_of_ne low ?_, high, set, virt⟩
      rintro rfl
      exact clear set
  refine ⟨rounds.1, rounds.2.accounts, rounds.2.slots, fun j small used there => ?_⟩
  obtain ⟨k, low, high, -⟩ := rounds.2.entries j small used there
  omega

/-- `release_process` takes everything from a process that it has. -/
theorem releaseMemory_accounted (accounted : s.Accounted base o) (inside : i < 8)
    (used : (s.processes.get i).used = true) {p : Process} (unused : p.used = false) :
    ((releaseMemory s i).setProcess i p).Accounted base o := by
  obtain ⟨owner, accounts⟩ := accounted
  obtain ⟨live, at_, -⟩ := accounts.home inside used
  have some_ := ne_zero_of_page at_ (accounts.spaces.positive (accounts.spaces.directory_inPool live))
  unfold releaseMemory
  simp only
  rw [if_neg (by simpa using some_)]
  -- First the pages in slots, then those every process has, and last those it asked for.
  obtain ⟨owner', released, fewer⟩ := accounts.release (s.processes.get i).pageDirectoryPhys
  have first : Emptying base o s.processes i _ (s.processes.get i).Lists :=
    ⟨⟨owner', released⟩, memdemoReleaseForDirectory_noSlotIn _ _, (accounts.listed inside used).fewer fewer⟩
  have second := (first.unregister some_ (show processUserCodeBase.toNat % 4096 = 0 by decide)).unregister
    some_ (show processUserStackPage.toNat % 4096 = 0 by decide)
  have directory : ∀ t : KernelState, t.processes = s.processes →
      (s.processes.get i).pageDirectoryPhys = (t.processes.get i).pageDirectoryPhys := by
    intro t same
    rw [same]
  generalize before : KernelState.withPager (KernelState.withPager _ _) _ = t
  have same : t.processes = s.processes := by
    rw [← before]
    rfl
  have third : Emptying base o t.processes i t.toMemDemo fun v =>
      ((s.processes.get i).Lists v ∧ v ≠ processUserCodeBase) ∧ v ≠ processUserStackPage := by
    rw [same, ← before]
    exact second
  rw [directory t same] at some_ ⊢
  rw [← same] at used
  obtain ⟨same', emptied⟩ := Emptying.unregisterVmPages ⟨third.accounts, third.slots,
    fun j small used' there => by
      obtain ⟨⟨lists, notCode⟩, notStack⟩ := third.entries j small used' there
      rw [same]
      rcases lists with code | stack | page
      · exact absurd code notCode
      · exact absurd stack notStack
      · exact page⟩ some_
  generalize List.foldl _ t _ = u at same' emptied ⊢
  obtain ⟨owner'', accounts'⟩ := emptied.accounts
  have gone := accounts'.gone inside used emptied.entries emptied.slots unused
  rw [← same'] at gone ⊢
  exact ⟨_, gone⟩

/-- `release_process` -/
theorem releaseProcess_accounted (accounted : s.Accounted base o) (inside : i < 8) :
    (releaseProcess s i).Accounted base o := by
  -- The pages go one by one, then the slots of the demonstration, and last the space.
  unfold releaseProcess
  split
  · exact accounted
  · next stopped =>
    simp only [Bool.or_eq_true, not_or, Bool.not_eq_true, Bool.not_eq_false'] at stopped
    have orphans := PagesKept.adoptChildren s (s.processes.get i).pid
    have left : PagesKept s { s.adoptChildren (s.processes.get i).pid with
        banker := bankerUnregisterProcess (s.processes.get i).pid
          (s.adoptChildren (s.processes.get i).pid).banker } := ⟨orphans.memory, orphans.slots⟩
    exact releaseMemory_accounted (left.accounted accounted) inside
      ((left.slots inside).1.trans stopped.1) rfl

/-- `process_kill` -/
theorem processKill_accounted (accounted : s.Accounted base o) (pid : Int) :
    (processKill s pid).2.Accounted base o := by
  -- Refused, or the process is released.
  unfold processKill
  split
  · exact accounted
  · next found =>
    split
    · exact accounted
    · exact releaseProcess_accounted accounted (findProcessByPid_some found).1

/-- `process_wait_child` -/
theorem processWaitChild_accounted (accounted : s.Accounted base o) (parentPid childPid : Int) :
    (processWaitChild s parentPid childPid).2.Accounted base o := by
  -- Nothing to wait for, or the zombie is released.
  unfold processWaitChild
  split
  · exact accounted
  · split
    · split <;> exact accounted
    · next found =>
      exact releaseProcess_accounted accounted (List.mem_range.mp (List.mem_of_find?_eq_some found))

/-- `process_reap_zombies` -/
theorem processReapZombies_accounted (accounted : s.Accounted base o) :
    (processReapZombies s).Accounted base o := by
  -- The accounts are an invariant of the loop over the slots.
  refine foldl_range_invariant (fun _ (t : KernelState) => t.Accounted base o) accounted
    fun i t inside accounted => ?_
  unfold reapStep
  split
  · exact releaseProcess_accounted accounted inside
  · exact accounted

end Release

section Spawn

/-- The current space after a page was pinned, and what is registered. -/
theorem Accounts.pin (accounts : Accounts base o owner u.processes u.toMemDemo) (i : Nat)
    (virtAddr : UInt32) :
    Accounts base o owner (u.pinPage i virtAddr).processes (u.pinPage i virtAddr).toMemDemo ∧
      Fewer u.toMemDemo (u.pinPage i virtAddr).toMemDemo :=
  -- A pin is a field of an entry that the accounts do not look at.
  accounts.kept (pagerPinPageInDirectory_kept accounts.spaces _ _ _) rfl

/-- The space of a process that has no other page than that of its code is given up. -/
theorem abandon_accounted (accounts : Accounts base o owner u.processes u.toMemDemo) (inside : i < 8)
    (used : (u.processes.get i).used = true)
    (slots : NoSlotIn u.toMemDemo (u.processes.get i).pageDirectoryPhys)
    (entries : RegisteredIn u.toMemDemo (u.processes.get i).pageDirectoryPhys fun _ => False) :
    ((u.destroySpace i).abandonProcess i).Accounted base o ∧
      ((u.destroySpace i).abandonProcess i).currentPageDirectoryPhys = u.currentPageDirectoryPhys := by
  -- Nothing is registered in the space and no slot is in it, so it can be destroyed.
  obtain ⟨live, at_, other⟩ := accounts.home inside used
  exact ⟨⟨_, accounts.gone inside used entries slots rfl⟩,
    (vmmDestroyAddressSpace_gone accounts.spaces live at_ other).current⟩

/-- The last part of a spawn. -/
theorem spawnStack_accounted (accounts : Accounts base o owner u.processes u.toMemDemo) (inside : i < 8)
    (used : (u.processes.get i).used = true)
    (slots : NoSlotIn u.toMemDemo (u.processes.get i).pageDirectoryPhys)
    (entries : RegisteredIn u.toMemDemo (u.processes.get i).pageDirectoryPhys (· = processUserCodeBase)) :
    (u.spawnStack i).2.Accounted base o ∧
      (u.spawnStack i).2.currentPageDirectoryPhys = u.currentPageDirectoryPhys := by
  obtain ⟨live, at_, -⟩ := accounts.home inside used
  have some_ := ne_zero_of_page at_ (accounts.spaces.positive (accounts.spaces.directory_inPool live))
  unfold KernelState.spawnStack
  cases registered : pagerRegisterPageInDirectory u.toPager (u.processes.get i).pageDirectoryPhys
    processUserStackPage (vmmPageWritable ||| vmmPageUser) with
  | mk done pager =>
  obtain ⟨after, current, registers⟩ := accounts.register inside used
    (show processUserStackPage < vmmKernelBase by decide) _ _ _ registered fun _ => Or.inr (Or.inl rfl)
  cases done with
  | true =>
    obtain ⟨pinned, fewer⟩ := @Accounts.pin base o owner (u.withPager pager) after i processUserStackPage
    exact ⟨⟨owner, pinned⟩, fewer.current.trans current⟩
  | false =>
    -- No slot can have a page in a space that is new.
    have none_ : memdemoReleaseForDirectory (u.withPager pager).toMemDemo
        (u.processes.get i).pageDirectoryPhys = (u.withPager pager).toMemDemo :=
      memdemoReleaseForDirectory_none slots
    obtain ⟨owner', accounts', fewer, without⟩ := after.unregister some_ processUserCodeBase
    simp only [withPager_processes]
    rw [none_]
    have slots' : NoSlotIn (u.withPager pager).toMemDemo (u.processes.get i).pageDirectoryPhys := slots
    obtain ⟨gone, same⟩ := @abandon_accounted base o owner' ((u.withPager pager).withPager
      (pagerUnregisterPage pager (u.processes.get i).pageDirectoryPhys processUserCodeBase)) i accounts'
      inside used (slots'.fewer fewer) fun j small used' there =>
        without j small used' there ((registers entries nofun).fewer fewer j small used' there)
    exact ⟨gone, same.trans (fewer.current.trans current)⟩

/-- The middle part of a spawn. -/
theorem spawnCode_accounted (accounts : Accounts base o owner u.processes u.toMemDemo) (inside : i < 8)
    (used : (u.processes.get i).used = true)
    (slots : NoSlotIn u.toMemDemo (u.processes.get i).pageDirectoryPhys)
    (entries : RegisteredIn u.toMemDemo (u.processes.get i).pageDirectoryPhys fun _ => False)
    (image : Nat → UInt8) (imageSize : Nat) :
    (u.spawnCode i image imageSize).2.Accounted base o ∧
      (u.spawnCode i image imageSize).2.currentPageDirectoryPhys = u.currentPageDirectoryPhys := by
  -- The code page is registered with its bytes and pinned, or the space is given up.
  unfold KernelState.spawnCode
  cases registered : pagerRegisterPageData u.toPager (u.processes.get i).pageDirectoryPhys
    processUserCodeBase vmmPageUser (some image) imageSize with
  | mk done pager =>
  obtain ⟨after, current, registers⟩ := accounts.register inside used
    (show processUserCodeBase < vmmKernelBase by decide) _ _ _ registered fun _ => Or.inl rfl
  cases done with
  | false =>
    obtain ⟨gone, same⟩ := @abandon_accounted base o owner (u.withPager pager) i after inside used slots
      (registers entries nofun)
    exact ⟨gone, same.trans current⟩
  | true =>
    obtain ⟨pinned, fewer⟩ := @Accounts.pin base o owner (u.withPager pager) after i processUserCodeBase
    have only : RegisteredIn (u.withPager pager).toMemDemo (u.processes.get i).pageDirectoryPhys
        (· = processUserCodeBase) :=
      registers (fun j small used' there => (entries j small used' there).elim) fun _ _ => rfl
    have slots' : NoSlotIn (u.withPager pager).toMemDemo (u.processes.get i).pageDirectoryPhys := slots
    obtain ⟨after', same⟩ := spawnStack_accounted pinned inside used (slots'.fewer fewer)
      (only.fewer fewer)
    exact ⟨after', same.trans (fewer.current.trans current)⟩

/-- Nobody has a page in a space that is new. -/
theorem Accounts.fresh {processes : FixedArray 8 Process} {m : MemDemo} {f : Nat} {t : Vmm}
    (accounts : Accounts base o owner processes m) (made : SpaceMade owner m.toVmm t f) :
    RegisteredIn m (UInt32.ofNat (f * 4096)) (fun _ => False) ∧ NoSlotIn m (UInt32.ofNat (f * 4096)) := by
  -- A directory that was free is nobody's home.
  have address := toNat_ofNat_page (accounts.spaces.small made.inPool)
  have page : pageOf (UInt32.ofNat (f * 4096)) = f := by
    unfold pageOf
    omega
  have free : owner (pageOf (UInt32.ofNat (f * 4096))) ≠ some .directory := by
    rw [page, made.free]
    nofun
  refine ⟨fun j small used there => ?_, fun k small allocated there => ?_⟩
  · have live := (accounts.pager.lives small used).live
    unfold PagerPage.directory at live
    rw [there] at live
    exact free live
  · have live := (accounts.slots.lent small allocated).lease.live
    rw [there] at live
    exact free live

/-- The part of a spawn that makes the space of the new process. -/
theorem spawnSpace_accounted {processes : FixedArray 8 Process} {p : Process}
    (accounts : Accounts base o owner processes u.toMemDemo) (inside : i < 8)
    (free : (processes.get i).used = false) (slot : u.processes = processes.set i p)
    (used : p.used = true) (image : Nat → UInt8) (imageSize : Nat) :
    (u.spawnSpace i image imageSize).2.Accounted base o ∧
      (u.spawnSpace i image imageSize).2.currentPageDirectoryPhys = u.currentPageDirectoryPhys := by
  -- Without memory nothing happened, with it the space is new and the rest of the spawn follows.
  unfold KernelState.spawnSpace
  rcases vmmCreateAddressSpace_cases accounts.spaces with ⟨full, -⟩ | ⟨f, t, result, made⟩
  · rw [full]
    refine ⟨⟨owner, ?_⟩, rfl⟩
    refine accounts.congr fun j small => ?_
    have same : ((u.withVmm u.toVmm).abandonProcess i).processes.get j =
        if j = i then { u.processes.get i with used := false, state := .unused } else
          u.processes.get j := FixedArray.get_set _ _ small
    rw [same]
    split
    · next here =>
      subst here
      exact ⟨free.symm, fun used' => nomatch free.symm.trans used'⟩
    · next other =>
      rw [slot, FixedArray.get_set _ _ small, if_neg other]
      exact ⟨rfl, fun _ => ⟨rfl, fun _ => id⟩⟩
  · rw [result]
    simp only
    generalize before : KernelState.setProcess (u.withVmm t) i _ = v
    have here : v.processes = processes.set i
        { p with pageDirectoryPhys := UInt32.ofNat (f * 4096) } := by
      rw [← before]
      change u.processes.set i { u.processes.get i with pageDirectoryPhys := _ } = _
      rw [slot, FixedArray.set_set, FixedArray.get_set_same _ _ inside]
    have mine : v.processes.get i = { p with pageDirectoryPhys := UInt32.ofNat (f * 4096) } := by
      rw [here, FixedArray.get_set_same _ _ inside]
    have memory : v.toMemDemo = u.toMemDemo.withVmm t := by
      rw [← before]
      rfl
    have after : Accounts base o (Function.update owner f (some .directory)) v.processes v.toMemDemo := by
      rw [here, memory]
      exact accounts.made inside free made used rfl
    obtain ⟨entries, slots⟩ := accounts.fresh made
    obtain ⟨done, current⟩ := spawnCode_accounted after inside (by rw [mine]; exact used)
      (by rw [mine, memory]; exact slots) (by rw [mine, memory]; exact entries) image imageSize
    refine ⟨done, current.trans ?_⟩
    rw [memory]
    exact made.current

/-- `process_spawn_child_from_buffer_with_priority` -/
theorem processSpawn_accounted (accounted : s.Accounted base o) (parentPid : Int)
    (image : Option (Nat → UInt8)) (imageSize : Nat) (priority : Int) :
    (processSpawnChildFromBufferWithPriority s parentPid image imageSize priority).2.Accounted base o ∧
      Stays s (processSpawnChildFromBufferWithPriority s parentPid image imageSize priority).2 := by
  have spawned := processSpawn_table s parentPid image imageSize priority
  obtain ⟨after, current⟩ : (processSpawnChildFromBufferWithPriority s parentPid image imageSize
        priority).2.Accounted base o ∧ (processSpawnChildFromBufferWithPriority s parentPid image
        imageSize priority).2.currentPageDirectoryPhys = s.currentPageDirectoryPhys := by
    obtain ⟨owner, accounts⟩ := id accounted
    unfold processSpawnChildFromBufferWithPriority
    split
    · exact ⟨accounted, rfl⟩
    split
    · exact ⟨accounted, rfl⟩
    unfold KernelState.allocateProcess
    cases found : (List.range processMax).find? fun i => !(s.processes.get i).used with
    | none => exact ⟨accounted, rfl⟩
    | some i =>
      obtain ⟨free, member, -⟩ := List.find?_range_eq_some.mp found
      have inside : i < 8 := List.mem_range.mp member
      simp only
      generalize before : KernelState.setProcess _ i _ = u
      have memory : u.toMemDemo = s.toMemDemo := by
        rw [← before]
        rfl
      have slot : u.processes = (s.processes.set i (KernelState.freshProcess s.nextPid)).set i
          { (s.processes.set i (KernelState.freshProcess s.nextPid)).get i with
            parentPid := parentPid
            priority := priority
            imageSize := imageSize } := by
        rw [← before]
        rfl
      rw [FixedArray.set_set] at slot
      rw [← memory] at accounts ⊢
      refine spawnSpace_accounted accounts inside (by simpa using free) slot ?_ _ _
      change ((s.processes.set i _).get i).used = true
      rw [FixedArray.get_set_same _ _ inside]
      rfl
  generalize processSpawnChildFromBufferWithPriority s parentPid image imageSize priority = result
    at spawned after current
  obtain ⟨pid, t⟩ := result
  refine ⟨after, current, fun {j} small used => ?_⟩
  simp only at spawned ⊢
  generalize table : t.table = final at spawned
  have slots : t.processes = final.processes := congrArg Table.processes table
  -- Only a slot that was not in use is written.
  have others : ∀ {i : Nat} {p : Process}, (s.processes.get i).used = false →
      (s.processes.set i p).get j = s.processes.get j := by
    intro i p free
    refine (FixedArray.get_set _ _ small).trans (if_neg ?_)
    rintro rfl
    exact nomatch free.symm.trans used
  rw [slots]
  cases spawned with
  | refused => exact ⟨used, rfl⟩
  | abandoned i p inside free unused =>
    change ((s.processes.set i p).get j).used = true ∧ ((s.processes.set i p).get j).pageDirectoryPhys = _
    rw [others free]
    exact ⟨used, rfl⟩
  | born i directory inside free parent low high =>
    change ((s.processes.set i _).get j).used = true ∧ ((s.processes.set i _).get j).pageDirectoryPhys = _
    rw [others free]
    exact ⟨used, rfl⟩

end Spawn

section Calls

/-- The bit of a page that a process may ask for. -/
theorem toNat_vmPageBit {k : Nat} (inside : k < processUserVmPageCount) :
    ((1 : UInt32) <<< UInt32.ofNat k).toNat = 2 ^ k := by
  -- There are fewer pages than bits in a word.
  change k < 24 at inside
  have bound : 2 ^ k < 2 ^ 32 := Nat.pow_lt_pow_right (by omega) (by omega)
  rw [UInt32.toNat_shiftLeft, UInt32.toNat_ofNat']
  change 1 <<< (k % 2 ^ 32 % 32) % 2 ^ 32 = 2 ^ k
  rw [Nat.mod_eq_of_lt (show k < 2 ^ 32 by omega), Nat.mod_eq_of_lt (show k < 32 by omega),
    Nat.one_shiftLeft, Nat.mod_eq_of_lt bound]

/-- `process_spawn_builtin_child_for_current` -/
theorem processSpawnBuiltin_accounted (accounted : s.Accounted base o)
    (builtin : UInt32 → Option (List UInt8)) (appId : UInt32) :
    (processSpawnBuiltinChildForCurrent s builtin appId).2.Accounted base o ∧
      Stays s (processSpawnBuiltinChildForCurrent s builtin appId).2 := by
  -- Refused, or a spawn with the image of the program.
  unfold processSpawnBuiltinChildForCurrent
  split
  · exact ⟨accounted, .refl s⟩
  split
  · exact ⟨accounted, .refl s⟩
  split
  · exact ⟨accounted, .refl s⟩
  split
  · exact ⟨accounted, .refl s⟩
  · exact processSpawn_accounted accounted _ _ _ _

/-- `process_vm_alloc_page` -/
theorem processVmAllocPage_accounted (accounted : s.Accounted base o) (pageIndex : UInt32) :
    (processVmAllocPage s pageIndex).2.Accounted base o ∧ Stays s (processVmAllocPage s pageIndex).2 := by
  unfold processVmAllocPage
  split
  · exact ⟨accounted, .refl s⟩
  next index =>
  simp only [Bool.or_eq_true, decide_eq_true_eq, not_or, ge_iff_le, Nat.not_le] at index
  split
  · exact ⟨accounted, .refl s⟩
  next i found =>
  obtain ⟨inside, used, -⟩ := findProcessByPid_some found
  split
  · exact ⟨accounted, .refl s⟩
  simp only
  split
  · exact ⟨accounted, .refl s⟩
  obtain ⟨owner, accounts⟩ := accounted
  have half : processUserVmBase + pageIndex * pageSize < vmmKernelBase := by
    have place := toNat_vmPage index.2
    rw [UInt32.ofNat_toNat] at place
    rw [UInt32.lt_iff_toNat_lt, place]
    change 50331648 + pageIndex.toNat * 4096 < 3221225472
    have small : pageIndex.toNat < 24 := index.2
    omega
  cases registered : pagerRegisterPageInDirectory s.toPager (s.processes.get i).pageDirectoryPhys
    (processUserVmBase + pageIndex * pageSize) (vmmPageWritable ||| vmmPageUser) with
  | mk done pager =>
  cases done with
  | false =>
    obtain ⟨after, current, -⟩ := accounts.register inside used half _ _ _ registered nofun
    exact ⟨⟨owner, after⟩, current, fun _ used' => ⟨used', rfl⟩⟩
  | true =>
    -- The page counts as one of the process before it is registered.
    generalize marked : { s.processes.get i with
      vmPageBitmap := (s.processes.get i).vmPageBitmap ||| 1 <<< pageIndex } = p
    have slot : ∀ {j}, j < 8 → (s.processes.set i p).get j = if j = i then p else s.processes.get j :=
      fun small => FixedArray.get_set _ _ small
    have mine : (s.processes.set i p).get i = p := FixedArray.get_set_same _ _ inside
    have before : Accounts base o owner (s.processes.set i p) s.toMemDemo := by
      refine accounts.congr fun j small => ?_
      rw [slot small]
      split
      · next here =>
        subst here
        rw [← marked]
        refine ⟨rfl, fun _ => ⟨rfl, fun virtAddr lists => ?_⟩⟩
        rcases lists with code | stack | ⟨k, below, set, virt⟩
        · exact Or.inl code
        · exact Or.inr (Or.inl stack)
        · refine Or.inr (Or.inr ⟨k, below, ?_, virt⟩)
          rw [and_ne_zero_eq_flagOf _ (toNat_vmPageBit below)] at set ⊢
          rw [flagOf_or, set, Bool.true_or]
      · exact ⟨rfl, fun _ => ⟨rfl, fun _ => id⟩⟩
    have there : ((s.processes.set i p).get i).pageDirectoryPhys = (s.processes.get i).pageDirectoryPhys := by
      rw [mine, ← marked]
    have registered' : pagerRegisterPageInDirectory s.toPager
        ((s.processes.set i p).get i).pageDirectoryPhys (processUserVmBase + pageIndex * pageSize)
        (vmmPageWritable ||| vmmPageUser) = (true, pager) := by
      rw [there]
      exact registered
    obtain ⟨after, current, -⟩ := before.register inside (by rw [mine, ← marked]; exact used) half _ _ _
      registered' fun _ => by
        refine Or.inr (Or.inr ⟨pageIndex.toNat, index.2, ?_, by rw [UInt32.ofNat_toNat]⟩)
        have bit := toNat_vmPageBit index.2
        rw [UInt32.ofNat_toNat] at bit ⊢
        rw [mine, ← marked, and_ne_zero_eq_flagOf _ bit, flagOf_or]
        unfold flagOf
        rw [bit, Nat.testBit_two_pow_self, Bool.or_true]
    refine ⟨⟨owner, ?_⟩, current, fun {j} small used' => ?_⟩
    · change Accounts base o owner (s.processes.set i _) { s.toMemDemo with toPager := pager }
      simp only [withPager_processes]
      rw [marked]
      exact after
    · change ((s.processes.set i _).get j).used = true ∧ ((s.processes.set i _).get j).pageDirectoryPhys = _
      simp only [withPager_processes]
      rw [marked, slot small]
      split
      · next here =>
        rw [← marked, here]
        exact ⟨used, rfl⟩
      · exact ⟨used', rfl⟩

/-- `process_save_yield_frame` keeps the registers only. -/
theorem processSaveYieldFrame_pagesKept (s : KernelState) (frame : InterruptFrame) :
    PagesKept s (processSaveYieldFrame s frame) := by
  -- The context and the flag of the slot are no part of the accounts.
  unfold processSaveYieldFrame
  split
  · exact .refl s
  · split
    · exact .refl s
    · exact .setProcess rfl rfl rfl

/-- `process_set_priority` -/
theorem processSetPriority_pagesKept (s : KernelState) (pid priority : Int) :
    PagesKept s (processSetPriority s pid priority).2 := by
  -- Refused, or the priority of one slot.
  unfold processSetPriority
  split
  · exact .refl s
  · split
    · exact .refl s
    · split
      · exact .refl s
      · exact .setProcess rfl rfl rfl

/-- Which space is in use has nothing to do with whose pages there are. -/
theorem KernelState.Accounted.withCurrent (accounted : s.Accounted base o) (dir : UInt32) :
    (s.withVmm { s.toVmm with currentPageDirectoryPhys := dir }).Accounted base o := by
  -- The accounts look at the owners and the entries only.
  obtain ⟨owner, accounts⟩ := accounted
  exact ⟨owner, accounts.unmoved (accounts.spaces.withCurrent dir)
    ⟨fun _ _ => .refl _, ⟨rfl, rfl, rfl, rfl, rfl⟩, rfl⟩⟩

/-- A process that is entered runs in its own space. -/
theorem processEnter_accounted (accounted : s.Accounted base o) (pid : Int) :
    (processEnter s pid).2.Accounted base o ∧
      ∀ slot, (processEnter s pid).1 = some slot → slot < 8 ∧
        ((processEnter s pid).2.processes.get slot).used = true ∧
        ((processEnter s pid).2.processes.get slot).pageDirectoryPhys =
          (processEnter s pid).2.currentPageDirectoryPhys := by
  -- Refused, or the space of the slot is switched to.
  unfold processEnter
  split
  · exact ⟨accounted, nofun⟩
  next i found =>
  obtain ⟨inside, used, -⟩ := findProcessByPid_some found
  split
  · exact ⟨accounted, nofun⟩
  unfold vmmSwitchPageDirectory
  by_cases refused : (!s.vmmReady || (s.processes.get i).pageDirectoryPhys == 0) = true
  · rw [if_pos refused]
    exact ⟨accounted, nofun⟩
  · rw [if_neg refused]
    have moved := accounted.withCurrent (s.processes.get i).pageDirectoryPhys
    have same : (s.withVmm { s.toVmm with
      currentPageDirectoryPhys := (s.processes.get i).pageDirectoryPhys }).processes = s.processes := rfl
    have there : (s.withVmm { s.toVmm with currentPageDirectoryPhys :=
      (s.processes.get i).pageDirectoryPhys }).currentPageDirectoryPhys =
        (s.processes.get i).pageDirectoryPhys := rfl
    simp only
    generalize s.withVmm { s.toVmm with
      currentPageDirectoryPhys := (s.processes.get i).pageDirectoryPhys } = v at moved same there ⊢
    rw [← same] at used there
    have entered := (PagesKept.setCurrent v (v.processes.get i).pid).trans
      (.setProcess (i := i) (p := { v.processes.get i with state := .running }) rfl rfl rfl)
    refine ⟨entered.accounted moved, fun slot here => ?_⟩
    obtain rfl := Option.some.inj here
    obtain ⟨used', pages⟩ := entered.slots inside
    refine ⟨inside, used'.trans used, (pages used).1.trans (there.symm.trans ?_)⟩
    exact (congrArg (fun m : MemDemo => m.currentPageDirectoryPhys) entered.memory).symm

/-- Back in the kernel its own space is in use. -/
theorem processLeave_accounted (accounted : s.Accounted base o) (i : Nat) (result : UInt32) :
    (processLeave s i result).Accounted base o := by
  -- The switch goes back to the directory of the kernel, and the slot only changes its state.
  have moved : (s.withVmm (vmmSwitchPageDirectory s.kernelPageDirectoryPhys s.toVmm).2).Accounted base o := by
    unfold vmmSwitchPageDirectory
    split
    · exact accounted
    · exact accounted.withCurrent _
  unfold processLeave
  simp only
  generalize s.withVmm (vmmSwitchPageDirectory s.kernelPageDirectoryPhys s.toVmm).2 = u at moved ⊢
  split
  · have yielded : PagesKept u (u.setProcess i { u.processes.get i with state := .ready }) :=
      .setProcess rfl rfl rfl
    exact (yielded.trans (.setCurrent _ 0)).accounted moved
  · have ended : PagesKept u
        (u.setProcess i { u.processes.get i with exitCode := result, state := .zombie }) :=
      .setProcess rfl rfl rfl
    exact ((ended.trans (.adoptChildren _ _)).trans (.setCurrent _ 0)).accounted moved

/-- The clock leaves memory alone, whether or not it takes the processor from a process. -/
theorem processPreemptIfNeeded_pagesKept (scheduleEvent : Bool) (frame : InterruptFrame) (s : KernelState) :
    PagesKept s (processPreemptIfNeeded scheduleEvent frame s).2 := by
  -- Every branch keeps the table or marks that the time is up.
  unfold processPreemptIfNeeded
  split
  · exact .refl s
  split
  · exact .refl s
  split
  · exact .refl s
  · exact processSaveYieldFrame_pagesKept s frame

/-- What holds after each of the calls a system call may come to holds after the system call. -/
theorem usermodeHandleSyscall_keeps {P : KernelState → Prop} (builtin : UInt32 → Option (List UInt8))
    (frame : InterruptFrame) (same : P s) (saved : P (processSaveYieldFrame s frame))
    (op : P (s.withMemDemo (memdemoApplyOp s.toMemDemo frame.ebx frame.ecx).2))
    (reset : P (s.withMemDemo (memdemoReset s.toMemDemo)))
    (report : P (s.withMemDemo (memdemoReportEvent s.toMemDemo frame.ebx).2))
    (vmAlloc : P (processVmAllocPage s frame.ebx).2)
    (sample : P (s.withPager (pagerSampleUsage s.toPager)))
    (traceReset : P (s.withPager (pagerClearVictimTrace s.toPager)))
    (spawn : P (processSpawnBuiltinChildForCurrent s builtin frame.ebx).2) :
    P (usermodeHandleSyscall builtin frame s).2 := by
  -- One case for each number of a call, in the order of the source.
  unfold usermodeHandleSyscall
  by_cases here : (frame.eax == sysWrite) = true
  · rw [if_pos here]
    exact same
  rw [if_neg here]
  by_cases here : (frame.eax == sysExit) = true
  · rw [if_pos here]
    exact same
  rw [if_neg here]
  by_cases here : (frame.eax == sysYield) = true
  · rw [if_pos here]
    exact saved
  rw [if_neg here]
  by_cases here : (frame.eax == sysMemdemoOp) = true
  · rw [if_pos here]
    exact op
  rw [if_neg here]
  by_cases here : (frame.eax == sysMemdemoReset) = true
  · rw [if_pos here]
    exact reset
  rw [if_neg here]
  by_cases here : (frame.eax == sysMemdemoReport) = true
  · rw [if_pos here]
    exact report
  rw [if_neg here]
  by_cases here : (frame.eax == sysVmAlloc) = true
  · rw [if_pos here]
    exact vmAlloc
  rw [if_neg here]
  by_cases here : (frame.eax == sysVmSample) = true
  · rw [if_pos here]
    by_cases lru : s.currentAlgorithm = .lru
    · rw [if_pos lru]
      exact sample
    · rw [if_neg lru]
      exact same
  rw [if_neg here]
  by_cases here : (frame.eax == sysPagerTraceReset) = true
  · rw [if_pos here]
    exact traceReset
  rw [if_neg here]
  by_cases here : (frame.eax == sysSpawnApp) = true
  · rw [if_pos here]
    exact spawn
  · rw [if_neg here]
    exact same

/-- A system call of the process that runs. -/
theorem usermodeHandleSyscall_accounted (accounted : s.Accounted base o) (inside : i < 8)
    (used : (s.processes.get i).used = true)
    (here : (s.processes.get i).pageDirectoryPhys = s.currentPageDirectoryPhys)
    (builtin : UInt32 → Option (List UInt8)) (frame : InterruptFrame) :
    (usermodeHandleSyscall builtin frame s).2.Accounted base o ∧
      Stays s (usermodeHandleSyscall builtin frame s).2 := by
  -- A call of the memory demonstration keeps the accounts, and changes no process.
  have called : ∀ {m : MemDemo}, (m.currentPageDirectoryPhys = (s.processes.get i).pageDirectoryPhys ∧
      ∃ owner, Accounts base o owner s.processes m) →
      (s.withMemDemo m).Accounted base o ∧ Stays s (s.withMemDemo m) :=
    fun ⟨current, owner, accounts⟩ => ⟨⟨owner, accounts⟩, current.trans here, fun _ used => ⟨used, rfl⟩⟩
  have parts := @Accounts.keptByParts base o s.processes i inside used
  have saved := processSaveYieldFrame_pagesKept s frame
  obtain ⟨owner, accounts⟩ := id accounted
  -- A call of the pager that leaves every page at its place keeps them too.
  have kept : ∀ {pager : Pager}, Pager.Kept owner s.toPager pager →
      (s.withPager pager).Accounted base o ∧ Stays s (s.withPager pager) := by
    intro pager kept
    have keeps : ∀ {m' : MemDemo}, Pager.Kept owner s.toPager m'.toPager → m'.slots = s.slots →
        Accounts base o owner s.processes m' ∧ Fewer s.toMemDemo m' := accounts.kept
    obtain ⟨after, fewer⟩ := @keeps { s.toMemDemo with toPager := pager } kept rfl
    exact ⟨⟨owner, after⟩, fewer.current, fun _ used => ⟨used, rfl⟩⟩
  have stays := Touched.refl accounts.spaces
  refine usermodeHandleSyscall_keeps (P := fun t => t.Accounted base o ∧ Stays s t) builtin frame
    ⟨accounted, .refl s⟩ ⟨saved.accounted accounted, saved.stays⟩ ?_ ?_ ?_
    (processVmAllocPage_accounted accounted frame.ebx) (kept ?_)
    (kept ⟨stays, fun _ _ => .refl _, rfl, rfl, rfl, rfl, id⟩)
    (processSpawnBuiltin_accounted accounted builtin frame.ebx)
  · exact called (parts.applyOp ⟨here.symm, owner, accounts⟩ frame.ebx frame.ecx)
  · exact called (parts.reset ⟨here.symm, owner, accounts⟩)
  · exact called (parts.reportEvent ⟨here.symm, owner, accounts⟩ frame.ebx)
  · cases ready : s.pagerReady with
    | true => exact (pagerSampleUsage_sampled (accounts.ready ready)).kept
    | false =>
      unfold pagerSampleUsage
      rw [if_pos (by simp [ready])]
      exact ⟨stays, fun _ _ => .refl _, rfl, rfl, rfl, rfl, id⟩

end Calls

/-- The accounts are in order as long as the machine goes on, and a program runs in its own space. -/
structure Machine.Accounted (base : Owners Holder) (o : Vmm) (m : Machine) : Prop where
  kernel : m.mode ≠ .halted → m.kernel.Accounted base o
  runs : ∀ {slot selected}, m.mode = .user slot selected → slot < 8 ∧
    (m.kernel.processes.get slot).used = true ∧
    (m.kernel.processes.get slot).pageDirectoryPhys = m.kernel.currentPageDirectoryPhys

namespace Machine.Accounted

variable {m : Machine}

/-- Between two programs only the accounts matter. -/
theorem of_kernel (accounted : s.Accounted base o) : Machine.Accounted base o ⟨s, .kernel⟩ :=
  ⟨fun _ => accounted, nofun⟩

/-- The program that runs goes on. -/
theorem resume (ok : Machine.Accounted base o m) (accounted : s.Accounted base o)
    (stays : Stays m.kernel s) :
    Machine.Accounted base o { m with kernel := s } := by
  -- The slot that runs is used as before, with the same space.
  refine ⟨fun _ => accounted, fun {slot' selected'} mode' => ?_⟩
  obtain ⟨inside, used, here⟩ := ok.runs mode'
  obtain ⟨used', directory⟩ := stays.homes inside used
  exact ⟨inside, used', directory.trans (here.trans stays.current.symm)⟩

/-- The processor goes to a program, or stays with the kernel. -/
theorem enter (accounted : m.kernel.Accounted base o) (pid : Int) (selected : Option Nat) :
    Machine.Accounted base o (m.enter pid selected) := by
  -- A process that was entered runs in the space switched to.
  obtain ⟨entered, runs⟩ := processEnter_accounted accounted pid
  unfold Machine.enter
  generalize processEnter m.kernel pid = result at entered runs
  obtain ⟨found, kernel⟩ := result
  cases found with
  | none => exact of_kernel entered
  | some slot =>
    refine ⟨fun _ => entered, fun {slot' selected'} mode => ?_⟩
    cases mode
    exact runs slot rfl

/-- The processor comes back to the kernel. -/
theorem leave (accounted : m.kernel.Accounted base o) (slot : Nat) (selected : Option Nat)
    (result : UInt32) : Machine.Accounted base o (m.leave slot selected result) := by
  -- In the kernel only the accounts are asked for.
  have left := processLeave_accounted accounted slot result
  unfold Machine.leave
  cases selected with
  | none => exact of_kernel left
  | some next =>
    have moved : PagesKept (processLeave m.kernel slot result)
        { processLeave m.kernel slot result with scheduleCursor := (next + 1) % processMax } :=
      ⟨rfl, fun _ => ⟨rfl, fun _ => ⟨rfl, rfl⟩⟩⟩
    exact of_kernel (moved.accounted left)

/-- What the shell and the main loop do keeps the accounts in order. -/
theorem kernelStep (ok : Machine.Accounted base o m) (mode : m.mode = .kernel) (event : Event) :
    Machine.Accounted base o (kernelStep m event) := by
  -- One case for each event, the kernel being idle.
  have accounted := ok.kernel (by rw [mode]; nofun)
  obtain ⟨s, _⟩ := m
  subst mode
  cases event with
  | spawn parentPid image imageSize priority =>
    exact of_kernel (processSpawn_accounted accounted parentPid image imageSize priority).1
  | kill pid => exact of_kernel (processKill_accounted accounted pid)
  | waitChild parentPid childPid => exact of_kernel (processWaitChild_accounted accounted parentPid childPid)
  | reapZombies => exact of_kernel (processReapZombies_accounted accounted)
  | setPriority pid priority =>
    exact of_kernel ((processSetPriority_pagesKept s pid priority).accounted accounted)
  | scheduleAuto =>
    unfold MyOS.Kernel.kernelStep
    cases selectNextReadyProcess s with
    | none => exact ok
    | some slot => exact enter accounted _ _
  | runPid pid => exact enter accounted pid none
  | _ => exact ok

/-- What happens while a program runs keeps the accounts in order. -/
theorem userStep (ok : Machine.Accounted base o m) {slot : Nat} {selected : Option Nat}
    (mode : m.mode = .user slot selected) (builtin : UInt32 → Option (List UInt8)) (event : Event) :
    Machine.Accounted base o (userStep builtin m slot selected event) := by
  -- One case for each event, a program being in its slot.
  have running : m.mode ≠ .halted := by
    rw [mode]
    intro halts
    cases halts
  have accounted := ok.kernel running
  obtain ⟨inside, used, here⟩ := ok.runs mode
  obtain ⟨owner, accounts⟩ := id accounted
  cases event with
  | syscall frame =>
    obtain ⟨after, stays⟩ := usermodeHandleSyscall_accounted accounted inside used here builtin frame
    simp only [MyOS.Kernel.userStep]
    generalize usermodeHandleSyscall builtin frame m.kernel = result at after stays ⊢
    obtain ⟨outcome, kernel⟩ := result
    cases outcome with
    | resume frame' => exact ok.resume after stays
    | leave value => exact leave (m := { m with kernel }) after slot selected value
  | clock scheduleEvent frame =>
    have ticked := processPreemptIfNeeded_pagesKept scheduleEvent frame m.kernel
    simp only [MyOS.Kernel.userStep]
    generalize processPreemptIfNeeded scheduleEvent frame m.kernel = result at ticked ⊢
    obtain ⟨taken, kernel⟩ := result
    cases taken with
    | false => exact ok.resume (ticked.accounted accounted) ticked.stays
    | true => exact leave (m := { m with kernel }) (ticked.accounted accounted) slot selected _
  | pageFault faultAddr errCode =>
    simp only [MyOS.Kernel.userStep]
    cases handled : pagerHandlePageFault m.kernel.toPager faultAddr errCode with
    | mk done pager =>
    cases done with
    | false =>
      refine ⟨fun goes => absurd rfl goes, fun runs => ?_⟩
      cases runs
    | true =>
      have found : (pagerHandlePageFault m.kernel.toPager faultAddr errCode).1 = true := by
        rw [handled]
      obtain ⟨owner', after, fewer⟩ := accounts.fault found
      rw [handled] at after fewer
      exact ok.resume ⟨owner', after⟩ ⟨fewer.current, fun _ used => ⟨used, rfl⟩⟩
  | read virtAddr =>
    obtain ⟨live, at_, -⟩ := accounts.home inside used
    rw [here] at live at_
    have touched := userRead_touched accounts.spaces accounts.estate.guarded live at_ virtAddr
    exact ok.resume ⟨owner, accounts.unmoved touched.spaces touched.unmoved⟩
      ⟨touched.current, fun _ used => ⟨used, rfl⟩⟩
  | write virtAddr value =>
    obtain ⟨live, at_, -⟩ := accounts.home inside used
    rw [here] at live at_
    obtain ⟨spaces, unmoved, current⟩ := userWrite_unmoved accounts.spaces accounts.estate.guarded
      accounts.estate.leases live at_ virtAddr value
    exact ok.resume ⟨owner, accounts.unmoved spaces unmoved⟩ ⟨current, fun _ used => ⟨used, rfl⟩⟩
  | _ => exact ok

/-- Every event keeps the accounts in order. -/
theorem step (ok : Machine.Accounted base o m) (builtin : UInt32 → Option (List UInt8)) (event : Event) :
    Machine.Accounted base o (machineStep builtin m event) := by
  -- By who runs: the kernel, a program, or nobody.
  unfold machineStep
  cases mode : m.mode with
  | kernel => exact ok.kernelStep mode event
  | user slot selected => exact ok.userStep mode builtin event
  | halted => exact ok

/-- So does every run. -/
theorem run (ok : Machine.Accounted base o m) (builtin : UInt32 → Option (List UInt8))
    (events : List Event) : Machine.Accounted base o (machineRun builtin m events) := by
  -- Induction on the events.
  induction events generalizing m with
  | nil => exact ok
  | cons event rest ih => exact ih (ok.step builtin event)

end Machine.Accounted

end MyOS.Kernel
