import MyOS.Kernel.MemdemoLaws
import MyOS.Kernel.ProcessTable
import MyOS.Mm.Estates
import MyOS.Mm.PagerAccess

/-! Which process every page of memory belongs to, and how each step on memory keeps it so. -/

namespace MyOS.Kernel

open MyOS.Mm

/-- The page of a slot is in a frame of its own, which its space maps. -/
structure MemDemoSlot.Lent (slot : MemDemoSlot) (owner : Owners Holder) (k : Nat) (s : Vmm) :
    Prop where
  virt : slot.virtAddr = slotVirt k
  directory : slot.pageDirectoryPhys.toNat = pageOf slot.pageDirectoryPhys * 4096
  address : slot.physAddr.toNat = pageOf slot.physAddr * 4096
  lease : Lease owner s (.slot k) (pageOf slot.pageDirectoryPhys) (slot.virtAddr.toNat / 4096)
    (pageOf slot.physAddr)

/-- The pages of the memory demonstration are those of its slots. -/
structure Slots (owner : Owners Holder) (slots : FixedArray 8 MemDemoSlot) (s : Vmm) : Prop where
  lent : ∀ {k}, k < 8 → (slots.get k).allocated = true → (slots.get k).Lent owner k s
  held : ∀ {f k}, owner f = some (.held (.slot k)) →
    k < 8 ∧ (slots.get k).allocated = true ∧ f = pageOf (slots.get k).physAddr

/-- A page of a process that is registered with the pager as long as the process is there. -/
def Process.Lists (p : Process) (virtAddr : UInt32) : Prop :=
  virtAddr = processUserCodeBase ∨ virtAddr = processUserStackPage ∨
    ∃ k, k < processUserVmPageCount ∧ (p.vmPageBitmap &&& (1 <<< UInt32.ofNat k) != 0) = true ∧
      virtAddr = processUserVmBase + UInt32.ofNat k * pageSize

/-- Every space but the kernel's is that of a process, and every page of a program is in one. -/
structure Homes (owner : Owners Holder) (processes : FixedArray 8 Process) (m : MemDemo) : Prop where
  live : ∀ {i}, i < 8 → (processes.get i).used = true →
    owner (pageOf (processes.get i).pageDirectoryPhys) = some .directory ∧
      (processes.get i).pageDirectoryPhys.toNat =
        pageOf (processes.get i).pageDirectoryPhys * 4096 ∧
      pageOf (processes.get i).pageDirectoryPhys ≠ m.kernelDirectory
  distinct : ∀ {i j}, i < 8 → j < 8 → (processes.get i).used = true →
    (processes.get j).used = true →
    pageOf (processes.get i).pageDirectoryPhys = pageOf (processes.get j).pageDirectoryPhys → i = j
  directories : ∀ {d}, owner d = some .directory → d = m.kernelDirectory ∨
    ∃ i, i < 8 ∧ (processes.get i).used = true ∧ pageOf (processes.get i).pageDirectoryPhys = d
  entries : ∀ {j}, j < 128 → (m.pages.get j).used = true →
    ∃ i, i < 8 ∧ (processes.get i).used = true ∧
      (processes.get i).pageDirectoryPhys = (m.pages.get j).pageDirectoryPhys ∧
      (processes.get i).Lists (m.pages.get j).virtAddr
  slots : ∀ {k}, k < 8 → (m.slots.get k).allocated = true →
    ∃ i, i < 8 ∧ (processes.get i).used = true ∧
      (processes.get i).pageDirectoryPhys = (m.slots.get k).pageDirectoryPhys

/-- What is always true of memory and of the processes in it. -/
structure Accounts (base : Owners Holder) (o : Vmm) (owner : Owners Holder)
    (processes : FixedArray 8 Process) (m : MemDemo) : Prop where
  pager : Pager.Settled owner m.toPager
  estate : Estate (· = .other) base o owner m.toVmm
  slots : Slots owner m.slots m.toVmm
  homes : Homes owner processes m

/-- Every page that is registered, and every slot with a page, was there before, in the same space. -/
structure Fewer (m m' : MemDemo) : Prop where
  entries : ∀ {j}, j < 128 → (m'.pages.get j).used = true → (m.pages.get j).used = true ∧
    (m'.pages.get j).pageDirectoryPhys = (m.pages.get j).pageDirectoryPhys ∧
    (m'.pages.get j).virtAddr = (m.pages.get j).virtAddr
  slots : ∀ {k}, k < 8 → (m'.slots.get k).allocated = true → (m.slots.get k).allocated = true ∧
    (m'.slots.get k).pageDirectoryPhys = (m.slots.get k).pageDirectoryPhys
  current : m'.currentPageDirectoryPhys = m.currentPageDirectoryPhys
  kernel : m'.kernelPageDirectoryPhys = m.kernelPageDirectoryPhys
  ready : m'.pagerReady = m.pagerReady

namespace Fewer

variable {m m' m'' : MemDemo}

/-- A state has no more pages than itself. -/
theorem refl (m : MemDemo) : Fewer m m :=
  ⟨fun _ used => ⟨used, rfl, rfl⟩, fun _ allocated => ⟨allocated, rfl⟩, rfl, rfl, rfl⟩

/-- Fewer than fewer is fewer. -/
theorem trans (first : Fewer m m') (second : Fewer m' m'') : Fewer m m'' := by
  -- What is used at the end was used in between, and so at the start.
  refine ⟨fun inside used => ?_, fun inside allocated => ?_, second.current.trans first.current,
    second.kernel.trans first.kernel, second.ready.trans first.ready⟩
  · obtain ⟨used', directory', virt'⟩ := second.entries inside used
    obtain ⟨used'', directory, virt⟩ := first.entries inside used'
    exact ⟨used'', directory'.trans directory, virt'.trans virt⟩
  · obtain ⟨allocated', directory'⟩ := second.slots inside allocated
    obtain ⟨allocated'', directory⟩ := first.slots inside allocated'
    exact ⟨allocated'', directory'.trans directory⟩

end Fewer

/-- The pages of a space that are registered are all of a kind. -/
def RegisteredIn (m : MemDemo) (dir : UInt32) (kind : UInt32 → Prop) : Prop :=
  ∀ j, j < 128 → (m.pages.get j).used = true → (m.pages.get j).pageDirectoryPhys = dir →
    kind (m.pages.get j).virtAddr

/-- With fewer pages the registered ones are of the same kind. -/
theorem RegisteredIn.fewer {m m' : MemDemo} {dir : UInt32} {kind : UInt32 → Prop}
    (registered : RegisteredIn m dir kind) (fewer : Fewer m m') : RegisteredIn m' dir kind := by
  -- An entry that is used now was used before.
  intro j inside used directory
  obtain ⟨used', directory', virt⟩ := fewer.entries inside used
  rw [virt]
  exact registered j inside used' (directory'.symm.trans directory)

/-- With fewer pages no slot gets one. -/
theorem NoSlotIn.fewer {m m' : MemDemo} {dir : UInt32} (none_ : NoSlotIn m dir) (fewer : Fewer m m') :
    NoSlotIn m' dir := by
  -- A slot that has a page now had one before.
  intro k inside allocated
  obtain ⟨allocated', directory⟩ := fewer.slots inside allocated
  rw [directory]
  exact none_ k inside allocated'

section Places

/-- Where the page of a slot appears. -/
theorem toNat_slotVirt {k : Nat} (inside : k < 8) : (slotVirt k).toNat = 0x02000000 + k * 4096 := by
  -- Eight pages above the base do not wrap around.
  unfold slotVirt memdemoUserBase pageSize
  rw [UInt32.toNat_add, UInt32.toNat_mul, UInt32.toNat_ofNat']
  change (33554432 + k % 4294967296 * 4096 % 4294967296) % 4294967296 = _
  omega

/-- Where a page appears that a process asked for. -/
theorem toNat_vmPage {k : Nat} (inside : k < processUserVmPageCount) :
    (processUserVmBase + UInt32.ofNat k * pageSize).toNat = 0x03000000 + k * 4096 := by
  -- 24 pages above the base do not wrap around
  change k < 24 at inside
  unfold processUserVmBase pageSize
  rw [UInt32.toNat_add, UInt32.toNat_mul, UInt32.toNat_ofNat']
  change (50331648 + k % 4294967296 * 4096 % 4294967296) % 4294967296 = _
  omega

/-- The pages of a process are apart from those of the memory demonstration. -/
theorem Process.Lists.apart {p : Process} {virtAddr : UInt32} (lists : p.Lists virtAddr) {k : Nat}
    (inside : k < 8) : virtAddr.toNat / 4096 ≠ (slotVirt k).toNat / 4096 := by
  -- The three kinds of pages lie below and above the eight of the demonstration.
  rw [toNat_slotVirt inside]
  rcases lists with rfl | rfl | ⟨l, small, -, rfl⟩
  · change 8388608 / 4096 ≠ _
    omega
  · change 3221155840 / 4096 ≠ _
    omega
  · rw [toNat_vmPage small]
    change l < 24 at small
    omega

/-- The page of a slot is in the user's half. -/
theorem slotVirt_half {k : Nat} (inside : k < 8) :
    slotVirt k < vmmKernelBase ∧ (slotVirt k).toNat % 4096 = 0 := by
  -- The last of them is far below the kernel.
  rw [UInt32.lt_iff_toNat_lt, toNat_slotVirt inside]
  change 33554432 + k * 4096 < 3221225472 ∧ _
  omega

end Places

namespace Slots

variable {owner owner' : Owners Holder} {slots : FixedArray 8 MemDemoSlot} {s t : Vmm} {d v f : Nat}
  {i : Nat} {entry : UInt32} {bytes : Nat → UInt8}

/-- Where every page of a slot stays at its place, and no other page becomes one of a slot. -/
theorem stay (all : Slots owner slots s)
    (held : ∀ {f k}, owner' f = some (.held (.slot k)) → owner f = some (.held (.slot k)))
    (leases : ∀ {k d v f}, k < 8 → (slots.get k).allocated = true →
      d = pageOf (slots.get k).pageDirectoryPhys → v = (slotVirt k).toNat / 4096 →
      Lease owner s (.slot k) d v f → Lease owner' t (.slot k) d v f) : Slots owner' slots t := by
  -- Every slot keeps its lease, and the roles are those of before.
  refine ⟨fun {k} inside allocated => ?_, fun owned => all.held (held owned)⟩
  obtain ⟨virt, directory, address, lease⟩ := all.lent inside allocated
  exact ⟨virt, directory, address, leases inside allocated rfl (by rw [virt]) lease⟩

/-- Slots do not notice that memory changes elsewhere. -/
theorem unmoved (all : Slots owner slots s) (unmoved : Unmoved owner s t) : Slots owner slots t :=
  all.stay id fun _ _ _ _ lease => lease.unmoved unmoved

/-- A page of the pager is taken back. -/
theorem dropped (all : Slots owner slots s) (gone : Lease owner s (.page i) d v f)
    (dropped : Dropped owner s t d v f) : Slots (Function.update owner f none) slots t := by
  -- The page taken back was no slot's.
  refine all.stay (fun {g k} owned => ?_) fun _ _ _ _ lease => lease.dropped gone nofun dropped
  by_cases here : g = f
  · rw [here, Function.update_self] at owned
    cases owned
  · rwa [Function.update_of_ne here] at owned

/-- A page of the pager is mapped at a place that is not one of a slot. -/
theorem placed (all : Slots owner slots s)
    (placed : Placed owner owner' s t d v f (.page i) entry bytes)
    (place : ∀ k, k < 8 → v ≠ (slotVirt k).toNat / 4096) : Slots owner' slots t := by
  -- The page placed is no slot's, and its place is not one of a slot.
  refine all.stay (fun {g k} owned => ?_) fun {k _ _ _} inside _ _ there lease =>
    lease.placed placed fun same => place k inside (same.2.symm.trans there)
  rcases (placed.roles g (.held (.slot k)) nofun).mp owned with ⟨-, same⟩ | before
  · cases same
  · exact before

/-- A space is made. -/
theorem made (all : Slots owner slots s) (made : SpaceMade owner s t f) :
    Slots (Function.update owner f (some .directory)) slots t := by
  -- The page of the directory was free.
  refine all.stay (fun {g k} owned => ?_) fun _ _ _ _ lease => lease.made made
  by_cases here : g = f
  · rw [here, Function.update_self] at owned
    cases owned
  · rwa [Function.update_of_ne here] at owned

/-- A space without slots is taken apart. -/
theorem gone (all : Slots owner slots s) (live : owner d = some .directory)
    (other : ∀ k, k < 8 → (slots.get k).allocated = true → pageOf (slots.get k).pageDirectoryPhys ≠ d)
    (gone : SpaceGone owner s t d) : Slots (withoutSpace owner d) slots t := by
  -- A slot's lease is in another space.
  refine all.stay (fun {g k} owned => ?_) fun {k _ _ _} inside allocated there _ lease =>
    lease.gone live (fun same => other k inside allocated (there.symm.trans same)) gone
  exact ((withoutSpace_roles owner d (r := .held (.slot k)) nofun).mp owned).2

/-- The slots that have a page when one is emptied are others, and as they were. -/
theorem of_set_empty {k j : Nat} (small : j < 8)
    (still : ((slots.set k emptySlot).get j).allocated = true) :
    j ≠ k ∧ (slots.set k emptySlot).get j = slots.get j := by
  -- The emptied slot has no page.
  rw [FixedArray.get_set _ _ small] at still ⊢
  split at still
  · cases still
  · next other =>
    rw [if_neg other]
    exact ⟨other, rfl⟩

/-- Clearing a slot without a page changes nothing for the others. -/
theorem cleared {k : Nat} (all : Slots owner slots s) (empty : (slots.get k).allocated = false) :
    Slots owner (slots.set k emptySlot) s := by
  -- The others are as before, and no page was held by this slot.
  refine ⟨fun {j} small still => ?_, fun {f j} held => ?_⟩
  · obtain ⟨-, same⟩ := of_set_empty small still
    rw [same] at still ⊢
    exact all.lent small still
  · obtain ⟨small, allocated, frame⟩ := all.held held
    rw [FixedArray.get_set_ne]
    · exact ⟨small, allocated, frame⟩
    · rintro rfl
      exact nomatch empty.symm.trans allocated

/-- `free_slot` takes the page of the slot back, and leaves the other slots alone. -/
theorem freed {m : MemDemo} {k : Nat} (all : Slots owner m.slots m.toVmm) (spaces : Spaces owner m.toVmm)
    (inside : k < 8) (allocated : (m.slots.get k).allocated = true) :
    (m.freeSlot k).toPager = { m.toPager with toVmm := (m.freeSlot k).toVmm } ∧
      (m.freeSlot k).slots = m.slots.set k emptySlot ∧
      Dropped owner m.toVmm (m.freeSlot k).toVmm (pageOf (m.slots.get k).pageDirectoryPhys)
        ((m.slots.get k).virtAddr.toNat / 4096) (pageOf (m.slots.get k).physAddr) ∧
      Slots (Function.update owner (pageOf (m.slots.get k).physAddr) none) (m.freeSlot k).slots
        (m.freeSlot k).toVmm := by
  -- The mapping is removed and the page freed, which is the lease of slot `k` dropped.
  obtain ⟨virt, directory, address, lease⟩ := all.lent inside allocated
  obtain ⟨half, aligned⟩ := slotVirt_half inside
  rw [← virt] at half aligned
  have dropped := spaces.drop lease.live directory half aligned lease.owned address
  unfold MemDemo.freeSlot
  simp only
  rw [if_neg (by simp [allocated])]
  refine ⟨rfl, rfl, dropped, fun {j} small still => ?_, fun {f j} owned => ?_⟩
  · have still : ((m.slots.set k emptySlot).get j).allocated = true := still
    obtain ⟨other, same⟩ := of_set_empty small still
    change ((m.slots.set k emptySlot).get j).Lent _ j _
    rw [same] at still ⊢
    obtain ⟨virt', directory', address', lease'⟩ := all.lent small still
    exact ⟨virt', directory', address', lease'.dropped lease (by simpa using other) dropped⟩
  · have apart : f ≠ pageOf (m.slots.get k).physAddr := by
      rintro rfl
      rw [Function.update_self] at owned
      cases owned
    rw [Function.update_of_ne apart] at owned
    obtain ⟨small, still, frame⟩ := all.held owned
    have other : j ≠ k := by
      rintro rfl
      exact apart frame
    change j < 8 ∧ ((m.slots.set k emptySlot).get j).allocated = true ∧
      f = pageOf ((m.slots.set k emptySlot).get j).physAddr
    rw [FixedArray.get_set _ _ small, if_neg other]
    exact ⟨small, still, frame⟩

/-- A page of memory is mapped for a slot that had none. -/
theorem filled {k : Nat} {dir physAddr flags : UInt32} (all : Slots owner slots s) (inside : k < 8)
    (empty : (slots.get k).allocated = false) (live : owner (pageOf dir) = some .directory)
    (at_ : dir.toNat = pageOf dir * 4096) (address : physAddr.toNat = f * 4096)
    (placed : Placed owner owner' s t (pageOf dir) ((slotVirt k).toNat / 4096) f (.slot k)
      (leafEntry physAddr flags) bytes) :
    Slots owner' (slots.set k ⟨true, dir, slotVirt k, physAddr⟩) t := by
  -- Slot `k` has the page placed, each other slot keeps its lease.
  obtain ⟨half, -⟩ := slotVirt_half inside
  have page : pageOf physAddr = f := by
    unfold pageOf
    omega
  have lease := Lease.ofPlaced placed live (page_half half) (leafEntry_flags physAddr flags).1
    ((leafEntry_page _ _).trans page)
  have slot : ∀ {j}, j < 8 → (slots.set k ⟨true, dir, slotVirt k, physAddr⟩).get j =
      if j = k then ⟨true, dir, slotVirt k, physAddr⟩ else slots.get j :=
    fun small => FixedArray.get_set _ _ small
  refine ⟨fun {j} below allocated => ?_, fun {g j} held => ?_⟩
  · rw [slot below] at allocated ⊢
    split at allocated
    · next same =>
      subst same
      rw [if_pos rfl]
      exact ⟨rfl, at_, by rw [page, address], page ▸ lease⟩
    · next other =>
      rw [if_neg other]
      obtain ⟨virt, directory, address', lease'⟩ := all.lent below allocated
      refine ⟨virt, directory, address', lease'.placed placed ?_⟩
      rw [virt, toNat_slotVirt below, toNat_slotVirt inside]
      omega
  · rcases (placed.roles g (.held (.slot j)) nofun).mp held with ⟨rfl, same⟩ | before
    · obtain rfl : j = k := by simpa using same
      rw [slot inside, if_pos rfl]
      exact ⟨inside, rfl, page.symm⟩
    · obtain ⟨below, allocated, frame⟩ := all.held before
      have other : j ≠ k := by
        rintro rfl
        exact nomatch empty.symm.trans allocated
      rw [slot below, if_neg other]
      exact ⟨below, allocated, frame⟩

end Slots

/--
What the first part of `ALLOC` leads to.

The slot has a page already, or memory gave out and nothing changed, or the slot is given a page.
-/
theorem allocSlot_cases {owner : Owners Holder} {m : MemDemo} {k : Nat} (spaces : Spaces owner m.toVmm)
    (live : owner (pageOf m.currentPageDirectoryPhys) = some .directory)
    (at_ : m.currentPageDirectoryPhys.toNat = pageOf m.currentPageDirectoryPhys * 4096)
    (inside : k < 8) :
    ((m.slots.get k).allocated = true ∧ allocSlot m k = (true, m)) ∨
    (∃ vmm, allocSlot m k = (false, m.withVmm vmm) ∧ Reverted owner m.toVmm vmm) ∨
    ((m.slots.get k).allocated = false ∧ ∃ owner' vmm f physAddr, physAddr.toNat = f * 4096 ∧
      allocSlot m k = (true, { m.withVmm vmm with
        slots := m.slots.set k ⟨true, m.currentPageDirectoryPhys, slotVirt k, physAddr⟩
        activePages := m.activePages + 1 }) ∧
      Placed owner owner' m.toVmm vmm (pageOf m.currentPageDirectoryPhys) ((slotVirt k).toNat / 4096) f
        (.slot k) (leafEntry physAddr (vmmPageWritable ||| vmmPageUser)) fun _ => 0) := by
  -- No free page, no room for a table, or the page is mapped: the branches of the source.
  obtain ⟨half, aligned⟩ := slotVirt_half inside
  unfold allocSlot
  cases allocated : (m.slots.get k).allocated with
  | true => exact Or.inl ⟨rfl, rfl⟩
  | false =>
  right
  rw [if_neg nofun]
  rcases spaces.alloc_cases (.slot k) with ⟨result, -⟩ | ⟨f, t, result, taken⟩
  · left
    rw [result]
    exact ⟨m.toVmm, rfl, .refl spaces⟩
  have address := toNat_ofNat_page (spaces.small taken.inPool)
  have nonzero := ne_zero_of_page address (spaces.positive taken.inPool)
  rw [result]
  simp only
  rw [if_neg (by simpa using nonzero)]
  cases mapped : vmmMapPageInDirectory m.currentPageDirectoryPhys (slotVirt k) (UInt32.ofNat (f * 4096))
    (vmmPageWritable ||| vmmPageUser) (t.clearPage (UInt32.ofNat (f * 4096))) with
  | mk done vmm =>
  cases done with
  | false =>
    left
    exact ⟨_, rfl, spaces.unplaced live at_ half aligned result nonzero mapped⟩
  | true =>
    right
    obtain ⟨g, owner', address', placed⟩ :=
      spaces.place (.slot k) live at_ half aligned result nonzero (fun _ => 0) mapped
    exact ⟨trivial, owner', vmm, g, _, address', rfl, placed⟩

namespace Homes

variable {owner owner' : Owners Holder} {processes processes' : FixedArray 8 Process} {m m' : MemDemo}

/-- Pages may be given up while the spaces stay. -/
theorem fewer (homes : Homes owner processes m)
    (directories : ∀ d, owner' d = some .directory ↔ owner d = some .directory) (fewer : Fewer m m') :
    Homes owner' processes m' := by
  -- The entries and slots left are among those of before.
  have kernel : m'.kernelDirectory = m.kernelDirectory := congrArg pageOf fewer.kernel
  refine ⟨fun inside used => ?_, homes.distinct, fun live => ?_, fun inside used => ?_,
    fun inside allocated => ?_⟩
  · obtain ⟨live, address, other⟩ := homes.live inside used
    exact ⟨(directories _).mpr live, address, kernel ▸ other⟩
  · rw [kernel]
    exact homes.directories ((directories _).mp live)
  · obtain ⟨used', directory, virt⟩ := fewer.entries inside used
    rw [directory, virt]
    exact homes.entries inside used'
  · obtain ⟨allocated', directory⟩ := fewer.slots inside allocated
    rw [directory]
    exact homes.slots inside allocated'

/-- Processes may change in other ways as long as they list what they listed. -/
theorem congr (homes : Homes owner processes m)
    (same : ∀ i, i < 8 → (processes'.get i).used = (processes.get i).used ∧
      ((processes.get i).used = true →
        (processes'.get i).pageDirectoryPhys = (processes.get i).pageDirectoryPhys ∧
          ∀ virtAddr, (processes.get i).Lists virtAddr → (processes'.get i).Lists virtAddr)) :
    Homes owner processes' m := by
  -- Slot by slot, the same directory and the same list.
  refine ⟨fun {i} inside used => ?_, fun {i j} inside inside' used used' equal => ?_,
    fun {d} live => ?_, fun {j} inside used => ?_, fun {k} inside allocated => ?_⟩
  · rw [(same i inside).1] at used
    rw [((same i inside).2 used).1]
    exact homes.live inside used
  · rw [(same i inside).1] at used
    rw [(same j inside').1] at used'
    rw [((same i inside).2 used).1, ((same j inside').2 used').1] at equal
    exact homes.distinct inside inside' used used' equal
  · rcases homes.directories live with kernel | ⟨i, inside, used, there⟩
    · exact Or.inl kernel
    · refine Or.inr ⟨i, inside, (same i inside).1.trans used, ?_⟩
      rw [((same i inside).2 used).1]
      exact there
  · obtain ⟨i, inside', used', directory, lists⟩ := homes.entries inside used
    obtain ⟨directory', lists'⟩ := (same i inside').2 used'
    exact ⟨i, inside', (same i inside').1.trans used', directory'.trans directory, lists' _ lists⟩
  · obtain ⟨i, inside', used', directory⟩ := homes.slots inside allocated
    obtain ⟨directory', -⟩ := (same i inside').2 used'
    exact ⟨i, inside', (same i inside').1.trans used', directory'.trans directory⟩

end Homes

namespace Accounts

variable {base owner : Owners Holder} {o : Vmm} {processes processes' : FixedArray 8 Process}
  {m m' : MemDemo} {i : Nat} {dir virtAddr flags : UInt32}

/-- A pager that has started is in order. -/
theorem ready (accounts : Accounts base o owner processes m) (ready : m.pagerReady = true) :
    Pager.Ok owner none m.toPager :=
  accounts.pager.ok ready

/-- The spaces of the accounts are in order. -/
theorem spaces (accounts : Accounts base o owner processes m) : Spaces owner m.toVmm :=
  accounts.pager.spaces

/-- The space of a process, which is not the kernel's. -/
theorem home (accounts : Accounts base o owner processes m) (inside : i < 8)
    (used : (processes.get i).used = true) :
    owner (pageOf (processes.get i).pageDirectoryPhys) = some .directory ∧
      (processes.get i).pageDirectoryPhys.toNat =
        pageOf (processes.get i).pageDirectoryPhys * 4096 ∧
      pageOf (processes.get i).pageDirectoryPhys ≠ m.kernelDirectory :=
  -- A process in use has a home.
  accounts.homes.live inside used

/-- Processes may change in other ways as long as they list what they listed. -/
theorem congr (accounts : Accounts base o owner processes m)
    (same : ∀ i, i < 8 → (processes'.get i).used = (processes.get i).used ∧
      ((processes.get i).used = true →
        (processes'.get i).pageDirectoryPhys = (processes.get i).pageDirectoryPhys ∧
          ∀ virtAddr, (processes.get i).Lists virtAddr → (processes'.get i).Lists virtAddr)) :
    Accounts base o owner processes' m :=
  -- Only the processes are replaced.
  ⟨accounts.pager, accounts.estate, accounts.slots, accounts.homes.congr same⟩

/-- Steps that leave every page at its place. -/
theorem kept (accounts : Accounts base o owner processes m) (kept : Pager.Kept owner m.toPager m'.toPager)
    (slots : m'.slots = m.slots) : Accounts base o owner processes m' ∧ Fewer m m' := by
  -- Owners and slots stay, so no more entries are used than before.
  have fewer : Fewer m m' := by
    refine ⟨fun {j} inside used => ?_, fun inside allocated => ?_, kept.vmm.current, kept.vmm.kernel,
      kept.ready⟩
    · have same := kept.entries j inside
      exact ⟨same.used.symm.trans used, same.directory, same.virt⟩
    · rw [slots] at allocated ⊢
      exact ⟨allocated, rfl⟩
  have unmoved := kept.vmm.unmoved
  refine ⟨⟨accounts.pager.kept kept, accounts.estate.unmoved accounts.spaces unmoved, ?_,
    accounts.homes.fewer (fun _ => Iff.rfl) fewer⟩, fewer⟩
  rw [slots]
  exact accounts.slots.unmoved unmoved

/-- Where neither memory nor the entries of the pager change, nothing does. -/
theorem rest (accounts : Accounts base o owner processes m)
    (pager : m'.toPager = { m.toPager with disk := m'.disk }) (slots : m'.slots = m.slots) :
    Accounts base o owner processes m' ∧ Fewer m m' := by
  -- The disk of the pager is no part of the accounts.
  refine accounts.kept ?_ slots
  rw [pager]
  exact ⟨.refl accounts.spaces, fun _ _ => .refl _, rfl, rfl, rfl, rfl, id⟩

/-- Memory may change where every space maps the same pages. -/
theorem unmoved (accounts : Accounts base o owner processes m) {vmm : Vmm} (spaces : Spaces owner vmm)
    (unmoved : Unmoved owner m.toVmm vmm) : Accounts base o owner processes (m.withVmm vmm) := by
  -- The estate and the leases are seen through the same cells.
  have kernel : vmm.kernelDirectory = m.kernelDirectory := congrArg pageOf unmoved.kernel
  refine ⟨?_, accounts.estate.unmoved accounts.spaces unmoved,
    accounts.slots.unmoved unmoved, ?_⟩
  · refine accounts.pager.elsewhere spaces (fun j small used => (accounts.pager.lives small used).live)
      (fun _ _ => Iff.rfl) fun j small used present => ?_
    have mine := accounts.pager.lease small used present
    have half := mine.half
    exact unmoved.cells mine.live (by omega)
  · refine ⟨fun inside used => ?_, accounts.homes.distinct, fun live => ?_, accounts.homes.entries,
      accounts.homes.slots⟩
    · exact kernel.symm ▸ accounts.homes.live inside used
    · exact kernel.symm ▸ accounts.homes.directories live

/-- A page of a process is registered, or not. -/
theorem register (accounts : Accounts base o owner processes m) (inside : i < 8)
    (used : (processes.get i).used = true) (half : virtAddr < vmmKernelBase) (flags : UInt32)
    (data : Option (Nat → UInt8)) (dataSize : Nat) {result : Bool × Pager}
    (call : pagerRegisterPageData m.toPager (processes.get i).pageDirectoryPhys virtAddr flags data
      dataSize = result)
    (lists : result.1 = true → (processes.get i).Lists virtAddr) :
    Accounts base o owner processes { m with toPager := result.2 } ∧
      result.2.currentPageDirectoryPhys = m.currentPageDirectoryPhys ∧
      ∀ {dir kind}, RegisteredIn m dir kind →
        (result.1 = true → dir = (processes.get i).pageDirectoryPhys → kind virtAddr) →
        RegisteredIn { m with toPager := result.2 } dir kind := by
  subst call
  cases ready : m.pagerReady with
  | false =>
    have refused : pagerRegisterPageData m.toPager (processes.get i).pageDirectoryPhys virtAddr flags
        data dataSize = (false, m.toPager) := by
      unfold pagerRegisterPageData
      rw [if_pos (by simp [ready])]
    rw [refused]
    exact ⟨accounts, rfl, fun registered _ => registered⟩
  | true =>
    have registers := pagerRegisterPageData_cases m.toPager (processes.get i).pageDirectoryPhys virtAddr
      flags data dataSize
    obtain ⟨live, address, -⟩ := accounts.home inside used
    have ok := registers.ok (accounts.ready ready) live address half
    generalize pagerRegisterPageData m.toPager (processes.get i).pageDirectoryPhys virtAddr flags
      data dataSize = result at registers lists ok
    obtain ⟨done, pager⟩ := result
    simp only at registers lists ok ⊢
    have vmm : pager.toVmm = m.toVmm := by
      cases registers <;> rfl
    -- Every entry is one that was there, or the new one.
    have entries : ∀ {j}, j < 128 → (pager.pages.get j).used = true →
        ((m.pages.get j).used = true ∧
          (pager.pages.get j).pageDirectoryPhys = (m.pages.get j).pageDirectoryPhys ∧
          (pager.pages.get j).virtAddr = (m.pages.get j).virtAddr) ∨
        (done = true ∧
          (pager.pages.get j).pageDirectoryPhys = (processes.get i).pageDirectoryPhys ∧
          (pager.pages.get j).virtAddr = virtAddr) := by
      intro j small used'
      cases registers with
      | refused => exact Or.inl ⟨used', rfl, rfl⟩
      | failed i disk lost => exact Or.inl ⟨used', rfl, rfl⟩
      | again k disk done inside' found =>
        left
        have slot : (m.pages.set k { m.pages.get k with flags }).get j = _ :=
          FixedArray.get_set _ _ small
        change ((m.pages.set k { m.pages.get k with flags }).get j).used = true at used'
        change _ ∧ ((m.pages.set k { m.pages.get k with flags }).get j).pageDirectoryPhys = _ ∧
          ((m.pages.set k { m.pages.get k with flags }).get j).virtAddr = _
        rw [slot] at used' ⊢
        split at used'
        · next same =>
          rw [if_pos same, same]
          exact ⟨used', rfl, rfl⟩
        · next other =>
          rw [if_neg other]
          exact ⟨used', rfl, rfl⟩
      | entered k disk inside' free aligned some_ missing written =>
        have slot : (enterPage { m.toPager with disk } k (processes.get i).pageDirectoryPhys virtAddr
            flags).pages.get j = if j = k then _ else m.pages.get j := FixedArray.get_set _ _ small
        rw [slot] at used' ⊢
        split at used'
        · next same =>
          rw [if_pos same]
          exact Or.inr ⟨rfl, rfl, rfl⟩
        · next other =>
          rw [if_neg other]
          exact Or.inl ⟨used', rfl, rfl⟩
    refine ⟨⟨?_, ?_, ?_, ?_⟩, by rw [vmm], fun {dir kind} registered new j small used' there => ?_⟩
    · exact .of_ok ok
    · rw [vmm]
      exact accounts.estate
    · rw [vmm]
      exact accounts.slots
    · have kernel : pager.kernelDirectory = m.kernelDirectory := congrArg Vmm.kernelDirectory vmm
      refine ⟨fun inside' used' => ?_, accounts.homes.distinct, fun {d} live' => ?_,
        fun {j} small used' => ?_, accounts.homes.slots⟩
      · exact kernel ▸ accounts.homes.live inside' used'
      · exact kernel ▸ accounts.homes.directories live'
      · rcases entries small used' with ⟨before, directory, virt⟩ | ⟨finished, directory, virt⟩
        · rw [directory, virt]
          exact accounts.homes.entries small before
        · rw [directory, virt]
          exact ⟨i, inside, used, rfl, lists finished⟩
    · rcases entries small used' with ⟨before, directory, virt⟩ | ⟨finished, directory, virt⟩
      · rw [virt]
        exact registered j small before (directory.symm.trans there)
      · rw [virt]
        exact new finished (there.symm.trans directory)

/-- A page is given up, if it is registered. -/
theorem unregister (accounts : Accounts base o owner processes m) (some_ : dir ≠ 0)
    (virtAddr : UInt32) :
    ∃ owner', Accounts base o owner' processes
        { m with toPager := pagerUnregisterPage m.toPager dir virtAddr } ∧
      Fewer m { m with toPager := pagerUnregisterPage m.toPager dir virtAddr } ∧
      RegisteredIn { m with toPager := pagerUnregisterPage m.toPager dir virtAddr } dir
        (· ≠ alignDownPage virtAddr) := by
  cases ready : m.pagerReady with
  | false =>
    have same : pagerUnregisterPage m.toPager dir virtAddr = m.toPager := by
      unfold pagerUnregisterPage
      rw [if_pos (by simp [ready])]
    rw [same]
    -- Nothing is registered with a pager that has not started.
    exact ⟨owner, accounts, .refl m, fun j small used =>
      nomatch (accounts.pager.idle ready j small).symm.trans used⟩
  | true =>
    have ok := accounts.ready ready
    rcases pagerUnregisterPage_cases ok dir virtAddr with
      ⟨same, missing⟩ | ⟨j, owner', found, gone⟩
    · rw [same]
      refine ⟨owner, accounts, .refl m, fun j small used there virt => ?_⟩
      exact findPageByVirt_none (missing some_) small used ⟨there, virt⟩
    · obtain ⟨small, used, directory, virt⟩ := findPageByVirt_some found
      generalize pagerUnregisterPage m.toPager dir virtAddr = pager at gone
      obtain ⟨p, unused, pages⟩ := gone.pages
      have others : ∀ {k}, k < 128 → (pager.pages.get k).used = true →
          k ≠ j ∧ pager.pages.get k = m.pages.get k := by
        intro k small' used'
        rw [pages, FixedArray.get_set _ _ small'] at used' ⊢
        split at used'
        · exact nomatch unused.symm.trans used'
        · next other =>
          rw [if_neg other]
          exact ⟨other, rfl⟩
      have kernel : pager.kernelPageDirectoryPhys = m.kernelPageDirectoryPhys ∧
          pager.currentPageDirectoryPhys = m.currentPageDirectoryPhys := by
        rcases gone.memory with ⟨-, -, same⟩ | ⟨-, -, dropped⟩
        · rw [same]
          exact ⟨rfl, rfl⟩
        · exact ⟨dropped.kernel, dropped.current⟩
      have fewer : Fewer m { m with toPager := pager } := by
        refine ⟨fun {k} small' used' => ?_, fun _ allocated => ⟨allocated, rfl⟩, kernel.2, kernel.1,
          gone.ok.ready.trans ready.symm⟩
        obtain ⟨-, same⟩ := others small' used'
        rw [same] at used' ⊢
        exact ⟨used', rfl, rfl⟩
      refine ⟨owner', ⟨?_, ?_, ?_, ?_⟩, fewer, fun k small' used' there same => ?_⟩
      · exact .of_ok gone.ok
      · rcases gone.memory with ⟨-, rfl, same⟩ | ⟨present, rfl, dropped⟩
        · rw [same]
          exact accounts.estate
        · exact accounts.estate.dropped ok.spaces (ok.lease small used present) nofun dropped
      · rcases gone.memory with ⟨-, rfl, same⟩ | ⟨present, rfl, dropped⟩
        · rw [same]
          exact accounts.slots
        · exact accounts.slots.dropped (ok.lease small used present) dropped
      · refine accounts.homes.fewer (fun d => ?_) fewer
        rcases gone.memory with ⟨-, rfl, -⟩ | ⟨present, rfl, -⟩
        · exact Iff.rfl
        · -- The frame held a page, and no directory.
          have owned := (ok.lease small used present).owned
          by_cases here : d = (m.pages.get j).frame
          · rw [here, Function.update_self, owned]
            exact ⟨nofun, nofun⟩
          · rw [Function.update_of_ne here]
      · obtain ⟨other, entry⟩ := others small' used'
        rw [entry] at used' there same
        exact other (ok.books.unique small' small used' used (there.trans directory.symm)
          (same.trans virt.symm))

/-- A frame that is made free for a page takes nothing from a slot. -/
theorem vacated {owner' : Owners Holder} {slots : FixedArray 8 MemDemoSlot} {s t : Pager} {slot : Nat}
    (ok : Pager.Ok owner none s) (estate : Estate (· = .other) base o owner s.toVmm)
    (all : Slots owner slots s.toVmm) (vacated : Pager.Vacated owner s owner' t slot) :
    Estate (· = .other) base o owner' t.toVmm ∧ Slots owner' slots t.toVmm := by
  -- A free frame is found at once, or the page of another entry is evicted.
  cases vacated with
  | grown room => exact ⟨estate, all⟩
  | evicted u _ _ full below sampled choice emptied =>
    have ok' := ok.sampled sampled
    obtain ⟨small, used, present⟩ := ok'.books.listed (show slot < u.residentFrames by
      rw [sampled.resident]; omega) nofun
    have lease := ok'.lease small used present
    have unmoved := sampled.vmm.unmoved
    exact ⟨(estate.unmoved ok.spaces unmoved).dropped ok'.spaces lease nofun emptied.memory,
      (all.unmoved unmoved).dropped lease emptied.memory⟩

/-- A page fault that is resolved. -/
theorem fault (accounts : Accounts base o owner processes m) {faultAddr errCode : UInt32}
    (handled : (pagerHandlePageFault m.toPager faultAddr errCode).1 = true) :
    ∃ owner', Accounts base o owner' processes
        { m with toPager := (pagerHandlePageFault m.toPager faultAddr errCode).2 } ∧
      Fewer m { m with toPager := (pagerHandlePageFault m.toPager faultAddr errCode).2 } := by
  have ready : m.pagerReady = true := by
    by_contra stopped
    unfold pagerHandlePageFault at handled
    rw [if_pos (by simp [stopped])] at handled
    cases handled
  have ok := accounts.ready ready
  rcases pagerHandlePageFault_cases faultAddr errCode with same | ⟨j, found, absent, result⟩
  · rw [same]
    exact ⟨owner, accounts, .refl m⟩
  rw [result] at handled ⊢
  obtain ⟨small, used, -⟩ := findPageByVirt_some found
  obtain ⟨owner', u, sampled, same, pagedIn⟩ := Pager.pageIn_spec ok small used absent handled
  have steady := (Steady.sampled sampled).trans (.pagedIn (ok.sampled sampled) pagedIn)
  have after := pagedIn.ok
  obtain ⟨slot, ownerM, v, vacated, filled⟩ := pagedIn.steps
  generalize (m.toPager.pageIn j).2 = pager at *
  have fewer : Fewer m { m with toPager := pager } := by
    refine ⟨fun {k} small' used' => ?_, fun _ allocated => ⟨allocated, rfl⟩, steady.current,
      steady.kernel, after.ready.trans ready.symm⟩
    obtain ⟨sameUsed, directory, virt, -⟩ := steady.entries k small'
    exact ⟨sameUsed.symm.trans used', directory, virt⟩
  -- First a frame is made free, then the page is mapped at the place its entry says.
  have unmoved := sampled.vmm.unmoved
  have ok' := ok.sampled sampled
  obtain ⟨estate, slots⟩ := Accounts.vacated ok' (accounts.estate.unmoved ok.spaces unmoved)
    (accounts.slots.unmoved unmoved) vacated
  have okV := vacated.ok ok'
  have still := vacated.absent ok' small (by rw [same]; exact absent)
  rw [same] at still
  have lives := okV.lives small (still.1.trans used)
  obtain ⟨i, inside, usedI, home, lists⟩ := accounts.homes.entries small used
  obtain ⟨-, -, other⟩ := accounts.home inside usedI
  have directory : (v.pages.get j).directory = pageOf (processes.get i).pageDirectoryPhys := by
    unfold PagerPage.directory
    rw [still.2.2.1, home]
  have page : (v.pages.get j).page = (m.pages.get j).virtAddr.toNat / 4096 := by
    unfold PagerPage.page
    rw [still.2.2.2.1]
  obtain ⟨sectors, -, placed⟩ := filled.memory
  have notKernel : (v.pages.get j).directory ≠ v.kernelDirectory := by
    rw [directory, show v.kernelDirectory = m.kernelDirectory from
      estate.kernelDirectory.trans accounts.estate.kernelDirectory.symm]
    exact other
  refine ⟨owner', ⟨?_, ?_, ?_, ?_⟩, fewer⟩
  · exact .of_ok after
  · exact estate.placed okV.spaces placed (leafEntry_page _ _) (PagerPage.page_half lives.half) nofun
      notKernel
  · refine slots.placed placed fun k below => ?_
    rw [page]
    exact lists.apart below
  · exact accounts.homes.fewer steady.directories fewer

/-- The page of a slot is taken back. -/
theorem freeSlot (accounts : Accounts base o owner processes m) {k : Nat} (inside : k < 8) :
    ∃ owner', Accounts base o owner' processes (m.freeSlot k) ∧ Fewer m (m.freeSlot k) ∧
      ((m.freeSlot k).slots.get k).allocated = false := by
  by_cases allocated : (m.slots.get k).allocated = true
  case neg =>
    unfold MemDemo.freeSlot
    simp only
    rw [if_pos (by simpa using allocated)]
    exact ⟨owner, accounts, .refl m, Bool.eq_false_iff.mpr allocated⟩
  have spaces := accounts.spaces
  obtain ⟨pager, slotsIs, dropped, slots⟩ := accounts.slots.freed spaces inside allocated
  obtain ⟨virt, directory, address, lease⟩ := accounts.slots.lent inside allocated
  have role : ∀ {g r}, r ≠ .held (.slot k) →
      (Function.update owner (pageOf (m.slots.get k).physAddr) none g = some r ↔ owner g = some r) := by
    intro g r other
    -- What the page was, it was for the slot.
    by_cases here : g = pageOf (m.slots.get k).physAddr
    · rw [here, Function.update_self, lease.owned]
      exact ⟨nofun, fun same => absurd (Option.some.inj same).symm other⟩
    · rw [Function.update_of_ne here]
  generalize m.freeSlot k = m' at pager slotsIs dropped slots
  have fewer : Fewer m m' := by
    refine ⟨fun {j} _ used => ?_, fun {j} small still => ?_, dropped.current, dropped.kernel, ?_⟩
    · rw [pager] at used ⊢
      exact ⟨used, rfl, rfl⟩
    · rw [slotsIs] at still ⊢
      obtain ⟨-, same⟩ := Slots.of_set_empty small still
      rw [same] at still ⊢
      exact ⟨still, rfl⟩
    · rw [pager]
  refine ⟨Function.update owner (pageOf (m.slots.get k).physAddr) none, ⟨?_,
    accounts.estate.dropped spaces lease nofun dropped, slots,
    accounts.homes.fewer (fun d => @role d .directory nofun) fewer⟩, fewer, ?_⟩
  · rw [pager]
    refine accounts.pager.elsewhere dropped.spaces (fun j small used => ?_) (fun f j =>
      @role f (.held (.page j)) nofun) fun j small used present => ?_
    · exact (@role _ .directory nofun).mpr (accounts.pager.lives small used).live
    · have mine := accounts.pager.lease small used present
      have half := mine.half
      rw [dropped.cells mine.live (by omega)]
      · exact .refl _
      · -- No page of the pager is mapped at the place of a slot.
        rintro ⟨directory', page⟩
        rw [directory', page] at mine
        exact nomatch mine.label_eq lease
  · rw [slotsIs, FixedArray.get_set _ _ inside, if_pos rfl]
    rfl

/-- A slot without a page is cleared. -/
theorem clearSlot (accounts : Accounts base o owner processes m) {k : Nat}
    (empty : (m.slots.get k).allocated = false) : Accounts base o owner processes (m.clearSlot k) := by
  -- No page was held by the slot, so the lease of every other is kept.
  have fewer : Fewer m (m.clearSlot k) := by
    refine ⟨fun _ used => ⟨used, rfl, rfl⟩, fun {j} small allocated => ?_, rfl, rfl, rfl⟩
    obtain ⟨-, same⟩ := Slots.of_set_empty small allocated
    change (m.clearSlot k).slots.get j = _ at same
    rw [same] at allocated ⊢
    exact ⟨allocated, rfl⟩
  exact ⟨accounts.pager, accounts.estate, accounts.slots.cleared empty,
    accounts.homes.fewer (fun _ => Iff.rfl) fewer⟩

/-- A slot gets a page in the space of the process that runs, unless there is too little memory. -/
theorem allocSlot (accounts : Accounts base o owner processes m) {k : Nat} (inside : k < 8)
    (runs : i < 8) (used : (processes.get i).used = true)
    (here : (processes.get i).pageDirectoryPhys = m.currentPageDirectoryPhys) :
    ∃ owner', Accounts base o owner' processes (allocSlot m k).2 ∧
      (allocSlot m k).2.currentPageDirectoryPhys = m.currentPageDirectoryPhys := by
  obtain ⟨live, at_, other⟩ := accounts.home runs used
  rw [here] at live at_ other
  obtain ⟨half, -⟩ := slotVirt_half inside
  have spaces := accounts.spaces
  rcases allocSlot_cases spaces live at_ inside with
    ⟨-, result⟩ | ⟨vmm, result, reverted⟩ | ⟨empty, owner', vmm, g, physAddr, address, result, placed⟩
  · rw [result]
    exact ⟨owner, accounts, rfl⟩
  · rw [result]
    exact ⟨owner, accounts.unmoved reverted.spaces reverted.unmoved, reverted.current⟩
  · rw [result]
    have page : pageOf physAddr = g := by
      unfold pageOf
      omega
    have kernel : vmm.kernelDirectory = m.kernelDirectory := congrArg pageOf placed.kernel
    have directories : ∀ d, owner' d = some .directory ↔ owner d = some .directory := by
      intro d
      rw [placed.roles d .directory nofun]
      exact or_iff_right fun same => nomatch same.2
    have slot : ∀ {j}, j < 8 → (m.slots.set k ⟨true, m.currentPageDirectoryPhys, slotVirt k,
        physAddr⟩).get j = if j = k then ⟨true, m.currentPageDirectoryPhys, slotVirt k, physAddr⟩
          else m.slots.get j :=
      fun small => FixedArray.get_set _ _ small
    refine ⟨owner', ⟨?_, ?_, accounts.slots.filled inside empty live at_ address placed,
      ⟨fun inside' used' => ?_, accounts.homes.distinct, fun {d} live' => ?_, accounts.homes.entries,
        fun {j} small allocated => ?_⟩⟩, placed.current⟩
    · refine accounts.pager.elsewhere placed.spaces (fun j small used' => ?_) (fun h j => ?_)
        fun j small used' present => ?_
      · exact (directories _).mpr (accounts.pager.lives small used').live
      · rw [placed.roles h (.held (.page j)) nofun]
        exact or_iff_right fun same => absurd same.2 (by simp)
      · have mine := accounts.pager.lease small used' present
        have below := mine.half
        change Alike (vmm.cell (m.pages.get j).directory (m.pages.get j).page) _
        rw [placed.cells mine.live (by omega), if_neg]
        · exact .refl _
        · -- No page of a process is where the page of a slot is.
          obtain ⟨l, -, -, -, lists⟩ := accounts.homes.entries small used'
          exact fun same => lists.apart inside same.2
    · exact accounts.estate.placed spaces placed ((leafEntry_page _ _).trans page) (page_half half) nofun
        other
    · obtain ⟨live', address'', other'⟩ := accounts.home inside' used'
      exact ⟨(directories _).mpr live', address'', kernel ▸ other'⟩
    · exact kernel ▸ accounts.homes.directories ((directories d).mp live')
    · simp only [slot small] at allocated ⊢
      split at allocated
      · next same =>
        rw [if_pos same]
        exact ⟨i, runs, used, here⟩
      · next apart =>
        rw [if_neg apart]
        exact accounts.homes.slots small allocated

/-- Every part of a call of the process that runs keeps the accounts. -/
theorem keptByParts (runs : i < 8) (used : (processes.get i).used = true) :
    KeptByParts fun m => m.currentPageDirectoryPhys = (processes.get i).pageDirectoryPhys ∧
      ∃ owner, Accounts base o owner processes m := by
  -- Each part of a call has its own lemma.
  refine ⟨fun ⟨current, owner, accounts⟩ pager slots => ⟨?_, owner, (accounts.rest pager slots).1⟩,
    fun ⟨current, owner, accounts⟩ inside => ?_,
    fun ⟨current, owner, accounts⟩ _ empty => ⟨current, owner, accounts.clearSlot empty⟩,
    fun ⟨current, owner, accounts⟩ inside => ?_⟩
  · rw [pager]
    exact current
  · obtain ⟨owner', freed, fewer, -⟩ := accounts.freeSlot inside
    exact ⟨fewer.current.trans current, owner', freed⟩
  · obtain ⟨owner', after, same⟩ := accounts.allocSlot inside runs used current.symm
    exact ⟨same.trans current, owner', after⟩

/-- The pages of a space in slots are taken back. -/
theorem release (accounts : Accounts base o owner processes m) (dir : UInt32) :
    ∃ owner', Accounts base o owner' processes (memdemoReleaseForDirectory m dir) ∧
      Fewer m (memdemoReleaseForDirectory m dir) := by
  -- One slot after the other, as long as they are in the space.
  refine memdemoReleaseForDirectory_keeps
    (P := fun m' => ∃ owner', Accounts base o owner' processes m' ∧ Fewer m m')
    (fun ⟨_, accounts, fewer⟩ inside => ?_) ⟨owner, accounts, .refl m⟩ dir
  obtain ⟨owner', freed, less, -⟩ := accounts.freeSlot inside
  exact ⟨owner', freed, fewer.trans less⟩

/-- A process begins in a space of its own, in which it has no page yet. -/
theorem made (accounts : Accounts base o owner processes m) (inside : i < 8)
    (free : (processes.get i).used = false) {f : Nat} {t : Vmm} (made : SpaceMade owner m.toVmm t f)
    {p : Process} (used : p.used = true) (directory : p.pageDirectoryPhys = UInt32.ofNat (f * 4096)) :
    Accounts base o (Function.update owner f (some .directory)) (processes.set i p) (m.withVmm t) := by
  -- The new directory is nobody else's home, and nothing is registered there.
  have address := toNat_ofNat_page (accounts.spaces.small made.inPool)
  have page : pageOf p.pageDirectoryPhys = f := by
    unfold pageOf
    rw [directory]
    omega
  have kernel : t.kernelDirectory = m.kernelDirectory := congrArg pageOf made.kernel
  have fresh : ∀ {g}, owner g = some .directory → g ≠ f := by
    rintro g live rfl
    exact nomatch made.free.symm.trans live
  have slot : ∀ {j}, j < 8 → (processes.set i p).get j = if j = i then p else processes.get j :=
    fun small => FixedArray.get_set _ _ small
  have others : ∀ {j}, j < 8 → (processes.get j).used = true →
      (processes.set i p).get j = processes.get j := by
    intro j small used'
    refine (slot small).trans (if_neg ?_)
    rintro rfl
    exact nomatch free.symm.trans used'
  refine ⟨accounts.pager.made made, accounts.estate.made accounts.spaces made,
    accounts.slots.made made, ⟨fun {j} small used' => ?_, fun {j l} small small' used' used'' same => ?_,
      fun {d} live => ?_, fun {j} small used' => ?_, fun {k} small allocated => ?_⟩⟩
  · change _ ∧ _ ∧ _ ≠ t.kernelDirectory
    rw [kernel]
    by_cases here : j = i
    · rw [here, slot inside, if_pos rfl, page, Function.update_self]
      exact ⟨rfl, by rw [directory, address], (fresh accounts.spaces.kernelLive).symm⟩
    · rw [slot small, if_neg here] at used' ⊢
      obtain ⟨live, at_, other⟩ := accounts.home small used'
      exact ⟨by rw [Function.update_of_ne (fresh live)]; exact live, at_, other⟩
  · rw [slot small] at used' same
    rw [slot small'] at used'' same
    split at used' <;> split at used'' <;> rename_i one two
    · exact one.trans two.symm
    · rw [if_pos one, if_neg two, page] at same
      exact absurd same.symm (fresh (accounts.home small' used'').1)
    · rw [if_neg one, if_pos two, page] at same
      exact absurd same (fresh (accounts.home small used').1)
    · rw [if_neg one, if_neg two] at same
      exact accounts.homes.distinct small small' used' used'' same
  · change d = t.kernelDirectory ∨ _
    rw [kernel]
    by_cases here : d = f
    · exact Or.inr ⟨i, inside, by rw [slot inside, if_pos rfl]; exact used,
        by rw [slot inside, if_pos rfl, page, here]⟩
    · rw [Function.update_of_ne here] at live
      rcases accounts.homes.directories live with same | ⟨j, small, used', there⟩
      · exact Or.inl same
      · exact Or.inr ⟨j, small, by rw [others small used']; exact used',
          by rw [others small used']; exact there⟩
  · obtain ⟨l, small', used'', there, lists⟩ := accounts.homes.entries small used'
    refine ⟨l, small', ?_⟩
    rw [others small' used'']
    exact ⟨used'', there, lists⟩
  · obtain ⟨l, small', used'', there⟩ := accounts.homes.slots small allocated
    refine ⟨l, small', ?_⟩
    rw [others small' used'']
    exact ⟨used'', there⟩

/-- A process that has no page left ends together with its space. -/
theorem gone (accounts : Accounts base o owner processes m) (inside : i < 8)
    (used : (processes.get i).used = true)
    (entries : RegisteredIn m (processes.get i).pageDirectoryPhys fun _ => False)
    (slots : NoSlotIn m (processes.get i).pageDirectoryPhys) {p : Process} (unused : p.used = false) :
    Accounts base o (withoutSpace owner (pageOf (processes.get i).pageDirectoryPhys)) (processes.set i p)
      (m.withVmm (vmmDestroyAddressSpace (processes.get i).pageDirectoryPhys m.toVmm)) := by
  obtain ⟨live, at_, other⟩ := accounts.home inside used
  have gone := vmmDestroyAddressSpace_gone accounts.spaces live at_ other
  generalize vmmDestroyAddressSpace (processes.get i).pageDirectoryPhys m.toVmm = t at gone
  have kernel : t.kernelDirectory = m.kernelDirectory := congrArg pageOf gone.kernel
  have slot : ∀ {j}, j < 8 → (processes.set i p).get j = if j = i then p else processes.get j :=
    fun small => FixedArray.get_set _ _ small
  have still : ∀ {j}, j < 8 → ((processes.set i p).get j).used = true →
      j ≠ i ∧ (processes.set i p).get j = processes.get j := by
    intro j small used'
    rw [slot small] at used' ⊢
    split at used'
    · exact nomatch unused.symm.trans used'
    · next apart =>
      rw [if_neg apart]
      exact ⟨apart, rfl⟩
  -- Whoever is in another space than this one is a process that stays.
  have stays : ∀ {j}, j < 8 → (processes.get j).used = true →
      (processes.get j).pageDirectoryPhys ≠ (processes.get i).pageDirectoryPhys →
      (processes.set i p).get j = processes.get j := by
    intro j small used' apart
    refine (slot small).trans (if_neg ?_)
    rintro rfl
    exact apart rfl
  have elsewhere : ∀ j, j < 128 → (m.pages.get j).used = true →
      (m.pages.get j).directory ≠ pageOf (processes.get i).pageDirectoryPhys := by
    intro j small used' same
    refine entries j small used' (UInt32.toNat_inj.mp ?_)
    have address : (m.pages.get j).pageDirectoryPhys.toNat = (m.pages.get j).directory * 4096 :=
      (accounts.pager.lives small used').address
    rw [address, same, at_]
  refine ⟨accounts.pager.gone live elsewhere gone,
    accounts.estate.gone accounts.spaces live other gone,
    accounts.slots.gone live (fun k small allocated same => ?_) gone,
    ⟨fun {j} small used' => ?_, fun {j l} small small' used' used'' same => ?_, fun {d} live' => ?_,
      fun {j} small used' => ?_, fun {k} small allocated => ?_⟩⟩
  · refine slots k small allocated (UInt32.toNat_inj.mp ?_)
    rw [(accounts.slots.lent small allocated).directory, same, at_]
  · change _ ∧ _ ∧ _ ≠ t.kernelDirectory
    rw [kernel]
    obtain ⟨apart, same⟩ := still small used'
    rw [same] at used' ⊢
    obtain ⟨live', at', other'⟩ := accounts.home small used'
    refine ⟨(withoutSpace_roles owner _ (r := .directory) nofun).mpr ⟨fun equal => ?_, live'⟩, at', other'⟩
    exact apart (accounts.homes.distinct small inside used' used equal)
  · obtain ⟨-, one⟩ := still small used'
    obtain ⟨-, two⟩ := still small' used''
    rw [one] at used' same
    rw [two] at used'' same
    exact accounts.homes.distinct small small' used' used'' same
  · change d = t.kernelDirectory ∨ _
    rw [kernel]
    obtain ⟨apart, before⟩ := (withoutSpace_roles owner _ (r := .directory) nofun).mp live'
    rcases accounts.homes.directories before with same | ⟨j, small, used', there⟩
    · exact Or.inl same
    · have same := stays small used' fun equal => apart (there.symm.trans (congrArg pageOf equal))
      exact Or.inr ⟨j, small, by rw [same]; exact used', by rw [same]; exact there⟩
  · obtain ⟨l, small', used'', there, lists⟩ := accounts.homes.entries small used'
    have same := stays small' used'' fun equal => entries j small used' (there.symm.trans equal)
    refine ⟨l, small', ?_⟩
    rw [same]
    exact ⟨used'', there, lists⟩
  · obtain ⟨l, small', used'', there⟩ := accounts.homes.slots small allocated
    have same := stays small' used'' fun equal => slots k small allocated (there.symm.trans equal)
    refine ⟨l, small', ?_⟩
    rw [same]
    exact ⟨used'', there⟩

end Accounts

end MyOS.Kernel
