import MyOS.Kernel.MemdemoRuns

/-! The memory demonstration keeps its books, and its operations are done whole or not at all. -/

namespace MyOS.Kernel

open MyOS.Mm MyOS.Fs

/-- What becomes of the memory demonstration, and of the spaces that it is used in. -/
inductive SpaceCall where
  | memdemo (call : MemdemoCall)
  /-- A space is made. -/
  | create
  /-- A space is taken apart. -/
  | destroy (pageDirectoryPhys : UInt32)

/-- The memory demonstration, with a list of the spaces that are there. -/
structure Demonstration extends MemDemo where
  /-- The directories of these spaces. No program keeps this list. -/
  live : List UInt32

/-- One step, with what the program is told. -/
def demonstrationStep (s : Demonstration) : SpaceCall → UInt32 × Demonstration
  | .memdemo call =>
    match memdemoStep s.toMemDemo call with
    | (answer, m) => (answer, { s with toMemDemo := m })
  | .create =>
    match vmmCreateAddressSpace s.toVmm with
    | (none, vmm) => (0, { s with toMemDemo := s.withVmm vmm })
    | (some dir, vmm) => (dir, { toMemDemo := s.withVmm vmm, live := dir :: s.live })
  | .destroy dir =>
    let vmm := vmmDestroyAddressSpace dir s.toVmm
    -- The kernel's own space is never taken apart.
    let live := if dir == s.kernelPageDirectoryPhys then s.live else s.live.filter (· != dir)
    (0, { toMemDemo := s.withVmm vmm, live })

/--
The calls that are made: programs run in spaces that are there.

A space is taken apart only after the pages of slots in it were taken back.
-/
def Demonstration.Allowed (s : Demonstration) : SpaceCall → Prop
  | .memdemo (.run dir) => dir ∈ s.live
  | .memdemo (.op _ _) => s.currentPageDirectoryPhys ∈ s.live
  | .memdemo _ => True
  | .create => True
  | .destroy dir => dir ∈ s.live ∧ NoSlotIn s.toMemDemo dir

/-- Whether a space has pages in slots is decidable. -/
instance (m : MemDemo) (dir : UInt32) : Decidable (NoSlotIn m dir) :=
  inferInstanceAs (Decidable (∀ k, k < 8 → (m.slots.get k).allocated = true →
    (m.slots.get k).pageDirectoryPhys ≠ dir))

/-- Whether a call is allowed is decidable. -/
instance (s : Demonstration) : (call : SpaceCall) → Decidable (s.Allowed call)
  | .memdemo (.run dir) => inferInstanceAs (Decidable (dir ∈ s.live))
  | .memdemo (.op _ _) => inferInstanceAs (Decidable (s.currentPageDirectoryPhys ∈ s.live))
  | .memdemo .reset => inferInstanceAs (Decidable True)
  | .memdemo (.release _) => inferInstanceAs (Decidable True)
  | .create => inferInstanceAs (Decidable True)
  | .destroy dir => inferInstanceAs (Decidable (dir ∈ s.live ∧ NoSlotIn s.toMemDemo dir))

/-- The slots that have a page. -/
def allocatedSlots (slots : FixedArray 8 MemDemoSlot) : Finset Nat :=
  (Finset.range 8).filter fun k => (slots.get k).allocated = true

/-- The events entered so far are the first ones, numbered one after the other. -/
structure Logged (m : MemDemo) : Prop where
  room : m.sequence ≤ 8
  valid : ∀ {k}, k < 8 → ((m.events.get k).valid = true ↔ k < m.sequence)
  numbered : ∀ {k}, k < m.sequence → (m.events.get k).sequence.toNat = k + 1

/-- The books of the demonstration agree with memory and with the tables of the spaces. -/
structure Consistent (s : Demonstration) : Prop where
  active : s.activePages.toNat = (allocatedSlots s.slots).card
  distinct : ∀ {j k}, j ∈ allocatedSlots s.slots → k ∈ allocatedSlots s.slots →
    pageOf (s.slots.get j).physAddr = pageOf (s.slots.get k).physAddr → j = k
  taken : ∀ {k}, k ∈ allocatedSlots s.slots → s.bitmapTest (pageOf (s.slots.get k).physAddr) = true
  there : ∀ {k}, k ∈ allocatedSlots s.slots → (s.slots.get k).pageDirectoryPhys ∈ s.live
  mapped : ∀ {k}, k ∈ allocatedSlots s.slots →
    vmmGetMappingInDirectory (s.slots.get k).pageDirectoryPhys (0x02000000 + UInt32.ofNat k * 4096)
      s.toVmm = some (s.slots.get k).physAddr
  logged : Logged s.toMemDemo

/-- The books, the pages that are free and what every space maps are as they were. -/
structure Unchanged (live : List UInt32) (m m' : MemDemo) : Prop where
  slots : m'.slots = m.slots
  events : m'.events = m.events
  activePages : m'.activePages = m.activePages
  sequence : m'.sequence = m.sequence
  free : ∀ page, m'.IsFree page ↔ m.IsFree page
  freePages : m'.freePages = m.freePages
  mapping : ∀ {dir}, dir ∈ live → ∀ virtAddr,
    vmmGetMappingInDirectory dir virtAddr m'.toVmm = vmmGetMappingInDirectory dir virtAddr m.toVmm
  translation : ∀ {dir}, dir ∈ live → ∀ virtAddr write,
    userTranslate dir virtAddr write m'.toVmm = userTranslate dir virtAddr write m.toVmm

/-- One event is entered behind the others. -/
def EventAdded (op page : UInt32) (m m' : MemDemo) : Prop :=
  m.sequence < 8 ∧ m'.sequence = m.sequence + 1 ∧ ∃ event : MemDemoEvent,
    m'.events = m.events.set m.sequence event ∧ event.valid = true ∧ event.op = op ∧ event.page = page

/-- What is always true of the demonstration and of the spaces. -/
structure Books (live : List UInt32) (owner : Owners Holder) (m : MemDemo) : Prop where
  spaces : Spaces owner m.toVmm
  directories : ∀ {dir}, dir ∈ live →
    owner (pageOf dir) = some .directory ∧ dir.toNat = pageOf dir * 4096
  slots : Slots owner m.slots m.toVmm
  there : ∀ {k}, k < 8 → (m.slots.get k).allocated = true → (m.slots.get k).pageDirectoryPhys ∈ live
  active : m.activePages.toNat = (allocatedSlots m.slots).card
  logged : Logged m

section Laws

variable {live : List UInt32} {owner : Owners Holder} {m m' : MemDemo} {k : Nat}

/-- The slots that have a page. -/
theorem mem_allocatedSlots {slots : FixedArray 8 MemDemoSlot} :
    k ∈ allocatedSlots slots ↔ k < 8 ∧ (slots.get k).allocated = true := by
  rw [allocatedSlots, Finset.mem_filter, Finset.mem_range]

/-- A slot more has a page when a slot without one is given it. -/
theorem allocatedSlots_fill {slots : FixedArray 8 MemDemoSlot} {slot : MemDemoSlot} (inside : k < 8)
    (empty : (slots.get k).allocated = false) (full : slot.allocated = true) :
    (allocatedSlots (slots.set k slot)).card = (allocatedSlots slots).card + 1 := by
  -- Slot `k` is added to the set.
  have fresh : k ∉ allocatedSlots slots := fun member =>
    nomatch empty.symm.trans (mem_allocatedSlots.mp member).2
  rw [← Finset.card_insert_of_notMem fresh]
  congr 1
  ext j
  rw [Finset.mem_insert, mem_allocatedSlots, mem_allocatedSlots]
  by_cases here : j = k
  · subst here
    rw [FixedArray.get_set_same _ _ inside]
    simp [inside, full]
  · rw [FixedArray.get_set_ne _ _ here]
    simp [here]

/-- A slot less has a page when one is emptied. -/
theorem allocatedSlots_empty {slots : FixedArray 8 MemDemoSlot} (inside : k < 8)
    (full : (slots.get k).allocated = true) :
    (allocatedSlots (slots.set k emptySlot)).card + 1 = (allocatedSlots slots).card := by
  -- Filling the emptied slot again is the lemma before, read backwards.
  have back := @allocatedSlots_fill k (slots.set k emptySlot) (slots.get k) inside
    (by rw [FixedArray.get_set_same _ _ inside]; rfl) full
  rw [FixedArray.set_set, FixedArray.set_get] at back
  exact back.symm

/-- An event is entered where there is room. -/
theorem Logged.recordEvent (logged : Logged m) (room : m.sequence < 8) (op : UInt32) (page : Nat)
    (virtAddr physAddr : UInt32) :
    ∃ event : MemDemoEvent, m.recordEvent op page virtAddr physAddr =
        (true, { m with events := m.events.set m.sequence event, sequence := m.sequence + 1 }) ∧
      event.valid = true ∧ event.op = op ∧ event.page = UInt32.ofNat page ∧
      Logged { m with events := m.events.set m.sequence event, sequence := m.sequence + 1 } := by
  -- The event goes into the first free place, under the next number.
  unfold MemDemo.recordEvent memdemoEventCount
  rw [if_neg (Nat.not_le.mpr room)]
  refine ⟨_, rfl, rfl, rfl, rfl, room, fun {k} inside => ?_, fun {k} before => ?_⟩
  · change ((m.events.set m.sequence _).get k).valid = true ↔ k < m.sequence + 1
    rw [FixedArray.get_set _ _ inside]
    split
    · next here => exact iff_of_true rfl (by omega)
    · rw [logged.valid inside]
      omega
  · change k < m.sequence + 1 at before
    change ((m.events.set m.sequence _).get k).sequence.toNat = k + 1
    rw [FixedArray.get_set _ _ (by omega)]
    split
    · next here =>
      subst here
      exact UInt32.toNat_ofNat_of_lt' (show m.sequence + 1 < 2 ^ 32 by omega)
    · exact logged.numbered (by omega)

namespace Books

/-- What changes neither memory nor the books changes nothing. -/
theorem rest (books : Books live owner m) (vmm : m'.toVmm = m.toVmm) (slots : m'.slots = m.slots)
    (active : m'.activePages = m.activePages) (logged : Logged m') : Books live owner m' := by
  -- Every clause speaks of the memory, the slots or the record.
  refine ⟨vmm ▸ books.spaces, books.directories, ?_, ?_, ?_, logged⟩
  · rw [vmm, slots]
    exact books.slots
  · rw [slots]
    exact books.there
  · rw [active, slots]
    exact books.active

/-- The books agree with memory and with the tables. -/
theorem consistent {s : Demonstration} (books : Books s.live owner s.toMemDemo) : Consistent s := by
  have lent : ∀ {k}, k ∈ allocatedSlots s.slots → (s.slots.get k).Lent owner k s.toVmm := by
    intro k member
    obtain ⟨inside, allocated⟩ := mem_allocatedSlots.mp member
    exact books.slots.lent inside allocated
  refine ⟨books.active, fun member member' same => ?_, fun member => ?_, fun member => ?_,
    fun {k} member => ?_, books.logged⟩
  · -- One page is held for one slot.
    have one := (lent member).lease.owned
    rw [same, (lent member').lease.owned] at one
    simpa using one.symm
  · have owned := (lent member).lease.owned
    have pool := books.spaces.pool owned nofun
    rw [books.spaces.used _ pool.below, owned]
    rfl
  · obtain ⟨inside, allocated⟩ := mem_allocatedSlots.mp member
    exact books.there inside allocated
  · obtain ⟨inside, -⟩ := mem_allocatedSlots.mp member
    obtain ⟨virt, directory, address, lease⟩ := lent member
    obtain ⟨-, aligned⟩ := slotVirt_half inside
    change vmmGetMappingInDirectory _ (slotVirt k) _ = _
    rw [virt] at lease
    rw [vmmGetMappingInDirectory_eq directory
      (books.spaces.positive (books.spaces.directory_inPool lease.live)), if_pos lease.mapped]
    congr 1
    apply UInt32.toNat_inj.mp
    rw [toNat_frame_or_offset, lease.target, aligned, Nat.add_zero, ← address, UInt32.ofNat_toNat]

/-- A step that is undone leaves what programs reach, and the pages that are free, as they were. -/
theorem unchanged (books : Books live owner m) {vmm : Vmm} (reverted : Reverted owner m.toVmm vmm) :
    Unchanged live m (m.withVmm vmm) := by
  have pages := reverted.layout.totalPages
  have flags : ∀ page, page < m.totalPages.toNat → vmm.bitmapTest page = m.bitmapTest page := by
    intro page inside
    rw [books.spaces.used page inside]
    exact reverted.spaces.used page (by rw [pages]; exact inside)
  have small : ∀ virtAddr : UInt32, virtAddr.toNat / 4096 < 1048576 := fun virtAddr => by
    have := virtAddr.toNat_lt
    omega
  refine ⟨rfl, rfl, rfl, rfl, fun page => ?_, ?_, fun here virtAddr => ?_, fun here virtAddr write => ?_⟩
  · change page < vmm.totalPages.toNat ∧ vmm.bitmapTest page = false ↔ _
    rw [pages]
    exact and_congr_right fun inside => by rw [flags page inside]
  · apply UInt32.toNat_inj.mp
    rw [books.spaces.pmm.counted, ← clearCount_congr flags, ← pages]
    exact reverted.spaces.pmm.counted
  · obtain ⟨live', at_⟩ := books.directories here
    have positive := books.spaces.positive (books.spaces.directory_inPool live')
    rw [vmmGetMappingInDirectory_eq at_ positive, vmmGetMappingInDirectory_eq at_ positive,
      show (m.withVmm vmm).toVmm = vmm from rfl, reverted.tables.cells live' (small virtAddr)]
  · obtain ⟨live', at_⟩ := books.directories here
    have entry := reverted.tables.pdes live' (show virtAddr.toNat / 4096 / 1024 < 1024 by
      have := small virtAddr
      omega)
    change userTranslate _ virtAddr write vmm = _
    unfold userTranslate
    rw [entry_directory at_, entry_directory at_, pageDirectoryIndex_eq, pageTableIndex_eq, entry]
    simp only [and_pagePresent_eq_zero, Bool.not_eq_eq_eq_not, Bool.not_true]
    -- Behind an entry of a directory that is present, there is a table that says the same.
    cases present : flagOf (m.toVmm.pde (pageOf _) (virtAddr.toNat / 4096 / 1024)) 0 with
    | false => rfl
    | true =>
      have table := entry_table (entry ▸ present)
      rw [entry] at table
      rw [table, entry_table present, reverted.tables.cells live' (small virtAddr)]

/-- The page of a slot is taken back. -/
theorem freeSlot (books : Books live owner m) (inside : k < 8) :
    ∃ owner', Books live owner' (m.freeSlot k) := by
  -- A slot without a page stays as it is, otherwise its lease ends and it counts one less.
  by_cases allocated : (m.slots.get k).allocated = true
  case neg =>
    unfold MemDemo.freeSlot
    simp only
    rw [if_pos (by simpa using allocated)]
    exact ⟨owner, books⟩
  obtain ⟨-, slotsIs, dropped, slots⟩ := books.slots.freed books.spaces inside allocated
  have owned := (books.slots.lent inside allocated).lease.owned
  refine ⟨_, dropped.spaces, fun here => ?_, slots, fun {j} small still => ?_, ?_, ?_⟩
  · obtain ⟨live', at_⟩ := books.directories here
    rw [Function.update_of_ne]
    · exact ⟨live', at_⟩
    · rintro same
      exact nomatch (same ▸ live').symm.trans owned
  · rw [slotsIs] at still ⊢
    obtain ⟨-, same⟩ := Slots.of_set_empty small still
    rw [same] at still ⊢
    exact books.there small still
  · have fewer := allocatedSlots_empty inside allocated
    have active := books.active
    rw [slotsIs]
    unfold MemDemo.freeSlot
    simp only
    rw [if_neg (by simp [allocated])]
    change (if m.activePages > 0 then m.activePages - 1 else m.activePages).toNat = _
    rw [if_pos (UInt32.lt_iff_toNat_lt.mpr (by change 0 < _; omega)),
      UInt32.toNat_sub_of_le _ _ (UInt32.le_iff_toNat_le.mpr (by change 1 ≤ _; omega))]
    change m.activePages.toNat - 1 = _
    omega
  · unfold MemDemo.freeSlot
    simp only
    rw [if_neg (by simp [allocated])]
    exact ⟨books.logged.room, books.logged.valid, books.logged.numbered⟩

/-- A slot without a page is cleared. -/
theorem clearSlot (books : Books live owner m) (inside : k < 8)
    (empty : (m.slots.get k).allocated = false) : Books live owner (m.clearSlot k) := by
  -- It was not counted, and nothing was mapped for it.
  refine ⟨books.spaces, books.directories, books.slots.cleared empty, fun {j} small still => ?_, ?_,
    ⟨books.logged.room, books.logged.valid, books.logged.numbered⟩⟩
  · obtain ⟨-, same⟩ := Slots.of_set_empty small still
    change ((m.slots.set k emptySlot).get j).allocated = true at still
    change ((m.slots.set k emptySlot).get j).pageDirectoryPhys ∈ live
    rw [same] at still ⊢
    exact books.there small still
  · change m.activePages.toNat = (allocatedSlots (m.slots.set k emptySlot)).card
    rw [books.active]
    congr 1
    ext j
    rw [mem_allocatedSlots, mem_allocatedSlots]
    by_cases here : j = k
    · rw [here, FixedArray.get_set_same _ _ inside, empty]
      rfl
    · rw [FixedArray.get_set_ne _ _ here]

/-- A slot is given a page of the current space. -/
theorem placed (books : Books live owner m) (inside : k < 8) (empty : (m.slots.get k).allocated = false)
    (current : m.currentPageDirectoryPhys ∈ live) {owner' : Owners Holder} {vmm : Vmm} {f : Nat}
    {physAddr : UInt32} (address : physAddr.toNat = f * 4096)
    (placed : Placed owner owner' m.toVmm vmm (pageOf m.currentPageDirectoryPhys)
      ((slotVirt k).toNat / 4096) f (.slot k) (leafEntry physAddr (vmmPageWritable ||| vmmPageUser))
      fun _ => 0) :
    Books live owner' { m.withVmm vmm with
      slots := m.slots.set k ⟨true, m.currentPageDirectoryPhys, slotVirt k, physAddr⟩
      activePages := m.activePages + 1 } := by
  -- The slot has the lease that the placement made, and counts one more.
  obtain ⟨live', at_⟩ := books.directories current
  refine ⟨placed.spaces, fun here => ?_, books.slots.filled inside empty live' at_ address placed,
    fun {j} small allocated => ?_, ?_, ⟨books.logged.room, books.logged.valid, books.logged.numbered⟩⟩
  · obtain ⟨live'', at_'⟩ := books.directories here
    exact ⟨(placed.roles _ .directory nofun).mpr (Or.inr live''), at_'⟩
  · change ((m.slots.set k _).get j).allocated = true at allocated
    change ((m.slots.set k _).get j).pageDirectoryPhys ∈ live
    rw [FixedArray.get_set _ _ small] at allocated ⊢
    split
    · exact current
    · next other =>
      rw [if_neg other] at allocated
      exact books.there small allocated
  · change (m.activePages + 1).toNat = (allocatedSlots (m.slots.set k _)).card
    have active := books.active
    have few : (allocatedSlots m.slots).card ≤ 8 :=
      (Finset.card_filter_le _ _).trans (Finset.card_range 8).le
    rw [allocatedSlots_fill inside empty rfl, UInt32.toNat_add]
    change (m.activePages.toNat + 1) % 2 ^ 32 = _
    omega

/-- What a call that works adds to the books. -/
theorem entered (books : Books live owner m') {op page : UInt32} {i : Nat} (here : i = page.toNat)
    (events : m'.events = m.events) (sequence : m'.sequence = m.sequence) (room : m.sequence < 8)
    (virtAddr physAddr : UInt32) :
    ∃ t, m'.recordEvent op i virtAddr physAddr = (true, t) ∧ t.slots = m'.slots ∧
      Books live owner t ∧ EventAdded op page m t := by
  -- The record has room, so the event is there afterwards.
  obtain ⟨event, result, valid, op', page', logged⟩ :=
    books.logged.recordEvent (sequence ▸ room) op i virtAddr physAddr
  refine ⟨_, result, rfl, books.rest rfl rfl rfl logged, room, ?_, event, ?_, valid, op', ?_⟩
  · exact congrArg (· + 1) sequence
  · rw [← events, ← sequence]
  · rw [page', here, UInt32.ofNat_toNat]

/-- An operation changes nothing and answers zero, or is done and entered. -/
theorem applyOp (books : Books live owner m) (current : m.currentPageDirectoryPhys ∈ live)
    (op page : UInt32) :
    (∃ owner', Books live owner' (memdemoApplyOp m op page).2) ∧
      ((memdemoApplyOp m op page).1 = 0 ∧ Unchanged live m (memdemoApplyOp m op page).2 ∨
        (memdemoApplyOp m op page).1 ≠ 0 ∧ EventAdded op page m (memdemoApplyOp m op page).2) := by
  obtain ⟨live', at_⟩ := books.directories current
  have same : Unchanged live m m := books.unchanged (.refl books.spaces)
  have address : ∀ {k}, k < 8 → slotVirt k ≠ 0 := by
    intro k inside zero
    have := toNat_slotVirt inside
    rw [zero] at this
    change 0 = _ at this
    omega
  unfold memdemoApplyOp
  simp only
  split
  · exact ⟨⟨owner, books⟩, Or.inl ⟨rfl, same⟩⟩
  next accepted =>
  have inside : page.toNat < 8 := by
    change ¬ (page.toNat ≥ 8 ∨ _) at accepted
    omega
  have room : m.sequence < 8 := by
    change ¬ (_ ∨ m.sequence ≥ 8) at accepted
    omega
  split
  · -- `ALLOC`
    rcases allocSlot_cases books.spaces live' at_ inside with
      ⟨allocated, result⟩ | ⟨vmm, result, reverted⟩ |
        ⟨empty, owner', vmm, f, physAddr, frame, result, given⟩
    · obtain ⟨t, entered, slots, after, added⟩ := books.entered rfl rfl rfl room
        (m.slots.get page.toNat).virtAddr (m.slots.get page.toNat).physAddr
      rw [result]
      simp only
      rw [entered]
      refine ⟨⟨owner, after⟩, Or.inr ⟨?_, added⟩⟩
      simp only
      rw [slots, (books.slots.lent inside allocated).virt]
      exact address inside
    · rw [result]
      exact ⟨⟨owner, reverted.spaces, books.directories, books.slots.unmoved reverted.unmoved, books.there,
        books.active, ⟨books.logged.room, books.logged.valid, books.logged.numbered⟩⟩,
        Or.inl ⟨rfl, books.unchanged reverted⟩⟩
    · have filled := books.placed inside empty current frame given
      rw [result]
      simp only
      obtain ⟨t, entered, slots, after, added⟩ := filled.entered rfl rfl rfl room _ _
      rw [entered]
      refine ⟨⟨owner', after⟩, Or.inr ⟨?_, added⟩⟩
      simp only
      rw [slots]
      change ((m.slots.set page.toNat _).get page.toNat).virtAddr ≠ 0
      rw [FixedArray.get_set_same _ _ inside]
      exact address inside
  split
  · -- `TOUCH`
    cases allocated : (m.slots.get page.toNat).allocated with
    | false => exact ⟨⟨owner, books⟩, Or.inl ⟨rfl, same⟩⟩
    | true =>
      obtain ⟨t, entered, slots, after, added⟩ := books.entered rfl rfl rfl room
        (m.slots.get page.toNat).virtAddr (m.slots.get page.toNat).physAddr
      rw [if_neg nofun, entered]
      refine ⟨⟨owner, after⟩, Or.inr ⟨?_, added⟩⟩
      simp only
      rw [slots, (books.slots.lent inside allocated).virt]
      exact address inside
  split
  · -- `FREE`
    cases allocated : (m.slots.get page.toNat).allocated with
    | false => exact ⟨⟨owner, books⟩, Or.inl ⟨rfl, same⟩⟩
    | true =>
      obtain ⟨owner', freed⟩ := books.freeSlot inside
      have log : (m.freeSlot page.toNat).events = m.events ∧
          (m.freeSlot page.toNat).sequence = m.sequence := by
        unfold MemDemo.freeSlot
        simp only
        split <;> exact ⟨rfl, rfl⟩
      obtain ⟨t, entered, slots, after, added⟩ := freed.entered rfl log.1 log.2 room
        (slotVirt page.toNat) (m.slots.get page.toNat).physAddr
      rw [if_neg nofun, entered]
      exact ⟨⟨owner', after⟩, Or.inr ⟨show (1 : UInt32) ≠ 0 by decide, added⟩⟩
  · exact ⟨⟨owner, books⟩, Or.inl ⟨rfl, same⟩⟩

/-- Writing to the file with the record changes the files and the disk. -/
theorem logBytes (books : Books live owner m)
    (call : CString → (Nat → UInt8) → Nat → SimpleFs → Bool × SimpleFs) (bytes : List UInt8) :
    Books live owner (logBytes m call bytes) := by
  -- Nothing is written without a volume, and with one memory is not touched.
  unfold MyOS.Kernel.logBytes withFiles
  split
  · exact books.rest rfl rfl rfl ⟨books.logged.room, books.logged.valid, books.logged.numbered⟩
  · exact books

/-- Everything is taken back, and the record starts anew. -/
theorem reset (books : Books live owner m) : ∃ owner', Books live owner' (memdemoReset m) := by
  unfold memdemoReset
  -- After so many rounds, the first slots have no page.
  have emptied : ∃ owner', Books live owner' ((List.range memdemoPageCount).foldl
      (fun s i => (s.freeSlot i).clearSlot i) m) ∧ ∀ j, j < 8 →
        (((List.range memdemoPageCount).foldl (fun s i => (s.freeSlot i).clearSlot i) m).slots.get
          j).allocated = false := by
    refine foldl_range_invariant (fun n (m : MemDemo) => ∃ owner', Books live owner' m ∧
      ∀ j, j < n → (m.slots.get j).allocated = false) ⟨owner, books, nofun⟩ ?_
    intro i m inside ⟨owner', books, cleared⟩
    change i < 8 at inside
    obtain ⟨owner'', freed⟩ := books.freeSlot inside
    have empty := freeSlot_allocated m inside
    refine ⟨owner'', freed.clearSlot inside empty, fun j below => ?_⟩
    change (((m.freeSlot i).slots.set i emptySlot).get j).allocated = false
    rw [FixedArray.get_set _ _ (by omega)]
    split
    · rfl
    · next other =>
      rw [freeSlot_others m (by omega) other]
      exact cleared j (by omega)
  generalize (List.range memdemoPageCount).foldl (fun s i => (s.freeSlot i).clearSlot i) m = final
    at emptied ⊢
  obtain ⟨owner', books, empty⟩ := emptied
  have none_ : allocatedSlots final.slots = ∅ := by
    refine Finset.filter_eq_empty_iff.mpr fun j member => ?_
    rw [empty j (Finset.mem_range.mp member)]
    nofun
  have logged : Logged { final with
      events := FixedArray.fill emptyEvent, activePages := 0, sequence := 0 } := by
    refine ⟨Nat.zero_le _, fun {j} inside => ?_, nofun⟩
    change ((FixedArray.fill emptyEvent : FixedArray 8 MemDemoEvent).get j).valid = true ↔ j < 0
    rw [FixedArray.get_fill _ inside]
    exact iff_of_false nofun (Nat.not_lt_zero j)
  have anew : Books live owner' { final with
      events := FixedArray.fill emptyEvent, activePages := 0, sequence := 0 } := by
    refine ⟨books.spaces, books.directories, books.slots, books.there, ?_, logged⟩
    change 0 = (allocatedSlots final.slots).card
    rw [none_]
    rfl
  exact ⟨owner', anew.logBytes _ _⟩

/-- A space is made. -/
theorem create {s : Demonstration} (books : Books s.live owner s.toMemDemo) :
    ∃ owner', Books (demonstrationStep s .create).2.live owner'
      (demonstrationStep s .create).2.toMemDemo := by
  -- Without memory nothing happens, with it the new space maps no slot.
  unfold demonstrationStep
  simp only
  rcases vmmCreateAddressSpace_cases books.spaces with ⟨result, -⟩ | ⟨f, t, result, made⟩
  · rw [result]
    exact ⟨owner, books⟩
  rw [result]
  have address := toNat_ofNat_page (books.spaces.small made.inPool)
  have page : pageOf (UInt32.ofNat (f * 4096)) = f := by
    unfold pageOf
    omega
  refine ⟨_, made.spaces, fun {dir} here => ?_, books.slots.made made, fun inside allocated => ?_,
    books.active, ⟨books.logged.room, books.logged.valid, books.logged.numbered⟩⟩
  · rcases List.mem_cons.mp here with rfl | here
    · rw [page, Function.update_self, address]
      exact ⟨rfl, rfl⟩
    · obtain ⟨live', at_⟩ := books.directories here
      rw [Function.update_of_ne]
      · exact ⟨live', at_⟩
      · rintro same
        exact nomatch (same ▸ live').symm.trans made.free
  · exact List.mem_cons_of_mem _ (books.there inside allocated)

/-- A space without pages of slots is taken apart. -/
theorem destroy {s : Demonstration} (books : Books s.live owner s.toMemDemo) {dir : UInt32}
    (here : dir ∈ s.live) (released : NoSlotIn s.toMemDemo dir) :
    ∃ owner', Books (demonstrationStep s (.destroy dir)).2.live owner'
      (demonstrationStep s (.destroy dir)).2.toMemDemo := by
  -- The pages of the others are mapped elsewhere.
  obtain ⟨live, at_⟩ := books.directories here
  unfold demonstrationStep
  simp only
  by_cases kernel : dir = s.kernelPageDirectoryPhys
  · rw [vmmDestroyAddressSpace_kernel books.spaces (by rw [kernel, books.spaces.kernelAligned]),
      if_pos (by rw [kernel, beq_self_eq_true])]
    exact ⟨owner, books⟩
  have distinct : ∀ {other}, owner (pageOf other) = some .directory ∧ other.toNat = pageOf other * 4096 →
      other ≠ dir → pageOf other ≠ pageOf dir := by
    rintro other ⟨-, at_'⟩ apart same
    exact apart (UInt32.toNat_inj.mp (by rw [at_, at_', same]))
  have apart : pageOf dir ≠ s.kernelDirectory := by
    intro same
    refine kernel (UInt32.toNat_inj.mp ?_)
    rw [at_, books.spaces.kernelAligned, same]
  have gone := vmmDestroyAddressSpace_gone books.spaces live at_ apart
  rw [if_neg (by simpa using kernel)]
  refine ⟨_, gone.spaces, fun {other} member => ?_, books.slots.gone live (fun k inside allocated => ?_) gone,
    fun {k} inside allocated => ?_, books.active,
    ⟨books.logged.room, books.logged.valid, books.logged.numbered⟩⟩
  · obtain ⟨member, other'⟩ := List.mem_filter.mp member
    have there := books.directories member
    have stays := withoutSpace_roles owner (pageOf dir) (g := pageOf other) (r := .directory) nofun
    exact ⟨stays.mpr ⟨distinct there (by simpa using other'), there.1⟩, there.2⟩
  · exact distinct (books.directories (books.there inside allocated)) (released k inside allocated)
  · exact List.mem_filter.mpr ⟨books.there inside allocated, bne_iff_ne.mpr (released k inside allocated)⟩

/-- One step keeps the books. -/
theorem step {s : Demonstration} (books : Books s.live owner s.toMemDemo) {call : SpaceCall}
    (allowed : s.Allowed call) :
    ∃ owner', Books (demonstrationStep s call).2.live owner' (demonstrationStep s call).2.toMemDemo := by
  -- One case for each call.
  cases call with
  | memdemo call =>
    cases call with
    | run dir =>
      obtain ⟨live, at_⟩ := books.directories allowed
      refine ⟨owner, ?_⟩
      change Books s.live owner (s.withVmm (vmmSwitchPageDirectory dir s.toVmm).2)
      rw [books.spaces.switched live at_]
      exact ⟨books.spaces.withCurrent dir, books.directories,
        books.slots.unmoved ⟨fun _ _ => .refl _, ⟨rfl, rfl, rfl, rfl, rfl⟩, rfl⟩, books.there, books.active,
        ⟨books.logged.room, books.logged.valid, books.logged.numbered⟩⟩
    | op op page => exact (books.applyOp allowed op page).1
    | reset => exact books.reset
    | release dir =>
      exact memdemoReleaseForDirectory_keeps (P := fun m => ∃ owner', Books s.live owner' m)
        (fun ⟨_, books⟩ inside => books.freeSlot inside) ⟨owner, books⟩ dir
  | create => exact books.create
  | destroy dir => exact books.destroy allowed.1 allowed.2

end Books

/-- The spaces are in order, and nobody has used the demonstration. -/
structure DemonstrationStarts (owner : Owners Holder) (s : Demonstration) : Prop where
  spaces : Spaces owner s.toVmm
  directories : ∀ {dir}, dir ∈ s.live →
    owner (pageOf dir) = some .directory ∧ dir.toNat = pageOf dir * 4096
  unheld : ∀ {f k}, owner f ≠ some (.held (.slot k))
  slots : ∀ {k}, k < 8 → (s.slots.get k).allocated = false
  events : ∀ {k}, k < 8 → (s.events.get k).valid = false
  activePages : s.activePages = 0
  sequence : s.sequence = 0

/-- The books are empty at the start. -/
theorem DemonstrationStarts.books {s : Demonstration} (starts : DemonstrationStarts owner s) :
    Books s.live owner s.toMemDemo := by
  -- No slot has a page and no event was entered.
  have none_ : allocatedSlots s.slots = ∅ := by
    refine Finset.filter_eq_empty_iff.mpr fun j member => ?_
    rw [starts.slots (Finset.mem_range.mp member)]
    nofun
  refine ⟨starts.spaces, starts.directories, ⟨fun inside allocated => ?_, fun held => ?_⟩,
    fun inside allocated => ?_, ?_, ?_, fun {k} inside => ?_, fun before => ?_⟩
  · exact nomatch (starts.slots inside).symm.trans allocated
  · exact absurd held starts.unheld
  · exact nomatch (starts.slots inside).symm.trans allocated
  · rw [none_, starts.activePages]
    rfl
  · rw [starts.sequence]
    exact Nat.zero_le _
  · rw [starts.sequence, starts.events inside]
    exact iff_of_false nofun (Nat.not_lt_zero k)
  · rw [starts.sequence] at before
    exact absurd before (Nat.not_lt_zero _)

/--
However the demonstration is used, its books agree with memory and with the tables of the spaces.

An operation that answers zero changes nothing, and any other one enters one event.
-/
theorem demonstrationRun_consistent {s : Demonstration} (starts : DemonstrationStarts owner s)
    {calls : List SpaceCall} (allowed : ∀ before call after, calls = before ++ call :: after →
      (runState demonstrationStep s before).Allowed call) :
    Consistent (runState demonstrationStep s calls) ∧
      ∀ op page, (runState demonstrationStep s calls).Allowed (.memdemo (.op op page)) →
        let m := (runState demonstrationStep s calls).toMemDemo
        ((memdemoApplyOp m op page).1 = 0 →
          Unchanged (runState demonstrationStep s calls).live m (memdemoApplyOp m op page).2) ∧
        ((memdemoApplyOp m op page).1 ≠ 0 → EventAdded op page m (memdemoApplyOp m op page).2) := by
  -- The books hold after the run, and each call is judged from there.
  obtain ⟨owner', books⟩ := runState_invariant_along demonstrationStep
    (fun s => ∃ owner', Books s.live owner' s.toMemDemo) Demonstration.Allowed
    (fun s call allowed ⟨_, books⟩ => books.step allowed) allowed ⟨owner, starts.books⟩
  refine ⟨books.consistent, fun op page current => ?_⟩
  obtain ⟨-, ⟨zero, same⟩ | ⟨nonzero, added⟩⟩ := books.applyOp current op page
  · exact ⟨fun _ => same, fun nonzero => absurd zero nonzero⟩
  · exact ⟨fun zero => absurd zero nonzero, fun _ => added⟩

end Laws

section Example

/-- Two processes, and nobody has used the demonstration. -/
def pairedDemonstration : Demonstration := { toMemDemo := pairedDemo, live := [0x3000, 0x4000] }

/-- Both processes take a page, and the first one goes away. -/
def oneLeaves : List SpaceCall :=
  [.memdemo (.op memdemoOpAlloc 0), .memdemo (.run 0x4000), .memdemo (.op memdemoOpAlloc 1),
    .memdemo (.release 0x3000), .destroy 0x3000]

/-- The page of the other process is still at its place. -/
theorem demonstrationRun_consistent_small :
    vmmGetMappingInDirectory 0x4000 (0x02000000 + UInt32.ofNat 1 * 4096)
      (runState demonstrationStep pairedDemonstration oneLeaves).toVmm =
        some ((runState demonstrationStep pairedDemonstration oneLeaves).slots.get 1).physAddr := by
  -- The books after the run say where the page of slot 1 is.
  obtain ⟨owner, starts⟩ := pairedDemo_starts
  have begins : DemonstrationStarts owner pairedDemonstration := by
    refine ⟨starts.spaces, fun {dir} here => ?_, starts.unheld, starts.empty, fun {k} inside => ?_, rfl, rfl⟩
    · rcases List.mem_cons.mp here with rfl | here
      · exact ⟨starts.directories (Or.inl rfl), rfl⟩
      · rcases List.mem_singleton.mp here with rfl
        exact ⟨starts.directories (Or.inr rfl), rfl⟩
    · exact congrArg MemDemoEvent.valid (FixedArray.get_fill _ inside)
  have allowed : allowedAlong demonstrationStep (fun s call => decide (s.Allowed call))
      pairedDemonstration oneLeaves = true := by decide +kernel
  have consistent := (demonstrationRun_consistent begins fun before call after split =>
    of_decide_eq_true (allowedAlong_spec demonstrationStep allowed split)).1
  have member : 1 ∈ allocatedSlots (runState demonstrationStep pairedDemonstration oneLeaves).slots :=
    mem_allocatedSlots.mpr ⟨by decide, by decide +kernel⟩
  have space : ((runState demonstrationStep pairedDemonstration oneLeaves).slots.get 1).pageDirectoryPhys =
      0x4000 := by decide +kernel
  have mapped := consistent.mapped member
  rwa [space] at mapped

end Example

end MyOS.Kernel
