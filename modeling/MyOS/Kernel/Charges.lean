import MyOS.Kernel.AccountRuns
import MyOS.Kernel.TableRuns
import Mathlib.Data.List.Nodup

/-! The pages that processes have, and that no page is lost or given away twice as they come and go. -/

namespace MyOS.Kernel

open MyOS.Mm

section Model

variable (s : KernelState)

/-- The pages of the space of a slot: its directory, and the tables of the user's half. -/
def KernelState.spacePages (i : Nat) : List UInt32 :=
  (s.processes.get i).pageDirectoryPhys ::
    ((List.range 768).filter fun j => s.entry (s.processes.get i).pageDirectoryPhys j &&& pagePresent != 0).map
      fun j => pageTableFromDirectory (s.entry (s.processes.get i).pageDirectoryPhys j)

/-- The frames of the pages that are registered with the pager and in memory. -/
def KernelState.entryPages : List UInt32 :=
  ((List.range pagerMaxPages).filter fun j => (s.pages.get j).used && (s.pages.get j).present).map
    fun j => (s.pages.get j).physAddr

/-- The frames of the slots of the memory demonstration. -/
def KernelState.slotPages : List UInt32 :=
  ((List.range memdemoPageCount).filter fun k => (s.slots.get k).allocated).map
    fun k => (s.slots.get k).physAddr

/-- All pages that processes have. -/
def KernelState.charges : List UInt32 :=
  ((List.range processMax).filter fun i => (s.processes.get i).used).flatMap s.spacePages ++
    (s.entryPages ++ s.slotPages)

end Model

/-- What is true of the kernel when processes can first be made: memory is set up, the only space is
the kernel's, and no program has a page. -/
structure KernelState.Boots (base : Owners Holder) (s : KernelState) : Prop where
  pager : ∃ loaded : Pager, loaded.Idle ∧ s.toPager = (pagerInit loaded).2
  spaces : Spaces base s.toVmm
  directories : ∀ {d}, base d = some .directory → d = s.kernelDirectory
  empty : ∀ {v}, v < 786432 → flagOf (s.cell s.kernelDirectory v) 0 = false
  guarded : s.Guarded
  unheld : ∀ {f l}, base f = some (.held l) → l = .other
  slots : ∀ {k}, k < 8 → (s.slots.get k).allocated = false

variable {base owner : Owners Holder} {o : Vmm} {s : KernelState} {i : Nat} {a : UInt32}

namespace KernelState.Boots

/-- Every page that is taken at the start keeps the role it has. -/
theorem lasting (boots : s.Boots base) {f : Nat} {r : Owner Holder} (role : base f = some r) :
    Lasting (· = .other) s.kernelDirectory f r := by
  -- By the role: those of processes do not occur at the start.
  cases r with
  | kernel => trivial
  | directory => exact boots.directories role
  | table d i => exact boots.directories ((boots.spaces.tables f d i).mp role).1
  | held l => exact boots.unheld role

/-- The accounts are in order before there is any process. -/
theorem accounted (boots : s.Boots base) : (processInit s).Accounted base s.toVmm := by
  -- No slot is used and no entry is, so the owners are those of the start.
  have unused : ∀ {i}, i < 8 → ((processInit s).processes.get i).used = false := by
    intro i inside
    unfold processInit
    rw [FixedArray.get_ofFn _ inside]
  obtain ⟨loaded, idle, start⟩ := boots.pager
  have vmm : s.toVmm = loaded.toVmm := by
    rw [start]
    exact pagerInit_vmm loaded
  have settled : Pager.Settled base s.toPager := by
    rw [start]
    cases ready : loaded.disk.ready with
    | true =>
      refine .of_ok (pagerInit_ok (vmm ▸ boots.spaces) (fun f i held => ?_) ready)
      exact nomatch boots.unheld held
    | false =>
      have same : (pagerInit loaded).2 = { loaded with pagerReady := false } := by
        unfold pagerInit
        rw [if_pos (by simp [ready])]
      rw [same]
      exact ⟨vmm ▸ boots.spaces, nofun, fun _ => idle.unused, fun _ f j held => nomatch boots.unheld held⟩
  have leases : Leases base s.toVmm := by
    constructor
    · intro d v live half mapped
      rw [boots.directories live, boots.empty half] at mapped
      cases mapped
    · intro d v d' v' live half mapped
      rw [boots.directories live, boots.empty half] at mapped
      cases mapped
  have noPage : ∀ {j}, j < 128 → (s.pages.get j).used = false := by
    intro j inside
    rw [start]
    unfold pagerInit
    split
    · exact idle.unused j inside
    · exact congrArg PagerPage.used (FixedArray.get_ofFn _ inside)
  refine ⟨base, settled, ⟨.refl _, rfl, fun _ _ _ => Iff.rfl, leases, boots.guarded⟩,
    ⟨fun inside allocated => ?_, fun held => ?_⟩,
    ⟨fun inside used => ?_, fun inside _ used => ?_, fun live => Or.inl (boots.directories live),
      fun inside used => ?_, fun inside allocated => ?_⟩⟩
  · exact nomatch (boots.slots inside).symm.trans allocated
  · exact nomatch boots.unheld held
  · exact nomatch (unused inside).symm.trans used
  · exact nomatch (unused inside).symm.trans used
  · exact nomatch (noPage inside).symm.trans used
  · exact nomatch (boots.slots inside).symm.trans allocated

end KernelState.Boots

section Charges

/-- The address of a page, by the number of the page. -/
theorem eq_of_page {a b : UInt32} (at_ : a.toNat = pageOf a * 4096) (at' : b.toNat = pageOf b * 4096)
    (same : pageOf a = pageOf b) : a = b := by
  -- A page and the offset 0 determine the address.
  apply UInt32.toNat_inj.mp
  rw [at_, at', same]

/-- The pages of a space are its directory and its tables. -/
theorem mem_spacePages (accounts : Accounts base o owner s.processes s.toMemDemo) (inside : i < 8)
    (used : (s.processes.get i).used = true) :
    a ∈ s.spacePages i ↔ a.toNat = pageOf a * 4096 ∧
      (pageOf a = pageOf (s.processes.get i).pageDirectoryPhys ∨
        ∃ j, owner (pageOf a) = some (.table (pageOf (s.processes.get i).pageDirectoryPhys) j)) := by
  -- The directory of the space is its page, and the tables are those its entries name.
  obtain ⟨live, at_, -⟩ := accounts.home inside used
  have entry : ∀ j, s.entry (s.processes.get i).pageDirectoryPhys j =
      s.pde (pageOf (s.processes.get i).pageDirectoryPhys) j := entry_directory at_
  unfold KernelState.spacePages
  simp only [List.mem_cons, List.mem_map, List.mem_filter, List.mem_range, entry, and_pagePresent_ne_zero]
  constructor
  · rintro (rfl | ⟨j, ⟨half, present⟩, rfl⟩)
    · exact ⟨at_, Or.inl rfl⟩
    · have address := toNat_pageTableFromDirectory
        (s.pde (pageOf (s.processes.get i).pageDirectoryPhys) j)
      rw [pageOf_pageTableFromDirectory]
      exact ⟨address, Or.inr ⟨j, (accounts.spaces.tables _ _ _).mpr ⟨live, half, present, rfl⟩⟩⟩
  · rintro ⟨address, same | ⟨j, role⟩⟩
    · exact Or.inl (eq_of_page address at_ same)
    · obtain ⟨-, half, present, page⟩ := (accounts.spaces.tables _ _ _).mp role
      refine Or.inr ⟨j, ⟨half, present⟩, ?_⟩
      apply UInt32.toNat_inj.mp
      rw [toNat_pageTableFromDirectory, page, address]

/-- The pages of the pager are those that its entries hold. -/
theorem mem_entryPages (accounts : Accounts base o owner s.processes s.toMemDemo) :
    a ∈ s.entryPages ↔ a.toNat = pageOf a * 4096 ∧ ∃ j, owner (pageOf a) = some (.held (.page j)) := by
  -- Every used entry holds its page, and every page held is that of an entry.
  unfold KernelState.entryPages
  simp only [List.mem_map, List.mem_filter, List.mem_range, Bool.and_eq_true]
  constructor
  · rintro ⟨j, ⟨inside, used, present⟩, rfl⟩
    have resident := (accounts.pager.of_used inside used).frames inside used present
    exact ⟨resident.address, j, resident.owned⟩
  · rintro ⟨address, j, role⟩
    have started : s.pagerReady = true := by
      by_contra stopped
      exact accounts.pager.unheld (Bool.eq_false_iff.mpr stopped) _ _ role
    have ok := accounts.ready started
    obtain ⟨inside, used, present, frame⟩ := ok.held role
    exact ⟨j, ⟨inside, used, present⟩,
      eq_of_page (ok.frames inside used present).address address frame.symm⟩

/-- The pages of the memory demonstration are those that its slots hold. -/
theorem mem_slotPages (accounts : Accounts base o owner s.processes s.toMemDemo) :
    a ∈ s.slotPages ↔ a.toNat = pageOf a * 4096 ∧ ∃ k, owner (pageOf a) = some (.held (.slot k)) := by
  -- Every slot with a page holds it, and every page held is that of a slot.
  unfold KernelState.slotPages
  simp only [List.mem_map, List.mem_filter, List.mem_range]
  constructor
  · rintro ⟨k, ⟨inside, allocated⟩, rfl⟩
    have lent := accounts.slots.lent inside allocated
    exact ⟨lent.address, k, lent.lease.owned⟩
  · rintro ⟨address, k, role⟩
    obtain ⟨inside, allocated, frame⟩ := accounts.slots.held role
    exact ⟨k, ⟨inside, allocated⟩, eq_of_page (accounts.slots.lent inside allocated).address address
      frame.symm⟩

/-- The pages that processes have are those whose role does not last. -/
theorem mem_charges (accounts : Accounts base o owner s.processes s.toMemDemo) :
    a ∈ s.charges ↔ a.toNat = pageOf a * 4096 ∧
      ∃ r, owner (pageOf a) = some r ∧ ¬ Lasting (· = .other) s.kernelDirectory (pageOf a) r := by
  -- Role by role: entries, slots, and the directories and tables of processes.
  unfold KernelState.charges
  rw [List.mem_append, List.mem_append, mem_entryPages accounts, mem_slotPages accounts]
  simp only [List.mem_flatMap, List.mem_filter, List.mem_range]
  constructor
  · rintro (⟨i, ⟨inside, used⟩, member⟩ | ⟨address, j, role⟩ | ⟨address, k, role⟩)
    · obtain ⟨live, -, other⟩ := accounts.home inside used
      obtain ⟨address, same | ⟨j, role⟩⟩ := (mem_spacePages accounts inside used).mp member
      · exact ⟨address, .directory, same ▸ live, fun kernel => other (same.symm.trans kernel)⟩
      · exact ⟨address, _, role, other⟩
    · exact ⟨address, _, role, nofun⟩
    · exact ⟨address, _, role, nofun⟩
  · rintro ⟨address, r, role, passing⟩
    cases r with
    | kernel => exact absurd trivial passing
    | directory =>
      rcases accounts.homes.directories role with kernel | ⟨i, inside, used, page⟩
      · exact absurd kernel passing
      · exact Or.inl ⟨i, ⟨inside, used⟩, (mem_spacePages accounts inside used).mpr
          ⟨address, Or.inl page.symm⟩⟩
    | table d j =>
      rcases accounts.homes.directories ((accounts.spaces.tables _ _ _).mp role).1 with
        kernel | ⟨i, inside, used, page⟩
      · exact absurd kernel passing
      · subst page
        exact Or.inl ⟨i, ⟨inside, used⟩, (mem_spacePages accounts inside used).mpr
          ⟨address, Or.inr ⟨j, role⟩⟩⟩
    | held l =>
      cases l with
      | page j => exact Or.inr (Or.inl ⟨address, j, role⟩)
      | slot k => exact Or.inr (Or.inr ⟨address, k, role⟩)
      | other => exact absurd rfl passing

/-- The pages of one space are different. -/
theorem spacePages_nodup (accounts : Accounts base o owner s.processes s.toMemDemo) (inside : i < 8)
    (used : (s.processes.get i).used = true) : (s.spacePages i).Nodup := by
  obtain ⟨live, at_, -⟩ := accounts.home inside used
  have table : ∀ {j}, j < 768 →
      (s.entry (s.processes.get i).pageDirectoryPhys j &&& pagePresent != 0) = true →
      owner (pageOf (pageTableFromDirectory (s.entry (s.processes.get i).pageDirectoryPhys j))) =
        some (.table (pageOf (s.processes.get i).pageDirectoryPhys) j) := by
    intro j half present
    rw [entry_directory at_] at present ⊢
    rw [and_pagePresent_ne_zero] at present
    refine (accounts.spaces.tables _ _ _).mpr ⟨live, half, present, ?_⟩
    rw [pageOf_pageTableFromDirectory]
  unfold KernelState.spacePages
  refine List.nodup_cons.mpr ⟨fun member => ?_, List.Nodup.map_on (fun j one l two same => ?_)
    (List.nodup_range.filter _)⟩
  · -- A directory is no table.
    obtain ⟨j, here, same⟩ := List.mem_map.mp member
    rw [List.mem_filter, List.mem_range] at here
    have role := table here.1 here.2
    rw [same, live] at role
    cases role
  · -- One table has one place.
    rw [List.mem_filter, List.mem_range] at one two
    have role := table one.1 one.2
    rw [same, table two.1 two.2] at role
    cases role
    rfl

/-- No page is charged twice. -/
theorem charges_nodup (accounts : Accounts base o owner s.processes s.toMemDemo) : s.charges.Nodup := by
  unfold KernelState.charges
  rw [List.nodup_append', List.nodup_append', List.nodup_flatMap]
  refine ⟨⟨fun i member => ?_, ?_⟩, ⟨?_, ?_, fun a one two => ?_⟩, fun a one two => ?_⟩
  · rw [List.mem_filter, List.mem_range] at member
    exact spacePages_nodup accounts member.1 member.2
  · -- Two spaces have no page in common.
    refine (List.nodup_range.filter _).imp_of_mem fun {i j} one two apart a first second => apart ?_
    rw [List.mem_filter, List.mem_range] at one two
    obtain ⟨live, -⟩ := accounts.home one.1 one.2
    obtain ⟨live', -⟩ := accounts.home two.1 two.2
    refine accounts.homes.distinct one.1 two.1 one.2 two.2 ?_
    rcases ((mem_spacePages accounts one.1 one.2).mp first).2 with same | ⟨l, role⟩ <;>
      rcases ((mem_spacePages accounts two.1 two.2).mp second).2 with same' | ⟨l', role'⟩
    · exact same.symm.trans same'
    · rw [same, live] at role'
      cases role'
    · rw [same', live'] at role
      cases role
    · rw [role] at role'
      exact (Owner.table.inj (Option.some.inj role')).1
  · refine List.Nodup.map_on (fun j one l two same => ?_) (List.nodup_range.filter _)
    simp only [List.mem_filter, List.mem_range, Bool.and_eq_true] at one two
    have role := (accounts.pager.lease one.1 one.2.1 one.2.2).owned
    have role' := (accounts.pager.lease two.1 two.2.1 two.2.2).owned
    rw [PagerPage.frame, same, ← PagerPage.frame, role'] at role
    cases role
    rfl
  · refine List.Nodup.map_on (fun k one l two same => ?_) (List.nodup_range.filter _)
    rw [List.mem_filter, List.mem_range] at one two
    have role := (accounts.slots.lent one.1 one.2).lease.owned
    rw [same, (accounts.slots.lent two.1 two.2).lease.owned] at role
    cases role
    rfl
  · obtain ⟨-, j, role⟩ := (mem_entryPages accounts).mp one
    obtain ⟨-, k, role'⟩ := (mem_slotPages accounts).mp two
    exact nomatch role.symm.trans role'
  · obtain ⟨i, member, space⟩ := List.mem_flatMap.mp one
    rw [List.mem_filter, List.mem_range] at member
    obtain ⟨live, -⟩ := accounts.home member.1 member.2
    -- What a process holds is neither a directory nor a table.
    have held : ∃ l, owner (pageOf a) = some (.held l) := by
      rcases List.mem_append.mp two with entry | slot
      · obtain ⟨-, j, role⟩ := (mem_entryPages accounts).mp entry
        exact ⟨_, role⟩
      · obtain ⟨-, k, role⟩ := (mem_slotPages accounts).mp slot
        exact ⟨_, role⟩
    obtain ⟨l, held⟩ := held
    rcases ((mem_spacePages accounts member.1 member.2).mp space).2 with same | ⟨j, role⟩
    · rw [same, live] at held
      cases held
    · rw [role] at held
      cases held

end Charges

section Stock

variable {f : Nat} {t : KernelState}

/-- A page is charged where its role is one that does not last. -/
theorem page_mem_charges (accounts : Accounts base o owner s.processes s.toMemDemo) (small : f < 2 ^ 20) :
    UInt32.ofNat (f * 4096) ∈ s.charges ↔
      ∃ r, owner f = some r ∧ ¬ Lasting (· = .other) s.kernelDirectory f r := by
  -- The address of page `f` has the page number `f`.
  rw [mem_charges accounts, pageOf_ofNat_page small, toNat_ofNat_page small]
  exact ⟨fun charged => charged.2, fun charged => ⟨rfl, charged⟩⟩

/-- Every page that is charged is one that the allocator gives out. -/
theorem charges_inPool (accounts : Accounts base o owner s.processes s.toMemDemo) (charged : a ∈ s.charges) :
    s.InPool (pageOf a) ∧ a = UInt32.ofNat (pageOf a * 4096) := by
  -- Only roles that do not last are charged, and their pages are from the pool.
  obtain ⟨address, r, role, passing⟩ := (mem_charges accounts).mp charged
  have pool : s.InPool (pageOf a) := accounts.spaces.pool role (fun kernel => passing (kernel ▸ trivial))
  refine ⟨pool, ?_⟩
  apply UInt32.toNat_inj.mp
  rw [address, toNat_ofNat_page (accounts.spaces.small pool)]

/-- A page is taken where it was taken at the start, or where a process has it, and never for both. -/
theorem taken_iff_charged (boots : s.Boots base)
    (accounts : Accounts base s.toVmm owner t.processes t.toMemDemo) (inside : f < s.totalPages.toNat) :
    (t.bitmapTest f = true ↔ s.bitmapTest f = true ∨ UInt32.ofNat (f * 4096) ∈ t.charges) ∧
      ¬ (s.bitmapTest f = true ∧ UInt32.ofNat (f * 4096) ∈ t.charges) := by
  have now : t.bitmapTest f = (owner f).isSome := by
    refine accounts.spaces.used f ?_
    rw [accounts.estate.layout.totalPages]
    exact inside
  have small : f < 2 ^ 20 := inside.trans boots.spaces.pmm.pages
  have directory : t.kernelDirectory = s.kernelDirectory := accounts.estate.kernelDirectory
  rw [page_mem_charges accounts small, now, boots.spaces.used f inside, directory]
  -- What was taken at the start is taken now, in the same role, and that role lasts.
  have before : (base f).isSome = true → ∃ r, owner f = some r ∧
      Lasting (· = .other) s.kernelDirectory f r := by
    intro taken
    obtain ⟨r, role⟩ := Option.isSome_iff_exists.mp taken
    exact ⟨r, (accounts.estate.stock f r (boots.lasting role)).mpr role, boots.lasting role⟩
  refine ⟨⟨fun taken => ?_, fun either => ?_⟩, fun both => ?_⟩
  · obtain ⟨r, role⟩ := Option.isSome_iff_exists.mp taken
    by_cases lasting : Lasting (· = .other) s.kernelDirectory f r
    · rw [(accounts.estate.stock f r lasting).mp role]
      exact Or.inl rfl
    · exact Or.inr ⟨r, role, lasting⟩
  · rcases either with taken | ⟨r, role, -⟩
    · obtain ⟨r, role, -⟩ := before taken
      exact Option.isSome_iff_exists.mpr ⟨r, role⟩
    · exact Option.isSome_iff_exists.mpr ⟨r, role⟩
  · obtain ⟨taken, r, role, passing⟩ := both
    obtain ⟨r', role', lasting⟩ := before taken
    obtain rfl : r = r' := Option.some.inj (role.symm.trans role')
    exact passing lasting

/-- Where there is no process, nothing is charged. -/
theorem charges_eq_nil (accounts : Accounts base o owner s.processes s.toMemDemo)
    (none_ : ∀ i, i < 8 → (s.processes.get i).used = false) : s.charges = [] := by
  -- Each of the three parts lists pages of some process.
  have absent : ∀ {i}, i < 8 → (s.processes.get i).used = true → False := by
    intro i inside used
    exact nomatch (none_ i inside).symm.trans used
  unfold KernelState.charges
  have spaces : (List.range processMax).filter (fun i => (s.processes.get i).used) = [] := by
    refine List.filter_eq_nil_iff.mpr fun i member used => ?_
    exact absent (List.mem_range.mp member) used
  have entries : s.entryPages = [] := by
    refine List.map_eq_nil_iff.mpr (List.filter_eq_nil_iff.mpr fun j member used => ?_)
    obtain ⟨i, inside, alive, -⟩ :=
      accounts.homes.entries (List.mem_range.mp member) (Bool.and_eq_true_iff.mp used).1
    exact absent inside alive
  have slots : s.slotPages = [] := by
    refine List.map_eq_nil_iff.mpr (List.filter_eq_nil_iff.mpr fun k member allocated => ?_)
    obtain ⟨i, inside, alive, -⟩ := accounts.homes.slots (List.mem_range.mp member) allocated
    exact absent inside alive
  rw [spaces, entries, slots]
  rfl

end Stock

section Runs

variable {events : List Event}

/-- The accounts are in order after every run in which no page fault is left unresolved. -/
theorem machineRun_accounted (boots : s.Boots base) (builtin : UInt32 → Option (List UInt8))
    (goes : (machineRun builtin (machineStart s) events).mode ≠ .halted) :
    ∃ owner, Accounts base s.toVmm owner (machineRun builtin (machineStart s) events).kernel.processes
      (machineRun builtin (machineStart s) events).kernel.toMemDemo :=
  -- The accounts hold at the start, and every event keeps them.
  ((Machine.Accounted.of_kernel boots.accounted).run builtin events).kernel goes

/--
After every run the pages that were taken since the start are exactly those that processes have.

A page fault that is not resolved halts the machine, so these are the runs in which each one is.
-/
theorem machineRun_charges (boots : s.Boots base) (builtin : UInt32 → Option (List UInt8))
    (goes : (machineRun builtin (machineStart s) events).mode ≠ .halted) :
    let t := (machineRun builtin (machineStart s) events).kernel
    t.totalPages = s.totalPages ∧ t.charges.Nodup ∧
      (∀ a ∈ t.charges, ∃ f, f < s.totalPages.toNat ∧ a = UInt32.ofNat (f * 4096)) ∧
      (∀ f, f < s.totalPages.toNat →
        (t.bitmapTest f = true ↔ s.bitmapTest f = true ∨ UInt32.ofNat (f * 4096) ∈ t.charges) ∧
          ¬ (s.bitmapTest f = true ∧ UInt32.ofNat (f * 4096) ∈ t.charges)) ∧
      (∀ j, j < 128 → (t.pages.get j).used = true → ∃ i, i < 8 ∧ (t.processes.get i).used = true ∧
        (t.processes.get i).pageDirectoryPhys = (t.pages.get j).pageDirectoryPhys) ∧
      (∀ k, k < 8 → (t.slots.get k).allocated = true → ∃ i, i < 8 ∧ (t.processes.get i).used = true ∧
        (t.processes.get i).pageDirectoryPhys = (t.slots.get k).pageDirectoryPhys) ∧
      ((∀ i, i < 8 → (t.processes.get i).used = false) →
        ∀ f, f < s.totalPages.toNat → t.bitmapTest f = s.bitmapTest f) := by
  -- The owners say which pages are taken, and those with a passing role are the charges.
  obtain ⟨owner, accounts⟩ := machineRun_accounted boots builtin goes
  generalize (machineRun builtin (machineStart s) events).kernel = t at accounts
  intro u
  have total : t.totalPages = s.totalPages := accounts.estate.layout.totalPages
  refine ⟨total, charges_nodup accounts, fun a charged => ?_,
    fun f inside => taken_iff_charged boots accounts inside, fun j inside used => ?_,
    fun k inside allocated => accounts.homes.slots inside allocated, fun none_ f inside => ?_⟩
  · obtain ⟨pool, address⟩ := charges_inPool accounts charged
    exact ⟨pageOf a, total ▸ pool.below, address⟩
  · obtain ⟨i, below, alive, directory, -⟩ := accounts.homes.entries inside used
    exact ⟨i, below, alive, directory⟩
  · have same := (taken_iff_charged boots accounts inside).1
    rw [charges_eq_nil accounts none_] at same
    rw [Bool.eq_iff_iff]
    simpa using same

end Runs

section Example

/-- Where the only space is the kernel's own, and it maps nothing, processes can be made. -/
theorem emptyKernel_boots {vmm : Vmm} (spaces : Spaces (@emptyOwners Holder) vmm)
    (zeros : ∀ k, 8192 ≤ k → vmm.memory k = 0) (directory : vmm.kernelDirectory = 2) :
    KernelState.Boots (@emptyOwners Holder) { smallKernel with toPager := pagerOn vmm } := by
  -- No directory but the kernel's own is there, and it maps no page.
  have same : (pagerOn vmm).toVmm = vmm := pagerInit_vmm (loadedPager vmm)
  have empty : ∀ v, vmm.cell 2 v = 0 := fun v => cell_eq_zero (by rw [pde_empty zeros]; rfl)
  refine ⟨⟨_, loadedPager_idle _, rfl⟩, ?_, fun live => ?_, fun half => ?_, fun v low high => ?_,
    fun {f l} held => ?_, fun {k} inside => ?_⟩
  · exact same ▸ spaces
  · change _ = (pagerOn vmm).kernelDirectory
    rw [same, directory]
    exact emptyOwners_directory live
  · change flagOf ((pagerOn vmm).cell (pagerOn vmm).kernelDirectory _) 0 = false
    rw [same, directory, empty]
    rfl
  · change flagOf ((pagerOn vmm).cell (pagerOn vmm).kernelDirectory v) 2 = false
    rw [same, directory, empty]
    rfl
  · unfold emptyOwners at held
    split at held
    · cases held
    · split at held <;> cases held
  · exact congrArg MemDemoSlot.allocated (FixedArray.get_fill _ inside)

/-- The small kernel has started. -/
theorem smallKernel_boots : smallKernel.Boots (@emptyOwners Holder) :=
  emptyKernel_boots smallMachine_spaces (fun _ behind => if_neg (by omega)) (by decide)

/--
A process is made and takes pages: for its code, as it asks, and for the memory demonstration.
Then it ends.
-/
def smallLife : List Event :=
  [.spawnByte 0 5, .runPid 1, .pageFault 0x00800000 4, .call sysVmAlloc 0, .call sysMemdemoOp 1,
    .call sysExit 7]

/-- A directory, two tables, and two pages are taken of thirteen for a process that has ended. -/
example : (machineRun (fun _ => none) (machineStart smallKernel) smallLife).kernel.freePages = 8 := by
  decide +kernel

/-- Once the process is collected, all of them are free. -/
theorem machineRun_charges_small : (List.range 16).all (fun f =>
    (machineRun (fun _ => none) (machineStart smallKernel)
      (smallLife ++ [.reapZombies])).kernel.bitmapTest f ==
      smallKernel.bitmapTest f) = true := by
  -- The theorem for the longer run, evaluated on the pages it speaks of.
  have goes : (machineRun (fun _ => none) (machineStart smallKernel) (smallLife ++ [.reapZombies])).mode ≠
      .halted := by
    decide +kernel
  obtain ⟨-, -, -, -, -, -, returned⟩ := machineRun_charges smallKernel_boots (fun _ => none) goes
  refine List.all_eq_true.mpr fun f member => beq_iff_eq.mpr ?_
  exact returned (by decide +kernel) f (List.mem_range.mp member)

end Example

end MyOS.Kernel
