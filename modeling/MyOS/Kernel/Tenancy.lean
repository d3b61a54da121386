import MyOS.Fs.SharedDisk
import MyOS.Kernel.AccountRuns
import MyOS.Kernel.Memories
import MyOS.Mm.SwapArea

/-! What is always true of the memory of processes, and what every call on memory leaves of it. -/

namespace MyOS.Kernel

open MyOS.Mm MyOS.Fs

/-- The rights that a page of a process is registered with: only the one of its code is not written. -/
def pageFlags (virtAddr : UInt32) : UInt32 :=
  if samePage virtAddr processUserCodeBase then vmmPageUser else vmmPageWritable ||| vmmPageUser

/-- The accounts are in order, pages have their rights, and a mounted volume is one. -/
structure Tenancy (base : Owners Holder) (o : Vmm) (owner : Owners Holder)
    (processes : FixedArray 8 Process) (m : MemDemo) : Prop where
  accounts : Accounts base o owner processes m
  ready : m.pagerReady = true
  sound : m.disk.Sound
  rights : m.Rights
  flags : ∀ {dir virtAddr shown}, m.seen dir virtAddr = some shown → shown.1 = pageFlags virtAddr
  volume : m.files.fsMounted = true → Healthy (m.files.on m.disk)

/-- Every space of a kind holds the bytes it held, in pages it was lent or in others. -/
structure Keeps (kind : UInt32 → Prop) (m m' : MemDemo) : Prop where
  bytes : ∀ dir virtAddr, kind dir → m'.byteIn dir virtAddr = m.byteIn dir virtAddr
  lent : ∀ dir virtAddr, kind dir → m'.lent dir virtAddr = m.lent dir virtAddr

/-- Pages of slots are taken back, and nothing else happens to memory. -/
structure Shrinks (m m' : MemDemo) : Prop where
  lent : ∀ dir virtAddr, m'.lent dir virtAddr = true → m.lent dir virtAddr = true
  bytes : ∀ dir virtAddr, m'.byteIn dir virtAddr =
    if m.lent dir virtAddr && !m'.lent dir virtAddr then none else m.byteIn dir virtAddr

/-- A step in which nothing that concerns memory changes but the record. -/
structure Recording (m m' : MemDemo) : Prop where
  pager : m'.toPager = m.toPager
  files : m'.files = m.files
  slots : m'.slots = m.slots

/-- Pages of slots are given or taken back, and nothing else happens to memory. -/
def Relent (m m' : MemDemo) : Prop :=
  ∀ dir virtAddr, m'.byteIn dir virtAddr =
    regranted (m.lent dir virtAddr) (m'.lent dir virtAddr) (m.byteIn dir virtAddr)

variable {base owner owner' : Owners Holder} {o : Vmm} {processes processes' : FixedArray 8 Process}
  {m m' m'' : MemDemo} {pager : Pager} {a : FlatMemory} {i k : Nat} {dir virtAddr : UInt32}
  {kind : UInt32 → Prop}

section Bytes

namespace Keeps

/-- A state keeps what it holds. -/
theorem refl (kind : UInt32 → Prop) (m : MemDemo) : Keeps kind m m :=
  ⟨fun _ _ _ => rfl, fun _ _ _ => rfl⟩

/-- Keeping twice is keeping. -/
theorem trans (first : Keeps kind m m') (second : Keeps kind m' m'') : Keeps kind m m'' :=
  ⟨fun dir virtAddr fits => (second.bytes dir virtAddr fits).trans (first.bytes dir virtAddr fits),
    fun dir virtAddr fits => (second.lent dir virtAddr fits).trans (first.lent dir virtAddr fits)⟩

/-- What is kept of more spaces is kept of fewer. -/
theorem mono {kind' : UInt32 → Prop} (keeps : Keeps kind m m') (fewer : ∀ dir, kind' dir → kind dir) :
    Keeps kind' m m' :=
  -- Every space of the smaller kind is one of the greater.
  ⟨fun dir virtAddr fits => keeps.bytes dir virtAddr (fewer dir fits),
    fun dir virtAddr fits => keeps.lent dir virtAddr (fewer dir fits)⟩

end Keeps

namespace Shrinks

/-- A state loses nothing to itself. -/
theorem refl (m : MemDemo) : Shrinks m m :=
  ⟨fun _ _ => id, fun dir virtAddr => by cases m.lent dir virtAddr <;> rfl⟩

/-- Losing pages twice is losing pages. -/
theorem trans (first : Shrinks m m') (second : Shrinks m' m'') : Shrinks m m'' := by
  refine ⟨fun dir virtAddr here => first.lent dir virtAddr (second.lent dir virtAddr here),
    fun dir virtAddr => ?_⟩
  -- A page that is taken back is taken back once.
  have fewer := first.lent dir virtAddr
  have fewer' := second.lent dir virtAddr
  rw [second.bytes, first.bytes]
  generalize m.lent dir virtAddr = one at fewer
  generalize m'.lent dir virtAddr = two at fewer fewer'
  generalize m''.lent dir virtAddr = three at fewer'
  cases one <;> cases two <;> cases three <;> simp at fewer fewer' ⊢

/-- Losing pages gives none. -/
theorem relent (shrinks : Shrinks m m') : Relent m m' := by
  -- A page is lent as before, or no longer.
  intro dir virtAddr
  have fewer := shrinks.lent dir virtAddr
  rw [shrinks.bytes]
  unfold regranted
  generalize m.lent dir virtAddr = one at fewer
  generalize m'.lent dir virtAddr = two at fewer
  cases one <;> cases two <;> simp at fewer ⊢

/-- Spaces in which no page is taken back keep what they have. -/
theorem keeps (shrinks : Shrinks m m')
    (lent : ∀ dir virtAddr, kind dir → m'.lent dir virtAddr = m.lent dir virtAddr) :
    Keeps kind m m' := by
  -- Where no page is taken back the bytes agree.
  refine ⟨fun dir virtAddr fits => ?_, lent⟩
  rw [shrinks.bytes, lent dir virtAddr fits]
  cases m.lent dir virtAddr <;> rfl

end Shrinks

/-- What keeps every byte gives and takes nothing. -/
theorem Keeps.relent (keeps : Keeps (fun _ => True) m m') : Relent m m' := by
  -- Nothing is given and nothing is taken back.
  intro dir virtAddr
  rw [keeps.bytes dir virtAddr trivial, keeps.lent dir virtAddr trivial]
  unfold regranted
  cases m.lent dir virtAddr <;> rfl

/-- Afterwards every byte may be kept. -/
theorem Relent.keeps (relent : Relent m m') (keeps : Keeps (fun _ => True) m' m'') : Relent m m'' := by
  -- The last bytes are those of the middle.
  intro dir virtAddr
  rw [keeps.bytes dir virtAddr trivial, keeps.lent dir virtAddr trivial]
  exact relent dir virtAddr

/-- The byte of a registered page is the one the pager shows. -/
theorem pagedByte_eq (m : MemDemo) (dir virtAddr : UInt32) :
    m.pagedByte dir virtAddr = (m.seen dir virtAddr).map Prod.snd := by
  -- A byte is the second part of what is shown.
  unfold MemDemo.pagedByte Pager.seen
  rw [Option.map_map]
  rfl

/-- Where the pager shows the same and the slots hold the same, so does the whole. -/
theorem byteIn_congr (seen : m'.seen dir virtAddr = m.seen dir virtAddr)
    (lent : m'.lentByte dir virtAddr = m.lentByte dir virtAddr) :
    m'.byteIn dir virtAddr = m.byteIn dir virtAddr := by
  -- A byte is the pager's or a slot's.
  unfold MemDemo.byteIn
  rw [pagedByte_eq, pagedByte_eq, seen, lent]

/-- A slot lends a page only where it has one. -/
theorem lends_true (lends : m.lends dir virtAddr k = true) :
    (m.slots.get k).allocated = true ∧ (m.slots.get k).pageDirectoryPhys = dir ∧
      virtAddr.toNat / 4096 = (slotVirt k).toNat / 4096 := by
  -- The test of a slot is a conjunction of these.
  unfold MemDemo.lends samePage at lends
  simpa [and_assoc] using lends

/-- A page is lent where some slot lends it. -/
theorem lent_iff : m.lent dir virtAddr = true ↔ ∃ k, k < 8 ∧ m.lends dir virtAddr k = true := by
  unfold MemDemo.lent
  simp [memdemoPageCount]

/-- No two slots lend a page at one place. -/
theorem lends_unique {j : Nat} (inside : k < 8) (inside' : j < 8)
    (lends : m.lends dir virtAddr k = true) (lends' : m.lends dir virtAddr j = true) : j = k := by
  -- The pages of slots have different places.
  obtain ⟨-, -, page⟩ := lends_true lends
  obtain ⟨-, -, page'⟩ := lends_true lends'
  rw [toNat_slotVirt inside] at page
  rw [toNat_slotVirt inside'] at page'
  omega

/-- The byte of a page that a slot lends is in the frame of the slot. -/
theorem lentByte_some (inside : k < 8) (lends : m.lends dir virtAddr k = true) :
    m.lentByte dir virtAddr =
      some (m.memory ((m.slots.get k).physAddr.toNat + virtAddr.toNat % 4096)) := by
  -- The search finds this slot, the only one.
  unfold MemDemo.lentByte
  cases found : (List.range memdemoPageCount).find? (m.lends dir virtAddr) with
  | none =>
    have nothing := List.find?_eq_none.mp found k (List.mem_range.mpr inside)
    exact absurd lends nothing
  | some j =>
    have inside' := List.mem_range.mp (List.mem_of_find?_eq_some found)
    rw [lends_unique inside inside' lends (List.find?_some found), Option.map_some]

/-- Without a slot that lends a page there is no byte. -/
theorem lentByte_none (nothing : m.lent dir virtAddr = false) : m.lentByte dir virtAddr = none := by
  -- The search would find one that lends it.
  unfold MemDemo.lentByte
  unfold MemDemo.lent at nothing
  rw [List.any_eq_false] at nothing
  rw [List.find?_eq_none.mpr nothing, Option.map_none]

/-- The byte of a page that nobody lends is that of the pager. -/
theorem byteIn_unlent (lent : m.lent dir virtAddr = false) :
    m.byteIn dir virtAddr = (m.seen dir virtAddr).map Prod.snd := by
  -- There is no byte of a slot, so the first one counts.
  unfold MemDemo.byteIn
  rw [pagedByte_eq, lentByte_none lent, Option.or_none]

/-- The same slots lend the same pages. -/
theorem lent_congr (slots : m'.slots = m.slots) (dir virtAddr : UInt32) :
    m'.lent dir virtAddr = m.lent dir virtAddr := by
  -- The tests look at the slots only.
  unfold MemDemo.lent MemDemo.lends
  rw [slots]

/-- Pages in slots hold what they held where their frames do. -/
theorem lentByte_congr (slots : m'.slots = m.slots)
    (bytes : ∀ k, k < 8 → (m.slots.get k).allocated = true → ∀ j, j < 4096 →
      m'.memory ((m.slots.get k).physAddr.toNat + j) = m.memory ((m.slots.get k).physAddr.toNat + j))
    (dir virtAddr : UInt32) : m'.lentByte dir virtAddr = m.lentByte dir virtAddr := by
  -- The same slot is found, and its frame has the same bytes.
  have lends : m'.lends dir virtAddr = m.lends dir virtAddr := by
    funext k
    unfold MemDemo.lends
    rw [slots]
  unfold MemDemo.lentByte
  rw [lends, slots]
  cases found : (List.range memdemoPageCount).find? (m.lends dir virtAddr) with
  | none => rfl
  | some k =>
    have inside := List.mem_range.mp (List.mem_of_find?_eq_some found)
    obtain ⟨allocated, -⟩ := lends_true (List.find?_some found)
    rw [Option.map_some, Option.map_some, bytes k inside allocated _ (Nat.mod_lt _ (by decide))]

/-- The frames of slots are among those that hold no page of the pager. -/
theorem Slots.bytes (slots : Slots owner m.slots m.toVmm) {vmm : Vmm}
    (others : LeavesOthers owner m.toVmm vmm) {k : Nat} (inside : k < 8)
    (allocated : (m.slots.get k).allocated = true) {j : Nat} (inner : j < 4096) :
    vmm.memory ((m.slots.get k).physAddr.toNat + j) =
      m.memory ((m.slots.get k).physAddr.toNat + j) := by
  -- A slot's frame is owned by the slot.
  obtain ⟨-, -, address, lease⟩ := slots.lent inside allocated
  rw [address]
  exact others _ k lease.owned j inner

/-- What is held keeps its bytes when a slot is given a page. -/
theorem allocSlot_held (spaces : Spaces owner m.toVmm)
    (live : owner (pageOf m.currentPageDirectoryPhys) = some .directory)
    (at_ : m.currentPageDirectoryPhys.toNat = pageOf m.currentPageDirectoryPhys * 4096)
    (inside : k < 8) {f : Nat} {r : Holder} (owned : owner f = some (.held r)) :
    m.memory.SamePage (allocSlot m k).2.memory f := by
  -- The frame was free, so nothing that is held was in it.
  obtain ⟨half, aligned⟩ := slotVirt_half inside
  unfold allocSlot
  split
  · exact .refl _ _
  rcases spaces.alloc_cases (.slot k) with ⟨result, -⟩ | ⟨g, t, result, taken⟩
  · rw [result]
    exact .refl _ _
  have address := toNat_ofNat_page (spaces.small taken.inPool)
  have nonzero := ne_zero_of_page address (spaces.positive taken.inPool)
  rw [result]
  simp only
  rw [if_neg (by simpa using nonzero)]
  cases mapped : vmmMapPageInDirectory m.currentPageDirectoryPhys (slotVirt k) (UInt32.ofNat (g * 4096))
    (vmmPageWritable ||| vmmPageUser) (t.clearPage (UInt32.ofNat (g * 4096))) with
  | mk done vmm =>
  cases done with
  | false => exact spaces.unplaced_held live at_ half aligned result nonzero mapped owned
  | true =>
    obtain ⟨_, _, -, placed⟩ :=
      spaces.place (.slot k) live at_ half aligned result nonzero (fun _ => 0) mapped
    exact placed.held owned

end Bytes

namespace Tenancy

/-- The flat memory that the pager stands for. -/
theorem mirrors (tenancy : Tenancy base o owner processes m) : Mm.Mirrors m.toPager m.flat :=
  Pager.mirrors_flat tenancy.sound tenancy.rights

/-- The pager is in order. -/
theorem ok (tenancy : Tenancy base o owner processes m) : Pager.Ok owner none m.toPager :=
  tenancy.accounts.ready tenancy.ready

/-- Processes may change in other ways as long as they list what they listed. -/
theorem congr (tenancy : Tenancy base o owner processes m)
    (same : ∀ i, i < 8 → (processes'.get i).used = (processes.get i).used ∧
      ((processes.get i).used = true →
        (processes'.get i).pageDirectoryPhys = (processes.get i).pageDirectoryPhys ∧
          ∀ virtAddr, (processes.get i).Lists virtAddr → (processes'.get i).Lists virtAddr)) :
    Tenancy base o owner processes' m :=
  -- Only the processes are replaced.
  ⟨tenancy.accounts.congr same, tenancy.ready, tenancy.sound, tenancy.rights, tenancy.flags,
    tenancy.volume⟩

/-- A volume stays what it is where only the places of pages are written. -/
theorem onSwapped (tenancy : Tenancy base o owner processes m) {disk : Ata}
    (swapped : SwapOnly m.disk disk) (mounted : m.files.fsMounted = true) :
    Healthy (m.files.on disk) := by
  -- The places of pages lie in front of the volume.
  refine (tenancy.volume mounted).on ⟨swapped.sound tenancy.sound, fun lba low high => ?_⟩
  apply swapped.sectors
  omega

/-- A call on the pager, after which it stands for a flat memory with the rights of pages. -/
theorem ofPager (tenancy : Tenancy base o owner processes m)
    (accounts : Accounts base o owner' processes' m') (ready : m'.pagerReady = true)
    (mirrors : Mm.Mirrors m'.toPager a)
    (flags : ∀ {dir virtAddr shown}, a.seen dir virtAddr = some shown → shown.1 = pageFlags virtAddr)
    (swapped : SwapOnly m.disk m'.disk) (files : m'.files = m.files) :
    Tenancy base o owner' processes' m' := by
  -- The rights are those of the flat memory.
  refine ⟨accounts, ready, mirrors.sound, mirrors.rights, fun {dir virtAddr shown} seen => ?_, ?_⟩
  · have same := mirrors.seen dir virtAddr
    exact flags (same.symm.trans seen)
  · rw [files]
    exact tenancy.onSwapped swapped

/-- The rights of pages, in the flat memory that the pager stands for. -/
theorem flagsFlat (tenancy : Tenancy base o owner processes m) {dir virtAddr : UInt32}
    {shown : UInt32 × UInt8} (seen : m.flat.seen dir virtAddr = some shown) :
    shown.1 = pageFlags virtAddr :=
  -- The pager shows what the flat memory has.
  tenancy.flags ((tenancy.mirrors.seen dir virtAddr).trans seen)

/-- Where the pager stands for the same flat memory, every byte stays. -/
theorem keeps (tenancy : Tenancy base o owner processes m) (mirrors : Mm.Mirrors pager m.flat)
    (others : LeavesOthers owner m.toVmm pager.toVmm) (kind : UInt32 → Prop) :
    Keeps kind m { m with toPager := pager } := by
  -- The pager shows the same, and the frames of slots were left alone.
  refine ⟨fun dir virtAddr _ => ?_, fun _ _ _ => rfl⟩
  apply byteIn_congr
  · exact (mirrors.seen dir virtAddr).trans (tenancy.mirrors.seen dir virtAddr).symm
  · exact @lentByte_congr m { m with toPager := pager } rfl
      (fun k inside allocated j inner => tenancy.accounts.slots.bytes others inside allocated inner) _ _

/-- A page fault that is resolved leaves all memory as it is. -/
theorem fault (tenancy : Tenancy base o owner processes m) {faultAddr errCode : UInt32}
    (handled : (pagerHandlePageFault m.toPager faultAddr errCode).1 = true) (kind : UInt32 → Prop) :
    (∃ owner', Tenancy base o owner' processes
        { m with toPager := (pagerHandlePageFault m.toPager faultAddr errCode).2 }) ∧
      Fewer m { m with toPager := (pagerHandlePageFault m.toPager faultAddr errCode).2 } ∧
      Keeps kind m { m with toPager := (pagerHandlePageFault m.toPager faultAddr errCode).2 } := by
  -- The page is brought in, which flat memory does not notice.
  obtain ⟨owner', accounts, fewer⟩ := tenancy.accounts.fault handled
  obtain ⟨mirrors, swapped, others⟩ := tenancy.mirrors.fault tenancy.ok handled
  exact ⟨⟨owner', tenancy.ofPager accounts (fewer.ready.trans tenancy.ready) mirrors
    (fun {_ _ _} seen => tenancy.flagsFlat seen) swapped rfl⟩, fewer, tenancy.keeps mirrors others kind⟩

/-- A call on the pager that only changes what is known about pages. -/
theorem quiet (tenancy : Tenancy base o owner processes m) (kept : Pager.Kept owner m.toPager pager)
    (mirrors : Mm.Mirrors pager m.flat) (disk : pager.disk = m.disk) (kind : UInt32 → Prop) :
    Tenancy base o owner processes { m with toPager := pager } ∧
      Fewer m { m with toPager := pager } ∧ Keeps kind m { m with toPager := pager } := by
  -- Owners, entries and the disk are as they were.
  have keeps : ∀ {m' : MemDemo}, Pager.Kept owner m.toPager m'.toPager → m'.slots = m.slots →
      Accounts base o owner processes m' ∧ Fewer m m' := tenancy.accounts.kept
  obtain ⟨accounts, fewer⟩ := @keeps { m with toPager := pager } kept rfl
  have swapped : SwapOnly m.disk pager.disk := by
    rw [disk]
    exact Ata.Within.refl _
  exact ⟨tenancy.ofPager accounts (kept.ready.trans tenancy.ready) mirrors
    (fun {_ _ _} seen => tenancy.flagsFlat seen) swapped rfl, fewer,
    tenancy.keeps mirrors (fun _ _ held => kept.vmm.held held) kind⟩

/-- Whether a page may be chosen as a victim shows nowhere. -/
theorem pin (tenancy : Tenancy base o owner processes m) (dir virtAddr : UInt32) (pinned : Bool)
    (kind : UInt32 → Prop) :
    let pager := (pagerPinPageInDirectory m.toPager dir virtAddr pinned).2
    Tenancy base o owner processes { m with toPager := pager } ∧
      Fewer m { m with toPager := pager } ∧ Keeps kind m { m with toPager := pager } := by
  -- The pin is a mark of an entry.
  intro pager
  obtain ⟨mirrors, disk⟩ := tenancy.mirrors.pin tenancy.ok dir virtAddr pinned
  exact tenancy.quiet (pagerPinPageInDirectory_kept tenancy.accounts.spaces dir virtAddr pinned) mirrors
    disk kind

/-- Neither does a look at accesses. -/
theorem sample (tenancy : Tenancy base o owner processes m) (kind : UInt32 → Prop) :
    let pager := pagerSampleUsage m.toPager
    Tenancy base o owner processes { m with toPager := pager } ∧
      Fewer m { m with toPager := pager } ∧ Keeps kind m { m with toPager := pager } := by
  -- The marks of accesses are counted, and nothing else.
  intro pager
  obtain ⟨mirrors, disk⟩ := tenancy.mirrors.sample tenancy.ok
  exact tenancy.quiet (pagerSampleUsage_sampled tenancy.ok).kept mirrors disk kind

/-- A call on the pager that changes neither its entries nor memory or the disk. -/
theorem idle (tenancy : Tenancy base o owner processes m)
    (same : pager = { m.toPager with
      currentAlgorithm := pager.currentAlgorithm
      victimTrace := pager.victimTrace }) (kind : UInt32 → Prop) :
    Tenancy base o owner processes { m with toPager := pager } ∧
      Fewer m { m with toPager := pager } ∧ Keeps kind m { m with toPager := pager } := by
  -- None of these fields is looked at.
  have mirrors := tenancy.mirrors
  refine tenancy.quiet ?_ ?_ ?_ kind
  · rw [same]
    exact ⟨.refl tenancy.accounts.spaces, fun _ _ => .refl _, rfl, rfl, rfl, rfl, id⟩
  · rw [same]
    exact ⟨mirrors.sound, mirrors.rights, mirrors.current, mirrors.count, fun _ _ =>
      mirrors.shown_other rfl fun _ _ _ _ => ⟨rfl, fun _ _ => rfl⟩⟩
  · rw [same]

/-- A page that was not registered is registered with its data, or nothing shows. -/
theorem register (tenancy : Tenancy base o owner processes m) (inside : i < 8)
    (used : (processes.get i).used = true) (half : virtAddr < vmmKernelBase)
    (missing : m.findPageByVirt (processes.get i).pageDirectoryPhys virtAddr = none)
    (data : Option (Nat → UInt8)) (dataSize : Nat) {result : Bool × Pager}
    (call : pagerRegisterPageData m.toPager (processes.get i).pageDirectoryPhys virtAddr
      (pageFlags virtAddr) data dataSize = result)
    (lists : result.1 = true → (processes.get i).Lists virtAddr) :
    Tenancy base o owner processes { m with toPager := result.2 } ∧
      result.2.currentPageDirectoryPhys = m.currentPageDirectoryPhys ∧
      (∀ {dir kind}, RegisteredIn m dir kind →
        (result.1 = true → dir = (processes.get i).pageDirectoryPhys → kind virtAddr) →
        RegisteredIn { m with toPager := result.2 } dir kind) ∧
      ∀ d v, ({ m with toPager := result.2 } : MemDemo).byteIn d v =
        if result.1 = true ∧ d = (processes.get i).pageDirectoryPhys ∧
            v.toNat / 4096 = virtAddr.toNat / 4096 then
          some (initialBytes data dataSize (v.toNat % 4096))
        else m.byteIn d v := by
  -- Without room nothing happens, with it the page has its data and every other one its bytes.
  obtain ⟨live, at_, -⟩ := tenancy.accounts.home inside used
  obtain ⟨accounts, current, registered⟩ := tenancy.accounts.register inside used half
    (pageFlags virtAddr) data dataSize call lists
  have mirrors := tenancy.mirrors.register tenancy.ok live at_ half missing (pageFlags virtAddr) data
    dataSize
  have accepted := tenancy.mirrors.register_eq tenancy.ok missing (pageFlags virtAddr) data dataSize
  have swapped : SwapOnly m.disk (pagerRegisterPageData m.toPager (processes.get i).pageDirectoryPhys
      virtAddr (pageFlags virtAddr) data dataSize).2.disk :=
    pagerRegisterPageData_swapOnly tenancy.ok tenancy.sound (pageFlags virtAddr) data dataSize
  have registers := pagerRegisterPageData_cases m.toPager (processes.get i).pageDirectoryPhys virtAddr
    (pageFlags virtAddr) data dataSize
  rw [call] at mirrors accepted swapped registers
  have vmm : result.2.toVmm = m.toVmm := by
    generalize result.1 = done at registers
    generalize result.2 = pager at registers
    cases registers <;> rfl
  have ready : result.2.pagerReady = true := by
    refine Eq.trans ?_ tenancy.ready
    generalize result.1 = done at registers
    generalize result.2 = pager at registers
    cases registers <;> rfl
  have shows : ∀ d v, (m.flat.register (processes.get i).pageDirectoryPhys virtAddr (pageFlags virtAddr)
      data dataSize).seen d v =
        if result.1 = true ∧ d = (processes.get i).pageDirectoryPhys ∧
            v.toNat / 4096 = virtAddr.toNat / 4096 then
          some (pageFlags virtAddr, initialBytes data dataSize (v.toNat % 4096))
        else m.seen d v := by
    intro d v
    rw [tenancy.mirrors.seen d v]
    unfold FlatMemory.register
    rw [← accepted]
    cases result.1 with
    | false => rw [if_neg nofun, if_neg (by simp)]
    | true =>
      rw [if_pos rfl]
      refine (FlatMemory.seen_put _ _ _ _ d v).trans ?_
      simp only [true_and, Option.map_some]
  refine ⟨tenancy.ofPager accounts ready mirrors (fun {d v shown} seen => ?_) swapped rfl,
    current, registered, fun d v => ?_⟩
  · rw [shows] at seen
    split at seen
    · next here =>
      cases seen
      unfold pageFlags samePage
      rw [here.2.2]
    · exact tenancy.flags seen
  · have seen := (mirrors.seen d v).trans (shows d v)
    have lent : ({ m with toPager := result.2 } : MemDemo).lentByte d v = m.lentByte d v := by
      refine @lentByte_congr m { m with toPager := result.2 } rfl (fun k _ _ j _ => ?_) d v
      exact congrArg (fun vmm : Vmm => vmm.memory _) vmm
    unfold MemDemo.byteIn
    rw [pagedByte_eq, pagedByte_eq, lent]
    change (Option.map Prod.snd (result.2.seen d v)).or _ = _
    rw [seen]
    split <;> rfl

/-- A page is given up, if it is registered, and the other spaces keep what they have. -/
theorem unregister (tenancy : Tenancy base o owner processes m) (some_ : dir ≠ 0) (virtAddr : UInt32) :
    (∃ owner', Tenancy base o owner' processes
        { m with toPager := pagerUnregisterPage m.toPager dir virtAddr }) ∧
      Fewer m { m with toPager := pagerUnregisterPage m.toPager dir virtAddr } ∧
      RegisteredIn { m with toPager := pagerUnregisterPage m.toPager dir virtAddr } dir
        (· ≠ alignDownPage virtAddr) ∧
      Keeps (· ≠ dir) m { m with toPager := pagerUnregisterPage m.toPager dir virtAddr } := by
  obtain ⟨owner', accounts, fewer, without⟩ := tenancy.accounts.unregister some_ virtAddr
  obtain ⟨mirrors, disk, others⟩ := tenancy.mirrors.unregister tenancy.ok some_ virtAddr
  have swapped : SwapOnly m.disk (pagerUnregisterPage m.toPager dir virtAddr).disk := by
    rw [disk]
    exact Ata.Within.refl _
  -- Nothing is put anywhere, and what is taken is taken from this space.
  have shows : ∀ d v, (m.flat.unregister dir virtAddr).seen d v = m.flat.seen d v ∨
      d = dir ∧ (m.flat.unregister dir virtAddr).seen d v = none := by
    intro d v
    unfold FlatMemory.unregister
    split
    · have put := FlatMemory.seen_put m.flat dir virtAddr none d v
      split at put
      · next here => exact Or.inr ⟨here.1, put⟩
      · exact Or.inl put
    · exact Or.inl rfl
  refine ⟨⟨owner', tenancy.ofPager accounts (fewer.ready.trans tenancy.ready) mirrors
    (fun {d v shown} seen => ?_) swapped rfl⟩, fewer, without, fun d v other => ?_, fun _ _ _ => rfl⟩
  · rcases shows d v with same | ⟨-, nothing⟩
    · exact tenancy.flagsFlat (same.symm.trans seen)
    · exact nomatch nothing.symm.trans seen
  · apply byteIn_congr
    · rcases shows d v with same | ⟨here, -⟩
      · exact (mirrors.seen d v).trans (same.trans (tenancy.mirrors.seen d v).symm)
      · exact absurd here other
    · exact @lentByte_congr m { m with toPager := pagerUnregisterPage m.toPager dir virtAddr } rfl
        (fun k inside allocated j inner => tenancy.accounts.slots.bytes others inside allocated inner) d v

section Memory

variable {vmm : Vmm}

/-- Memory may change where every page of the pager stays at its place, with its bytes. -/
theorem moved (tenancy : Tenancy base o owner processes m)
    (accounts : Accounts base o owner' processes' m')
    (same : m'.toPager = { m.toPager with toVmm := vmm }) (files : m'.files = m.files)
    (held : ∀ {f j}, owner f = some (.held (.page j)) → m.memory.SamePage vmm.memory f)
    (cells : ∀ j, j < 128 → (m.pages.get j).used = true → (m.pages.get j).present = true →
      Alike (vmm.cell (m.pages.get j).directory (m.pages.get j).page)
        (m.cell (m.pages.get j).directory (m.pages.get j).page)) :
    Tenancy base o owner' processes' m' ∧ ∀ dir virtAddr, m'.seen dir virtAddr = m.seen dir virtAddr := by
  -- First with the space that was in use, and then with the one that is.
  have still : Mm.Mirrors { m.toPager with
      toVmm := { vmm with currentPageDirectoryPhys := m.currentPageDirectoryPhys } } m.flat :=
    tenancy.mirrors.memory tenancy.ok held cells rfl
  have mirrors : Mm.Mirrors m'.toPager
      { m.flat with current := vmm.currentPageDirectoryPhys } := by
    rw [same]
    exact still.switched vmm.currentPageDirectoryPhys
  have swapped : SwapOnly m.disk m'.disk := by
    rw [same]
    exact Ata.Within.refl _
  refine ⟨tenancy.ofPager accounts ?_ mirrors (fun {_ _ _} seen => tenancy.flagsFlat seen) swapped
    files, fun dir virtAddr => ?_⟩
  · rw [same]
    exact tenancy.ready
  · exact (mirrors.seen dir virtAddr).trans (tenancy.mirrors.seen dir virtAddr).symm

/-- Where no slot changes and nothing that is held does, every byte stays. -/
theorem still (tenancy : Tenancy base o owner processes m)
    (accounts : Accounts base o owner' processes' (m.withVmm vmm))
    (held : ∀ {f r}, owner f = some (.held r) → m.memory.SamePage vmm.memory f)
    (cells : ∀ j, j < 128 → (m.pages.get j).used = true → (m.pages.get j).present = true →
      Alike (vmm.cell (m.pages.get j).directory (m.pages.get j).page)
        (m.cell (m.pages.get j).directory (m.pages.get j).page)) (kind : UInt32 → Prop) :
    Tenancy base o owner' processes' (m.withVmm vmm) ∧ Keeps kind m (m.withVmm vmm) := by
  -- The entries show the same through the same cells, and the slots are the same.
  obtain ⟨after, seen⟩ := tenancy.moved accounts rfl rfl (fun {_ _} here => held here) cells
  refine ⟨after, fun dir virtAddr _ => ?_, fun _ _ _ => rfl⟩
  apply byteIn_congr (seen dir virtAddr)
  exact @lentByte_congr m (m.withVmm vmm) rfl (fun k inside allocated j inner =>
    tenancy.accounts.slots.bytes (fun _ _ here => held here) inside allocated inner) dir virtAddr

/-- The entry in the tables of a page of the pager. -/
theorem cell (tenancy : Tenancy base o owner processes m) {j : Nat} (inside : j < 128)
    (used : (m.pages.get j).used = true) (present : (m.pages.get j).present = true) :
    owner (m.pages.get j).directory = some .directory ∧ (m.pages.get j).page < 786432 :=
  -- A present page has a lease.
  let lease := tenancy.ok.lease inside used present
  ⟨lease.live, lease.half⟩

/-- Accesses of a program that reads. -/
theorem touched (tenancy : Tenancy base o owner processes m) (touched : Touched owner m.toVmm vmm)
    (kind : UInt32 → Prop) :
    Tenancy base o owner processes (m.withVmm vmm) ∧ Keeps kind m (m.withVmm vmm) := by
  -- Accessed and dirty marks are no bytes.
  refine tenancy.still (tenancy.accounts.unmoved touched.spaces touched.unmoved) touched.held
    (fun j inside used present => ?_) kind
  obtain ⟨live, half⟩ := tenancy.cell inside used present
  exact touched.cells live (by omega)

/-- Another space is in use. -/
theorem withCurrent (tenancy : Tenancy base o owner processes m) (dir : UInt32) (kind : UInt32 → Prop) :
    let m' := m.withVmm { m.toVmm with currentPageDirectoryPhys := dir }
    Tenancy base o owner processes m' ∧ Keeps kind m m' :=
  -- No byte depends on which space is current.
  tenancy.still (tenancy.accounts.unmoved (tenancy.accounts.spaces.withCurrent dir)
    ⟨fun _ _ => .refl _, ⟨rfl, rfl, rfl, rfl, rfl⟩, rfl⟩) (fun {_ _} _ => .refl _ _)
    (fun _ _ _ _ => .refl _) kind

/-- A process begins in a space of its own, in which it has no page yet. -/
theorem made (tenancy : Tenancy base o owner processes m) (inside : i < 8)
    (free : (processes.get i).used = false) {f : Nat} (made : SpaceMade owner m.toVmm vmm f)
    {p : Process} (used : p.used = true) (directory : p.pageDirectoryPhys = UInt32.ofNat (f * 4096))
    (kind : UInt32 → Prop) :
    Tenancy base o (Function.update owner f (some .directory)) (processes.set i p) (m.withVmm vmm) ∧
      Keeps kind m (m.withVmm vmm) := by
  -- The page of the directory was free, so no byte that is held was in it.
  refine tenancy.still (tenancy.accounts.made inside free made used directory) made.held
    (fun j small used' present => ?_) kind
  obtain ⟨live, half⟩ := tenancy.cell small used' present
  rw [made.cells live (by omega)]
  exact .refl _

/-- A process that has no page left ends together with its space. -/
theorem gone (tenancy : Tenancy base o owner processes m) (inside : i < 8)
    (used : (processes.get i).used = true)
    (entries : RegisteredIn m (processes.get i).pageDirectoryPhys fun _ => False)
    (slots : NoSlotIn m (processes.get i).pageDirectoryPhys) {p : Process} (unused : p.used = false)
    (kind : UInt32 → Prop) :
    let m' := m.withVmm (vmmDestroyAddressSpace (processes.get i).pageDirectoryPhys m.toVmm)
    Tenancy base o (withoutSpace owner (pageOf (processes.get i).pageDirectoryPhys)) (processes.set i p)
        m' ∧ Keeps kind m m' := by
  obtain ⟨live, at_, other⟩ := tenancy.accounts.home inside used
  have gone := vmmDestroyAddressSpace_gone tenancy.accounts.spaces live at_ other
  refine tenancy.still (tenancy.accounts.gone inside used entries slots unused) gone.held
    (fun j small used' present => ?_) kind
  obtain ⟨live', half⟩ := tenancy.cell small used' present
  rw [gone.cells live' (fun same => ?_) (by omega)]
  · exact .refl _
  · -- No page is registered in the space that goes.
    refine entries j small used' (UInt32.toNat_inj.mp ?_)
    have address : (m.pages.get j).pageDirectoryPhys.toNat = (m.pages.get j).directory * 4096 :=
      (tenancy.ok.lives small used').address
    rw [address, same, at_]

end Memory

section Lending

/-- No page of the pager is where a slot lends one. -/
theorem apart (tenancy : Tenancy base o owner processes m) (lent : m.lent dir virtAddr = true) :
    m.seen dir virtAddr = none := by
  -- A registered page would lie between those of slots.
  obtain ⟨k, inside, lends⟩ := lent_iff.mp lent
  obtain ⟨-, -, page⟩ := lends_true lends
  unfold Pager.seen
  cases found : m.findPageByVirt dir virtAddr with
  | none => rfl
  | some j =>
    obtain ⟨small, used, -, virt⟩ := findPageByVirt_some found
    obtain ⟨_, -, -, -, lists⟩ := tenancy.accounts.homes.entries small used
    have other := lists.apart inside
    rw [virt, toNat_alignDownPage] at other
    omega

/-- The byte of a page that is lent is that of its slot. -/
theorem byteIn_lent (tenancy : Tenancy base o owner processes m) (lent : m.lent dir virtAddr = true) :
    m.byteIn dir virtAddr = m.lentByte dir virtAddr := by
  -- The pager shows nothing there.
  unfold MemDemo.byteIn
  rw [pagedByte_eq, tenancy.apart lent]
  rfl

/-- The page of a slot is taken back, and no other. -/
theorem freeSlot (tenancy : Tenancy base o owner processes m) (inside : k < 8) :
    (∃ owner', Tenancy base o owner' processes (m.freeSlot k)) ∧ Fewer m (m.freeSlot k) ∧
      Shrinks m (m.freeSlot k) ∧
      Keeps (· ≠ (m.slots.get k).pageDirectoryPhys) m (m.freeSlot k) := by
  by_cases allocated : (m.slots.get k).allocated = true
  case neg =>
    have same : m.freeSlot k = m := by
      unfold MemDemo.freeSlot
      simp only
      rw [if_pos (by simpa using allocated)]
    rw [same]
    exact ⟨⟨owner, tenancy⟩, .refl m, .refl m, .refl _ m⟩
  have accounts := tenancy.accounts
  obtain ⟨owner', after, fewer, -⟩ := accounts.freeSlot inside
  obtain ⟨pager, slots, dropped, -⟩ := accounts.slots.freed accounts.spaces inside allocated
  obtain ⟨-, -, -, lease⟩ := accounts.slots.lent inside allocated
  have files : (m.freeSlot k).files = m.files := by
    unfold MemDemo.freeSlot
    simp only
    split <;> rfl
  generalize m.freeSlot k = m' at *
  obtain ⟨now, seen⟩ := tenancy.moved after pager files (fun {_ _} here => dropped.held here)
    fun j small used present => by
      have mine := tenancy.ok.lease small used present
      have half := mine.half
      rw [dropped.cells mine.live (by omega)]
      · exact .refl _
      · rintro ⟨directory, page⟩
        rw [directory, page] at mine
        exact nomatch mine.label_eq lease
  -- The other slots lend what they lent.
  have lends : ∀ {dir virtAddr j}, j < 8 →
      (m'.lends dir virtAddr j = true ↔ m.lends dir virtAddr j = true ∧ j ≠ k) := by
    intro dir virtAddr j small
    unfold MemDemo.lends
    rw [slots, FixedArray.get_set _ _ small]
    split
    · next same => simp [same, emptySlot]
    · next other => simp [other]
  have less : ∀ dir virtAddr, m'.lent dir virtAddr = true → m.lent dir virtAddr = true := by
    intro dir virtAddr lent
    obtain ⟨j, small, here⟩ := lent_iff.mp lent
    exact lent_iff.mpr ⟨j, small, ((lends small).mp here).1⟩
  have shrinks : Shrinks m m' := by
    refine ⟨less, fun dir virtAddr => ?_⟩
    cases before : m.lent dir virtAddr with
    | false =>
      have none_ : m'.lent dir virtAddr = false := by
        rw [Bool.eq_false_iff]
        intro lent
        exact nomatch before.symm.trans (less _ _ lent)
      rw [byteIn_unlent none_, byteIn_unlent before, seen]
      rfl
    | true =>
      obtain ⟨j, small, here⟩ := lent_iff.mp before
      cases still : m'.lent dir virtAddr with
      | false =>
        rw [byteIn_unlent still, seen, tenancy.apart before]
        rfl
      | true =>
        apply byteIn_congr (seen dir virtAddr)
        obtain ⟨l, small', here'⟩ := lent_iff.mp still
        obtain ⟨here, other⟩ := (lends small').mp here'
        rw [lentByte_some small' here, lentByte_some small' here', slots, FixedArray.get_set_ne _ _ other,
          accounts.slots.bytes (fun _ _ held => dropped.held held) small' (lends_true here).1
            (Nat.mod_lt _ (by decide))]
  refine ⟨⟨owner', now⟩, fewer, shrinks, shrinks.keeps fun dir virtAddr other => ?_⟩
  -- The slot lent nothing in another space.
  rw [Bool.eq_iff_iff, lent_iff, lent_iff]
  refine exists_congr fun j => and_congr_right fun small => (lends small).trans ?_
  refine and_iff_left_of_imp fun here same => other ?_
  rw [← same]
  exact (lends_true here).2.1.symm

/-- A slot without a page is cleared. -/
theorem clearSlot (tenancy : Tenancy base o owner processes m)
    (empty : (m.slots.get k).allocated = false) :
    Tenancy base o owner processes (m.clearSlot k) ∧ Keeps kind m (m.clearSlot k) := by
  -- The slot lent nothing before and lends nothing now.
  have lent : ∀ dir virtAddr, (m.clearSlot k).lent dir virtAddr = m.lent dir virtAddr := by
    intro dir virtAddr
    rw [Bool.eq_iff_iff, lent_iff, lent_iff]
    refine exists_congr fun j => and_congr_right fun small => ?_
    unfold MemDemo.lends MemDemo.clearSlot
    simp only
    rw [FixedArray.get_set _ _ small]
    split
    · next same => simp [same, empty, emptySlot]
    · exact Iff.rfl
  refine ⟨⟨tenancy.accounts.clearSlot empty, tenancy.ready, tenancy.sound, tenancy.rights,
    tenancy.flags, tenancy.volume⟩, fun dir virtAddr _ => ?_, fun dir virtAddr _ => lent dir virtAddr⟩
  apply @byteIn_congr m (m.clearSlot k) dir virtAddr rfl
  cases before : m.lent dir virtAddr with
  | false => rw [lentByte_none before, lentByte_none ((lent dir virtAddr).trans before)]
  | true =>
    obtain ⟨j, small, here⟩ := lent_iff.mp before
    have other : j ≠ k := by
      rintro rfl
      exact nomatch empty.symm.trans (lends_true here).1
    have same : (m.clearSlot k).slots.get j = m.slots.get j := FixedArray.get_set_ne _ _ other
    have here' : (m.clearSlot k).lends dir virtAddr j = true := by
      unfold MemDemo.lends at here ⊢
      rw [same]
      exact here
    rw [lentByte_some small here, lentByte_some small here', same]
    rfl


/-- A slot gets a page in the space of the process that runs, or nothing happens to memory. -/
theorem allocSlot (tenancy : Tenancy base o owner processes m) (inside : k < 8) (runs : i < 8)
    (used : (processes.get i).used = true)
    (here : (processes.get i).pageDirectoryPhys = m.currentPageDirectoryPhys) :
    (∃ owner', Tenancy base o owner' processes (allocSlot m k).2) ∧
      (allocSlot m k).2.currentPageDirectoryPhys = m.currentPageDirectoryPhys ∧
      Relent m (allocSlot m k).2 := by
  have accounts := tenancy.accounts
  obtain ⟨owner', after, current⟩ := accounts.allocSlot inside runs used here
  obtain ⟨live, at_, -⟩ := accounts.home runs used
  rw [here] at live at_
  have held : ∀ {f r}, owner f = some (.held r) → m.memory.SamePage (MyOS.Kernel.allocSlot m k).2.memory f :=
    fun owned => allocSlot_held accounts.spaces live at_ inside owned
  rcases allocSlot_cases accounts.spaces live at_ inside with
    ⟨-, result⟩ | ⟨vmm, result, reverted⟩ | ⟨empty, _, vmm, g, physAddr, address, result, placed⟩
  · rw [result]
    exact ⟨⟨owner, tenancy⟩, rfl, (Keeps.refl _ m).relent⟩
  · rw [result] at after current held ⊢
    obtain ⟨now, keeps⟩ := tenancy.still after held (fun j small used' present => by
      obtain ⟨live', half⟩ := tenancy.cell small used' present
      exact reverted.unmoved.cells live' (by omega)) fun _ => True
    exact ⟨⟨owner', now⟩, current, keeps.relent⟩
  rw [result] at after current held ⊢
  generalize after_ : ({ m.withVmm vmm with
    slots := m.slots.set k ⟨true, m.currentPageDirectoryPhys, slotVirt k, physAddr⟩
    activePages := m.activePages + 1 } : MemDemo) = m' at *
  have slots : m'.slots = m.slots.set k ⟨true, m.currentPageDirectoryPhys, slotVirt k, physAddr⟩ := by
    rw [← after_]
  have memory : m'.memory = vmm.memory := by
    rw [← after_]
    rfl
  have pager : m'.toPager = { m.toPager with toVmm := vmm } := by
    rw [← after_]
    rfl
  have files : m'.files = m.files := by
    rw [← after_]
    rfl
  obtain ⟨now, seen⟩ := tenancy.moved after pager files (fun {_ _} owned => memory ▸ held owned)
    fun j small used' present => by
      have mine := tenancy.ok.lease small used' present
      have below := mine.half
      rw [placed.cells mine.live (by omega), if_neg]
      · exact .refl _
      · -- No page of a process is where the page of a slot is.
        obtain ⟨l, -, -, -, lists⟩ := accounts.homes.entries small used'
        exact fun same => lists.apart inside same.2
  refine ⟨⟨owner', now⟩, current, fun dir virtAddr => ?_⟩
  have others : ∀ {j}, j < 8 → j ≠ k → m'.slots.get j = m.slots.get j := by
    intro j small other
    rw [slots, FixedArray.get_set_ne _ _ other]
  -- What a slot lent before is in another slot than this one, and stays.
  have still : ∀ {j}, j < 8 → m.lends dir virtAddr j = true →
      m'.lends dir virtAddr j = true ∧ m'.slots.get j = m.slots.get j := by
    intro j small lends
    have other : j ≠ k := by
      rintro rfl
      exact nomatch empty.symm.trans (lends_true lends).1
    refine ⟨?_, others small other⟩
    unfold MemDemo.lends at lends ⊢
    rw [others small other]
    exact lends
  cases before : m.lent dir virtAddr with
  | true =>
    obtain ⟨j, small, lends⟩ := lent_iff.mp before
    obtain ⟨lends', same⟩ := still small lends
    rw [lent_iff.mpr ⟨j, small, lends'⟩]
    refine Eq.trans (byteIn_congr (seen dir virtAddr) ?_) (show m.byteIn dir virtAddr = _ from rfl)
    rw [lentByte_some small lends, lentByte_some small lends', same]
    have leaves : LeavesOthers owner m.toVmm m'.toVmm := fun _ _ owned => held owned
    rw [accounts.slots.bytes leaves small (lends_true lends).1 (Nat.mod_lt _ (by decide))]
  | false =>
    cases later : m'.lent dir virtAddr with
    | false =>
      rw [byteIn_unlent later, seen, ← byteIn_unlent before]
      rfl
    | true =>
      obtain ⟨j, small, lends⟩ := lent_iff.mp later
      obtain rfl : j = k := by
        by_contra other
        unfold MemDemo.lends at lends
        rw [others small other] at lends
        exact nomatch before.symm.trans (lent_iff.mpr ⟨j, small, lends⟩)
      have slot : m'.slots.get j = ⟨true, m.currentPageDirectoryPhys, slotVirt j, physAddr⟩ := by
        rw [slots, FixedArray.get_set_same _ _ small]
      rw [now.byteIn_lent later, lentByte_some small lends, slot, memory, address,
        placed.contents _ (Nat.mod_lt _ (by decide))]
      rfl

end Lending

section Files

/-- What has nothing to do with memory or the disk changes. -/
theorem rest (tenancy : Tenancy base o owner processes m) (books : Recording m m') :
    Tenancy base o owner processes m' ∧ Keeps kind m m' := by
  -- Only counters and the record differ.
  obtain ⟨pager, files, slots⟩ := books
  have same : m'.toPager = { m.toPager with disk := m'.disk } := by
    rw [pager]
  obtain ⟨accounts, -⟩ := tenancy.accounts.rest same slots
  obtain ⟨_, ready, sound, rights, flags, volume⟩ := tenancy
  refine ⟨⟨accounts, ?_, ?_, ?_, fun {dir virtAddr shown} seen => ?_, ?_⟩, fun dir virtAddr _ => ?_,
    fun dir virtAddr _ => lent_congr slots dir virtAddr⟩
  · rw [pager]
    exact ready
  · rw [pager]
    exact sound
  · rw [pager]
    exact rights
  · rw [pager] at seen
    exact flags seen
  · rw [pager, files]
    exact volume
  · apply byteIn_congr
    · rw [pager]
    · refine lentByte_congr slots (fun _ _ _ _ _ => ?_) dir virtAddr
      rw [pager]

/-- A call on files leaves memory alone, and the places of pages. -/
theorem served (tenancy : Tenancy base o owner processes m) {files : SimpleFs}
    (served : Served (m.files.on m.disk) files) :
    Tenancy base o owner processes { m with files := files, disk := files.ata } ∧
      Keeps kind m { m with files := files, disk := files.ata } := by
  -- The volume is written, where no page is.
  obtain ⟨accounts, -⟩ := @Accounts.rest base owner o processes m
    { m with files := files, disk := files.ata } tenancy.accounts rfl rfl
  have sound : files.ata.Sound := served.disk.sound tenancy.sound
  have mirrors := tenancy.mirrors.disk sound fun lba low high =>
    served.disk.sectors lba (Or.inl (by omega))
  refine ⟨⟨accounts, tenancy.ready, mirrors.sound, mirrors.rights, fun {dir virtAddr shown} seen => ?_,
    served.volume⟩, fun dir virtAddr _ => ?_, fun _ _ _ => rfl⟩
  · have same := mirrors.seen dir virtAddr
    exact tenancy.flagsFlat (same.symm.trans seen)
  · apply @byteIn_congr m { m with files := files, disk := files.ata }
    · exact (mirrors.seen dir virtAddr).trans (tenancy.mirrors.seen dir virtAddr).symm
    · rfl

/-- The record is written to its file, or added to it, if there is a volume. -/
theorem logBytes (tenancy : Tenancy base o owner processes m) (bytes : List UInt8) :
    (Tenancy base o owner processes (MyOS.Kernel.logBytes m simplefsWriteFile bytes) ∧
      Keeps kind m (MyOS.Kernel.logBytes m simplefsWriteFile bytes)) ∧
    (Tenancy base o owner processes (MyOS.Kernel.logBytes m simplefsAppendFile bytes) ∧
      Keeps kind m (MyOS.Kernel.logBytes m simplefsAppendFile bytes)) := by
  -- Without a volume nothing is written, with one the call is served on it.
  unfold MyOS.Kernel.logBytes withFiles
  split
  · next mounted =>
    have healthy := tenancy.volume mounted
    exact ⟨tenancy.served (.call healthy (.writeFile memdemoLogName bytes)),
      tenancy.served (.call healthy (.appendFile memdemoLogName bytes))⟩
  · exact ⟨⟨tenancy, .refl kind m⟩, tenancy, .refl kind m⟩

end Files

end Tenancy

end MyOS.Kernel
