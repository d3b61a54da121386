import MyOS.Lib.Run
import MyOS.Mm.Pmm

/-! How the manager of physical memory starts, and what it hands out ever after. -/

namespace MyOS.Mm

/-- The total taken for granted when the boot loader says nothing. -/
def defaultTotalMemoryBytes : UInt32 := 128 * 1024 * 1024

/-- Memory below this address is never handed out. -/
def lowMemoryReservedBytes : UInt32 := 0x00100000

/-- Where physical memory is mapped while the manager starts. -/
def kernelVirtBase : UInt32 := 0xC0000000

/-- What the boot loader leaves in a register. -/
def multibootBootloaderMagic : UInt32 := 0x2BADB002

/-- Set in the flags of the boot information if `mem_upper` is there. -/
def multibootInfoMemory : UInt32 := 0x00000001

/-- Set in the flags of the boot information if the memory map is there. -/
def multibootInfoMmap : UInt32 := 0x00000040

/-- The type of a range that may be used. -/
def multibootMemoryAvailable : UInt32 := 1

/-- `align_down`: the multiple of an alignment up to a value. -/
def alignDown (value alignment : UInt32) : UInt32 := value &&& ~~~(alignment - 1)

/-- The physical address behind one of the kernel's half. -/
def bootstrapPhys (virtAddr : UInt32) : Nat := (virtAddr - kernelVirtBase).toNat

/-- The field of a packed structure in memory, by the structure's address and the field's offset. -/
def fieldAt (memory : Memory) (virtAddr : UInt32) (offset : Nat) : UInt32 :=
  wordAt memory (bootstrapPhys virtAddr + offset)

/-- The fields of `MultibootInfo` that are read, each at its offset. -/
def infoFlags (memory : Memory) (info : UInt32) : UInt32 := fieldAt memory info 0

/-- How many kibibytes there are above the first mebibyte. -/
def infoMemUpper (memory : Memory) (info : UInt32) : UInt32 := fieldAt memory info 8

/-- How many bytes the memory map takes. -/
def infoMmapLength (memory : Memory) (info : UInt32) : UInt32 := fieldAt memory info 44

/-- Where the memory map begins. -/
def infoMmapAddr (memory : Memory) (info : UInt32) : UInt32 := fieldAt memory info 48

/-- An entry of the memory map. -/
structure MultibootMmapEntry where
  size : UInt32
  addrLow : UInt32
  addrHigh : UInt32
  lenLow : UInt32
  lenHigh : UInt32
  type : UInt32

/-- The entry of the memory map at an address. -/
def mmapEntryAt (memory : Memory) (current : UInt32) : MultibootMmapEntry where
  size := fieldAt memory current 0
  addrLow := fieldAt memory current 4
  addrHigh := fieldAt memory current 8
  lenLow := fieldAt memory current 12
  lenHigh := fieldAt memory current 16
  type := fieldAt memory current 20

namespace Pmm

/-- The loop of `reserve_range` over whole pages. -/
def reservePages (first past : Nat) (s : Pmm) : Pmm :=
  (List.range' first (past - first)).foldl (fun s page => s.reservePage page) s

/-- The loop of `free_range` over whole pages. -/
def freePagesFrom (first past : Nat) (s : Pmm) : Pmm :=
  (List.range' first (past - first)).foldl (fun s page => s.freePage page) s

/-- `reserve_range`: take every page that touches a range of addresses. -/
def reserveRange (start end_ : UInt32) (s : Pmm) : Pmm :=
  if start ≥ end_ then s
  else
    let pageStart := alignDown start pageSize / pageSize
    let pageEnd := alignUp end_ pageSize / pageSize
    let pageEnd := if pageEnd > s.totalPages then s.totalPages else pageEnd
    s.reservePages pageStart.toNat pageEnd.toNat

/-- `free_range`: give back every page that lies in a range of addresses. -/
def freeRange (start end_ : UInt32) (s : Pmm) : Pmm :=
  if start ≥ end_ then s
  else
    let start := if start < lowMemoryReservedBytes then lowMemoryReservedBytes else start
    let end_ := if end_ > s.totalMemoryBytes then s.totalMemoryBytes else end_
    if start ≥ end_ then s
    else
      let pageStart := alignUp start pageSize / pageSize
      let pageEnd := alignDown end_ pageSize / pageSize
      let pageEnd := if pageEnd > s.totalPages then s.totalPages else pageEnd
      s.freePagesFrom pageStart.toNat pageEnd.toNat

end Pmm

/-- `detect_total_memory_bytes`: how much memory the boot loader speaks of. -/
def detectTotalMemoryBytes (multibootMagic info : UInt32) (memory : Memory) : UInt32 :=
  if multibootMagic == multibootBootloaderMagic && info != 0 &&
      (infoFlags memory info &&& multibootInfoMemory != 0) && infoMemUpper memory info != 0 then
    lowMemoryReservedBytes + infoMemUpper memory info * 1024
  else defaultTotalMemoryBytes

/-- The body of the loop of `free_memory_from_map`, up to the step to the next entry. -/
def freeMmapEntry (current : UInt32) (s : Pmm) : Pmm :=
  let entry := mmapEntryAt s.memory current
  if entry.type == multibootMemoryAvailable && entry.addrHigh == 0 && entry.lenHigh == 0 &&
      entry.lenLow != 0 then
    let end_ := entry.addrLow + entry.lenLow
    -- A range that runs over the top of the address space is left out.
    if end_ > entry.addrLow then s.freeRange entry.addrLow end_ else s
  else s

/--
The loop of `free_memory_from_map`, for as many rounds as there is fuel.

Entries say themselves how far the next one is, so that the loop need not end.
-/
def freeMmapEntries : Nat → UInt32 → UInt32 → Pmm → Option Pmm
  | 0, _, _, _ => none
  | fuel + 1, current, mmapEnd, s =>
    if current < mmapEnd then
      let s := freeMmapEntry current s
      freeMmapEntries fuel (current + ((mmapEntryAt s.memory current).size + 4)) mmapEnd s
    else some s

/-- `free_memory_from_map`: give back what the memory map says is available. -/
def freeMemoryFromMap (fuel : Nat) (info : UInt32) (s : Pmm) : Option Pmm :=
  let mmapAddr := infoMmapAddr s.memory info
  freeMmapEntries fuel (kernelVirtBase + mmapAddr)
    (kernelVirtBase + (mmapAddr + infoMmapLength s.memory info)) s

/-- The first steps of `pmm_init`: settle the layout, and take every page. -/
def pmmLayOut (kernelPhysEnd multibootMagic info : UInt32) (s : Pmm) : Pmm :=
  let totalMemoryBytes := detectTotalMemoryBytes multibootMagic info s.memory
  let totalPages := totalMemoryBytes / pageSize
  let bitmapBytes := (totalPages + 7) / 8
  let bitmapBase := alignUp kernelPhysEnd pageSize
  { s with
    memory := s.memory.fill bitmapBase.toNat 0xFF bitmapBytes.toNat
    totalMemoryBytes, totalPages, bitmapBytes, bitmapBase
    freePages := 0 }

/-- The middle step of `pmm_init`: give back what the boot loader says is available. -/
def pmmFreeAvailable (fuel : Nat) (multibootMagic info : UInt32) (s : Pmm) : Option Pmm :=
  if multibootMagic == multibootBootloaderMagic && info != 0 &&
      (infoFlags s.memory info &&& multibootInfoMmap != 0) && infoMmapLength s.memory info != 0 then
    freeMemoryFromMap fuel info s
  else some (s.freeRange lowMemoryReservedBytes s.totalMemoryBytes)

/-- The last steps of `pmm_init`: take the range up to the end of the bitmap again. -/
def pmmReserveBitmap (s : Pmm) : Pmm :=
  { s.reserveRange 0 (alignUp (s.bitmapBase + s.bitmapBytes) pageSize) with ready := true }

/--
`pmm_init`: start the manager from what the boot loader says about memory.

The end of the kernel's image comes from the linker. There is no result if the loop over the
memory map does not end within the fuel.
-/
def pmmInit (fuel : Nat) (kernelPhysEnd multibootMagic info : UInt32) (s : Pmm) : Option Pmm :=
  (pmmFreeAvailable fuel multibootMagic info
    (pmmLayOut kernelPhysEnd multibootMagic info s)).map pmmReserveBitmap

section Laws

variable {s t : Pmm} {page : Nat}

/-- Giving pages back one after the other keeps the counter right. -/
theorem freePagesFrom_counted (first past : Nat) (counted : s.Counted) :
    (s.freePagesFrom first past).Counted ∧ s.SameLayout (s.freePagesFrom first past) := by
  -- By induction on the pages.
  unfold Pmm.freePagesFrom
  generalize past - first = count
  induction count generalizing first s with
  | zero => exact ⟨counted, .refl s⟩
  | succ count ih =>
    obtain ⟨next, layout, -⟩ := freePage_counted counted first
    obtain ⟨after, layout'⟩ := ih (first + 1) next
    exact ⟨after, layout.trans layout'⟩

/-- Taking pages one after the other takes them all, and none of the others. -/
theorem reservePages_counted (first past : Nat) (counted : s.Counted) :
    (s.reservePages first past).Counted ∧ s.SameLayout (s.reservePages first past) ∧
      ∀ other, other < s.totalPages.toNat → (s.reservePages first past).bitmapTest other =
        (s.bitmapTest other || decide (first ≤ other ∧ other < past)) := by
  -- By induction on the pages, of which each one marks itself.
  unfold Pmm.reservePages
  have length : ∀ other, first ≤ other ∧ other < past ↔ first ≤ other ∧ other < first + (past - first) := by
    omega
  simp only [length]
  clear length
  generalize past - first = count
  induction count generalizing first s with
  | zero =>
    refine ⟨counted, .refl s, fun other _ => ?_⟩
    rw [decide_eq_false (by omega), Bool.or_false]
    rfl
  | succ count ih =>
    obtain ⟨next, layout, flags⟩ := reservePage_counted counted first
    obtain ⟨after, layout', flags'⟩ := ih (first + 1) next
    refine ⟨after, layout.trans layout', fun other inside => ?_⟩
    refine (flags' other (by rw [layout.totalPages]; exact inside)).trans ?_
    rw [flags other inside, Bool.or_assoc, ← Bool.decide_or]
    congr 1
    rw [decide_eq_decide]
    omega

/-- Giving a range back keeps the counter right. -/
theorem freeRange_counted (start end_ : UInt32) (counted : s.Counted) :
    (s.freeRange start end_).Counted ∧ s.SameLayout (s.freeRange start end_) := by
  -- A range that is empty after it was cut off gives nothing back.
  unfold Pmm.freeRange
  split
  · exact ⟨counted, .refl s⟩
  · simp only
    generalize (if start < lowMemoryReservedBytes then lowMemoryReservedBytes else start) = from_
    generalize (if end_ > s.totalMemoryBytes then s.totalMemoryBytes else end_) = past
    split
    · exact ⟨counted, .refl s⟩
    · exact freePagesFrom_counted _ _ counted

/-- So does what is done for one entry of the memory map. -/
theorem freeMmapEntry_counted (current : UInt32) (counted : s.Counted) :
    (freeMmapEntry current s).Counted ∧ s.SameLayout (freeMmapEntry current s) := by
  -- The entry is passed over, or its range is given back.
  unfold freeMmapEntry
  simp only
  split
  · split
    · exact freeRange_counted _ _ counted
    · exact ⟨counted, .refl s⟩
  · exact ⟨counted, .refl s⟩

/-- Whatever the memory map says, the counter is right when its end is reached. -/
theorem freeMmapEntries_counted (fuel : Nat) (current mmapEnd : UInt32) (counted : s.Counted)
    (done : freeMmapEntries fuel current mmapEnd s = some t) : t.Counted ∧ s.SameLayout t := by
  -- By induction on the fuel, which the loop has not used up.
  induction fuel generalizing current s with
  | zero => cases done
  | succ fuel ih =>
    unfold freeMmapEntries at done
    split at done
    · obtain ⟨next, layout⟩ := freeMmapEntry_counted current counted
      obtain ⟨after, layout'⟩ := ih _ next done
      exact ⟨after, layout.trans layout'⟩
    · obtain rfl := Option.some.inj done
      exact ⟨counted, .refl s⟩

/-- A bitmap of ones has all its pages taken. -/
theorem bitmapTest_filled {base : UInt32} {bytes : Nat} {m : Memory} (inside : page / 8 < bytes) :
    bitTest (m.fill base.toNat 0xFF bytes (base.toNat + page / 8)) (page % 8) = true := by
  -- The byte of the page is one of those that were filled.
  have ones : ∀ k, k < 8 → bitTest 0xFF k = true := by decide
  have filled : m.fill base.toNat 0xFF bytes (base.toNat + page / 8) = 0xFF :=
    Memory.copy_inside (m := m) (fun _ => 0xFF) inside
  rw [filled]
  exact ones _ (Nat.mod_lt _ (by omega))

/-- What the layout is like before any page is given back. -/
theorem pmmLayOut_spec {kernelPhysEnd : UInt32} (image : kernelPhysEnd ≤ 0x40000000)
    (multibootMagic info : UInt32) (s : Pmm) :
    let t := pmmLayOut kernelPhysEnd multibootMagic info s
    t.Counted ∧ t.bitmapBytes.toNat = (t.totalPages.toNat + 7) / 8 ∧
      t.bitmapBase.toNat + t.bitmapBytes.toNat + 4095 < 2 ^ 32 ∧
      t.totalPages = t.totalMemoryBytes / pageSize := by
  intro t
  have pages : t.totalPages.toNat < 2 ^ 20 := by
    have := t.totalMemoryBytes.toNat_lt
    change (t.totalMemoryBytes / pageSize).toNat < _
    rw [UInt32.toNat_div]
    change t.totalMemoryBytes.toNat / 4096 < _
    omega
  have bytes : t.bitmapBytes.toNat = (t.totalPages.toNat + 7) / 8 := by
    change ((t.totalPages + 7) / 8).toNat = _
    rw [UInt32.toNat_div, UInt32.toNat_add]
    change (t.totalPages.toNat + 7) % 2 ^ 32 / 8 = _
    omega
  have base : t.bitmapBase.toNat ≤ 0x40000000 := by
    have image' : kernelPhysEnd.toNat ≤ 0x40000000 := UInt32.le_iff_toNat_le.mp image
    change (alignUp kernelPhysEnd pageSize).toNat ≤ _
    rw [toNat_alignUp (by omega)]
    omega
  refine ⟨⟨pages, Eq.symm (clearCount_eq_zero.mpr fun page inside => ?_)⟩, bytes, by omega, rfl⟩
  -- With every flag raised the counter starts at zero.
  exact bitmapTest_filled (m := s.memory) (show page / 8 < t.bitmapBytes.toNat by omega)

/-- Giving back what is available keeps the counter right. -/
theorem pmmFreeAvailable_counted {fuel : Nat} {multibootMagic info : UInt32} (counted : s.Counted)
    (done : pmmFreeAvailable fuel multibootMagic info s = some t) : t.Counted ∧ s.SameLayout t := by
  -- The map is walked, or the range the kernel assumes is given back.
  unfold pmmFreeAvailable at done
  split at done
  · exact freeMmapEntries_counted _ _ _ counted done
  · obtain rfl := Option.some.inj done
    exact freeRange_counted _ _ counted

/-- Taking the range up to the end of the bitmap takes the pages before its end, and no others. -/
theorem pmmReserveBitmap_counted (counted : s.Counted)
    (bytes : s.bitmapBytes.toNat = (s.totalPages.toNat + 7) / 8)
    (noWrap : s.bitmapBase.toNat + s.bitmapBytes.toNat + 4095 < 2 ^ 32) :
    (pmmReserveBitmap s).Counted ∧ Pmm.SameLayout { s with ready := true } (pmmReserveBitmap s) ∧
      ∀ page, page < s.totalPages.toNat → (pmmReserveBitmap s).bitmapTest page =
        (s.bitmapTest page || decide (page < s.firstPage)) := by
  have sum : (s.bitmapBase + s.bitmapBytes).toNat = s.bitmapBase.toNat + s.bitmapBytes.toNat := by
    rw [UInt32.toNat_add]
    omega
  have end_ : (alignUp (s.bitmapBase + s.bitmapBytes) pageSize).toNat = s.firstPage * 4096 := by
    rw [toNat_alignUp (by omega), sum]
    rfl
  unfold pmmReserveBitmap Pmm.reserveRange
  split
  · -- The range is empty only where there is no page at all.
    next empty =>
    have none_ : s.totalPages.toNat = 0 := by
      have zero := UInt32.le_iff_toNat_le.mp empty
      rw [end_] at zero
      change s.firstPage * 4096 ≤ 0 at zero
      unfold Pmm.firstPage at zero
      omega
    exact ⟨⟨counted.pages, counted.counted⟩, ⟨rfl, rfl, rfl, rfl, rfl⟩, fun page inside => by omega⟩
  · have past : (alignUp (alignUp (s.bitmapBase + s.bitmapBytes) pageSize) pageSize / pageSize).toNat =
        s.firstPage := by
      have fits : s.firstPage * 4096 + 4095 < 2 ^ 32 := by
        unfold Pmm.firstPage
        omega
      rw [UInt32.toNat_div, toNat_alignUp (by rw [end_]; exact fits), end_]
      change (s.firstPage * 4096 + 4095) / 4096 * 4096 / 4096 = _
      omega
    have first : (alignDown 0 pageSize / pageSize).toNat = 0 := by decide
    simp only
    generalize alignUp (alignUp (s.bitmapBase + s.bitmapBytes) pageSize) pageSize / pageSize =
      bitmapPages at past
    generalize pageEnd : (if bitmapPages > s.totalPages then s.totalPages else bitmapPages) = pastPage
    obtain ⟨after, layout, flags⟩ := reservePages_counted
      (alignDown 0 pageSize / pageSize).toNat pastPage.toNat counted
    refine ⟨⟨after.pages, after.counted⟩, ⟨layout.bitmapBase, layout.bitmapBytes,
      layout.totalMemoryBytes, layout.totalPages, rfl⟩, fun page small => (flags page small).trans ?_⟩
    -- The number of pages is cut off at the total, which no page reaches anyway.
    congr 1
    rw [decide_eq_decide, first, ← pageEnd]
    split
    · next cut =>
      have cut := UInt32.lt_iff_toNat_lt.mp cut
      omega
    · rw [past]
      omega

/-- Taking the range up to the end of the bitmap makes the manager sound. -/
theorem pmmReserveBitmap_sound (counted : s.Counted)
    (bytes : s.bitmapBytes.toNat = (s.totalPages.toNat + 7) / 8)
    (noWrap : s.bitmapBase.toNat + s.bitmapBytes.toNat + 4095 < 2 ^ 32) :
    (pmmReserveBitmap s).Sound ∧ (pmmReserveBitmap s).totalPages = s.totalPages ∧
      (pmmReserveBitmap s).totalMemoryBytes = s.totalMemoryBytes := by
  -- The pages in front of the pool are those of the range.
  obtain ⟨after, layout, flags⟩ := pmmReserveBitmap_counted counted bytes noWrap
  refine ⟨⟨layout.ready, ?_, after.pages, ?_, fun page low inside => ?_, after.counted⟩,
    layout.totalPages, layout.totalMemoryBytes⟩
  · rw [layout.bitmapBytes, layout.totalPages]
    exact bytes
  · rw [layout.bitmapBase, layout.bitmapBytes]
    exact noWrap
  · have small : page < s.totalPages.toNat := layout.totalPages ▸ inside
    have below : page < s.firstPage := layout.firstPage ▸ low
    rw [flags page small, decide_eq_true below, Bool.or_true]

/-- What the manager is like once it has started. -/
theorem pmmInit_sound {fuel : Nat} {kernelPhysEnd multibootMagic info : UInt32}
    (image : kernelPhysEnd ≤ 0x40000000)
    (started : pmmInit fuel kernelPhysEnd multibootMagic info s = some t) :
    t.Sound ∧ t.totalPages = t.totalMemoryBytes / pageSize := by
  -- The three steps of the start, each by its lemma.
  obtain ⟨u, given, rfl⟩ := Option.map_eq_some_iff.mp started
  obtain ⟨counted, bytes, noWrap, pages⟩ := pmmLayOut_spec image multibootMagic info s
  obtain ⟨counted', layout⟩ := pmmFreeAvailable_counted counted given
  obtain ⟨sound, same, same'⟩ := pmmReserveBitmap_sound counted'
    (by rw [layout.bitmapBytes, layout.totalPages]; exact bytes)
    (by rw [layout.bitmapBytes, layout.bitmapBase]; exact noWrap)
  refine ⟨sound, ?_⟩
  rw [same, same', layout.totalPages, layout.totalMemoryBytes]
  exact pages

end Laws

/-- The calls made on the manager. Any address may be given back. -/
inductive PmmCall where
  | allocPage
  | freePage (physAddr : UInt32)
  deriving DecidableEq

/-- The answer to a call, with the state it leaves behind. -/
def pmmStep (s : Pmm) : PmmCall → UInt32 × Pmm
  | .allocPage => pmmAllocPage s
  | .freePage physAddr => (0, pmmFreePage s physAddr)

section Runs

variable {s t : Pmm} {page : Nat}

/-- Giving back any address does nothing, or it frees the page at that address. -/
theorem pmmFreePage_cases (sound : s.Sound) (physAddr : UInt32) :
    pmmFreePage s physAddr = s ∨
      ∃ page, physAddr.toNat = page * 4096 ∧ s.Marks (pmmFreePage s physAddr) page false := by
  by_cases inside : physAddr.toNat % 4096 = 0 ∧ s.InPool (pageOf physAddr)
  · right
    have at_ := toNat_eq_of_aligned inside.1
    have address : physAddr = UInt32.ofNat (pageOf physAddr * 4096) := by
      apply UInt32.toNat_inj.mp
      rw [toNat_ofNat_page (pageOf_lt _), at_]
    refine ⟨pageOf physAddr, at_, ?_⟩
    have marks := pmmFreePage_marks sound inside.2
    rwa [← address] at marks
  · left
    unfold pmmFreePage
    split
    · rfl
    · next aligned =>
      have whole : physAddr.toNat % 4096 = 0 := by
        simp only [Bool.or_eq_true, not_or, bne_iff_ne, ne_eq, not_not] at aligned
        have zero := congrArg UInt32.toNat aligned.2
        rw [UInt32.toNat_mod] at zero
        exact zero
      have index : (physAddr / pageSize).toNat = pageOf physAddr := UInt32.toNat_div ..
      have back : (physAddr / pageSize * pageSize).toNat = pageOf physAddr * 4096 := by
        have := pageOf_lt physAddr
        rw [UInt32.toNat_mul, index]
        change pageOf physAddr * 4096 % 2 ^ 32 = _
        omega
      simp only
      split
      · rfl
      · -- A page behind the bitmap that is not in the pool is beyond the end of memory.
        next behind =>
        rw [UInt32.lt_iff_toNat_lt, back, alignUp_bitmapEnd sound] at behind
        have beyond : ¬ pageOf physAddr < s.totalPages.toNat := fun below =>
          inside ⟨whole, by omega, below⟩
        rw [index, Pmm.freePage, if_pos (by simpa using Or.inl (Nat.le_of_not_lt beyond))]

/-- Every call keeps the manager sound where it was laid out. -/
theorem pmmStep_sound (sound : s.Sound) (call : PmmCall) :
    (pmmStep s call).2.Sound ∧ s.SameLayout (pmmStep s call).2 := by
  -- A page is handed out or given back, or nothing changes.
  cases call with
  | allocPage =>
    unfold pmmStep
    rcases pmmAllocPage_cases sound with ⟨result, -⟩ | ⟨page, result, -, -, -, marks⟩
    · rw [result]
      exact ⟨sound, .refl s⟩
    · rw [result]
      exact ⟨marks.sound, marks.layout⟩
  | freePage physAddr =>
    simp only [pmmStep]
    rcases pmmFreePage_cases sound physAddr with same | ⟨page, -, marks⟩
    · rw [same]
      exact ⟨sound, .refl s⟩
    · exact ⟨marks.sound, marks.layout⟩

/-- A page that is taken stays taken until its address is given back. -/
theorem pmmStep_taken (sound : s.Sound) (inside : page < s.totalPages.toNat)
    (taken : s.bitmapTest page = true) {call : PmmCall}
    (other : call ≠ .freePage (UInt32.ofNat (page * 4096))) :
    (pmmStep s call).2.bitmapTest page = true := by
  -- Only giving a page back clears a flag, and only its own.
  cases call with
  | allocPage =>
    unfold pmmStep
    rcases pmmAllocPage_cases sound with ⟨result, -⟩ | ⟨given, result, -, -, -, marks⟩
    · rw [result]
      exact taken
    · rw [result]
      refine (marks.flags page inside).trans ?_
      rw [taken, ite_self]
  | freePage physAddr =>
    simp only [pmmStep]
    rcases pmmFreePage_cases sound physAddr with same | ⟨given, at_, marks⟩
    · rw [same]
      exact taken
    · refine (marks.flags page inside).trans ?_
      rw [if_neg, taken]
      rintro rfl
      apply other
      have small := inside.trans sound.pages
      rw [show physAddr = UInt32.ofNat (page * 4096) from
        UInt32.toNat_inj.mp (at_.trans (toNat_ofNat_page small).symm)]

/-- A taken page is still taken after any run that does not give it back. -/
theorem run_taken (sound : s.Sound) (inside : page < s.totalPages.toNat)
    (taken : s.bitmapTest page = true) {calls : List PmmCall}
    (kept : PmmCall.freePage (UInt32.ofNat (page * 4096)) ∉ calls) :
    (runState pmmStep s calls).bitmapTest page = true := by
  -- By induction on the calls.
  induction calls generalizing s with
  | nil => exact taken
  | cons call rest ih =>
    obtain ⟨next, layout⟩ := pmmStep_sound sound call
    have other : call ≠ .freePage (UInt32.ofNat (page * 4096)) :=
      fun same => kept (same ▸ List.mem_cons_self)
    have here := pmmStep_taken sound inside taken other
    have inside' : page < (pmmStep s call).2.totalPages.toNat := by
      rw [layout.totalPages]
      exact inside
    exact ih next inside' here fun member => kept (List.mem_cons_of_mem _ member)

/-- What the manager answers, and what its counter says. -/
structure Allocates (s : Pmm) : Prop where
  counted : s.freePages.toNat = clearCount s.bitmapTest s.totalPages.toNat
  fails : (pmmAllocPage s).1 = 0 ↔ ∀ page, page < s.totalPages.toNat → s.bitmapTest page = true
  /-- What is handed out is the lowest free page, inside memory and behind the bitmap. -/
  gives : (pmmAllocPage s).1 ≠ 0 → ∃ page, (pmmAllocPage s).1.toNat = page * 4096 ∧
    s.bitmapTest page = false ∧ (∀ other, other < page → s.bitmapTest other = true) ∧
    page * 4096 < s.totalMemoryBytes.toNat ∧
    s.bitmapBase.toNat + s.bitmapBytes.toNat ≤ page * 4096

/-- A sound manager hands pages out as it should. -/
theorem Pmm.Sound.allocates (sound : s.Sound) (total : s.totalPages = s.totalMemoryBytes / pageSize) :
    Allocates s := by
  -- The allocation fails where every page is taken, and returns the first that is free otherwise.
  rcases pmmAllocPage_cases sound with ⟨result, full⟩ | ⟨page, result, inPool, free, earlier, -⟩
  · refine ⟨sound.counted, ?_, ?_⟩ <;> rw [result]
    · exact ⟨fun _ => full, fun _ => rfl⟩
    · exact fun nonzero => absurd rfl nonzero
  · have above := inPool.above
    have below := inPool.below
    have address := toNat_ofNat_page (below.trans sound.pages)
    have reserved : s.bitmapBase.toNat + s.bitmapBytes.toNat ≤ page * 4096 := by
      unfold Pmm.firstPage at above
      omega
    have positive : 0 < page := by
      have := sound.bytes
      omega
    have inMemory : page * 4096 < s.totalMemoryBytes.toNat := by
      rw [total, UInt32.toNat_div] at below
      change page < s.totalMemoryBytes.toNat / 4096 at below
      omega
    refine ⟨sound.counted, ⟨fun zero => ?_, fun full => ?_⟩, fun _ => ?_⟩
    · rw [result] at zero
      have := congrArg UInt32.toNat zero
      rw [address] at this
      change page * 4096 = 0 at this
      omega
    · rw [full page below] at free
      cases free
    · rw [result]
      exact ⟨page, address, free, earlier, inMemory, reserved⟩

/-- The state after a run is sound, and laid out as at the start. -/
theorem run_sound (sound : s.Sound) (calls : List PmmCall) :
    (runState pmmStep s calls).Sound ∧ s.SameLayout (runState pmmStep s calls) := by
  -- By induction on the calls, with the step lemma for each of them.
  have always : ∀ call ∈ calls, (fun _ : PmmCall => True) call := fun _ _ => trivial
  refine runState_invariant pmmStep (fun t => t.Sound ∧ s.SameLayout t) ?_ always ⟨sound, .refl s⟩
  intro t call _ ⟨here, layout⟩
  obtain ⟨next, layout'⟩ := pmmStep_sound here call
  exact ⟨next, layout.trans layout'⟩

/--
Once started, the manager hands out the lowest free page as long as there is one, and a page again
only after its address was given back.
-/
theorem run_allocates {fuel : Nat} {kernelPhysEnd multibootMagic info : UInt32}
    (image : kernelPhysEnd ≤ 0x40000000)
    (started : pmmInit fuel kernelPhysEnd multibootMagic info s = some t) :
    (∀ calls, Allocates (runState pmmStep t calls)) ∧
    ∀ before between, (pmmAllocPage (runState pmmStep t before)).1 ≠ 0 →
      (pmmAllocPage (runState pmmStep t (before ++ .allocPage :: between))).1 =
        (pmmAllocPage (runState pmmStep t before)).1 →
      PmmCall.freePage (pmmAllocPage (runState pmmStep t before)).1 ∈ between := by
  obtain ⟨sound, total⟩ := pmmInit_sound image started
  refine ⟨fun calls => ?_, fun before between given again => ?_⟩
  · obtain ⟨after, layout⟩ := run_sound sound calls
    refine after.allocates ?_
    rw [layout.totalPages, layout.totalMemoryBytes, total]
  · obtain ⟨first, -⟩ := run_sound sound before
    rw [runState_append, runState_cons] at again
    generalize runState pmmStep t before = u at given again first
    rcases pmmAllocPage_cases first with ⟨result, -⟩ | ⟨page, result, inPool, free, -, marks⟩
    · rw [result] at given
      exact absurd rfl given
    · by_contra kept
      rw [result] at again kept
      have step : (pmmStep u .allocPage).2 = u.reservePage page := by
        unfold pmmStep
        rw [result]
      rw [step] at again
      have inside : page < (u.reservePage page).totalPages.toNat := by
        rw [marks.layout.totalPages]
        exact inPool.below
      have taken : (u.reservePage page).bitmapTest page = true := by
        rw [marks.flags page inPool.below, if_pos rfl]
      have still := run_taken marks.sound inside taken kept
      -- The page handed out the second time was free, and the first one was not.
      obtain ⟨later, layout⟩ := run_sound marks.sound between
      generalize runState pmmStep (u.reservePage page) between = v at again still later layout
      have small := inPool.below.trans first.pages
      rcases pmmAllocPage_cases later with ⟨none_, -⟩ | ⟨page', result', inPool', free', -⟩
      · rw [none_] at again
        rw [result] at given
        exact given again.symm
      · rw [result'] at again
        have same := congrArg UInt32.toNat again
        rw [toNat_ofNat_page small, toNat_ofNat_page (inPool'.below.trans later.pages)] at same
        rw [show page' = page by omega, still] at free'
        cases free'

/-- A machine whose boot loader says nothing. -/
theorem run_allocates_default :
    ∃ t, pmmInit 0 0x00200000 0 0 ⟨fun _ => 0, 0, 0, 0, 0, 0, false⟩ = some t ∧
      Allocates (runState pmmStep t [.allocPage, .freePage 0x00201000, .freePage 5, .allocPage]) := by
  -- The start succeeds by computation, and the general theorem gives the rest.
  have started : ∃ t, pmmInit 0 0x00200000 0 0 ⟨fun _ => 0, 0, 0, 0, 0, 0, false⟩ = some t :=
    ⟨_, rfl⟩
  obtain ⟨t, started⟩ := started
  exact ⟨t, started, (run_allocates (by decide) started).1 _⟩

end Runs

end MyOS.Mm
