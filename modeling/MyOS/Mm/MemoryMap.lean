import MyOS.Mm.PmmInit

/-! Which pages are free once physical memory is started from the boot loader's memory map. -/

namespace MyOS.Mm

/-- The entries of a memory map one behind the other, from an address of the kernel's half to its end. -/
def MmapTable (memory : Memory) : Nat → List MultibootMmapEntry → Nat → Prop
  | at_, [], end_ => at_ = end_
  | at_, entry :: rest, end_ =>
    mmapEntryAt memory (UInt32.ofNat at_) = entry ∧ 20 ≤ entry.size.toNat ∧
      MmapTable memory (at_ + (entry.size.toNat + 4)) rest end_

/-- An entry that speaks of available memory, all of it below the end of the address space. -/
def MultibootMmapEntry.IsAvailable (entry : MultibootMmapEntry) : Prop :=
  entry.type = multibootMemoryAvailable ∧ entry.addrHigh = 0 ∧ entry.lenHigh = 0 ∧
    entry.addrLow.toNat + entry.lenLow.toNat < 2 ^ 32

/-- An entry whose range has a whole page in it. -/
def MultibootMmapEntry.Contains (entry : MultibootMmapEntry) (page : Nat) : Prop :=
  entry.addrLow.toNat ≤ page * 4096 ∧
    page * 4096 + 4096 ≤ entry.addrLow.toNat + entry.lenLow.toNat

namespace Pmm

/-- The counter is right, the bitmap has a flag for every page, and the last page is left out. -/
structure LaidOut (s : Pmm) : Prop extends s.Counted where
  bytes : s.bitmapBytes.toNat = (s.totalPages.toNat + 7) / 8
  whole : s.totalPages = s.totalMemoryBytes / pageSize
  total : s.totalMemoryBytes.toNat ≤ 0xFFFFF000

/-- An address that is none of the bitmap's. -/
def Outside (s : Pmm) (at_ : Nat) : Prop :=
  at_ < s.bitmapBase.toNat ∨ s.bitmapBase.toNat + s.bitmapBytes.toNat ≤ at_

/-- The pages that start-up is to leave free. -/
def Offered (s : Pmm) (entries : List MultibootMmapEntry) (page : Nat) : Prop :=
  page < s.totalPages.toNat ∧ max 0x100000 (s.firstPage * 4096) ≤ page * 4096 ∧
    ∃ entry ∈ entries, entry.IsAvailable ∧ entry.Contains page

end Pmm

section Decidable

variable (entry : MultibootMmapEntry) (entries : List MultibootMmapEntry) (s : Pmm) (page : Nat)

/-- Whether a range may be used can be computed. -/
instance : Decidable entry.IsAvailable := inferInstanceAs (Decidable (_ ∧ _))

/-- Whether a page lies in a range can be computed. -/
instance : Decidable (entry.Contains page) := inferInstanceAs (Decidable (_ ∧ _))

/-- Whether a page is offered can be computed. -/
instance : Decidable (s.Offered entries page) := inferInstanceAs (Decidable (_ ∧ _))

end Decidable

/--
What the boot loader hands over, as `pmm_init` finds it.

The total is read first, and everything about the map once the bitmap is in place, which leaves
alone whatever lies apart from it.
-/
structure BootMap (kernelPhysEnd info : UInt32) (entries : List MultibootMmapEntry) (s t : Pmm) :
    Prop where
  laid : t = pmmLayOut kernelPhysEnd multibootBootloaderMagic info s
  given : info ≠ 0
  memory : infoFlags s.memory info &&& multibootInfoMemory ≠ 0
  upper : infoMemUpper s.memory info ≠ 0
  total : 0x100000 + (infoMemUpper s.memory info).toNat * 1024 ≤ 0xFFFFF000
  /-- The image of the kernel, with the bitmap behind it, ends inside the address space. -/
  image : (kernelPhysEnd.toNat + 4095) / 4096 * 4096 + t.bitmapBytes.toNat + 4095 < 2 ^ 32
  mmap : infoFlags t.memory info &&& multibootInfoMmap ≠ 0
  length : infoMmapLength t.memory info ≠ 0
  /-- The map wraps around neither in memory nor where the kernel sees it. -/
  inMemory : (infoMmapAddr t.memory info).toNat + (infoMmapLength t.memory info).toNat ≤ 2 ^ 32
  mapped : (kernelVirtBase + infoMmapAddr t.memory info).toNat +
    (infoMmapLength t.memory info).toNat < 2 ^ 32
  table : MmapTable t.memory (kernelVirtBase + infoMmapAddr t.memory info).toNat entries
    ((kernelVirtBase + infoMmapAddr t.memory info).toNat + (infoMmapLength t.memory info).toNat)
  /-- The map does not overlap the bitmap. -/
  apart : ∀ k, k < (infoMmapLength t.memory info).toNat →
    t.Outside ((infoMmapAddr t.memory info).toNat + k)

/-- A step that only gives pages back, exactly those of a set. -/
structure Frees (s t : Pmm) (given : Nat → Prop) : Prop where
  laid : t.LaidOut
  layout : s.SameLayout t
  flags : ∀ page, page < s.totalPages.toNat →
    (t.bitmapTest page = false ↔ s.bitmapTest page = false ∨ given page)
  memory : ∀ at_, s.Outside at_ → t.memory at_ = s.memory at_

section Laws

variable {s t u : Pmm} {page : Nat} {given given' : Nat → Prop}

/-- A block that ends before the bitmap has no byte in it. -/
theorem Pmm.outside_of_below {start length : Nat} (below : start + length ≤ s.bitmapBase.toNat) (k : Nat)
    (inside : k < length) : s.Outside (start + k) :=
  Or.inl (by omega)

/-- A step that keeps the layout and the counter keeps all of it. -/
theorem Pmm.LaidOut.congr (laid : s.LaidOut) (counted : t.Counted) (layout : s.SameLayout t) :
    t.LaidOut where
  -- Each field speaks of the layout or of the counter.
  toCounted := counted
  bytes := by rw [layout.bitmapBytes, layout.totalPages, laid.bytes]
  whole := by rw [layout.totalPages, layout.totalMemoryBytes, laid.whole]
  total := layout.totalMemoryBytes ▸ laid.total

namespace Frees

/-- Where nothing is done, no page there is may be in the set. -/
theorem none (laid : s.LaidOut) (empty : ∀ page, page < s.totalPages.toNat → ¬ given page) :
    Frees s s given :=
  ⟨laid, .refl s, fun page inside => (or_iff_left (empty page inside)).symm, fun _ _ => rfl⟩

/-- Two steps give back what the one or the other does. -/
theorem trans (first : Frees s t given) (second : Frees t u given') :
    Frees s u fun page => given page ∨ given' page := by
  -- A page that either step gave back is free, and a byte that neither wrote is as it was.
  refine ⟨second.laid, first.layout.trans second.layout, fun page inside => ?_, fun at_ outside => ?_⟩
  · rw [second.flags page (by rw [first.layout.totalPages]; exact inside), first.flags page inside,
      or_assoc]
  · have outside' : t.Outside at_ := by
      unfold Pmm.Outside
      rw [first.layout.bitmapBase, first.layout.bitmapBytes]
      exact outside
    exact (second.memory at_ outside').trans (first.memory at_ outside)

/-- The same step, with its set said in other words. -/
theorem congr (step : Frees s t given)
    (same : ∀ page, page < s.totalPages.toNat → (given page ↔ given' page)) : Frees s t given' :=
  -- The sets agree on the pages that there are.
  ⟨step.laid, step.layout, fun page inside => by rw [step.flags page inside, same page inside],
    step.memory⟩

end Frees

/-- `free_page` gives back its page alone, and writes to the bitmap only. -/
theorem freePage_frees (laid : s.LaidOut) (page : Nat) :
    Frees s (s.freePage page) fun other => other = page := by
  obtain ⟨counted, layout, flags⟩ := freePage_counted laid.toCounted page
  refine ⟨laid.congr counted layout, layout, fun other inside => ?_, fun at_ outside => ?_⟩
  · rw [flags other inside, Bool.and_eq_false_iff, Bool.not_eq_false', decide_eq_true_eq]
  · unfold Pmm.freePage
    split
    · rfl
    · -- The byte with the flag of a page there is lies in the bitmap.
      next taken =>
      simp only [Bool.or_eq_true, decide_eq_true_eq, not_or] at taken
      have bytes := laid.bytes
      unfold Pmm.Outside at outside
      exact if_neg (by omega)

/-- Giving pages back one after the other gives back exactly them. -/
theorem freePagesFrom_frees (laid : s.LaidOut) (first past : Nat) :
    Frees s (s.freePagesFrom first past) fun page => first ≤ page ∧ page < past := by
  -- By induction on the pages of the range.
  have length : ∀ page, first ≤ page ∧ page < first + (past - first) ↔ first ≤ page ∧ page < past :=
    fun page => by omega
  unfold Pmm.freePagesFrom
  refine Frees.congr ?_ fun page _ => length page
  clear length
  generalize past - first = count
  induction count generalizing first s with
  | zero => exact .none laid fun page _ => by omega
  | succ count ih =>
    have step := freePage_frees laid first
    exact (step.trans (ih step.laid (first + 1))).congr fun page _ => by omega

/-- `free_range` gives back the pages that lie in the range, above low memory. -/
theorem freeRange_frees (laid : s.LaidOut) (start end_ : UInt32) :
    Frees s (s.freeRange start end_) fun page =>
      0x100000 ≤ page * 4096 ∧ start.toNat ≤ page * 4096 ∧ page * 4096 + 4096 ≤ end_.toNat := by
  have pages : s.totalPages.toNat = s.totalMemoryBytes.toNat / 4096 := by
    rw [laid.whole, UInt32.toNat_div]
    rfl
  have total := laid.total
  -- Both ends are cut off first, and an empty range has no page in it.
  have low : (if start < lowMemoryReservedBytes then lowMemoryReservedBytes else start).toNat =
      max 0x100000 start.toNat := by
    split
    · next below => exact (max_eq_left (UInt32.lt_iff_toNat_lt.mp below).le).symm
    · next above => exact (max_eq_right (UInt32.le_iff_toNat_le.mp (UInt32.not_lt.mp above))).symm
  have high : (if end_ > s.totalMemoryBytes then s.totalMemoryBytes else end_).toNat =
      min s.totalMemoryBytes.toNat end_.toNat := by
    split
    · next above => exact (min_eq_left (UInt32.lt_iff_toNat_lt.mp above).le).symm
    · next below => exact (min_eq_right (UInt32.le_iff_toNat_le.mp (UInt32.not_lt.mp below))).symm
  unfold Pmm.freeRange
  split
  · next empty =>
    have empty := UInt32.le_iff_toNat_le.mp empty
    exact .none laid fun page _ => by omega
  · simp only
    generalize (if start < lowMemoryReservedBytes then lowMemoryReservedBytes else start) = first at low
    generalize (if end_ > s.totalMemoryBytes then s.totalMemoryBytes else end_) = past at high
    split
    · next empty =>
      have empty := UInt32.le_iff_toNat_le.mp empty
      exact .none laid fun page inside => by omega
    · next some_ =>
      -- The ends are rounded towards each other, and the total is no more than there are pages.
      have some_ := UInt32.lt_iff_toNat_lt.mp (UInt32.not_le.mp some_)
      have from_ : (alignUp first pageSize / pageSize).toNat = (first.toNat + 4095) / 4096 := by
        rw [UInt32.toNat_div, toNat_alignUp (by omega)]
        change (first.toNat + 4095) / 4096 * 4096 / 4096 = _
        omega
      have upTo : (alignDown past pageSize / pageSize).toNat = past.toNat / 4096 := by
        rw [UInt32.toNat_div]
        change (past &&& 0xFFFFF000).toNat / 4096 = _
        rw [toNat_and_pageMask, pageOf]
        omega
      have cut : ¬ alignDown past pageSize / pageSize > s.totalPages := by
        rw [gt_iff_lt, UInt32.lt_iff_toNat_lt, upTo]
        omega
      rw [if_neg cut]
      exact (freePagesFrom_frees laid _ _).congr fun page inside => by
        rw [from_, upTo]
        omega

/-- One entry gives back the pages of its range, if it speaks of available memory. -/
theorem freeMmapEntry_frees (laid : s.LaidOut) (current : UInt32) {entry : MultibootMmapEntry}
    (found : mmapEntryAt s.memory current = entry) :
    Frees s (freeMmapEntry current s) fun page =>
      0x100000 ≤ page * 4096 ∧ entry.IsAvailable ∧ entry.Contains page := by
  unfold freeMmapEntry MultibootMmapEntry.IsAvailable MultibootMmapEntry.Contains
  rw [found]
  simp only
  split
  · next fits =>
    simp only [Bool.and_eq_true, beq_iff_eq, bne_iff_ne] at fits
    obtain ⟨⟨⟨type, addrHigh⟩, lenHigh⟩, lenLow⟩ := fits
    have some_ : 0 < entry.lenLow.toNat :=
      Nat.pos_of_ne_zero fun zero => lenLow (UInt32.toNat_inj.mp zero)
    have := entry.addrLow.toNat_lt
    have := entry.lenLow.toNat_lt
    have sum := UInt32.toNat_add entry.addrLow entry.lenLow
    split
    · next noWrap =>
      have noWrap := UInt32.lt_iff_toNat_lt.mp noWrap
      exact (freeRange_frees laid _ _).congr fun page _ => by
        simp only [type, addrHigh, lenHigh, true_and]
        omega
    · -- A sum that wraps around is no more than what it started from.
      next wrap =>
      have wrap := UInt32.le_iff_toNat_le.mp (UInt32.not_lt.mp wrap)
      exact .none laid fun page _ => by omega
  · next other =>
    simp only [Bool.and_eq_true, beq_iff_eq, bne_iff_ne, not_and, not_not] at other
    refine .none laid fun page _ => ?_
    intro ⟨_, ⟨type, addrHigh, lenHigh, _⟩, above, below⟩
    -- An entry of length zero has no page in it.
    rw [other ⟨⟨type, addrHigh⟩, lenHigh⟩, UInt32.toNat_zero] at below
    omega

/-- What an entry says depends on its own bytes alone. -/
theorem mmapEntryAt_congr {memory memory' : Memory} {current : UInt32}
    (same : ∀ k, k < 24 → memory' (bootstrapPhys current + k) = memory (bootstrapPhys current + k)) :
    mmapEntryAt memory' current = mmapEntryAt memory current := by
  -- Every field lies in the bytes that are the same.
  have field : ∀ offset, offset + 4 ≤ 24 →
      fieldAt memory' current offset = fieldAt memory current offset := by
    intro offset inside
    refine wordAt_congr fun k above below => ?_
    obtain ⟨j, rfl⟩ := Nat.exists_eq_add_of_le (show bootstrapPhys current ≤ k by omega)
    exact same j (by omega)
  unfold mmapEntryAt
  rw [field 0 (by omega), field 4 (by omega), field 8 (by omega), field 12 (by omega),
    field 16 (by omega), field 20 (by omega)]

/-- The table is the same in a memory that agrees on the bytes of its entries. -/
theorem MmapTable.congr {memory memory' : Memory} {at_ end_ : Nat}
    {entries : List MultibootMmapEntry} (table : MmapTable memory at_ entries end_)
    (same : ∀ v k, at_ ≤ v → v + 24 ≤ end_ → k < 24 →
      memory' (bootstrapPhys (UInt32.ofNat v) + k) = memory (bootstrapPhys (UInt32.ofNat v) + k)) :
    at_ ≤ end_ ∧ MmapTable memory' at_ entries end_ := by
  -- By induction on the entries, each at the place where the one before ends.
  induction entries generalizing at_ with
  | nil => exact ⟨Nat.le_of_eq table, table⟩
  | cons entry rest ih =>
    obtain ⟨found, size, rest⟩ := table
    obtain ⟨behind, rest'⟩ := ih rest fun v k above => same v k (by omega)
    refine ⟨by omega, ?_, size, rest'⟩
    rw [mmapEntryAt_congr fun k => same at_ k (Nat.le_refl _) (by omega), found]

/--
The loop over the map ends, and gives back the pages of the available ranges.

The entries stay as they are meanwhile, for only the bitmap is written to.
-/
theorem freeMmapEntries_frees (laid : s.LaidOut) {at_ end_ : Nat} {entries : List MultibootMmapEntry}
    (table : MmapTable s.memory at_ entries end_) (mapped : end_ < 2 ^ 32)
    (apart : ∀ v k, at_ ≤ v → v + 24 ≤ end_ → k < 24 →
      s.Outside (bootstrapPhys (UInt32.ofNat v) + k)) {fuel : Nat} (enough : entries.length < fuel) :
    ∃ t, freeMmapEntries fuel (UInt32.ofNat at_) (UInt32.ofNat end_) s = some t ∧
      Frees s t fun page => 0x100000 ≤ page * 4096 ∧
        ∃ entry ∈ entries, entry.IsAvailable ∧ entry.Contains page := by
  have word : ∀ v, v < 2 ^ 32 → (UInt32.ofNat v).toNat = v := fun v small =>
    UInt32.toNat_ofNat_of_lt small
  induction entries generalizing at_ s fuel with
  | nil =>
    obtain ⟨fuel, rfl⟩ := Nat.exists_eq_add_of_lt enough
    obtain rfl : at_ = end_ := table
    refine ⟨s, ?_, .none laid fun page _ ⟨_, entry, member, _⟩ => nomatch member⟩
    exact if_neg (UInt32.lt_irrefl _)
  | cons entry rest ih =>
    obtain ⟨fuel, rfl⟩ := Nat.exists_eq_add_of_lt enough
    obtain ⟨found, size, behind⟩ := table
    have step := freeMmapEntry_frees laid (UInt32.ofNat at_) found
    -- The step leaves both the entry and those behind it as they were.
    have kept : ∀ v k, at_ ≤ v → v + 24 ≤ end_ → k < 24 →
        (freeMmapEntry (UInt32.ofNat at_) s).memory (bootstrapPhys (UInt32.ofNat v) + k) =
          s.memory (bootstrapPhys (UInt32.ofNat v) + k) :=
      fun v k above below inside => step.memory _ (apart v k above below inside)
    obtain ⟨inside, behind'⟩ := behind.congr fun v k above => kept v k (by omega)
    have still : mmapEntryAt (freeMmapEntry (UInt32.ofNat at_) s).memory (UInt32.ofNat at_) = entry := by
      rw [mmapEntryAt_congr fun k => kept at_ k (Nat.le_refl _) (by omega), found]
    have next : UInt32.ofNat at_ + (entry.size + 4) = UInt32.ofNat (at_ + (entry.size.toNat + 4)) := by
      rw [UInt32.ofNat_add, UInt32.ofNat_add, UInt32.ofNat_toNat]
      rfl
    have more : UInt32.ofNat at_ < UInt32.ofNat end_ := by
      rw [UInt32.lt_iff_toNat_lt, word _ (by omega), word _ mapped]
      omega
    obtain ⟨t, runs, frees⟩ := @ih _ step.laid _ behind'
      (fun v k above below inside => by
        unfold Pmm.Outside
        rw [step.layout.bitmapBase, step.layout.bitmapBytes]
        exact apart v k (by omega) below inside) (rest.length + fuel + 1) (by omega)
    refine ⟨t, ?_, (step.trans frees).congr fun page _ => ?_⟩
    · rw [List.length_cons, show rest.length + 1 + fuel + 1 = rest.length + fuel + 1 + 1 by omega]
      unfold freeMmapEntries
      rw [if_pos more]
      simp only [still, next]
      exact runs
    · simp only [List.mem_cons, exists_eq_or_imp, and_or_left]

/-- The layout that the memory map finds, with every page taken. -/
theorem BootMap.laidOut {kernelPhysEnd info : UInt32} {entries : List MultibootMmapEntry}
    (boot : BootMap kernelPhysEnd info entries s t) :
    t.LaidOut ∧ t.bitmapBase.toNat = (kernelPhysEnd.toNat + 4095) / 4096 * 4096 ∧
      t.totalMemoryBytes.toNat = 0x100000 + (infoMemUpper s.memory info).toNat * 1024 ∧
      ∀ page, page < t.totalPages.toNat → t.bitmapTest page = true := by
  -- The fields are computed from the size that the boot loader names, which is bounded.
  have image := boot.image
  have total := boot.total
  have detected : t.totalMemoryBytes = lowMemoryReservedBytes + infoMemUpper s.memory info * 1024 := by
    rw [boot.laid]
    refine if_pos ?_
    rw [bne_iff_ne.mpr boot.given, bne_iff_ne.mpr boot.memory, bne_iff_ne.mpr boot.upper]
    rfl
  have bytes : t.totalMemoryBytes.toNat = 0x100000 + (infoMemUpper s.memory info).toNat * 1024 := by
    rw [detected, UInt32.toNat_add, UInt32.toNat_mul]
    change (0x100000 + (infoMemUpper s.memory info).toNat * 1024 % 2 ^ 32) % 2 ^ 32 = _
    omega
  have whole : t.totalPages = t.totalMemoryBytes / pageSize := by
    rw [boot.laid]
    rfl
  have pages : t.totalPages.toNat = t.totalMemoryBytes.toNat / 4096 := by
    rw [whole, UInt32.toNat_div]
    rfl
  have flags : t.bitmapBytes.toNat = (t.totalPages.toNat + 7) / 8 := by
    have same : t.bitmapBytes = (t.totalPages + 7) / 8 := by
      rw [boot.laid]
      rfl
    rw [same, UInt32.toNat_div, UInt32.toNat_add]
    change (t.totalPages.toNat + 7) % 2 ^ 32 / 8 = _
    omega
  have base : t.bitmapBase.toNat = (kernelPhysEnd.toNat + 4095) / 4096 * 4096 := by
    rw [boot.laid]
    exact toNat_alignUp (by omega)
  have taken : ∀ page, page < t.totalPages.toNat → t.bitmapTest page = true := by
    intro page inside
    have within : page / 8 < t.bitmapBytes.toNat := by omega
    rw [boot.laid] at within ⊢
    exact bitmapTest_filled (m := s.memory) within
  refine ⟨⟨⟨by omega, ?_⟩, flags, whole, by omega⟩, base, bytes, taken⟩
  rw [clearCount_eq_zero.mpr taken, boot.laid]
  rfl

/-- Wherever an entry of the map lies, its bytes are none of the bitmap's. -/
theorem BootMap.outside {kernelPhysEnd info : UInt32} {entries : List MultibootMmapEntry}
    (boot : BootMap kernelPhysEnd info entries s t) (v k : Nat)
    (above : (kernelVirtBase + infoMmapAddr t.memory info).toNat ≤ v)
    (below : v + 24 ≤ (kernelVirtBase + infoMmapAddr t.memory info).toNat +
      (infoMmapLength t.memory info).toNat) (inside : k < 24) :
    t.Outside (bootstrapPhys (UInt32.ofNat v) + k) := by
  have mapped := boot.mapped
  have inMemory := boot.inMemory
  have apart := boot.apart
  generalize infoMmapAddr t.memory info = addr at above below mapped inMemory apart
  generalize (infoMmapLength t.memory info).toNat = length at below mapped inMemory apart
  -- An offset into the map is the same in memory as where the kernel sees it.
  obtain ⟨j, rfl⟩ := Nat.exists_eq_add_of_le above
  have phys : bootstrapPhys (UInt32.ofNat ((kernelVirtBase + addr).toNat + j)) = addr.toNat + j := by
    have difference : kernelVirtBase + addr + UInt32.ofNat j - kernelVirtBase =
        addr + UInt32.ofNat j := by
      rw [UInt32.add_assoc, UInt32.add_comm kernelVirtBase, UInt32.add_sub_cancel]
    rw [bootstrapPhys, UInt32.ofNat_add, UInt32.ofNat_toNat, difference, UInt32.toNat_add,
      UInt32.toNat_ofNat']
    omega
  rw [phys, Nat.add_assoc]
  exact apart (j + k) (by omega)

/-- Start-up gets through a memory map, and leaves free what it offers. -/
theorem BootMap.started {kernelPhysEnd info : UInt32} {entries : List MultibootMmapEntry}
    (boot : BootMap kernelPhysEnd info entries s t) {fuel : Nat} (enough : entries.length < fuel) :
    ∃ u, pmmInit fuel kernelPhysEnd multibootBootloaderMagic info s = some u ∧ u.Counted ∧
      u.totalMemoryBytes.toNat = 0x100000 + (infoMemUpper s.memory info).toNat * 1024 ∧
      u.totalPages.toNat = (0x100000 + (infoMemUpper s.memory info).toNat * 1024) / 4096 ∧
      u.firstPage =
        ((kernelPhysEnd.toNat + 4095) / 4096 * 4096 + (u.totalPages.toNat + 7) / 8 + 4095) / 4096 ∧
      ∀ page, u.IsFree page ↔ u.Offered entries page := by
  obtain ⟨laid, base, total, taken⟩ := boot.laidOut
  have image := boot.image
  rw [← base] at image
  -- The map is walked to its end, without touching the bitmap.
  obtain ⟨v, runs, frees⟩ :=
    freeMmapEntries_frees laid boot.table boot.mapped boot.outside enough
  have freed : pmmFreeAvailable fuel multibootBootloaderMagic info t = some v := by
    unfold pmmFreeAvailable freeMemoryFromMap
    rw [bne_iff_ne.mpr boot.given, bne_iff_ne.mpr boot.mmap, bne_iff_ne.mpr boot.length]
    rw [UInt32.ofNat_add, UInt32.ofNat_toNat, UInt32.ofNat_toNat, UInt32.add_assoc] at runs
    exact runs
  -- Then everything up to the end of the bitmap is taken again.
  have bytes : v.bitmapBytes.toNat = (v.totalPages.toNat + 7) / 8 := frees.laid.bytes
  have noWrap : v.bitmapBase.toNat + v.bitmapBytes.toNat + 4095 < 2 ^ 32 := by
    rw [frees.layout.bitmapBase, frees.layout.bitmapBytes]
    exact image
  obtain ⟨counted, layout, flags⟩ := pmmReserveBitmap_counted frees.laid.toCounted bytes noWrap
  have pages : (pmmReserveBitmap v).totalPages = t.totalPages :=
    layout.totalPages.trans frees.layout.totalPages
  have behind : (pmmReserveBitmap v).firstPage = v.firstPage := layout.firstPage
  have free : ∀ page, (pmmReserveBitmap v).IsFree page ↔ (pmmReserveBitmap v).Offered entries page := by
    intro page
    refine and_congr_right fun inside => ?_
    have inside' : page < t.totalPages.toNat := pages ▸ inside
    rw [flags page (frees.layout.totalPages.symm ▸ inside'), Bool.or_eq_false_iff, frees.flags page inside',
      taken page inside', decide_eq_false_iff_not, behind]
    constructor
    · intro ⟨given, above⟩
      obtain ⟨low, offered⟩ := given.resolve_left nofun
      exact ⟨by omega, offered⟩
    · intro ⟨above, offered⟩
      exact ⟨Or.inr ⟨by omega, offered⟩, by omega⟩
  refine ⟨pmmReserveBitmap v, ?_, counted, ?_, ?_, ?_, free⟩
  · rw [pmmInit, ← boot.laid, freed, Option.map_some]
  · rw [layout.totalMemoryBytes]
    exact frees.layout.totalMemoryBytes ▸ total
  · rw [pages, laid.whole, UInt32.toNat_div, total]
    rfl
  · rw [behind, Pmm.firstPage, bytes, frees.layout.bitmapBase, base, pages, frees.layout.totalPages]

/--
The boot loader's memory map is honoured exactly.

The pages that are free are those offered by the map that lie above low memory and behind the
bitmap, and the counter counts them.
-/
theorem pmmInit_exact {kernelPhysEnd info : UInt32} {entries : List MultibootMmapEntry}
    (boot : BootMap kernelPhysEnd info entries s t) {fuel : Nat} (enough : entries.length < fuel) :
    ∃ u, pmmInit fuel kernelPhysEnd multibootBootloaderMagic info s = some u ∧
      u.totalPages.toNat = (0x100000 + (infoMemUpper s.memory info).toNat * 1024) / 4096 ∧
      u.firstPage =
        ((kernelPhysEnd.toNat + 4095) / 4096 * 4096 + (u.totalPages.toNat + 7) / 8 + 4095) / 4096 ∧
      (∀ page, u.IsFree page ↔ u.Offered entries page) ∧
      u.freePages.toNat = ((Finset.range u.totalPages.toNat).filter (u.Offered entries)).card := by
  obtain ⟨u, runs, counted, -, pages, first, free⟩ := boot.started enough
  refine ⟨u, runs, pages, first, free, ?_⟩
  -- The counter counts the clear flags, and these are the pages offered.
  rw [counted.counted, clearCount]
  congr 1
  refine Finset.filter_congr fun page member => ?_
  rw [← free page]
  exact (and_iff_right (Finset.mem_range.mp member)).symm

end Laws

section Example

/-- Boot information at 64 KiB, and a map at 128 KiB with a range below 1 MiB and one from there on. -/
def twoRanges : Pmm where
  memory := [(0x10000, 0x41), (0x10008, 2048), (0x1002C, 48), (0x10030, 0x20000),
    (0x20000, 20), (0x2000C, 0x9F000), (0x20014, 1),
    (0x20018, 20), (0x2001C, 0x100000), (0x20024, 0x180000), (0x2002C, 1)].foldl
    (fun memory (at_, word) => memory.storeWord at_ word) fun _ => 0
  bitmapBase := 0
  bitmapBytes := 0
  totalMemoryBytes := 0
  totalPages := 0
  freePages := 0
  ready := false

/-- The two ranges once the bitmap is in place, behind a kernel that ends at 2 MiB. -/
def twoRangesLaid : Pmm := pmmLayOut 0x00200000 multibootBootloaderMagic 0xC0010000 twoRanges

/-- The map with two ranges is one that start-up honours. -/
theorem twoRanges_bootMap :
    BootMap 0x00200000 0xC0010000 [⟨20, 0, 0, 0x9F000, 0, 1⟩, ⟨20, 0x100000, 0, 0x180000, 0, 1⟩]
      twoRanges twoRangesLaid where
  -- Each condition is a computation.
  laid := rfl
  given := by decide
  memory := by decide +kernel
  upper := by decide +kernel
  total := by decide +kernel
  image := by decide +kernel
  mmap := by decide +kernel
  length := by decide +kernel
  inMemory := by decide +kernel
  mapped := by decide +kernel
  table := ⟨rfl, by decide, rfl, by decide, rfl⟩
  apart := Pmm.outside_of_below (by decide +kernel)

/-- The second range is free from the end of the bitmap up to its own end. -/
theorem pmmInit_exact_twoRanges :
    ∃ u, pmmInit 3 0x00200000 multibootBootloaderMagic 0xC0010000 twoRanges = some u ∧
      ¬ u.IsFree 512 ∧ u.IsFree 513 ∧ u.IsFree 639 ∧ ¬ u.IsFree 640 := by
  -- What the general theorem says of this map is computed.
  obtain ⟨u, runs, pages, first, free, -⟩ := pmmInit_exact twoRanges_bootMap (show 2 < 3 by decide)
  have upper : (infoMemUpper twoRanges.memory 0xC0010000).toNat = 2048 := by decide +kernel
  rw [upper] at pages
  rw [pages] at first
  refine ⟨u, runs, ?_⟩
  simp only [free, Pmm.Offered, pages, first]
  decide +kernel

end Example

end MyOS.Mm
