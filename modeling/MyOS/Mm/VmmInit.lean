import MyOS.Mm.MemoryMap
import MyOS.Mm.VmmLaws

/-! How the kernel's own directory is built, and how much of memory fits in its half. -/

namespace MyOS.Mm

/-- The loop of `vmm_init`: map so many pages of memory from an address on, unless one fails. -/
def mapKernelPages : Nat → UInt32 → Vmm → Bool × Vmm
  | 0, _, s => (true, s)
  | count + 1, addr, s =>
    match vmmMapPage (vmmKernelBase + addr) addr vmmPageWritable s with
    | (false, s) => (false, s)
    | (true, s) => mapKernelPages count (addr + pageSize) s

/--
`vmm_init`: build the kernel's directory, which maps all of memory from `0xC0000000` on.

The processor starts to use the directory at the end, which the model does not show.
-/
def vmmInit (s : Vmm) : Bool × Vmm :=
  if !s.ready then (false, s)
  else
    match s.alloc with
    | (pageDirectoryPhys, s) =>
      let s := { s with currentPageDirectoryPhys := pageDirectoryPhys }
      if pageDirectoryPhys == 0 then (false, s)
      else
        let s := { s.clearPage pageDirectoryPhys with
          kernelPageDirectoryPhys := pageDirectoryPhys
          kernelMappedBytes := s.totalMemoryBytes &&& pageAddrMask }
        match mapKernelPages (s.kernelMappedBytes / pageSize).toNat 0 s with
        | (false, s) => (false, s)
        | (true, s) => (true, { s with vmmReady := true })

/-- The direct map covers memory, and stays in the kernel's half. -/
structure DirectMap (s : Vmm) : Prop where
  /-- The sum of the base and any page address is an address. -/
  fits : ∀ a : UInt32, a % pageSize = 0 → a < s.kernelMappedBytes →
    vmmKernelBase.toNat + a.toNat ≤ 2 ^ 32 - 1
  /-- Each page of memory is found at its distance from the base, and is not the user's. -/
  maps : ∀ a : UInt32, a % pageSize = 0 → a < s.kernelMappedBytes →
    vmmGetMappingInDirectory s.kernelPageDirectoryPhys (vmmKernelBase + a) s = some a ∧
      ∃ entry, vmmGetPageEntryInDirectory s.kernelPageDirectoryPhys (vmmKernelBase + a) s =
        some entry ∧ entry &&& vmmPageUser = 0
  /-- The user's half is empty. -/
  userHalf : ∀ i, i < kernelDirectoryStart →
    s.entry s.kernelPageDirectoryPhys i &&& pagePresent = 0

/-- A directory under construction: each table has an entry and a page of its own. -/
structure Building (d : Nat) (s : Vmm) : Prop where
  pmm : s.toPmm.Sound
  current : s.currentPageDirectoryPhys.toNat = d * 4096
  inPool : s.InPool d
  taken : s.bitmapTest d = true
  table : ∀ {i}, i < 1024 → flagOf (s.pde d i) 0 = true →
    s.InPool (pageOf (s.pde d i)) ∧ s.bitmapTest (pageOf (s.pde d i)) = true ∧
      pageOf (s.pde d i) ≠ d
  apart : ∀ {i j}, i < 1024 → j < 1024 → flagOf (s.pde d i) 0 = true →
    flagOf (s.pde d j) 0 = true → pageOf (s.pde d i) = pageOf (s.pde d j) → i = j

/-- A page that was free has become a table without entries, in the `e`-th place of the directory. -/
structure Tabled (d f e : Nat) (word : UInt32) (s t : Vmm) : Prop where
  sound : t.toPmm.Sound
  layout : s.toPmm.SameLayout t.toPmm
  current : t.currentPageDirectoryPhys = s.currentPageDirectoryPhys
  kernel : t.kernelPageDirectoryPhys = s.kernelPageDirectoryPhys
  mapped : t.kernelMappedBytes = s.kernelMappedBytes
  inPool : s.InPool f
  free : s.bitmapTest f = false
  flag : flagOf word 0 = true
  page : pageOf word = f
  flags : ∀ {g}, g < s.totalPages.toNat → t.bitmapTest g = if g = f then true else s.bitmapTest g
  pdes : ∀ {j}, j < 1024 → t.pde d j = if j = e then word else s.pde d j
  same : ∀ {g}, s.firstPage ≤ g → g ≠ d → g ≠ f → s.memory.SamePage t.memory g
  blank : ∀ {k}, k < 1024 → wordAt t.memory (f * 4096 + 4 * k) = 0

/-- There are at least as many free pages as entries without a table. -/
def Vmm.Room (d : Nat) (s : Vmm) : Prop :=
  clearCount (fun i => flagOf (s.pde d i) 0) 1024 ≤ clearCount s.bitmapTest s.totalPages.toNat

/-- A step on the directory under construction that makes one page lead somewhere. -/
structure Builds (d v : Nat) (word : UInt32) (s t : Vmm) : Prop where
  building : Building d t
  layout : s.toPmm.SameLayout t.toPmm
  kernel : t.kernelPageDirectoryPhys = s.kernelPageDirectoryPhys
  mapped : t.kernelMappedBytes = s.kernelMappedBytes
  cells : ∀ {v'}, v' < 1048576 → t.cell d v' = if v' = v then word else s.cell d v'
  present : ∀ {i}, i < 1024 →
    flagOf (t.pde d i) 0 = (flagOf (s.pde d i) 0 || decide (i = v / 1024))
  room : s.Room d → t.Room d

/-- The page of the address space where a page of memory is mapped, from the kernel's half on. -/
def directPage (j : Nat) : Nat := (786432 + j) % 1048576

/-- So many pages of memory are mapped, each at its place, and nothing else is. -/
structure Mapped (d n : Nat) (s : Vmm) : Prop where
  building : Building d s
  cells : ∀ {j}, j < n →
    s.cell d (directPage j) = leafEntry (UInt32.ofNat (j * 4096)) vmmPageWritable
  present : ∀ {i}, i < 1024 → (flagOf (s.pde d i) 0 = true ↔ ∃ j, j < n ∧ directPage j / 1024 = i)

section Laws

variable {s t u : Vmm} {d f v i : Nat} {word dir virtAddr physAddr flags : UInt32}

/-- Storing an entry behind the bitmap is sound, and marks no page. -/
theorem Pmm.Sound.setEntry (sound : s.toPmm.Sound) (behind : s.firstPage ≤ f) {table : UInt32}
    (at_ : table.toNat = f * 4096) (i : Nat) (word : UInt32) :
    (s.setEntry table i word).toPmm.Sound ∧ ∀ page, page < s.totalPages.toNat →
      (s.setEntry table i word).bitmapTest page = s.bitmapTest page :=
  -- The entry lies in a page behind the bitmap.
  sound.withMemory fun k low => by rw [at_]; exact storeWord_below behind word low

/-- The memory after an entry is stored, by the page of the table. -/
theorem setEntry_memory {table : UInt32} (at_ : table.toNat = f * 4096) (i : Nat) (word : UInt32) :
    (s.setEntry table i word).memory = s.memory.storeWord (f * 4096 + 4 * i) word := by
  rw [Vmm.setEntry, at_]

namespace Builds

/-- Doing nothing leaves every page as it is. -/
theorem refl (building : Building d s) (present : flagOf (s.pde d (v / 1024)) 0 = true) :
    Builds d v (s.cell d v) s s := by
  -- The page has its table, so nothing had to be made.
  refine ⟨building, .refl _, rfl, rfl, fun _ => ?_, fun {i} _ => ?_, id⟩
  · split
    · next same => rw [same]
    · rfl
  · by_cases here : i = v / 1024
    · rw [here, present, Bool.true_or]
    · rw [decide_eq_false here, Bool.or_false]

/-- The second of two changes of one page is the one that shows. -/
theorem trans {first second : UInt32} (one : Builds d v first s t) (two : Builds d v second t u) :
    Builds d v second s u := by
  -- What the steps leave alone is the same, and the room is handed on.
  refine ⟨two.building, one.layout.trans two.layout, two.kernel.trans one.kernel,
    two.mapped.trans one.mapped, fun small => ?_, fun below => ?_, two.room ∘ one.room⟩
  · rw [two.cells small]
    split
    · rfl
    · next other => rw [one.cells small, if_neg other]
  · rw [two.present below, one.present below, Bool.or_assoc, Bool.or_self]

end Builds

namespace Building

/-- Page zero is never the directory. -/
theorem positive (building : Building d s) : 0 < d := building.pmm.positive building.inPool

/-- The pages of the directory and of its tables lie behind the bitmap. -/
theorem table_behind (building : Building d s) (inside : i < 1024)
    (present : flagOf (s.pde d i) 0 = true) : s.firstPage ≤ pageOf (s.pde d i) :=
  (building.table inside present).1.above

/-- A page is taken, cleared and entered as a table, or no page is free. -/
theorem makePageTable_tabled (building : Building d s) {e : Nat} (inside : e < 1024)
    (at_ : dir.toNat = d * 4096) (flags : UInt32) :
    (makePageTable dir e flags s = none ∧ ∀ f, f < s.totalPages.toNat → s.bitmapTest f = true) ∨
    ∃ f word t, makePageTable dir e flags s = some t ∧ Tabled d f e word s t := by
  -- A page that the allocator hands out is free, and so is not the directory.
  unfold makePageTable Vmm.alloc
  rcases pmmAllocPage_cases building.pmm with ⟨result, full⟩ | ⟨f, result, inPool, free, -, marks⟩
  · left
    rw [result]
    exact ⟨rfl, full⟩
  right
  have fits := inPool.below.trans building.pmm.pages
  have address := toNat_ofNat_page fits
  have positive := building.pmm.positive inPool
  rw [result]
  simp only
  rw [if_neg (by simpa using ne_zero_of_page address positive)]
  have other : f ≠ d := by
    rintro rfl
    exact nomatch free.symm.trans building.taken
  -- The state after the page is taken, after it is cleared, and the word that is entered.
  let r : Vmm := { s with toPmm := s.toPmm.reservePage f }
  let c := r.clearPage (UInt32.ofNat (f * 4096))
  let word := newTableEntry (UInt32.ofNat (f * 4096)) flags
  obtain ⟨flag, -, -⟩ := newTableEntry_flags (UInt32.ofNat (f * 4096)) flags
  have above := Nat.mul_le_mul_right 4096 inPool.above
  obtain ⟨soundC, flagsC⟩ := @Pmm.Sound.withMemory r.toPmm marks.sound c.memory fun k low => by
    rw [marks.layout.firstPage] at low
    exact clearPage_outside address (Or.inl (Nat.lt_of_lt_of_le low above))
  have behind : c.firstPage ≤ d := by
    change r.toPmm.firstPage ≤ d
    rw [marks.layout.firstPage]
    exact building.inPool.above
  obtain ⟨soundT, flagsT⟩ := Pmm.Sound.setEntry (s := c) soundC behind at_ e word
  refine ⟨f, word, c.setEntry dir e word, rfl, soundT, marks.layout.trans ⟨rfl, rfl, rfl, rfl, rfl⟩,
    rfl, rfl, rfl, inPool, free, flag, newTableEntry_page fits flags, ?_, ?_, ?_, ?_⟩
  · -- Only the bit of the page is set.
    intro g below
    have below' : g < r.totalPages.toNat := by
      change g < (s.toPmm.reservePage f).totalPages.toNat
      rw [marks.layout.totalPages]
      exact below
    exact (flagsT g below').trans ((flagsC g below').trans (marks.flags g below))
  · -- The directory lies outside the page that is cleared, and gains the word.
    intro j below
    have old : c.pde d j = s.pde d j :=
      pde_congr ((marks.memory d building.inPool.above).trans
        (clearPage_samePage address (Ne.symm other))) below
    rw [← old]
    unfold Vmm.pde
    rw [setEntry_memory at_, Memory.wordAt_storeWord_index]
  · intro g low notDir notNew
    rw [setEntry_memory at_]
    exact ((marks.memory g low).trans (clearPage_samePage address notNew)).trans
      (samePage_storeWord inside word notDir)
  · intro k below
    rw [setEntry_memory at_, (samePage_storeWord inside word other).wordAt below]
    exact clearPage_zero address below

end Building

namespace Tabled

variable {e : Nat}

/-- The new table is neither the directory nor another table, for these are taken. -/
theorem apart (tabled : Tabled d f e word s t) (building : Building d s) :
    f ≠ d ∧ ∀ {j}, j < 1024 → flagOf (s.pde d j) 0 = true → pageOf (s.pde d j) ≠ f := by
  -- A page is not both free and taken.
  constructor
  · rintro rfl
    exact nomatch tabled.free.symm.trans building.taken
  · rintro j below present rfl
    exact nomatch tabled.free.symm.trans (building.table below present).2.1

/-- The directory is still under construction. -/
theorem building (tabled : Tabled d f e word s t) (building : Building d s) : Building d t := by
  obtain ⟨other, unlike⟩ := tabled.apart building
  refine ⟨tabled.sound, ?_, tabled.layout.inPool.mpr building.inPool, ?_, ?_, ?_⟩
  · rw [tabled.current]
    exact building.current
  · rw [tabled.flags building.inPool.below, building.taken, ite_self]
  · -- The new entry has the new page, and the others have the page they had.
    intro j below present
    rw [tabled.pdes below] at present ⊢
    split
    · rw [tabled.page, tabled.flags tabled.inPool.below, if_pos rfl]
      exact ⟨tabled.layout.inPool.mpr tabled.inPool, rfl, other⟩
    · next old =>
      rw [if_neg old] at present
      obtain ⟨pool, taken, apart⟩ := building.table below present
      rw [tabled.flags pool.below, taken, ite_self]
      exact ⟨tabled.layout.inPool.mpr pool, rfl, apart⟩
  · -- Only the new entry has the new page, and the others were apart before.
    intro j k belowJ belowK presentJ presentK equal
    rw [tabled.pdes belowJ] at presentJ equal
    rw [tabled.pdes belowK] at presentK equal
    by_cases hereJ : j = e <;> by_cases hereK : k = e
    · exact hereJ.trans hereK.symm
    · rw [if_pos hereJ, if_neg hereK, tabled.page] at equal
      rw [if_neg hereK] at presentK
      exact absurd equal.symm (unlike belowK presentK)
    · rw [if_neg hereJ, if_pos hereK, tabled.page] at equal
      rw [if_neg hereJ] at presentJ
      exact absurd equal (unlike belowJ presentJ)
    · rw [if_neg hereJ, if_neg hereK] at equal
      rw [if_neg hereJ] at presentJ
      rw [if_neg hereK] at presentK
      exact building.apart belowJ belowK presentJ presentK equal

/-- No page leads elsewhere for the table. -/
theorem cell (tabled : Tabled d f e word s t) (building : Building d s) (inside : e < 1024)
    (absent : flagOf (s.pde d e) 0 = false) (small : v < 1048576) : t.cell d v = s.cell d v := by
  obtain ⟨-, unlike⟩ := tabled.apart building
  by_cases here : v / 1024 = e
  · -- A page of the new table leads nowhere, as it did without one.
    have old : s.cell d v = 0 := cell_eq_zero (by rw [here]; exact absent)
    rw [old, Vmm.cell, here, tabled.pdes inside, if_pos rfl, if_pos tabled.flag, tabled.page]
    exact tabled.blank (Nat.mod_lt _ (by omega))
  · have below : v / 1024 < 1024 := by omega
    have entry := tabled.pdes below
    rw [if_neg here] at entry
    exact cell_congr entry fun present => tabled.same (building.table_behind below present)
      (building.table below present).2.2 (unlike below present)

/-- Both the free pages and the entries without a table are one fewer. -/
theorem room (tabled : Tabled d f e word s t) (inside : e < 1024)
    (absent : flagOf (s.pde d e) 0 = false) (room : s.Room d) : t.Room d := by
  -- One entry gains its first flag, and one page its bit.
  have entries := @clearCount_add_card (fun j => flagOf (s.pde d j) 0)
    (fun j => flagOf (t.pde d j) 0) 1024 {e}
    (fun j member => by rw [Finset.mem_singleton.mp member]; exact ⟨inside, absent⟩)
    (fun j below => by
      simp only [tabled.pdes below, Finset.mem_singleton]
      by_cases here : j = e
      · rw [if_pos here]
        exact ⟨fun _ => Or.inr here, fun _ => tabled.flag⟩
      · rw [if_neg here, or_iff_left here])
  have pages := @clearCount_add_card s.bitmapTest t.bitmapTest s.totalPages.toNat {f}
    (fun g member => by
      rw [Finset.mem_singleton.mp member]
      exact ⟨tabled.inPool.below, tabled.free⟩)
    (fun g below => by
      rw [tabled.flags below, Finset.mem_singleton]
      by_cases here : g = f
      · rw [if_pos here]
        exact ⟨fun _ => Or.inr here, fun _ => rfl⟩
      · rw [if_neg here, or_iff_left here])
  rw [Finset.card_singleton] at entries pages
  unfold Vmm.Room at room ⊢
  rw [tabled.layout.totalPages]
  omega

end Tabled

namespace Building

/--
A page that was free becomes the table of an entry that had none.

No page leads elsewhere for it, and both the free pages and the entries without a table are one
fewer.
-/
theorem makePageTable_cases (building : Building d s) (small : v < 1048576)
    (absent : flagOf (s.pde d (v / 1024)) 0 = false) (at_ : dir.toNat = d * 4096) (flags : UInt32) :
    (makePageTable dir (v / 1024) flags s = none ∧
      ∀ f, f < s.totalPages.toNat → s.bitmapTest f = true) ∨
    ∃ t, makePageTable dir (v / 1024) flags s = some t ∧ Builds d v (s.cell d v) s t ∧
      flagOf (t.pde d (v / 1024)) 0 = true := by
  have inside : v / 1024 < 1024 := by omega
  rcases building.makePageTable_tabled inside at_ flags with full | ⟨f, word, t, result, tabled⟩
  · exact Or.inl full
  -- What a table without entries changes is what a step may change.
  refine Or.inr ⟨t, result, ⟨tabled.building building, tabled.layout, tabled.kernel, tabled.mapped,
    fun {v'} small' => ?_, fun {j} below => ?_, tabled.room inside absent⟩, ?_⟩
  · rw [tabled.cell building inside absent small']
    split
    · next equal => rw [equal]
    · rfl
  · rw [tabled.pdes below]
    by_cases here : j = v / 1024
    · rw [if_pos here, tabled.flag, decide_eq_true here, Bool.or_true]
    · rw [if_neg here, decide_eq_false here, Bool.or_false]
  · rw [tabled.pdes inside, if_pos rfl]
    exact tabled.flag

/-- An entry of a table is replaced, which shows in what its own page leads to. -/
theorem setCell (building : Building d s) (small : v < 1048576)
    (present : flagOf (s.pde d (v / 1024)) 0 = true) {table : UInt32}
    (at_ : table.toNat = pageOf (s.pde d (v / 1024)) * 4096) (word : UInt32) :
    Builds d v word s (s.setEntry table (v % 1024) word) := by
  have inside : v / 1024 < 1024 := by omega
  have within : v % 1024 < 1024 := Nat.mod_lt _ (by omega)
  obtain ⟨-, -, other⟩ := building.table inside present
  obtain ⟨sound, flags⟩ :=
    building.pmm.setEntry (building.table_behind inside present) at_ (v % 1024) word
  have pdes : ∀ {j}, j < 1024 → (s.setEntry table (v % 1024) word).pde d j = s.pde d j := by
    intro j below
    refine pde_congr ?_ below
    rw [setEntry_memory at_]
    exact samePage_storeWord within word (Ne.symm other)
  have layout : s.toPmm.SameLayout (s.setEntry table (v % 1024) word).toPmm :=
    ⟨rfl, rfl, rfl, rfl, rfl⟩
  refine ⟨⟨sound, building.current, layout.inPool.mpr building.inPool, ?_, fun below present => ?_,
    fun belowJ belowK presentJ presentK equal => ?_⟩, layout, rfl, rfl,
    fun {v'} small' => ?_, fun {i} below => ?_, fun room => ?_⟩
  · rw [flags d building.inPool.below]
    exact building.taken
  · rw [pdes below] at present ⊢
    obtain ⟨pool, taken, apart⟩ := building.table below present
    exact ⟨layout.inPool.mpr pool, (flags _ pool.below).trans taken, apart⟩
  · rw [pdes belowJ] at presentJ equal
    rw [pdes belowK] at presentK equal
    exact building.apart belowJ belowK presentJ presentK equal
  · have below : v' / 1024 < 1024 := by omega
    have entry := pdes below
    by_cases here : v' / 1024 = v / 1024
    · -- A page of this very table: the one written, or a neighbour of it.
      unfold Vmm.cell
      rw [entry, here, if_pos present, if_pos present, setEntry_memory at_, Memory.wordAt_storeWord_index]
      congr 1
      rw [eq_iff_iff]
      omega
    · rw [if_neg (by rintro rfl; exact here rfl)]
      refine cell_congr entry fun present' => ?_
      rw [setEntry_memory at_]
      exact samePage_storeWord within word fun same =>
        here (building.apart below inside present' present same)
  · rw [pdes below]
    by_cases here : i = v / 1024
    · rw [here, present, Bool.true_or]
    · rw [decide_eq_false here, Bool.or_false]
  · unfold Vmm.Room at room ⊢
    rw [clearCount_congr fun j below => congrArg (flagOf · 0) (pdes below)]
    exact room.trans_eq (clearCount_congr fun g below => (flags g below).symm)

/-- Mapping a page for the kernel makes it lead to memory, unless no page was left for its table. -/
theorem vmmMapPage_cases (building : Building d s) (virtAligned : virtAddr.toNat % 4096 = 0)
    (physAligned : physAddr.toNat % 4096 = 0) (plain : flagOf flags 2 = false) :
    (vmmMapPage virtAddr physAddr flags s = (false, s) ∧ ¬ s.Room d) ∨
    ∃ t, vmmMapPage virtAddr physAddr flags s = (true, t) ∧
      Builds d (virtAddr.toNat / 4096) (leafEntry physAddr flags) s t := by
  have at_ := building.current
  have small := page_small virtAddr
  unfold vmmMapPage mapPageInDirectory
  rw [if_neg (by simpa using ne_zero_of_page at_ building.positive), mod_pageSize_ne_zero,
    mod_pageSize_ne_zero, if_neg (by simp [virtAligned, physAligned])]
  simp only [pageDirectoryIndex_eq, pageTableIndex_eq]
  generalize virtAddr.toNat / 4096 = v at small
  have prepared : (preparePageTable s.currentPageDirectoryPhys (v / 1024) flags s = none ∧
      ¬ s.Room d) ∨ ∃ t, preparePageTable s.currentPageDirectoryPhys (v / 1024) flags s = some t ∧
        Builds d v (s.cell d v) s t ∧ flagOf (t.pde d (v / 1024)) 0 = true := by
    unfold preparePageTable
    simp only [entry_directory at_, and_pagePresent_eq_zero, and_vmmPageUser_ne_zero, plain]
    cases present : flagOf (s.pde d (v / 1024)) 0 with
    | true =>
      right
      exact ⟨s, rfl, .refl building present, present⟩
    | false =>
      rcases building.makePageTable_cases small present at_ flags with ⟨result, full⟩ | made
      · left
        refine ⟨result, fun room => ?_⟩
        -- Without a free page there is no entry without a table either.
        rw [Vmm.Room, clearCount_eq_zero.mpr full, Nat.le_zero, clearCount_eq_zero] at room
        exact nomatch present.symm.trans (room (v / 1024) (by omega))
      · exact Or.inr made
  rcases prepared with ⟨result, full⟩ | ⟨t, result, builds, present⟩
  · left
    rw [result]
    exact ⟨rfl, full⟩
  · right
    rw [result]
    simp only [entry_directory at_]
    -- The counter of mapped pages is all that differs between the two branches.
    refine ⟨_, rfl, builds.trans ?_⟩
    have table := toNat_pageTableFromDirectory (t.pde d (v / 1024))
    split
    · have stored := @setCell { t with mappedPages := t.mappedPages + 1 } d v
        ⟨builds.building.pmm, builds.building.current, builds.building.inPool, builds.building.taken,
          builds.building.table, builds.building.apart⟩ small present _ table (leafEntry physAddr flags)
      exact ⟨stored.building, stored.layout, stored.kernel, stored.mapped, stored.cells, stored.present,
        stored.room⟩
    · exact builds.building.setCell small present table _

end Building

/-- There are no more places than pages of the address space. -/
theorem directPage_lt (j : Nat) : directPage j < 1048576 := Nat.mod_lt _ (by omega)

/-- The loop maps one page of memory after the other, or fails where there is no room for tables. -/
theorem mapKernelPages_cases (count : Nat) {n : Nat} (small : n + count < 1048576)
    (mapped : Mapped d n s) :
    ((∃ t, mapKernelPages count (UInt32.ofNat (n * 4096)) s = (false, t)) ∧ ¬ s.Room d) ∨
    ∃ t, mapKernelPages count (UInt32.ofNat (n * 4096)) s = (true, t) ∧ Mapped d (n + count) t ∧
      s.toPmm.SameLayout t.toPmm ∧ t.kernelPageDirectoryPhys = s.kernelPageDirectoryPhys ∧
      t.kernelMappedBytes = s.kernelMappedBytes := by
  induction count generalizing n s with
  | zero => exact Or.inr ⟨s, rfl, mapped, .refl _, rfl, rfl⟩
  | succ count ih =>
    have address : (UInt32.ofNat (n * 4096)).toNat = n * 4096 := toNat_ofNat_page (by omega)
    have virt : (vmmKernelBase + UInt32.ofNat (n * 4096)).toNat = directPage n * 4096 := by
      rw [UInt32.toNat_add, address]
      change (3221225472 + n * 4096) % 4294967296 = (786432 + n) % 1048576 * 4096
      omega
    have next : UInt32.ofNat (n * 4096) + pageSize = UInt32.ofNat ((n + 1) * 4096) := by
      rw [Nat.add_mul, UInt32.ofNat_add]
      rfl
    unfold mapKernelPages
    rcases mapped.building.vmmMapPage_cases (show _ % 4096 = 0 by rw [virt]; omega)
      (show _ % 4096 = 0 by rw [address]; omega) (show flagOf vmmPageWritable 2 = false from rfl) with
      ⟨result, full⟩ | ⟨t, result, builds⟩
    · left
      rw [result]
      exact ⟨⟨s, rfl⟩, full⟩
    · rw [result, next]
      rw [virt, Nat.mul_div_cancel _ (by omega)] at builds
      -- The page just mapped is another one than those before.
      have here : Mapped d (n + 1) t := by
        refine ⟨builds.building, fun {j} below => ?_, fun {i} below => ?_⟩
        · rw [builds.cells (directPage_lt j)]
          by_cases last : j = n
          · rw [if_pos (by rw [last]), last]
          · rw [if_neg (by unfold directPage; omega), mapped.cells (by omega)]
        · rw [builds.present below, Bool.or_eq_true, mapped.present below, decide_eq_true_eq]
          constructor
          · rintro (⟨j, earlier, at_⟩ | last)
            · exact ⟨j, by omega, at_⟩
            · exact ⟨n, by omega, last.symm⟩
          · intro ⟨j, earlier, at_⟩
            by_cases last : j = n
            · exact Or.inr (by rw [← last]; exact at_.symm)
            · exact Or.inl ⟨j, by omega, at_⟩
      rcases ih (show n + 1 + count < 1048576 by omega) here with
        ⟨fails, full⟩ | ⟨u, runs, all, layout, kernel, bytes⟩
      · exact Or.inl ⟨fails, full ∘ builds.room⟩
      · refine Or.inr ⟨u, runs, ?_, builds.layout.trans layout, kernel.trans builds.kernel,
          bytes.trans builds.mapped⟩
        rw [show n + (count + 1) = n + 1 + count by omega]
        exact all

/-- A page that was just cleared is a directory to start from. -/
theorem Mapped.start (sound : t.toPmm.Sound) (inPool : t.InPool d) (taken : t.bitmapTest d = true)
    (current : t.currentPageDirectoryPhys.toNat = d * 4096)
    (clear : ∀ {i}, i < 1024 → t.pde d i = 0) : Mapped d 0 t := by
  -- A directory of zeros has no table, so no page is mapped.
  have absent : ∀ {i}, i < 1024 → flagOf (t.pde d i) 0 = false := by
    intro i below
    rw [clear below]
    rfl
  refine ⟨⟨sound, current, inPool, taken, fun below present => ?_, fun below _ present => ?_⟩,
    fun none_ => absurd none_ (Nat.not_lt_zero _), fun below => ?_⟩
  · exact nomatch (absent below).symm.trans present
  · exact nomatch (absent below).symm.trans present
  · rw [absent below]
    exact ⟨nofun, fun ⟨_, none_, _⟩ => absurd none_ (Nat.not_lt_zero _)⟩

/-- The kernel's directory maps all of memory, or there were too few pages for it. -/
theorem vmmInit_cases (sound : s.toPmm.Sound) :
    ((∃ t, vmmInit s = (false, t)) ∧ clearCount s.bitmapTest s.totalPages.toNat < 1025) ∨
    ∃ d t, vmmInit s = (true, t) ∧ Mapped d (s.totalMemoryBytes.toNat / 4096) t ∧
      t.kernelPageDirectoryPhys.toNat = d * 4096 ∧
      t.kernelMappedBytes = s.totalMemoryBytes &&& pageAddrMask := by
  -- The directory takes a page and the tables at most as many as entries, of which there are
  -- enough.
  unfold vmmInit Vmm.alloc
  rw [if_neg (by simp [sound.ready])]
  rcases pmmAllocPage_cases sound with ⟨result, full⟩ | ⟨f, result, inPool, free, -, marks⟩
  · left
    rw [result]
    exact ⟨⟨_, rfl⟩, by rw [clearCount_eq_zero.mpr full]; omega⟩
  rw [result]
  have address := toNat_ofNat_page (inPool.below.trans sound.pages)
  simp only
  rw [if_neg (by simpa using ne_zero_of_page address (sound.positive inPool))]
  let r : Vmm := { s with
    toPmm := s.toPmm.reservePage f
    currentPageDirectoryPhys := UInt32.ofNat (f * 4096) }
  let c : Vmm := { r.clearPage (UInt32.ofNat (f * 4096)) with
    kernelPageDirectoryPhys := UInt32.ofNat (f * 4096)
    kernelMappedBytes := r.totalMemoryBytes &&& pageAddrMask }
  have above := Nat.mul_le_mul_right 4096 inPool.above
  obtain ⟨soundC, flags⟩ := @Pmm.Sound.withMemory r.toPmm marks.sound c.memory fun k low => by
    rw [marks.layout.firstPage] at low
    exact clearPage_outside address (Or.inl (Nat.lt_of_lt_of_le low above))
  have layout : s.toPmm.SameLayout c.toPmm := marks.layout.trans ⟨rfl, rfl, rfl, rfl, rfl⟩
  have flags : ∀ g, g < s.totalPages.toNat → c.bitmapTest g = if g = f then true else s.bitmapTest g := by
    intro g below
    refine (flags g ?_).trans (marks.flags g below)
    change g < (s.toPmm.reservePage f).totalPages.toNat
    rw [marks.layout.totalPages]
    exact below
  have start : Mapped f 0 c := .start soundC (layout.inPool.mpr inPool)
    (by rw [flags f inPool.below, if_pos rfl]) address fun below => clearPage_zero address below
  have count : (c.kernelMappedBytes / pageSize).toNat = s.totalMemoryBytes.toNat / 4096 := by
    rw [UInt32.toNat_div]
    change (r.totalMemoryBytes &&& 0xFFFFF000).toNat / 4096 = _
    rw [toNat_and_pageMask, Nat.mul_div_cancel _ (by omega)]
    change pageOf (s.toPmm.reservePage f).totalMemoryBytes = _
    rw [marks.layout.totalMemoryBytes]
    rfl
  have room : 1025 ≤ clearCount s.bitmapTest s.totalPages.toNat → c.Room f := by
    intro enough
    have pages := @clearCount_add_card s.bitmapTest c.bitmapTest s.totalPages.toNat {f}
      (fun g member => by rw [Finset.mem_singleton.mp member]; exact ⟨inPool.below, free⟩)
      (fun g below => by
        rw [flags g below, Finset.mem_singleton]
        by_cases here : g = f
        · rw [if_pos here]
          exact ⟨fun _ => Or.inr here, fun _ => rfl⟩
        · rw [if_neg here, or_iff_left here])
    have entries : clearCount (fun i => flagOf (c.pde f i) 0) 1024 ≤ 1024 :=
      (Finset.card_filter_le _ _).trans_eq (Finset.card_range 1024)
    rw [Finset.card_singleton] at pages
    unfold Vmm.Room
    rw [layout.totalPages]
    omega
  have most : 0 + s.totalMemoryBytes.toNat / 4096 < 1048576 := by
    rw [Nat.zero_add]
    exact page_small s.totalMemoryBytes
  have mapped := mapKernelPages_cases _ most start
  rw [← count, Nat.zero_mul] at mapped
  rcases mapped with ⟨⟨u, fails⟩, full⟩ | ⟨u, runs, all, -, kernel, bytes⟩
  · left
    refine ⟨⟨u, ?_⟩, Nat.lt_of_not_le (full ∘ room)⟩
    change (match mapKernelPages (c.kernelMappedBytes / pageSize).toNat (UInt32.ofNat 0) c with
      | (false, s) => (false, s)
      | (true, s) => (true, { s with vmmReady := true })) = (false, u)
    rw [fails]
  · right
    rw [count, Nat.zero_add] at all
    refine ⟨f, { u with vmmReady := true }, ?_, ⟨⟨all.building.pmm, all.building.current,
      all.building.inPool, all.building.taken, all.building.table, all.building.apart⟩, all.cells,
      all.present⟩,
      ?_, ?_⟩
    · change (match mapKernelPages (c.kernelMappedBytes / pageSize).toNat (UInt32.ofNat 0) c with
        | (false, s) => (false, s)
        | (true, s) => (true, { s with vmmReady := true })) = (true, _)
      rw [runs]
    · change u.kernelPageDirectoryPhys.toNat = _
      rw [kernel]
      exact address
    · refine bytes.trans ?_
      change (s.toPmm.reservePage f).totalMemoryBytes &&& pageAddrMask = _
      rw [marks.layout.totalMemoryBytes]

/-- What the kernel's directory leads to at the address where a page of memory is mapped. -/
theorem Mapped.direct {n : Nat} (mapped : Mapped d n s) (at_ : s.kernelPageDirectoryPhys.toNat = d * 4096)
    {a : UInt32} (aligned : a.toNat % 4096 = 0) (below : a.toNat / 4096 < n) :
    vmmGetMappingInDirectory s.kernelPageDirectoryPhys (vmmKernelBase + a) s = some a ∧
      ∃ entry, vmmGetPageEntryInDirectory s.kernelPageDirectoryPhys (vmmKernelBase + a) s = some entry ∧
        entry &&& vmmPageUser = 0 := by
  -- The address is that of the page's place, whose entry was stored.
  have virt : (vmmKernelBase + a).toNat = directPage (a.toNat / 4096) * 4096 := by
    rw [UInt32.toNat_add]
    change (3221225472 + a.toNat) % 4294967296 = (786432 + a.toNat / 4096) % 1048576 * 4096
    have := a.toNat_lt
    omega
  have page : (vmmKernelBase + a).toNat / 4096 = directPage (a.toNat / 4096) := by omega
  have back : UInt32.ofNat (a.toNat / 4096 * 4096) = a := by
    rw [show a.toNat / 4096 * 4096 = a.toNat by omega, UInt32.ofNat_toNat]
  have cell := mapped.cells below
  rw [back] at cell
  obtain ⟨present, -, user⟩ := leafEntry_flags a vmmPageWritable
  have table : flagOf (s.pde d (directPage (a.toNat / 4096) / 1024)) 0 = true :=
    (mapped.present (by have := directPage_lt (a.toNat / 4096); omega)).mpr ⟨_, below, rfl⟩
  rw [vmmGetMappingInDirectory_eq at_ mapped.building.positive,
    vmmGetPageEntryInDirectory_eq at_ mapped.building.positive, page, cell, if_pos present, if_pos table]
  refine ⟨congrArg some ?_, _, rfl, ?_⟩
  · rw [toNat_frame_or_offset, leafEntry_page, virt, Nat.mul_mod_left, Nat.add_zero]
    exact back
  · have plain := (and_vmmPageUser_ne_zero (leafEntry a vmmPageWritable)).trans user
    exact bne_eq_false_iff_eq.mp plain

/-- Memory that the direct map keeps inside the address space is no larger than the kernel's half. -/
theorem DirectMap.small (direct : DirectMap s) : s.kernelMappedBytes.toNat ≤ 0x40000000 := by
  -- A page behind the first gigabyte would be mapped at address zero.
  by_contra large
  have fits := direct.fits 0x40000000 rfl
    (UInt32.lt_iff_toNat_lt.mpr (show 0x40000000 < s.kernelMappedBytes.toNat by omega))
  exact absurd fits (by decide)

/--
The direct map stays in the kernel's half exactly where memory is no larger than that half.

A larger memory wraps around into the pages of the user.
-/
theorem vmmInit_directMap_iff {fuel : Nat} {kernelPhysEnd multibootMagic info : UInt32} {p : Pmm}
    (image : kernelPhysEnd ≤ 0x40000000)
    (started : pmmInit fuel kernelPhysEnd multibootMagic info p = some s.toPmm)
    (done : vmmInit s = (true, t)) :
    DirectMap t ↔ s.totalMemoryBytes.toNat < 0x40001000 := by
  obtain ⟨sound, -⟩ := pmmInit_sound image started
  rcases vmmInit_cases sound with ⟨⟨u, fails⟩, -⟩ | ⟨d, u, runs, mapped, at_, bytes⟩
  · rw [fails] at done
    cases done
  rw [runs] at done
  obtain rfl := (Prod.mk.inj done).2
  have size : u.kernelMappedBytes.toNat = s.totalMemoryBytes.toNat / 4096 * 4096 := by
    rw [bytes]
    exact toNat_and_pageMask _
  have word : ∀ a : UInt32, a % pageSize = 0 → a.toNat % 4096 = 0 := fun a aligned => by
    have zero := congrArg UInt32.toNat aligned
    rwa [UInt32.toNat_mod] at zero
  constructor
  · -- One gigabyte above the base there is no address left.
    intro direct
    have := direct.small
    omega
  · intro small
    refine ⟨fun a aligned below => ?_, fun a aligned below => ?_, fun i below => ?_⟩
    · have aligned' := word a aligned
      rw [UInt32.lt_iff_toNat_lt, size] at below
      change 3221225472 + a.toNat ≤ _
      omega
    · rw [UInt32.lt_iff_toNat_lt, size] at below
      exact mapped.direct at_ (word a aligned) (by omega)
    · -- Below the gigabyte every page lands behind the user's half.
      change i < 768 at below
      rw [entry_directory at_, ← beq_iff_eq, and_pagePresent_eq_zero, Bool.not_eq_true']
      rw [Bool.eq_false_iff, ne_eq, mapped.present (by omega)]
      unfold directPage
      rintro ⟨j, inside, here⟩
      omega

/-- Where the boot loader offers memory up to 16 MiB, the kernel's directory can be built. -/
theorem BootMap.builds {info : UInt32} {entries : List MultibootMmapEntry} {p q : Pmm}
    (boot : BootMap 0x00200000 info entries p q) {entry : MultibootMmapEntry} (member : entry ∈ entries)
    (available : entry.IsAvailable) (low : entry.addrLow.toNat ≤ 0x100000)
    (high : 0x1000000 ≤ entry.addrLow.toNat + entry.lenLow.toNat)
    (large : 0xF00000 ≤ (infoMemUpper p.memory info).toNat * 1024) {fuel : Nat}
    (enough : entries.length < fuel) :
    ∃ s t : Vmm, pmmInit fuel 0x00200000 multibootBootloaderMagic info p = some s.toPmm ∧
      s.totalMemoryBytes.toNat = 0x100000 + (infoMemUpper p.memory info).toNat * 1024 ∧
      vmmInit s = (true, t) := by
  obtain ⟨u, runs, -, bytes, pages, first, free⟩ := boot.started enough
  obtain ⟨sound, -⟩ := pmmInit_sound (by decide) runs
  refine ⟨⟨u, 0, 0, 0, 0, false⟩, ?_⟩
  rcases vmmInit_cases (s := ⟨u, 0, 0, 0, 0, false⟩) sound with ⟨-, few⟩ | ⟨d, t, done, -⟩
  · -- Two thousand pages behind the bitmap are free, however long it is.
    have total := boot.total
    have many : 3000 - 1000 ≤ clearCount u.bitmapTest u.totalPages.toNat := by
      refine le_clearCount fun page above below => (free page).mpr ⟨by omega, ?_, entry, member,
        available, by omega, by omega⟩
      rw [first]
      change max 1048576 ((2101247 / 4096 * 4096 + (u.totalPages.toNat + 7) / 8 + 4095) / 4096 * 4096) ≤ _
      omega
    change clearCount u.bitmapTest u.totalPages.toNat < 1025 at few
    omega
  · exact ⟨t, runs, bytes, done⟩

end Laws

section Example

/-- Boot information at 64 KiB for so many KiB from 1 MiB on, and a map with one range of them. -/
def oneRange (upper length : UInt32) : Pmm where
  memory := [(0x10000, 0x41), (0x10008, upper), (0x1002C, 24), (0x10030, 0x20000),
    (0x20000, 20), (0x20004, 0x100000), (0x2000C, length), (0x20014, 1)].foldl
    (fun memory (at_, word) => memory.storeWord at_ word) fun _ => 0
  bitmapBase := 0
  bitmapBytes := 0
  totalMemoryBytes := 0
  totalPages := 0
  freePages := 0
  ready := false

/-- The layout that the one range finds, behind a kernel that ends at 2 MiB. -/
def oneRangeLaid (upper length : UInt32) : Pmm :=
  pmmLayOut 0x00200000 multibootBootloaderMagic 0xC0010000 (oneRange upper length)

/-- One range up to 16 MiB is a map that start-up honours. -/
theorem oneRange_bootMap_small :
    BootMap 0x00200000 0xC0010000 [⟨20, 0x100000, 0, 0xF00000, 0, 1⟩] (oneRange 15360 0xF00000)
      (oneRangeLaid 15360 0xF00000) where
  -- Each condition is a computation.
  laid := rfl
  given := by decide
  memory := by decide +kernel
  upper := by decide +kernel
  total := by decide +kernel
  image := by decide +kernel
  mmap := by decide +kernel
  length := by decide +kernel
  inMemory := by decide +kernel
  mapped := by decide +kernel
  table := ⟨rfl, by decide, rfl⟩
  apart := Pmm.outside_of_below (by decide +kernel)

/-- One range up to one page more than a gigabyte is a map that start-up honours. -/
theorem oneRange_bootMap_large :
    BootMap 0x00200000 0xC0010000 [⟨20, 0x100000, 0, 0x3FF01000, 0, 1⟩] (oneRange 1047556 0x3FF01000)
      (oneRangeLaid 1047556 0x3FF01000) where
  -- Each condition is a computation.
  laid := rfl
  given := by decide
  memory := by decide +kernel
  upper := by decide +kernel
  total := by decide +kernel
  image := by decide +kernel
  mmap := by decide +kernel
  length := by decide +kernel
  inMemory := by decide +kernel
  mapped := by decide +kernel
  table := ⟨rfl, by decide, rfl⟩
  apart := Pmm.outside_of_below (by decide +kernel)

/-- With 16 MiB the direct map stays in its half. -/
theorem vmmInit_directMap_small :
    ∃ s t : Vmm, pmmInit 2 0x00200000 multibootBootloaderMagic 0xC0010000 (oneRange 15360 0xF00000) =
      some s.toPmm ∧ vmmInit s = (true, t) ∧ DirectMap t := by
  -- The size is computed from the map.
  obtain ⟨s, t, started, total, done⟩ := oneRange_bootMap_small.builds (List.mem_singleton_self _)
    (by decide) (by decide) (by decide) (by decide +kernel) (show 1 < 2 by decide)
  refine ⟨s, t, started, done, (vmmInit_directMap_iff (by decide) started done).mpr ?_⟩
  rw [total]
  decide +kernel

/-- With one page more than a gigabyte, the lowest page of the user's half leads to that page. -/
theorem vmmInit_directMap_large :
    ∃ s t : Vmm, pmmInit 2 0x00200000 multibootBootloaderMagic 0xC0010000
      (oneRange 1047556 0x3FF01000) = some s.toPmm ∧
      lowMemoryReservedBytes.toNat +
        (infoMemUpper (oneRange 1047556 0x3FF01000).memory 0xC0010000).toNat * 1024 < 2 ^ 32 ∧
      vmmInit s = (true, t) ∧ ¬ DirectMap t ∧
      vmmGetMappingInDirectory t.kernelPageDirectoryPhys 0 t = some 0x40000000 := by
  -- The size is computed from the map, and the page at address zero is mapped.
  obtain ⟨s, t, started, total, done⟩ := oneRange_bootMap_large.builds (List.mem_singleton_self _)
    (by decide) (by decide) (by decide) (by decide +kernel) (show 1 < 2 by decide)
  refine ⟨s, t, started, by decide +kernel, done, ?_⟩
  have upper : (infoMemUpper (oneRange 1047556 0x3FF01000).memory 0xC0010000).toNat = 1047556 := by
    decide +kernel
  rw [upper] at total
  obtain ⟨sound, -⟩ := pmmInit_sound (by decide) started
  rcases vmmInit_cases sound with ⟨⟨u, fails⟩, -⟩ | ⟨d, u, runs, mapped, at_, bytes⟩
  · rw [fails] at done
    cases done
  rw [runs] at done
  obtain rfl := (Prod.mk.inj done).2
  have wraps : vmmKernelBase + 0x40000000 = 0 := by decide
  have found := (mapped.direct at_ (show (0x40000000 : UInt32).toNat % 4096 = 0 by decide)
    (show 0x40000000 / 4096 < _ by omega)).1
  rw [wraps] at found
  refine ⟨fun direct => ?_, found⟩
  have small := direct.small
  rw [bytes] at small
  have size : (s.totalMemoryBytes &&& pageAddrMask).toNat = s.totalMemoryBytes.toNat / 4096 * 4096 :=
    toNat_and_pageMask _
  omega

end Example

end MyOS.Mm
