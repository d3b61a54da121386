import MyOS.Lib.Bitmap
import MyOS.Lib.Memory
import MyOS.Lib.Words

/-! The physical memory manager: a bitmap, itself in memory, of which pages are taken. -/

namespace MyOS.Mm

/-- The size of a page. -/
def pageSize : UInt32 := 4096

/-- Physical memory and the static variables of the manager. -/
structure Pmm where
  memory : Memory
  /-- Where the bitmap lies in memory. -/
  bitmapBase : UInt32
  bitmapBytes : UInt32
  totalMemoryBytes : UInt32
  totalPages : UInt32
  freePages : UInt32
  ready : Bool

/-- The next multiple of an alignment, from a value on. -/
def alignUp (value alignment : UInt32) : UInt32 := (value + alignment - 1) &&& ~~~(alignment - 1)

section Model

variable (page : Nat) (s : Pmm)

namespace Pmm

/-- `bitmap_test`: whether a page is taken. -/
def bitmapTest : Bool := bitTest (s.memory (s.bitmapBase.toNat + page / 8)) (page % 8)

/-- `bitmap_set`: mark a page as taken. -/
def bitmapSet : Pmm :=
  -- The bitmap lies in the memory it tells about.
  let at_ := s.bitmapBase.toNat + page / 8
  { s with memory := s.memory.store at_ (bitSet (s.memory at_) (page % 8)) }

/-- `bitmap_clear`: mark a page as free. -/
def bitmapClear : Pmm :=
  let at_ := s.bitmapBase.toNat + page / 8
  { s with memory := s.memory.store at_ (bitClear (s.memory at_) (page % 8)) }

/-- `reserve_page`: take a page that is free, and count it. -/
def reservePage : Pmm :=
  -- A page that is taken already is not counted twice.
  if decide (page ≥ s.totalPages.toNat) || s.bitmapTest page then s
  else
    let s := s.bitmapSet page
    -- The counter stops at zero, where the flags would take it below.
    if s.freePages > 0 then { s with freePages := s.freePages - 1 } else s

/-- `free_page`: give a page back that is taken, and count it. -/
def freePage : Pmm :=
  -- A page that is free already is not counted twice.
  if decide (page ≥ s.totalPages.toNat) || !s.bitmapTest page then s
  else
    let s := s.bitmapClear page
    { s with freePages := s.freePages + 1 }

end Pmm

/-- `pmm_alloc_page`: take the first free page and give its address, or `0`. -/
def pmmAllocPage : UInt32 × Pmm :=
  -- Before start-up is over nothing is handed out.
  if !s.ready then (0, s)
  else
    match (List.range s.totalPages.toNat).find? fun page => !s.bitmapTest page with
    | none => (0, s)
    -- The address of page zero stands for a failure, and page zero is never free.
    | some page => (UInt32.ofNat (page * 4096), s.reservePage page)

/-- `pmm_free_page`: give a page back, unless it is one of those reserved at start-up. -/
def pmmFreePage (physAddr : UInt32) : Pmm :=
  -- An address inside a page names no page to give back.
  if !s.ready || physAddr % pageSize != 0 then s
  else
    let pageIndex := physAddr / pageSize
    -- Everything up to the end of the bitmap was reserved at start-up and stays so.
    if pageIndex * pageSize < alignUp (s.bitmapBase + s.bitmapBytes) pageSize then s
    else s.freePage pageIndex.toNat

/-- `pmm_get_used_pages`: the pages that are not free. -/
def pmmGetUsedPages : UInt32 := s.totalPages - s.freePages

end Model

namespace Pmm

/-- A page there is, with its flag clear. -/
def IsFree (s : Pmm) (page : Nat) : Prop :=
  page < s.totalPages.toNat ∧ s.bitmapTest page = false

/-- The first page behind the bitmap, from which on pages are handed out. -/
def firstPage (s : Pmm) : Nat := (s.bitmapBase.toNat + s.bitmapBytes.toNat + 4095) / 4096

/-- The pages that are handed out. -/
structure InPool (s : Pmm) (page : Nat) : Prop where
  above : s.firstPage ≤ page
  below : page < s.totalPages.toNat

/-- What start-up establishes and every later step keeps. -/
structure Sound (s : Pmm) : Prop where
  ready : s.ready = true
  bytes : s.bitmapBytes.toNat = (s.totalPages.toNat + 7) / 8
  pages : s.totalPages.toNat < 2 ^ 20
  noWrap : s.bitmapBase.toNat + s.bitmapBytes.toNat + 4095 < 2 ^ 32
  /-- No page up to the end of the bitmap is ever handed out. -/
  reserved : ∀ page, page < s.firstPage → page < s.totalPages.toNat → s.bitmapTest page = true
  counted : s.freePages.toNat = clearCount s.bitmapTest s.totalPages.toNat

/-- The layout of memory, which is settled at start-up. -/
structure SameLayout (s t : Pmm) : Prop where
  bitmapBase : t.bitmapBase = s.bitmapBase
  bitmapBytes : t.bitmapBytes = s.bitmapBytes
  totalMemoryBytes : t.totalMemoryBytes = s.totalMemoryBytes
  totalPages : t.totalPages = s.totalPages
  ready : t.ready = s.ready

namespace SameLayout

variable {s t u : Pmm}

/-- A layout is its own. -/
theorem refl (s : Pmm) : SameLayout s s := ⟨rfl, rfl, rfl, rfl, rfl⟩

/-- Layouts that agree in turn agree. -/
theorem trans (first : SameLayout s t) (second : SameLayout t u) : SameLayout s u :=
  -- Each field is compared in turn.
  ⟨second.bitmapBase.trans first.bitmapBase, second.bitmapBytes.trans first.bitmapBytes,
    second.totalMemoryBytes.trans first.totalMemoryBytes,
    second.totalPages.trans first.totalPages, second.ready.trans first.ready⟩

/-- The first page to hand out belongs to the layout. -/
theorem firstPage (same : SameLayout s t) : t.firstPage = s.firstPage := by
  -- It follows from where the bitmap lies and how long it is.
  unfold Pmm.firstPage
  rw [same.bitmapBase, same.bitmapBytes]

/-- The pages there are to hand out belong to the layout. -/
theorem inPool (same : SameLayout s t) {page : Nat} : t.InPool page ↔ s.InPool page := by
  -- The pool is bounded by two fields of the layout.
  refine ⟨fun inside => ⟨?_, ?_⟩, fun inside => ⟨?_, ?_⟩⟩
  · exact same.firstPage ▸ inside.above
  · exact same.totalPages ▸ inside.below
  · exact same.firstPage.symm ▸ inside.above
  · exact same.totalPages.symm ▸ inside.below

end SameLayout

/-- A step that only marks one page as taken or as free. -/
structure Marks (s t : Pmm) (page : Nat) (value : Bool) : Prop where
  layout : SameLayout s t
  sound : t.Sound
  flags : ∀ other, other < s.totalPages.toNat →
    t.bitmapTest other = if other = page then value else s.bitmapTest other
  memory : ∀ other, s.firstPage ≤ other → s.memory.SamePage t.memory other

end Pmm

section Laws

variable {s t : Pmm} {page : Nat}

/-- Where the flag of a page lies. -/
theorem Pmm.Sound.flag_inside (sound : s.Sound) (inside : page < s.totalPages.toNat) :
    s.bitmapBase.toNat + page / 8 < s.firstPage * 4096 := by
  -- The flags of eight pages share a byte, so the bitmap has a byte for each eight pages.
  have := sound.bytes
  unfold Pmm.firstPage
  omega

/-- Page zero is never handed out, so that its address can stand for a failure. -/
theorem Pmm.Sound.positive (sound : s.Sound) (inside : s.InPool page) : 0 < page := by
  -- The bitmap has at least one byte, which lies before the first page handed out.
  have above := inside.above
  have below := inside.below
  have bytes := sound.bytes
  unfold Pmm.firstPage at above
  omega

/-- Setting a flag sets that one. -/
theorem Pmm.bitmapTest_bitmapSet (s : Pmm) (page other : Nat) :
    (s.bitmapSet page).bitmapTest other = (decide (other = page) || s.bitmapTest other) := by
  -- Two pages share a byte of the bitmap or do not.
  simp only [Pmm.bitmapTest, Pmm.bitmapSet, Memory.store, Nat.add_right_inj]
  by_cases same : other / 8 = page / 8
  · rw [if_pos same, same, bitTest_bitSet _ (Nat.mod_lt _ (by omega)) (Nat.mod_lt _ (by omega))]
    congr 1
    rw [decide_eq_decide]
    omega
  · rw [if_neg same, decide_eq_false (by rintro rfl; exact same rfl), Bool.false_or]

/-- Clearing a flag clears that one. -/
theorem Pmm.bitmapTest_bitmapClear (s : Pmm) (page other : Nat) :
    (s.bitmapClear page).bitmapTest other = (!decide (other = page) && s.bitmapTest other) := by
  -- Two pages of one byte have different bits, and other bytes are not written.
  simp only [Pmm.bitmapTest, Pmm.bitmapClear, Memory.store, Nat.add_right_inj]
  by_cases same : other / 8 = page / 8
  · rw [if_pos same, same, bitTest_bitClear _ (Nat.mod_lt _ (by omega)) (Nat.mod_lt _ (by omega))]
    congr 2
    rw [decide_eq_decide]
    omega
  · rw [if_neg same, decide_eq_false (by rintro rfl; exact same rfl), Bool.not_false, Bool.true_and]

/-- A byte of the bitmap is in none of the pages behind it. -/
theorem samePage_store (sound : s.Sound) (inside : page < s.totalPages.toNat) (value : UInt8)
    {other : Nat} (behind : s.firstPage ≤ other) :
    s.memory.SamePage (s.memory.store (s.bitmapBase.toNat + page / 8) value) other := by
  intro k small
  -- The byte of the flag lies before the first page handed out.
  have := sound.flag_inside inside
  have := Nat.mul_le_mul_right 4096 behind
  exact if_neg (by omega)

/-- The counter of free pages counts the clear flags. -/
structure Pmm.Counted (s : Pmm) : Prop where
  pages : s.totalPages.toNat < 2 ^ 20
  counted : s.freePages.toNat = clearCount s.bitmapTest s.totalPages.toNat

/-- The counter counts in a manager that is in order. -/
theorem Pmm.Sound.toCounted (sound : s.Sound) : s.Counted := ⟨sound.pages, sound.counted⟩

/-- Taking any page marks it, and the counter follows. -/
theorem reservePage_counted (counted : s.Counted) (page : Nat) :
    (s.reservePage page).Counted ∧ s.SameLayout (s.reservePage page) ∧
      ∀ other, other < s.totalPages.toNat →
        (s.reservePage page).bitmapTest other = (s.bitmapTest other || decide (other = page)) := by
  unfold Pmm.reservePage
  split
  · -- A page that is taken already, or that there is not, stays as it is.
    next kept =>
    refine ⟨counted, .refl s, fun other inside => ?_⟩
    by_cases same : other = page
    · subst same
      simp only [Bool.or_eq_true, decide_eq_true_eq] at kept
      rcases kept with outside | taken
      · omega
      · rw [taken, Bool.true_or]
    · rw [decide_eq_false same, Bool.or_false]
  · next free =>
    -- A free page is marked, and the counter goes down by one.
    simp only [Bool.or_eq_true, decide_eq_true_eq, not_or, Bool.not_eq_true] at free
    have flags : ∀ other, (s.bitmapSet page).bitmapTest other =
        (s.bitmapTest other || decide (other = page)) := by
      intro other
      rw [Pmm.bitmapTest_bitmapSet, Bool.or_comm]
    -- One clear flag fewer, and there was at least the one taken.
    have count := @clearCount_add_card s.bitmapTest (s.bitmapSet page).bitmapTest
      s.totalPages.toNat {page}
      (fun i member => by rw [Finset.mem_singleton.mp member]; exact ⟨by omega, free.2⟩)
      (fun i _ => by rw [flags]; simp)
    rw [Finset.card_singleton, ← counted.counted] at count
    have positive : (s.bitmapSet page).freePages > 0 := by
      rw [gt_iff_lt, UInt32.lt_iff_toNat_lt]
      change 0 < s.freePages.toNat
      omega
    have taken : (s.freePages - 1).toNat = s.freePages.toNat - 1 := by
      rw [UInt32.toNat_sub_of_le]
      · rfl
      · rw [UInt32.le_iff_toNat_le]
        change 1 ≤ s.freePages.toNat
        omega
    rw [if_pos positive]
    refine ⟨⟨counted.pages, ?_⟩, ⟨rfl, rfl, rfl, rfl, rfl⟩, fun other _ => flags other⟩
    change (s.freePages - 1).toNat = clearCount (s.bitmapSet page).bitmapTest _
    rw [taken]
    exact (Nat.eq_sub_of_add_eq count).symm

/-- Giving any page back marks it as free, and the counter follows. -/
theorem freePage_counted (counted : s.Counted) (page : Nat) :
    (s.freePage page).Counted ∧ s.SameLayout (s.freePage page) ∧
      ∀ other, other < s.totalPages.toNat →
        (s.freePage page).bitmapTest other = (s.bitmapTest other && !decide (other = page)) := by
  unfold Pmm.freePage
  split
  · -- A page that is free already, or that there is not, stays as it is.
    next kept =>
    refine ⟨counted, .refl s, fun other inside => ?_⟩
    by_cases same : other = page
    · subst same
      simp only [Bool.or_eq_true, decide_eq_true_eq, Bool.not_eq_eq_eq_not, Bool.not_true] at kept
      rcases kept with outside | free
      · omega
      · rw [free, Bool.false_and]
    · rw [decide_eq_false same, Bool.not_false, Bool.and_true]
  · next taken =>
    -- A taken page is marked as free, and the counter goes up by one.
    simp only [Bool.or_eq_true, decide_eq_true_eq, Bool.not_eq_eq_eq_not, Bool.not_true, not_or,
      Bool.not_eq_false] at taken
    have flags : ∀ other, (s.bitmapClear page).bitmapTest other =
        (s.bitmapTest other && !decide (other = page)) := by
      intro other
      rw [Pmm.bitmapTest_bitmapClear, Bool.and_comm]
    -- Read backwards this is the taking of a page.
    have count := @clearCount_add_card (s.bitmapClear page).bitmapTest s.bitmapTest
      s.totalPages.toNat {page}
      (fun i member => by
        rw [Finset.mem_singleton.mp member, flags]
        exact ⟨by omega, by simp⟩)
      (fun i _ => by rw [flags]; by_cases same : i = page <;> simp [same, taken.2])
    rw [Finset.card_singleton, ← counted.counted] at count
    have bound : clearCount (s.bitmapClear page).bitmapTest s.totalPages.toNat ≤ s.totalPages.toNat :=
      (Finset.card_filter_le _ _).trans (Finset.card_range _).le
    have given : (s.freePages + 1).toNat = s.freePages.toNat + 1 := by
      have := counted.pages
      rw [UInt32.toNat_add]
      change (s.freePages.toNat + 1) % 2 ^ 32 = _
      omega
    refine ⟨⟨counted.pages, ?_⟩, ⟨rfl, rfl, rfl, rfl, rfl⟩, fun other _ => flags other⟩
    change (s.freePages + 1).toNat = clearCount (s.bitmapClear page).bitmapTest _
    rw [given]
    exact count

/-- A change of the flags keeps the pages up to the end of the bitmap taken if it says so. -/
theorem Pmm.Sound.rebuild (sound : s.Sound) (layout : s.SameLayout t) (counted : t.Counted)
    (reserved : ∀ page, page < s.firstPage → page < s.totalPages.toNat → t.bitmapTest page = true) :
    t.Sound := by
  -- The sizes are those of the layout, and the flags are counted.
  refine ⟨layout.ready.trans sound.ready, ?_, counted.pages, ?_, ?_, counted.counted⟩
  · rw [layout.bitmapBytes, layout.totalPages]
    exact sound.bytes
  · rw [layout.bitmapBase, layout.bitmapBytes]
    exact sound.noWrap
  · rw [layout.firstPage, layout.totalPages]
    exact reserved

/-- Taking a free page marks it, and nothing else changes behind the bitmap. -/
theorem reservePage_marks (sound : s.Sound) (inside : s.InPool page) :
    s.Marks (s.reservePage page) page true := by
  -- The bitmap lies in front of the pool, so only its own bytes change.
  obtain ⟨counted, layout, flags⟩ := reservePage_counted sound.toCounted page
  refine ⟨layout, sound.rebuild layout counted fun other low small => ?_, fun other small => ?_,
    fun other behind => ?_⟩
  · rw [flags other small, sound.reserved other low small, Bool.true_or]
  · rw [flags other small]
    by_cases same : other = page <;> simp [same]
  · unfold Pmm.reservePage
    split
    · exact .refl _ _
    · have same := samePage_store sound inside.below
        (bitSet (s.memory (s.bitmapBase.toNat + page / 8)) (page % 8)) behind
      simp only
      split <;> exact same

/-- Giving a page back marks it as free, and nothing else changes behind the bitmap. -/
theorem freePage_marks (sound : s.Sound) (inside : s.InPool page) :
    s.Marks (s.freePage page) page false := by
  -- The bitmap lies in front of the pool, so only its own bytes change.
  obtain ⟨counted, layout, flags⟩ := freePage_counted sound.toCounted page
  refine ⟨layout, sound.rebuild layout counted fun other low small => ?_, fun other small => ?_,
    fun other behind => ?_⟩
  · have behind := inside.above
    rw [flags other small, sound.reserved other low small, decide_eq_false (by omega)]
    rfl
  · rw [flags other small]
    by_cases same : other = page <;> simp [same]
  · unfold Pmm.freePage
    split
    · exact .refl _ _
    · exact samePage_store sound inside.below
        (bitClear (s.memory (s.bitmapBase.toNat + page / 8)) (page % 8)) behind

/-- A page is handed out if there is a free one, and it is the first. -/
theorem pmmAllocPage_cases (sound : s.Sound) :
    (pmmAllocPage s = (0, s) ∧ ∀ page, page < s.totalPages.toNat → s.bitmapTest page = true) ∨
    ∃ page, pmmAllocPage s = (UInt32.ofNat (page * 4096), s.reservePage page) ∧
      s.InPool page ∧ s.bitmapTest page = false ∧
      (∀ other, other < page → s.bitmapTest other = true) ∧ s.Marks (s.reservePage page) page true := by
  unfold pmmAllocPage
  rw [if_neg (by simp [sound.ready])]
  cases found : (List.range s.totalPages.toNat).find? fun page => !s.bitmapTest page with
  | none =>
    -- No page was found, so all are taken.
    left
    refine ⟨rfl, fun page inside => ?_⟩
    simpa using List.find?_eq_none.mp found page (List.mem_range.mpr inside)
  | some page =>
    -- The page found is the first that is free, and so behind the bitmap.
    right
    obtain ⟨free, member, earlier⟩ := List.find?_range_eq_some.mp found
    have below := List.mem_range.mp member
    simp only [Bool.not_eq_eq_eq_not, Bool.not_true] at free
    have inside : s.InPool page := by
      refine ⟨Nat.le_of_not_lt fun low => ?_, below⟩
      rw [sound.reserved page low below] at free
      cases free
    refine ⟨page, rfl, inside, free, fun other smaller => ?_, reservePage_marks sound inside⟩
    -- Everything in front of the page found was looked at and taken.
    simpa using earlier other smaller

/-- Rounding up to a page, where the sum does not run over the top. -/
theorem toNat_alignUp {value : UInt32} (noWrap : value.toNat + 4095 < 2 ^ 32) :
    (alignUp value pageSize).toNat = (value.toNat + 4095) / 4096 * 4096 := by
  have sum : (value + pageSize - 1).toNat = value.toNat + 4095 := by
    simp only [UInt32.toNat_sub, UInt32.toNat_add, pageSize]
    simp only [UInt32.reduceToNat]
    omega
  -- Clearing the low twelve bits rounds down to a page.
  change ((value + pageSize - 1) &&& 0xFFFFF000).toNat = _
  rw [toNat_and_pageMask, pageOf, sum]

/-- The end of the bitmap, rounded up to a page. -/
theorem alignUp_bitmapEnd (sound : s.Sound) :
    (alignUp (s.bitmapBase + s.bitmapBytes) pageSize).toNat = s.firstPage * 4096 := by
  -- The sum is that of the two words, which do not wrap.
  have noWrap := sound.noWrap
  have sum : (s.bitmapBase + s.bitmapBytes).toNat = s.bitmapBase.toNat + s.bitmapBytes.toNat := by
    rw [UInt32.toNat_add]
    omega
  rw [toNat_alignUp (by omega), sum]
  rfl

/-- A page of the pool is given back when its address is. -/
theorem pmmFreePage_eq (sound : s.Sound) (inside : s.InPool page) :
    pmmFreePage s (UInt32.ofNat (page * 4096)) = s.freePage page := by
  -- The index of the page comes back from its address.
  have small : page < 2 ^ 20 := inside.below.trans sound.pages
  have address := toNat_ofNat_page small
  have index : UInt32.ofNat (page * 4096) / pageSize = UInt32.ofNat page := by
    apply UInt32.toNat_inj.mp
    rw [UInt32.toNat_div, address, UInt32.toNat_ofNat']
    change page * 4096 / 4096 = _
    omega
  have back : (UInt32.ofNat page * pageSize).toNat = page * 4096 := by
    rw [UInt32.toNat_mul, UInt32.toNat_ofNat']
    change page % 2 ^ 32 * 4096 % 2 ^ 32 = _
    omega
  unfold pmmFreePage
  -- The address is that of a whole page.
  have aligned : UInt32.ofNat (page * 4096) % pageSize = 0 := by
    apply UInt32.toNat_inj.mp
    rw [UInt32.toNat_mod, address]
    change page * 4096 % 4096 = 0
    omega
  rw [if_neg (by rw [aligned, sound.ready]; decide)]
  simp only [index]
  -- The page is not one of those reserved at start-up.
  rw [if_neg, UInt32.toNat_ofNat', Nat.mod_eq_of_lt (by omega)]
  rw [UInt32.lt_iff_toNat_lt, back, alignUp_bitmapEnd sound]
  have := Nat.mul_le_mul_right 4096 inside.above
  omega

/-- A page that was handed out can be given back. -/
theorem pmmFreePage_marks (sound : s.Sound) (inside : s.InPool page) :
    s.Marks (pmmFreePage s (UInt32.ofNat (page * 4096))) page false := by
  -- The address leads back to the page, which is given back.
  rw [pmmFreePage_eq sound inside]
  exact freePage_marks sound inside

end Laws

end MyOS.Mm
