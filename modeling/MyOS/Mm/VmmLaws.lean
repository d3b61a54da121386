import MyOS.Mm.TableLaws

/-! What each call of the virtual memory manager does to the pages of the address spaces. -/

namespace MyOS.Mm

section Words

/-- The present flag of an entry, as the code tests it. -/
@[simp] theorem and_pagePresent_eq_zero (entry : UInt32) :
    (entry &&& pagePresent == 0) = !flagOf entry 0 := by
  -- The mask is the first bit.
  have raised : (entry &&& pagePresent != 0) = flagOf entry 0 := and_ne_zero_eq_flagOf entry rfl
  rw [← raised, bne, Bool.not_not]

/-- The same test the other way round. -/
@[simp] theorem and_pagePresent_ne_zero (entry : UInt32) :
    (entry &&& pagePresent != 0) = flagOf entry 0 :=
  and_ne_zero_eq_flagOf entry rfl

/-- The flag that gives a page to users, as the code tests it. -/
@[simp] theorem and_vmmPageUser_ne_zero (entry : UInt32) :
    (entry &&& vmmPageUser != 0) = flagOf entry 2 :=
  and_ne_zero_eq_flagOf entry rfl

/-- The table an entry names begins at the start of its page. -/
theorem toNat_pageTableFromDirectory (entry : UInt32) :
    (pageTableFromDirectory entry).toNat = pageOf entry * 4096 :=
  toNat_and_pageMask entry

/-- The table an entry names is in the page the entry names. -/
theorem pageOf_pageTableFromDirectory (entry : UInt32) :
    pageOf (pageTableFromDirectory entry) = pageOf entry := by
  -- The table begins where its page does.
  have address := toNat_pageTableFromDirectory entry
  change (pageTableFromDirectory entry).toNat / 4096 = _
  omega

/-- The upper ten bits of an address are the entry of its table. -/
theorem pageDirectoryIndex_eq (virtAddr : UInt32) :
    pageDirectoryIndex virtAddr = virtAddr.toNat / 4096 / 1024 := by
  -- A shift is a division.
  rw [pageDirectoryIndex, UInt32.toNat_shiftRight]
  change virtAddr.toNat >>> 22 = _
  rw [Nat.shiftRight_eq_div_pow, Nat.div_div_eq_div_mul]

/-- The next ten bits are the entry in the table. -/
theorem pageTableIndex_eq (virtAddr : UInt32) :
    pageTableIndex virtAddr = virtAddr.toNat / 4096 % 1024 := by
  -- A shift and a mask are a division and a remainder.
  rw [pageTableIndex, UInt32.toNat_and, UInt32.toNat_shiftRight]
  change (virtAddr.toNat >>> 12) &&& (2 ^ 10 - 1) = _
  rw [Nat.and_two_pow_sub_one_eq_mod, Nat.shiftRight_eq_div_pow]

/-- Addresses of the user's half have their entry in the lower part of the directory. -/
theorem page_half {virtAddr : UInt32} (half : virtAddr < vmmKernelBase) :
    virtAddr.toNat / 4096 < 786432 := by
  -- The kernel's half begins with page 786432.
  rw [UInt32.lt_iff_toNat_lt] at half
  change virtAddr.toNat < 3221225472 at half
  omega

/-- There are as many pages as entries in all tables together. -/
theorem page_small (virtAddr : UInt32) : virtAddr.toNat / 4096 < 1048576 := by
  have := virtAddr.toNat_lt
  omega

/-- An address is its page and the offset in it. -/
theorem toNat_frame_or_offset (entry virtAddr : UInt32) :
    (entry &&& pageAddrMask) ||| (virtAddr &&& ~~~pageAddrMask) =
      UInt32.ofNat (pageOf entry * 4096 + virtAddr.toNat % 4096) := by
  -- The two parts have no bit in common, so they are added.
  have bound := pageOf_lt entry
  apply UInt32.toNat_inj.mp
  rw [UInt32.toNat_or, show pageAddrMask = 0xFFFFF000 from rfl, toNat_and_pageMask,
    toNat_and_offsetMask, UInt32.toNat_ofNat', show (4096 : Nat) = 2 ^ 12 from rfl,
    Nat.mul_comm (pageOf entry), ← Nat.two_pow_add_eq_or_of_lt (Nat.mod_lt _ (by omega))]
  have := Nat.mod_lt virtAddr.toNat (show 0 < 2 ^ 12 by omega)
  omega

end Words

variable {ρ : Type} {owner owner' : Owners ρ} {s t : Vmm} {f d d' i v v' : Nat}
  {dir virtAddr physAddr flags word : UInt32}

/-- The address of a page other than the first is not the one that stands for a failure. -/
theorem ne_zero_of_page (at_ : dir.toNat = d * 4096) (positive : 0 < d) : dir ≠ 0 := by
  -- The page has a positive number.
  rintro rfl
  have : (0 : Nat) = d * 4096 := at_
  omega

namespace Spaces

/-- Which space is the current one makes no difference to the spaces. -/
theorem withCurrent (spaces : Spaces owner s) (dir : UInt32) :
    Spaces owner { s with currentPageDirectoryPhys := dir } :=
  -- No part of the invariant speaks of the current space.
  ⟨spaces.pmm, spaces.vmmReady, spaces.kernelAligned, spaces.kernelLive, spaces.used, spaces.pool,
    spaces.tables, spaces.shared, spaces.kernelTables, spaces.writable, spaces.user⟩

/-- Switching to a space that is there changes the current space, and nothing else. -/
theorem switched (spaces : Spaces owner s) (live : owner d = some .directory)
    (at_ : dir.toNat = d * 4096) :
    (vmmSwitchPageDirectory dir s).2 = { s with currentPageDirectoryPhys := dir } := by
  -- The directory is a page of the pool, and so is not at address zero.
  have nonzero := ne_zero_of_page at_ (spaces.positive (spaces.directory_inPool live))
  unfold vmmSwitchPageDirectory
  rw [if_neg (by simp [spaces.vmmReady, nonzero])]

end Spaces

/-- The entry of a directory, by the page the directory is in. -/
theorem entry_directory (at_ : dir.toNat = d * 4096) (i : Nat) : s.entry dir i = s.pde d i :=
  entry_eq at_ i

/-- The entry of a table in use is the cell of its page. -/
theorem entry_table (present : flagOf (s.pde d (v / 1024)) 0 = true) :
    s.entry (pageTableFromDirectory (s.pde d (v / 1024))) (v % 1024) = s.cell d v := by
  rw [entry_eq (toNat_pageTableFromDirectory _), Vmm.cell, if_pos present]

/-- Clearing a page leaves the rest of memory alone. -/
theorem clearPage_outside {k : Nat} (at_ : physAddr.toNat = f * 4096)
    (outside : k < f * 4096 ∨ f * 4096 + 4096 ≤ k) :
    (s.clearPage physAddr).memory k = s.memory k := by
  -- The bytes of the page are the only ones written.
  rw [← at_] at outside
  exact Memory.copy_outside (m := s.memory) (fun _ => 0) outside

/-- Clearing a page leaves every other page alone. -/
theorem clearPage_samePage {g : Nat} (at_ : physAddr.toNat = f * 4096) (apart : g ≠ f) :
    s.memory.SamePage (s.clearPage physAddr).memory g :=
  fun _ _ => clearPage_outside at_ (by omega)

/-- A cleared page has no word set. -/
theorem clearPage_zero {j : Nat} (at_ : physAddr.toNat = f * 4096) (inside : j < 1024) :
    wordAt (s.clearPage physAddr).memory (f * 4096 + 4 * j) = 0 :=
  Memory.wordAt_fill_zero (by rw [at_]; omega)

/-- The entry of a page is its cell, where there is a table. -/
theorem vmmGetPageEntryInDirectory_eq (at_ : dir.toNat = d * 4096) (positive : 0 < d)
    (virtAddr : UInt32) :
    vmmGetPageEntryInDirectory dir virtAddr s =
      if flagOf (s.pde d (virtAddr.toNat / 4096 / 1024)) 0 then
        some (s.cell d (virtAddr.toNat / 4096))
      else none := by
  -- Without a table the function returns none, and the cell counts as empty.
  unfold vmmGetPageEntryInDirectory
  rw [if_neg (by simpa using ne_zero_of_page at_ positive), entry_directory at_,
    pageDirectoryIndex_eq, pageTableIndex_eq]
  simp only [and_pagePresent_eq_zero, Bool.not_eq_eq_eq_not, Bool.not_true]
  cases present : flagOf (s.pde d (virtAddr.toNat / 4096 / 1024)) 0 with
  | false => rw [if_pos rfl, if_neg nofun]
  | true => rw [if_neg nofun, if_pos rfl, entry_table present]

/-- The physical address behind an address is in the page its cell names. -/
theorem vmmGetMappingInDirectory_eq (at_ : dir.toNat = d * 4096) (positive : 0 < d)
    (virtAddr : UInt32) :
    vmmGetMappingInDirectory dir virtAddr s =
      if flagOf (s.cell d (virtAddr.toNat / 4096)) 0 then
        some ((s.cell d (virtAddr.toNat / 4096) &&& pageAddrMask) |||
          (virtAddr &&& ~~~pageAddrMask))
      else none := by
  -- The frame comes from the cell, and the offset from the address.
  unfold vmmGetMappingInDirectory
  rw [if_neg (by simpa using ne_zero_of_page at_ positive), entry_directory at_,
    pageDirectoryIndex_eq, pageTableIndex_eq]
  simp only [and_pagePresent_eq_zero, Bool.not_eq_eq_eq_not, Bool.not_true]
  cases present : flagOf (s.pde d (virtAddr.toNat / 4096 / 1024)) 0 with
  | false =>
    rw [if_pos rfl, cell_eq_zero present]
    rfl
  | true =>
    rw [if_neg nofun, entry_table present]
    cases flagOf (s.cell d (virtAddr.toNat / 4096)) 0 <;> simp

section Tables

variable [Inhabited ρ]

/-- The entry that a new table gets in its directory. -/
def newTableEntry (table flags : UInt32) : UInt32 :=
  table ||| pagePresent ||| vmmPageWritable ||| (flags &&& vmmPageUser)

/-- The entry of a new table names its page. -/
theorem newTableEntry_page (inside : f < 2 ^ 20) (flags : UInt32) :
    pageOf (newTableEntry (UInt32.ofNat (f * 4096)) flags) = f := by
  -- The flags lie below the page.
  have present : pageOf pagePresent = 0 := rfl
  have writable : pageOf vmmPageWritable = 0 := rfl
  have user : pageOf vmmPageUser = 0 := rfl
  simp only [newTableEntry, pageOf_or, pageOf_and, pageOf_ofNat_page inside, present, writable, user,
    Nat.and_zero, Nat.or_zero]

/-- The entry of a new table is in use and lets programs write, and is the user's where that is
asked for. -/
theorem newTableEntry_flags (table flags : UInt32) :
    flagOf (newTableEntry table flags) 0 = true ∧ flagOf (newTableEntry table flags) 1 = true ∧
      (flagOf flags 2 = true → flagOf (newTableEntry table flags) 2 = true) := by
  -- Each flag is raised by its own mask.
  have present : flagOf pagePresent 0 = true := rfl
  have writable : flagOf vmmPageWritable 1 = true := rfl
  have user : flagOf vmmPageUser 2 = true := rfl
  refine ⟨?_, ?_, fun asked => ?_⟩ <;>
    simp only [newTableEntry, flagOf_or, flagOf_and, present, writable, user, Bool.or_true,
      Bool.true_or, Bool.and_true]
  rw [asked, Bool.or_true]

/-- A new table is one for the entry, and no page of any space leads elsewhere for it. -/
theorem makePageTable_cases (spaces : Spaces owner s) (live : owner d = some .directory)
    (half : v < 786432) (absent : flagOf (s.pde d (v / 1024)) 0 = false)
    (at_ : dir.toNat = d * 4096) (flags : UInt32) :
    (makePageTable dir (v / 1024) flags s = none ∧
      ∀ f, f < s.totalPages.toNat → owner f ≠ none) ∨
    ∃ owner' t, makePageTable dir (v / 1024) flags s = some t ∧
      CellChange owner owner' s t d v (s.cell d v) ∧ flagOf (t.pde d (v / 1024)) 0 = true ∧
      (flagOf flags 2 = true → flagOf (t.pde d (v / 1024)) 2 = true) := by
  have inside : v / 1024 < 768 := by omega
  unfold makePageTable
  rcases spaces.alloc_cases default with ⟨result, full⟩ | ⟨f, t, result, taken⟩
  · left
    rw [result]
    exact ⟨rfl, full⟩
  right
  have small := spaces.small taken.inPool
  have address := toNat_ofNat_page small
  rw [result]
  simp only
  rw [if_neg (by simpa using ne_zero_of_page address (spaces.positive taken.inPool))]
  have held : Function.update owner f (some (.held default)) f = some (.held default) :=
    Function.update_self ..
  have liveT : Function.update owner f (some (.held default)) d = some .directory := by
    rw [Function.update_of_ne (by rintro rfl; exact nomatch live.symm.trans taken.free)]
    exact live
  -- The page is cleared while nobody but this call knows it.
  obtain ⟨cleared, same⟩ := @Spaces.poke _ _ _ _ taken.spaces _ held
    (t.clearPage (UInt32.ofNat (f * 4096))).memory fun k => clearPage_outside address
  have absentT : flagOf ((t.clearPage (UInt32.ofNat (f * 4096))).pde d (v / 1024)) 0 = false :=
    (congrArg (flagOf · 0) ((same.pdes liveT (by omega)).trans
      (taken.tables.pdes live (by omega)))).trans absent
  obtain ⟨flag0, flag1, flag2⟩ := newTableEntry_flags (UInt32.ofNat (f * 4096)) flags
  obtain ⟨linked, cells⟩ := cleared.link liveT inside absentT at_ held
    (fun j inside => clearPage_zero address inside)
    (newTableEntry_page small flags) flag0 flag1
  rw [Function.update_idem] at linked
  have stays : ∀ {d'}, owner d' = some .directory →
      Function.update owner f (some (.held default)) d' = some .directory := by
    intro d' live'
    rwa [Function.update_of_ne (by rintro rfl; exact nomatch live'.symm.trans taken.free)]
  refine ⟨Function.update owner f (some (.table d (v / 1024))), _, rfl, ⟨linked, ⟨?_, ?_, ?_, ?_, ?_⟩,
    ?_, ?_, ?_⟩, ?_⟩
  · intro g r plain
    exact Spaces.update_roles (fun r => ∃ d i, r = .table d i) (by rw [taken.free]; nofun)
      (by rintro r ⟨⟩; exact ⟨_, _, rfl⟩) fun ⟨d', i', same⟩ => plain d' i' same
  · intro g r here
    obtain ⟨others, -⟩ := Spaces.setPde_others (s := t.clearPage (UInt32.ofNat (f * 4096))) liveT
      inside at_ (newTableEntry (UInt32.ofNat (f * 4096)) flags)
    have apart : g ≠ f := by
      rintro rfl
      exact nomatch here.symm.trans taken.free
    have still : Function.update owner f (some (.held default)) g = some (.held r) := by
      rw [Function.update_of_ne apart]
      exact here
    exact ((taken.memory g (spaces.pool here nofun).above).trans
      (clearPage_samePage address apart)).trans (others still nofun)
  · exact taken.layout.trans ⟨rfl, rfl, rfl, rfl, rfl⟩
  · exact taken.current
  · exact taken.kernel
  · intro d' v' live' small'
    have same' : _ = s.cell d' v' := (cells (stays live') small').trans
      ((same.cells (stays live') small').trans (taken.tables.cells live' small'))
    refine same'.trans ?_
    split
    · next equal => rw [equal.1, equal.2]
    · rfl
  · intro g d' i apart
    exact Spaces.update_roles (fun r => r = .table d (v / 1024)) (by rw [taken.free]; nofun)
      (by rintro r ⟨⟩; rfl) (by simp [apart])
  · refine Or.inr ⟨fun g role => ?_, f, taken.free, rfl⟩
    exact nomatch absent.symm.trans ((spaces.tables g d (v / 1024)).mp role).2.2.1
  · obtain ⟨-, pdes⟩ := Spaces.setPde_others (s := t.clearPage (UInt32.ofNat (f * 4096))) liveT
      inside at_ (newTableEntry (UInt32.ofNat (f * 4096)) flags)
    have entry := pdes liveT (show v / 1024 < 1024 by omega)
    rw [if_pos ⟨rfl, rfl⟩] at entry
    refine ⟨(congrArg (flagOf · 0) entry).trans flag0, fun asked => ?_⟩
    exact (congrArg (flagOf · 2) entry).trans (flag2 asked)

/--
There is a table afterwards, or no page was left for one.

None of this shows in what the pages of any space lead to.
-/
theorem preparePageTable_cases (spaces : Spaces owner s) (live : owner d = some .directory)
    (half : v < 786432) (at_ : dir.toNat = d * 4096) (flags : UInt32) :
    (preparePageTable dir (v / 1024) flags s = none ∧ flagOf (s.pde d (v / 1024)) 0 = false ∧
      ∀ f, f < s.totalPages.toNat → owner f ≠ none) ∨
    ∃ owner' t, preparePageTable dir (v / 1024) flags s = some t ∧
      CellChange owner owner' s t d v (s.cell d v) ∧ flagOf (t.pde d (v / 1024)) 0 = true ∧
      (flagOf flags 2 = true → flagOf (t.pde d (v / 1024)) 2 = true) := by
  -- The table is there already, or one is made of a page that was free.
  have inside : v / 1024 < 768 := by omega
  unfold preparePageTable
  simp only [entry_directory at_, and_pagePresent_eq_zero, and_vmmPageUser_ne_zero]
  by_cases present : flagOf (s.pde d (v / 1024)) 0 = true
  · right
    rw [if_neg (by simp [present])]
    by_cases asked : flagOf flags 2 = true
    · rw [if_pos asked]
      have zero : pageOf vmmPageUser = 0 := rfl
      have user : flagOf vmmPageUser 2 = true := rfl
      refine ⟨owner, _, rfl, spaces.raise live inside present at_
        (by rw [pageOf_or, zero, Nat.or_zero]) (fun k raised => by rw [flagOf_or, raised]; rfl) v, ?_⟩
      obtain ⟨-, pdes⟩ := Spaces.setPde_others (s := s) live inside at_
        (s.pde d (v / 1024) ||| vmmPageUser)
      rw [pdes live (by omega), if_pos ⟨rfl, rfl⟩, flagOf_or, flagOf_or, present, user, Bool.or_true]
      exact ⟨rfl, fun _ => rfl⟩
    · rw [if_neg asked]
      exact ⟨owner, s, rfl, .refl spaces d v, present, fun raised => absurd raised asked⟩
  · rw [if_pos (by simpa using present)]
    have absent := Bool.eq_false_iff.mpr present
    rcases makePageTable_cases spaces live half absent at_ flags with ⟨result, full⟩ | made
    · exact Or.inl ⟨result, absent, full⟩
    · exact Or.inr made

/-- The entry that a page mapped to a physical page gets in its table. -/
def leafEntry (physAddr flags : UInt32) : UInt32 :=
  (physAddr &&& pageAddrMask) |||
    ((flags &&& (vmmPageWritable ||| vmmPageUser)) ||| pagePresent)

omit [Inhabited ρ] in
/-- An entry names the page of the address it is made of. -/
theorem leafEntry_page (physAddr flags : UInt32) : pageOf (leafEntry physAddr flags) = pageOf physAddr := by
  -- The masks separate the page from the flags.
  have upper : pageOf pageAddrMask = 2 ^ 20 - 1 := rfl
  have lower : pageOf (vmmPageWritable ||| vmmPageUser) = 0 := rfl
  have present : pageOf pagePresent = 0 := rfl
  rw [leafEntry, pageOf_or, pageOf_or, pageOf_and, pageOf_and, upper, lower, present, Nat.and_zero,
    Nat.or_zero, Nat.or_zero, Nat.and_two_pow_sub_one_of_lt_two_pow (pageOf_lt physAddr)]

omit [Inhabited ρ] in
/-- An entry has the rights it is asked for, and is in use. -/
theorem leafEntry_flags (physAddr flags : UInt32) :
    flagOf (leafEntry physAddr flags) 0 = true ∧
      flagOf (leafEntry physAddr flags) 1 = flagOf flags 1 ∧
      flagOf (leafEntry physAddr flags) 2 = flagOf flags 2 := by
  -- Each flag comes from its own mask.
  have mask0 : flagOf pageAddrMask 0 = false := rfl
  have mask1 : flagOf pageAddrMask 1 = false := rfl
  have mask2 : flagOf pageAddrMask 2 = false := rfl
  have both1 : flagOf (vmmPageWritable ||| vmmPageUser) 1 = true := rfl
  have both2 : flagOf (vmmPageWritable ||| vmmPageUser) 2 = true := rfl
  have present0 : flagOf pagePresent 0 = true := rfl
  have present1 : flagOf pagePresent 1 = false := rfl
  have present2 : flagOf pagePresent 2 = false := rfl
  refine ⟨?_, ?_, ?_⟩
  · rw [leafEntry, flagOf_or, flagOf_or, present0, Bool.or_true, Bool.or_true]
  · rw [leafEntry, flagOf_or, flagOf_or, flagOf_and, flagOf_and, mask1, both1, present1,
      Bool.and_false, Bool.and_true, Bool.or_false, Bool.false_or]
  · rw [leafEntry, flagOf_or, flagOf_or, flagOf_and, flagOf_and, mask2, both2, present2,
      Bool.and_false, Bool.and_true, Bool.or_false, Bool.false_or]

omit [Inhabited ρ] in
/-- The alignment of an address, as the code tests it. -/
theorem mod_pageSize_ne_zero (address : UInt32) :
    (address % pageSize != 0) = decide (address.toNat % 4096 ≠ 0) := by
  -- The remainder is compared with zero as a number.
  have zero : address % pageSize = 0 ↔ address.toNat % 4096 = 0 := by
    rw [← UInt32.toNat_inj, UInt32.toNat_mod]
    rfl
  by_cases aligned : address.toNat % 4096 = 0
  · simp [zero.mpr aligned, aligned]
  · simp [aligned, zero]

/-- Mapping a page makes it lead to the physical page, unless no page was left for its table. -/
theorem vmmMapPageInDirectory_cases (spaces : Spaces owner s) (live : owner d = some .directory)
    (at_ : dir.toNat = d * 4096) (half : virtAddr < vmmKernelBase)
    (virtAligned : virtAddr.toNat % 4096 = 0) (physAligned : physAddr.toNat % 4096 = 0)
    (flags : UInt32) :
    (vmmMapPageInDirectory dir virtAddr physAddr flags s = (false, s) ∧
      ∀ f, f < s.totalPages.toNat → owner f ≠ none) ∨
    ∃ owner' t, vmmMapPageInDirectory dir virtAddr physAddr flags s = (true, t) ∧
      CellChange owner owner' s t d (virtAddr.toNat / 4096) (leafEntry physAddr flags) := by
  -- With a table in place the entry is stored, and it is the only one that changes.
  have positive := spaces.positive (spaces.directory_inPool live)
  unfold vmmMapPageInDirectory mapPageInDirectory
  rw [if_neg (by simpa using ne_zero_of_page at_ positive), mod_pageSize_ne_zero,
    mod_pageSize_ne_zero, if_neg (by simp [virtAligned, physAligned])]
  simp only [pageDirectoryIndex_eq, pageTableIndex_eq]
  rcases preparePageTable_cases spaces live (page_half half) at_ flags with
    ⟨result, -, full⟩ | ⟨owner', t, result, prepared, present, user⟩
  · left
    rw [result]
    exact ⟨rfl, full⟩
  · right
    rw [result]
    simp only [Bool.false_and, Bool.false_eq_true, if_false]
    obtain ⟨-, -, asked⟩ := leafEntry_flags physAddr flags
    have allowed : flagOf (leafEntry physAddr flags) 0 = true →
        flagOf (leafEntry physAddr flags) 2 = true →
        flagOf (t.pde d (virtAddr.toNat / 4096 / 1024)) 2 = true :=
      fun _ raised => user (asked.symm.trans raised)
    have changed := prepared.spaces.setCell (prepared.framed.directory.mpr live) (page_half half)
      present (toNat_pageTableFromDirectory _) allowed
    rw [← entry_directory at_] at changed
    exact ⟨owner', _, rfl, prepared.trans changed⟩

end Tables

/-- A page that is not aligned is not mapped. -/
theorem vmmMapPageInDirectory_unaligned
    (unaligned : virtAddr.toNat % 4096 ≠ 0 ∨ physAddr.toNat % 4096 ≠ 0) (dir flags : UInt32) (s : Vmm) :
    vmmMapPageInDirectory dir virtAddr physAddr flags s = (false, s) := by
  -- The check is the first thing the function does.
  unfold vmmMapPageInDirectory mapPageInDirectory
  split
  · rfl
  · rw [mod_pageSize_ne_zero, mod_pageSize_ne_zero, if_pos (by simpa using unaligned)]

/-- Unmapping a page clears its entry, if it had one. -/
theorem vmmUnmapPageInDirectory_cases (spaces : Spaces owner s) (live : owner d = some .directory)
    (at_ : dir.toNat = d * 4096) (half : virtAddr < vmmKernelBase)
    (aligned : virtAddr.toNat % 4096 = 0) :
    (vmmUnmapPageInDirectory dir virtAddr s = s ∧
      flagOf (s.cell d (virtAddr.toNat / 4096)) 0 = false) ∨
    CellChange owner owner s (vmmUnmapPageInDirectory dir virtAddr s) d (virtAddr.toNat / 4096) 0 := by
  -- There is no table, or no entry in use, or the entry is cleared.
  have positive := spaces.positive (spaces.directory_inPool live)
  have nonzero := ne_zero_of_page at_ positive
  unfold vmmUnmapPageInDirectory unmapPageInDirectory
  rw [mod_pageSize_ne_zero, if_neg (by simp [nonzero, aligned])]
  simp only [pageDirectoryIndex_eq, pageTableIndex_eq, entry_directory at_, and_pagePresent_eq_zero,
    and_pagePresent_ne_zero, Bool.false_and, Bool.false_eq_true, if_false]
  by_cases present : flagOf (s.pde d (virtAddr.toNat / 4096 / 1024)) 0 = true
  · rw [if_neg (by simp [present]), entry_table present]
    by_cases mapped : flagOf (s.cell d (virtAddr.toNat / 4096)) 0 = true
    · right
      rw [if_pos mapped]
      exact spaces.setCell live (page_half half) present (toNat_pageTableFromDirectory _) nofun
    · left
      rw [if_neg mapped]
      exact ⟨rfl, Bool.eq_false_iff.mpr mapped⟩
  · left
    rw [if_pos (by simpa using present)]
    exact ⟨rfl, by rw [cell_eq_zero (Bool.eq_false_iff.mpr present)]; rfl⟩

/-- A page that is not aligned is not unmapped. -/
theorem vmmUnmapPageInDirectory_unaligned (unaligned : virtAddr.toNat % 4096 ≠ 0) (dir : UInt32)
    (s : Vmm) : vmmUnmapPageInDirectory dir virtAddr s = s := by
  -- The check is the first thing the function does.
  unfold vmmUnmapPageInDirectory unmapPageInDirectory
  rw [mod_pageSize_ne_zero, if_pos (by simp [unaligned])]

/-- Lowering the accessed flag changes nothing else about a page. -/
theorem vmmClearPageAccessedInDirectory_cases (spaces : Spaces owner s)
    (live : owner d = some .directory) (at_ : dir.toNat = d * 4096)
    (half : virtAddr < vmmKernelBase) :
    (vmmClearPageAccessedInDirectory dir virtAddr s = (false, s) ∧
      flagOf (s.cell d (virtAddr.toNat / 4096)) 0 = false) ∨
    ∃ t, vmmClearPageAccessedInDirectory dir virtAddr s = (true, t) ∧
      flagOf (s.cell d (virtAddr.toNat / 4096)) 0 = true ∧
      CellChange owner owner s t d (virtAddr.toNat / 4096)
        (s.cell d (virtAddr.toNat / 4096) &&& ~~~vmmPageAccessed) := by
  -- The entry is stored back without the one flag.
  have positive := spaces.positive (spaces.directory_inPool live)
  have nonzero := ne_zero_of_page at_ positive
  unfold vmmClearPageAccessedInDirectory
  rw [if_neg (by simpa using nonzero)]
  simp only [pageDirectoryIndex_eq, pageTableIndex_eq, entry_directory at_, and_pagePresent_eq_zero]
  by_cases present : flagOf (s.pde d (virtAddr.toNat / 4096 / 1024)) 0 = true
  · rw [if_neg (by simp [present]), entry_table present]
    by_cases mapped : flagOf (s.cell d (virtAddr.toNat / 4096)) 0 = true
    · right
      rw [if_neg (by simp [mapped])]
      refine ⟨_, rfl, mapped, spaces.setCell live (page_half half) present
        (toNat_pageTableFromDirectory _) fun _ raised => ?_⟩
      rw [flagOf_and, Bool.and_eq_true] at raised
      exact spaces.user live (page_half half) mapped raised.1
    · left
      rw [if_pos (by simpa using mapped)]
      exact ⟨rfl, Bool.eq_false_iff.mpr mapped⟩
  · left
    rw [if_pos (by simpa using present)]
    exact ⟨rfl, by rw [cell_eq_zero (Bool.eq_false_iff.mpr present)]; rfl⟩

end MyOS.Mm
