import MyOS.Mm.Transparency

/-!
Flat memory under every call on a pager that is in order, and the part of the disk that such calls
write.
-/

namespace MyOS.Mm

open Pager

variable {owner owner' : Owners Holder} {s t : Pager} {a : FlatMemory} {i slot : Nat}
  {dir virtAddr : UInt32}

/-- Two disks differ at most in the places of pages. -/
abbrev SwapOnly (a b : Ata) : Prop := Ata.Within 2048 3072 a b

section Disk

/-- Writing a page to its place. -/
theorem swapOnly_write (inside : i < 128) (disk : Ata) (bytes : Nat → UInt8) :
    SwapOnly disk (disk.writeSectors (swapLbaForSlot (UInt32.ofNat i)) (pageSectors bytes)).2 := by
  have eight : (pageSectors bytes).length = 8 := by simp [pageSectors, pagerSectorsPerPage]
  -- The last place ends where the area does.
  apply Ata.Within.writeSectors <;> rw [lba28_swapLbaForSlot inside] <;> omega

/-- Making a frame free writes at most the page that was in it. -/
theorem Pager.Vacated.swapOnly (ok : Ok owner none s) (vacated : Vacated owner s owner' t slot) :
    SwapOnly s.disk t.disk := by
  -- Only an eviction writes, and it writes to the place of the victim.
  cases vacated with
  | grown room => exact Ata.Within.refl _
  | evicted u _ _ full inside sampled choice emptied =>
    have ok' := ok.sampled sampled
    obtain ⟨small, -⟩ := ok'.books.listed (show slot < u.residentFrames by
      rw [sampled.resident]
      omega) nofun
    have written := emptied.written
    rw [ok'.books.slots small] at written
    have only := swapOnly_write small u.disk fun k =>
      u.memory ((u.pages.get (u.framePages.get slot)).physAddr.toNat + k)
    rw [written, sampled.disk] at only
    exact only

/-- Bringing in a page writes at most the page that goes for it. -/
theorem Pager.PagedIn.swapOnly (ok : Ok owner none s) (pagedIn : PagedIn owner owner' s t i) :
    SwapOnly s.disk t.disk := by
  -- A frame is made free, and what is left are reads.
  obtain ⟨slot, ownerM, m, vacated, filled⟩ := pagedIn.steps
  obtain ⟨sectors, read, -⟩ := filled.memory
  have reads : SwapOnly m.disk t.disk := by
    have reads := @Ata.Within.readSectors m.disk 2048 3072 (swapLbaForSlot (m.pages.get i).swapSlot) 8
    rwa [read] at reads
  exact (vacated.swapOnly ok).trans reads

/-- A page that was asked for. -/
theorem Resolved.swapOnly (ok : Ok owner none s) (resolved : Resolved owner s i owner' t) :
    SwapOnly s.disk t.disk := by
  -- Nothing happens where the page is in memory already.
  cases resolved with
  | there present => exact Ata.Within.refl _
  | brought _ u _ absent sampled same pagedIn =>
    have brings := pagedIn.swapOnly (ok.sampled sampled)
    rwa [sampled.disk] at brings

/-- Registering a page writes its place. -/
theorem pagerRegisterPageData_swapOnly (ok : Ok owner none s) (sound : s.disk.Sound) (flags : UInt32)
    (data : Option (Nat → UInt8)) (dataSize : Nat) :
    SwapOnly s.disk (pagerRegisterPageData s dir virtAddr flags data dataSize).2.disk := by
  have registers := pagerRegisterPageData_cases s dir virtAddr flags data dataSize
  generalize pagerRegisterPageData s dir virtAddr flags data dataSize = result at registers
  obtain ⟨done, t⟩ := result
  -- Whichever entry is concerned, it is bound to a place of the area.
  have writes : ∀ {j disk} {bytes : Nat → UInt8} {done : Bool}, j < 128 →
      s.disk.writeSectors (swapLbaForSlot (s.pages.get j).swapSlot) (pageSectors bytes) = (done, disk) →
      SwapOnly s.disk disk := by
    intro j disk bytes done inside written
    have only := swapOnly_write inside s.disk bytes
    rw [← ok.books.slots inside, written] at only
    exact only
  cases registers with
  | refused => exact Ata.Within.refl _
  | again j disk done inside found written =>
    rcases written with ⟨same, -⟩ | written
    · rw [show ({ s.setPage j { s.pages.get j with flags := flags } with disk } : Pager).disk = disk
        from rfl, same]
      exact Ata.Within.refl _
    · exact writes inside written
  | failed j disk lost =>
    -- A sound disk does not fail.
    have done := swapWrite_true sound (swapLbaForSlot (s.pages.get j).swapSlot)
      (initialBytes data dataSize)
    rw [lost] at done
    cases done
  | entered j disk inside free aligned some_ missing written => exact writes inside written

end Disk

section Others

/-- The frames that hold no page of the pager keep their bytes. -/
def LeavesOthers (owner : Owners Holder) (s t : Vmm) : Prop :=
  ∀ f k, owner f = some (.held (.slot k)) → s.memory.SamePage t.memory f

/-- Nothing was done to the pages of others. -/
theorem LeavesOthers.refl (owner : Owners Holder) (s : Vmm) : LeavesOthers owner s s :=
  fun _ _ _ => .refl _ _

/-- Making a frame free empties one that holds a page of the pager. -/
theorem Pager.Vacated.others (ok : Ok owner none s) (vacated : Vacated owner s owner' t slot) :
    LeavesOthers owner s.toVmm t.toVmm ∧
      ∀ f k, owner f = some (.held (.slot k)) → owner' f = some (.held (.slot k)) := by
  -- The frame emptied was held by a page of the pager, not by a slot.
  cases vacated with
  | grown room => exact ⟨.refl _ _, fun _ _ => id⟩
  | evicted u _ _ full inside sampled choice emptied =>
    have ok' := ok.sampled sampled
    obtain ⟨small, used, present⟩ := ok'.books.listed (show slot < u.residentFrames by
      rw [sampled.resident]
      omega) nofun
    have mine := (ok'.frames small used present).owned
    refine ⟨fun f k held => (sampled.vmm.held held).trans (emptied.memory.held held),
      fun f k held => ?_⟩
    rw [Function.update_of_ne]
    · exact held
    · rintro rfl
      rw [mine] at held
      cases held

/-- Bringing in a page fills a frame that nobody held. -/
theorem Pager.PagedIn.others (ok : Ok owner none s) (pagedIn : PagedIn owner owner' s t i) :
    LeavesOthers owner s.toVmm t.toVmm := by
  -- The frame filled had no holder, so it is none of a slot.
  obtain ⟨slot, ownerM, m, vacated, filled⟩ := pagedIn.steps
  obtain ⟨sectors, -, placed⟩ := filled.memory
  obtain ⟨first, still⟩ := vacated.others ok
  intro f k held
  exact (first f k held).trans (placed.held (still f k held))

/-- A page that was asked for. -/
theorem Resolved.others (ok : Ok owner none s) (resolved : Resolved owner s i owner' t) :
    LeavesOthers owner s.toVmm t.toVmm := by
  -- Nothing happens where the page is in memory already.
  cases resolved with
  | there present => exact .refl _ _
  | brought _ u _ absent sampled same pagedIn =>
    intro f k held
    exact (sampled.vmm.held held).trans (pagedIn.others (ok.sampled sampled) f k held)

end Others

section Views

/-- What a pager holds at an address of a space: the rights of the page there, and the byte. -/
def Pager.seen (s : Pager) (dir virtAddr : UInt32) : Option (UInt32 × UInt8) :=
  (s.findPageByVirt dir virtAddr).map fun i =>
    ((s.pages.get i).flags, s.byteAt i (virtAddr.toNat % 4096))

/-- What a flat memory holds there. -/
def FlatMemory.seen (a : FlatMemory) (dir virtAddr : UInt32) : Option (UInt32 × UInt8) :=
  (a.find dir virtAddr).map fun page => (page.flags, page.bytes (virtAddr.toNat % 4096))

/-- The flat memory that a pager stands for. -/
def Pager.flat (s : Pager) : FlatMemory where
  current := s.currentPageDirectoryPhys
  count := s.registeredPages
  pages := fun dir v => (s.findPageByVirt dir (UInt32.ofNat (v * 4096))).map fun i =>
    ⟨(s.pages.get i).flags, s.byteAt i⟩

/-- Every pager on a sound disk stands for a flat memory. -/
theorem Pager.mirrors_flat (sound : s.disk.Sound) (rights : s.Rights) : Mirrors s s.flat := by
  refine ⟨sound, rights, rfl, rfl, fun dir virtAddr => ?_⟩
  -- The page of an address is looked for under the address where it begins.
  have same : s.findPageByVirt dir (UInt32.ofNat (virtAddr.toNat / 4096 * 4096)) =
      s.findPageByVirt dir virtAddr := by
    apply findPageByVirt_page
    rw [UInt32.toNat_ofNat']
    have := virtAddr.toNat_lt
    omega
  unfold FlatMemory.find Pager.flat
  simp only [same]
  cases s.findPageByVirt dir virtAddr with
  | none => exact .none
  | some i => exact .some ⟨rfl, fun _ _ => rfl⟩

/-- A pager shows what the flat memory does that it holds. -/
theorem Mirrors.seen (mirrors : Mirrors s a) (dir virtAddr : UInt32) :
    s.seen dir virtAddr = a.seen dir virtAddr := by
  -- The page is found in both or in neither, and its bytes agree.
  unfold Pager.seen FlatMemory.seen
  cases found : s.findPageByVirt dir virtAddr with
  | none => rw [mirrors.missing found, Option.map_none, Option.map_none]
  | some i =>
    obtain ⟨page, there, shows⟩ := mirrors.found found
    rw [there, Option.map_some, Option.map_some, shows.flags,
      shows.bytes _ (Nat.mod_lt _ (by decide))]

/-- A page that is put at an address shows there, and nothing changes elsewhere. -/
theorem FlatMemory.seen_put (a : FlatMemory) (dir virtAddr : UInt32) (page : Option FlatPage)
    (d v : UInt32) :
    (a.put dir virtAddr page).seen d v =
      if d = dir ∧ v.toNat / 4096 = virtAddr.toNat / 4096 then
        page.map fun page => (page.flags, page.bytes (v.toNat % 4096))
      else a.seen d v := by
  -- The flat memory is a function of the page, changed at one place.
  unfold FlatMemory.seen FlatMemory.find FlatMemory.put
  simp only
  split <;> rfl

end Views

namespace Mirrors

/-- The places of pages on another disk that holds the same pages. -/
theorem disk (mirrors : Mirrors s a) {disk : Ata} (sound : disk.Sound)
    (places : ∀ lba, 2048 ≤ lba → lba < 3072 → disk.sectors lba = s.disk.sectors lba) :
    Mirrors { s with disk } a := by
  refine ⟨sound, mirrors.rights, mirrors.current, mirrors.count, fun dir virtAddr => ?_⟩
  refine mirrors.shown_other rfl fun j small _ _ => ⟨rfl, fun k inner => ?_⟩
  -- A byte that is not in memory lies in a sector of the area.
  unfold Pager.byteAt slotByte
  split
  · rfl
  · exact congrArg (FixedArray.get · (k % 512)) (places _ (by omega) (by omega))

/-- Memory may change where every page of the pager stays at its place with its bytes. -/
theorem memory (mirrors : Mirrors s a) (ok : Ok owner none s) {vmm : Vmm}
    (held : ∀ {f j}, owner f = some (.held (.page j)) → s.memory.SamePage vmm.memory f)
    (cells : ∀ j, j < 128 → (s.pages.get j).used = true → (s.pages.get j).present = true →
      Alike (vmm.cell (s.pages.get j).directory (s.pages.get j).page)
        (s.cell (s.pages.get j).directory (s.pages.get j).page))
    (current : vmm.currentPageDirectoryPhys = s.currentPageDirectoryPhys) :
    Mirrors { s with toVmm := vmm } a := by
  refine ⟨mirrors.sound, fun j small used present => ?_, mirrors.current.trans current.symm,
    mirrors.count, fun dir virtAddr => ?_⟩
  · -- The rights are those of the entry in the tables.
    have alike := cells j small used present
    have before := mirrors.rights j small used present
    rw [← alike.flags 1 (by decide), ← alike.flags 2 (by decide)] at before
    exact before
  · refine mirrors.shown_other rfl fun j small used _ => ⟨rfl, fun k inner => ?_⟩
    unfold Pager.byteAt
    split
    · next present => exact held (ok.frames small used present).owned k inner
    · rfl

/-- Another space is switched to. -/
theorem switched (mirrors : Mirrors s a) (dir : UInt32) :
    Mirrors { s with currentPageDirectoryPhys := dir } { a with current := dir } :=
  -- Which space is current is the only thing that changes, and it changes in both.
  ⟨mirrors.sound, mirrors.rights, rfl, mirrors.count, fun _ _ =>
    mirrors.shown_other rfl fun _ _ _ _ => ⟨rfl, fun _ _ => rfl⟩⟩

/-- A page is registered that was not, as in flat memory. -/
theorem register (mirrors : Mirrors s a) (ok : Ok owner none s) (live : owner (pageOf dir) = some .directory)
    (at_ : dir.toNat = pageOf dir * 4096) (half : virtAddr < vmmKernelBase)
    (missing : s.findPageByVirt dir virtAddr = none) (flags : UInt32) (data : Option (Nat → UInt8))
    (dataSize : Nat) :
    Mirrors (pagerRegisterPageData s dir virtAddr flags data dataSize).2
      (a.register dir virtAddr flags data dataSize) := by
  -- The request is refused by both, or the page is entered in both.
  have after := (pagerRegisterPageData_cases s dir virtAddr flags data dataSize).ok ok live at_ half
  unfold FlatMemory.register
  rcases mirrors.register_cases ok missing flags data dataSize with
    ⟨refused, same⟩ | ⟨accepted, i, disk, inside, free, aligned, written, result⟩
  · rw [same, if_neg (by simp [refused])]
    exact mirrors
  · rw [result] at after ⊢
    rw [if_pos accepted]
    exact mirrors.enter ok inside free aligned written after

/-- Whether a page is registered that was not is whether flat memory accepts it. -/
theorem register_eq (mirrors : Mirrors s a) (ok : Ok owner none s)
    (missing : s.findPageByVirt dir virtAddr = none) (flags : UInt32) (data : Option (Nat → UInt8))
    (dataSize : Nat) :
    (pagerRegisterPageData s dir virtAddr flags data dataSize).1 =
      a.accepts dir virtAddr data dataSize := by
  have registers := pagerRegisterPageData_cases s dir virtAddr flags data dataSize
  have cases_ := mirrors.register_cases ok missing flags data dataSize
  -- A page is entered where the table of entries changes.
  have changes : ∀ {i disk}, i < 128 → (s.pages.get i).used = false →
      (enterPage { s with disk } i dir virtAddr flags).pages ≠ s.pages := by
    intro i disk inside free same
    have now := congrArg (fun pages : FixedArray 128 PagerPage => (pages.get i).used) same
    have mine : ((enterPage { s with disk } i dir virtAddr flags).pages.get i).used = true :=
      congrArg PagerPage.used ((FixedArray.get_set _ _ inside).trans (if_pos rfl))
    exact nomatch mine.symm.trans (now.trans free)
  generalize pagerRegisterPageData s dir virtAddr flags data dataSize = result at registers cases_ ⊢
  obtain ⟨done, t⟩ := result
  rcases cases_ with ⟨refused, same⟩ | ⟨accepted, i, disk, inside, free, -, -, entered⟩
  · rw [refused]
    cases registers with
    | refused => rfl
    | failed j disk lost => rfl
    | again j disk done inside found written => exact nomatch missing.symm.trans found
    | entered j disk inside free aligned some_ missing' written =>
      exact absurd (congrArg Pager.pages same) (changes inside free)
  · rw [accepted]
    cases registers with
    | refused => exact absurd (congrArg Pager.pages entered).symm (changes inside free)
    | failed j disk' lost => exact absurd (congrArg Pager.pages entered).symm (changes inside free)
    | again j disk done inside found written => exact nomatch missing.symm.trans found
    | entered j disk inside free aligned some_ missing' written => rfl

/-- A page is given up, as in flat memory. -/
theorem unregister (mirrors : Mirrors s a) (ok : Ok owner none s) (some_ : dir ≠ 0) (virtAddr : UInt32) :
    Mirrors (pagerUnregisterPage s dir virtAddr) (a.unregister dir virtAddr) ∧
      (pagerUnregisterPage s dir virtAddr).disk = s.disk ∧
      LeavesOthers owner s.toVmm (pagerUnregisterPage s dir virtAddr).toVmm := by
  -- No page is given up by either, or the same one by both.
  unfold FlatMemory.unregister
  rcases pagerUnregisterPage_cases ok dir virtAddr with ⟨same, none_⟩ | ⟨i, owner', found, gone⟩
  · rw [same, mirrors.missing (none_ some_)]
    exact ⟨mirrors, rfl, .refl _ _⟩
  · obtain ⟨page, there, -⟩ := mirrors.found found
    rw [there]
    refine ⟨mirrors.leave ok found gone, gone.disk, ?_⟩
    rcases gone.memory with ⟨-, -, same⟩ | ⟨-, -, dropped⟩
    · rw [same]
      exact .refl _ _
    · exact fun f k held => dropped.held held

/-- Whether a page may be chosen as a victim does not show. -/
theorem pin (mirrors : Mirrors s a) (ok : Ok owner none s) (dir virtAddr : UInt32) (pinned : Bool) :
    Mirrors (pagerPinPageInDirectory s dir virtAddr pinned).2 a ∧
      (pagerPinPageInDirectory s dir virtAddr pinned).2.disk = s.disk := by
  -- The pin is no part of what a page shows.
  have kept := pagerPinPageInDirectory_kept ok.spaces dir virtAddr pinned
  have rest : (pagerPinPageInDirectory s dir virtAddr pinned).2.disk = s.disk ∧
      ∀ j, j < 128 → ((pagerPinPageInDirectory s dir virtAddr pinned).2.pages.get j).flags =
        (s.pages.get j).flags := by
    unfold pagerPinPageInDirectory
    split
    · exact ⟨rfl, fun _ _ => rfl⟩
    · split
      · exact ⟨rfl, fun _ _ => rfl⟩
      · next i found =>
        refine ⟨rfl, fun j below => ?_⟩
        change ((s.pages.set i _).get j).flags = _
        rw [FixedArray.get_set _ _ below]
        split
        · next same => rw [same]
        · rfl
  refine ⟨mirrors.kept (.touched ok kept.vmm rest.1 kept.entries rest.2) (fun j small => ?_)
    kept.vmm.current kept.registered, rest.1⟩
  exact ⟨(kept.entries j small).directory, (kept.entries j small).virt, rest.2 j small⟩

/-- Looking at accesses does not show. -/
theorem sample (mirrors : Mirrors s a) (ok : Ok owner none s) :
    Mirrors (pagerSampleUsage s) a ∧ (pagerSampleUsage s).disk = s.disk := by
  -- The times of the last uses do not show.
  have sampled := pagerSampleUsage_sampled ok
  refine ⟨mirrors.kept (.sampled ok sampled) (fun j small => ?_) sampled.vmm.current
    sampled.registered, sampled.disk⟩
  rw [sampled.pages j small]
  exact ⟨rfl, rfl, rfl⟩

/-- A page fault that is resolved does not show. -/
theorem fault (mirrors : Mirrors s a) (ok : Ok owner none s) {faultAddr errCode : UInt32}
    (handled : (pagerHandlePageFault s faultAddr errCode).1 = true) :
    Mirrors (pagerHandlePageFault s faultAddr errCode).2 a ∧
      SwapOnly s.disk (pagerHandlePageFault s faultAddr errCode).2.disk ∧
      LeavesOthers owner s.toVmm (pagerHandlePageFault s faultAddr errCode).2.toVmm := by
  -- A fault does nothing that shows: a page comes into memory, with the bytes it had.
  rcases pagerHandlePageFault_cases faultAddr errCode with same | ⟨i, found, absent, result⟩
  · rw [same]
    exact ⟨mirrors, Ata.Within.refl _, .refl _ _⟩
  · obtain ⟨inside, used, -⟩ := findPageByVirt_some found
    rw [result] at handled ⊢
    obtain ⟨owner', u, sampled, same, pagedIn⟩ := pageIn_spec ok inside used absent handled
    have resolved : Resolved owner s i owner' _ := .brought owner' u _ absent sampled same pagedIn
    exact ⟨mirrors.resolved ok inside used resolved, resolved.swapOnly ok, resolved.others ok⟩

/-- What a program reads of a page in memory is what flat memory holds. -/
theorem read (mirrors : Mirrors s a) (ok : Ok owner none s) (at_ : dir.toNat = pageOf dir * 4096)
    (half : virtAddr < vmmKernelBase) (inside : i < 128)
    (maps : (s.pages.get i).Maps (pageOf dir) (virtAddr.toNat / 4096)) {byte : UInt8}
    (got : (userRead dir virtAddr s.toVmm).1 = .ok byte) :
    ∃ page, a.find dir virtAddr = some page ∧ page.bytes (virtAddr.toNat % 4096) = byte := by
  -- The page is found in the flat memory, and the read is one of a frame.
  obtain ⟨page, there, shows⟩ := mirrors.found (ok.find inside at_ maps)
  refine ⟨page, there, ?_⟩
  rcases userRead_page ok inside at_ half maps with ⟨-, denied⟩ | ⟨-, vmm, -, done⟩
  · rw [denied] at got
    cases got
  · rw [done] at got
    rw [shows.bytes _ (Nat.mod_lt _ (by decide)), ← Except.ok.inj got]
    unfold Pager.byteAt
    rw [if_pos maps.present]

/-- What a program writes to a page in memory is what it writes to flat memory, if it may. -/
theorem write (mirrors : Mirrors s a) (ok : Ok owner none s) (at_ : dir.toNat = pageOf dir * 4096)
    (half : virtAddr < vmmKernelBase) (inside : i < 128)
    (maps : (s.pages.get i).Maps (pageOf dir) (virtAddr.toNat / 4096)) (value : UInt8) :
    ∃ page, a.find dir virtAddr = some page ∧
      ((permits page.flags true = false ∧
        userWrite dir virtAddr value s.toVmm = (.error .protection, s.toVmm)) ∨
      (permits page.flags true = true ∧ (userWrite dir virtAddr value s.toVmm).1 = .ok () ∧
        Mirrors { s with toVmm := (userWrite dir virtAddr value s.toVmm).2 }
          (a.put dir virtAddr (some { page with
            bytes := fun k => if k = virtAddr.toNat % 4096 then value else page.bytes k })))) := by
  have found := ok.find inside at_ maps
  obtain ⟨page, there, shows⟩ := mirrors.found found
  have allowed : permits page.flags true = _ :=
    (congrArg (permits · true) shows.flags).trans (mirrors.rights.permits inside maps true).symm
  refine ⟨page, there, ?_⟩
  rcases userWrite_page ok inside at_ half maps value with ⟨no, denied⟩ | ⟨yes, vmm, touched, done⟩
  · exact Or.inl ⟨allowed.trans no, denied⟩
  · rw [done]
    refine Or.inr ⟨allowed.trans yes, rfl, ?_⟩
    -- The access is noted first, and then the byte changes.
    have noted := mirrors.touched ok touched
    exact noted.poke (ok.kept (.ofTouched touched)) found maps.present there value

end Mirrors

end MyOS.Mm
