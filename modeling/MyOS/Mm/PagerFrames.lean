import MyOS.Mm.PageLife
import MyOS.Mm.PagerVictims

/-! How the pager empties a frame, and brings a page into one. -/

namespace MyOS.Mm.Pager

variable {owner owner' : Owners Holder} {hole : Option Nat} {s t : Pager} {i slot : Nat}

/-- An entry once its page is on the disk. -/
def swappedOut (victim : PagerPage) : PagerPage :=
  { victim with physAddr := 0, present := false, swapped := true }

section Books

/-- The frame of a page that was put on the disk is not in use any more. -/
theorem Books.evict (books : s.Books none) (inside : slot < s.residentFrames)
    (pages : t.pages = s.pages.set (s.framePages.get slot)
      (swappedOut (s.pages.get (s.framePages.get slot))))
    (frames : t.framePages = s.framePages) (resident : t.residentFrames = s.residentFrames)
    (registered : t.registeredPages = s.registeredPages) (hand : t.clockHand = s.clockHand) :
    t.Books (some slot) := by
  -- The page leaves memory, and its frame is the hole that the books leave out.
  have limit := books.resident
  obtain ⟨small, used, -⟩ := books.listed inside nofun
  have slots : ∀ j, j < 128 → t.pages.get j =
      if j = s.framePages.get slot then swappedOut (s.pages.get (s.framePages.get slot))
      else s.pages.get j := by
    intro j below
    rw [pages, FixedArray.get_set _ _ below]
  have kept : ∀ p : PagerPage, (swappedOut p).used = p.used ∧ (swappedOut p).present = false ∧
      (swappedOut p).swapped = true ∧ (swappedOut p).swapSlot = p.swapSlot ∧
      (swappedOut p).pageDirectoryPhys = p.pageDirectoryPhys ∧
      (swappedOut p).virtAddr = p.virtAddr := fun _ => ⟨rfl, rfl, rfl, rfl, rfl, rfl⟩
  refine ⟨by omega, by rw [hand]; exact books.hand, ?_, ?_, ?_, ?_, ?_, ?_, ?_, ?_⟩
  · rintro k ⟨⟩
    omega
  · intro k below other
    have := @books.listed k
    have := @books.distinct k slot
    grind
  · intro k l below below' other other' equal
    have := @books.distinct k l
    grind
  · intro j below used' present
    have := @books.complete j
    grind
  · rw [registered, books.counted]
    refine (usedCount_congr fun j below => ?_).symm
    grind
  · intro j k below below' used' used'' directory virt
    have := @books.unique j k
    grind
  · intro j below used'
    have := @books.swapped j
    grind
  · intro j below
    have := @books.slots j
    grind

/-- A frame more is in use, though there is no page in it yet. -/
theorem Books.grow (books : s.Books none) (room : s.residentFrames < 16)
    (pages : t.pages = s.pages) (frames : t.framePages = s.framePages)
    (resident : t.residentFrames = s.residentFrames + 1)
    (registered : t.registeredPages = s.registeredPages) (hand : t.clockHand = s.clockHand) :
    t.Books (some s.residentFrames) := by
  -- The new frame is the hole, and no entry is about it.
  refine ⟨by omega, by rw [hand]; exact books.hand, ?_, ?_, ?_, ?_, ?_, ?_, ?_, ?_⟩
  · rintro k ⟨⟩
    omega
  · intro k below other
    have := @books.listed k
    grind
  · intro k l below below' other other' equal
    have := @books.distinct k l
    grind
  · intro j below used present
    have := @books.complete j
    grind
  · rw [registered, books.counted, pages]
  · rw [pages]
    exact books.unique
  · rw [pages]
    exact books.swapped
  · rw [pages]
    exact books.slots

/-- The frame that was not in use has a page. -/
theorem Books.settle (books : s.Books (some slot)) (inside : i < 128)
    (used : (s.pages.get i).used = true) (absent : (s.pages.get i).present = false) {p : PagerPage}
    (pages : t.pages = s.pages.set i p)
    (same : p.used = true ∧ p.present = true ∧ p.swapped = false ∧
      p.swapSlot = (s.pages.get i).swapSlot ∧
      p.pageDirectoryPhys = (s.pages.get i).pageDirectoryPhys ∧ p.virtAddr = (s.pages.get i).virtAddr)
    (frames : t.framePages = s.framePages.set slot i) (resident : t.residentFrames = s.residentFrames)
    (registered : t.registeredPages = s.registeredPages) (hand : t.clockHand < 16) :
    t.Books none := by
  have limit := books.resident
  have vacant := books.vacant rfl
  have slots : ∀ j, j < 128 → t.pages.get j = if j = i then p else s.pages.get j := by
    intro j below
    rw [pages, FixedArray.get_set _ _ below]
  have places : ∀ k, k < 16 → t.framePages.get k = if k = slot then i else s.framePages.get k := by
    intro k below
    rw [frames, FixedArray.get_set _ _ below]
  refine ⟨by omega, hand, nofun, ?_, ?_, ?_, ?_, ?_, ?_, ?_⟩
  · intro k below other
    have := @books.listed k
    grind
  · intro k l below below' other other' equal
    -- The new page was in no frame before.
    have elsewhere : ∀ k, k < s.residentFrames → k ≠ slot → s.framePages.get k ≠ i := by
      intro k below other same
      have := (books.listed below (by simpa using other.symm)).2.2
      rw [same, absent] at this
      cases this
    rw [places k (by omega), places l (by omega)] at equal
    rw [resident] at below below'
    by_cases here : k = slot <;> by_cases here' : l = slot
    · rw [here, here']
    · rw [if_pos here, if_neg here'] at equal
      exact absurd equal.symm (elsewhere l below' here')
    · rw [if_neg here, if_pos here'] at equal
      exact absurd equal (elsewhere k below here)
    · rw [if_neg here, if_neg here'] at equal
      exact books.distinct below below' (by simpa using Ne.symm here) (by simpa using Ne.symm here') equal
  · intro j below used' present
    have := @books.complete j
    by_cases here : j = i
    · exact ⟨slot, by omega, nofun, by grind⟩
    · grind
  · rw [registered, books.counted]
    refine (usedCount_congr fun j below => ?_).symm
    grind
  · intro j k below below' used' used'' directory virt
    have := @books.unique j k
    grind
  · intro j below used'
    have := @books.swapped j
    grind
  · intro j below
    have := @books.slots j
    grind

end Books

section Evicting

/-- What the last part of an eviction changes. -/
theorem forgetFrame_fields (s : Pager) (i : Nat) :
    (s.forgetFrame i).toVmm = (vmmUnmapPageInDirectory (s.pages.get i).pageDirectoryPhys
        (s.pages.get i).virtAddr s.toVmm).free (s.pages.get i).physAddr ∧
      (s.forgetFrame i).pages = s.pages.set i (swappedOut (s.pages.get i)) ∧
      (s.forgetFrame i).framePages = s.framePages ∧
      (s.forgetFrame i).residentFrames = s.residentFrames ∧
      (s.forgetFrame i).registeredPages = s.registeredPages ∧
      (s.forgetFrame i).clockHand = s.clockHand ∧ (s.forgetFrame i).disk = s.disk ∧
      (s.forgetFrame i).pagerReady = s.pagerReady := by
  -- The victim is noted in one of two ways, neither of which is a field listed.
  unfold forgetFrame recordVictim
  simp only
  split <;> exact ⟨rfl, rfl, rfl, rfl, rfl, rfl, rfl, rfl⟩

/-- The other pages stay where they are when one is taken out of its frame. -/
theorem Ok.drop {hole' : Option Nat} (ok : Ok owner hole s) (inside : i < 128)
    (used : (s.pages.get i).used = true) (present : (s.pages.get i).present = true)
    (dropped : Dropped owner s.toVmm t.toVmm (s.pages.get i).directory (s.pages.get i).page
      (s.pages.get i).frame)
    (others : ∀ j, j < 128 → j ≠ i → t.pages.get j = s.pages.get j)
    (mine : (t.pages.get i).present = false ∧ ((t.pages.get i).used = true →
      (t.pages.get i).pageDirectoryPhys = (s.pages.get i).pageDirectoryPhys ∧
        (t.pages.get i).virtAddr = (s.pages.get i).virtAddr))
    (books : t.Books hole') (ready : t.pagerReady = s.pagerReady) :
    Ok (Function.update owner (s.pages.get i).frame none) hole' t := by
  have resident := ok.frames inside used present
  have directories : ∀ {d}, owner d = some .directory →
      Function.update owner (s.pages.get i).frame none d = some .directory := by
    intro d live
    rw [Function.update_of_ne]
    · exact live
    · rintro rfl
      exact nomatch live.symm.trans resident.owned
  refine ⟨books, ready.trans ok.ready, dropped.spaces, ?_, ?_, ?_⟩
  · intro j below used'
    by_cases here : j = i
    · subst here
      obtain ⟨directory, virt⟩ := mine.2 used'
      exact (ok.lives inside used).congr directory virt directories
    · rw [others j below here] at used' ⊢
      exact (ok.lives below used').congr rfl rfl directories
  · intro j below used' present'
    have other : j ≠ i := by
      rintro rfl
      exact nomatch mine.1.symm.trans present'
    rw [others j below other] at used' present' ⊢
    have lives' := ok.lives below used'
    have half := PagerPage.page_half lives'.half
    refine (ok.frames below used' present').congr rfl rfl rfl (fun owned => ?_) ?_
    · -- The frame of another page is another frame.
      rw [Function.update_of_ne]
      · exact owned
      · intro equal
        rw [equal, resident.owned] at owned
        simp only [Option.some.injEq, Owner.held.injEq, Holder.page.injEq] at owned
        exact other owned.symm
    · rw [dropped.cells lives'.live (by omega)]
      · exact .refl _
      · exact fun here => other (ok.apart below inside used' used here.1 here.2)
  · intro f j owned
    have notHere : f ≠ (s.pages.get i).frame := by
      rintro rfl
      rw [Function.update_self] at owned
      cases owned
    rw [Function.update_of_ne notHere] at owned
    obtain ⟨below, used', present', frame⟩ := ok.held owned
    have other : j ≠ i := by
      rintro rfl
      exact notHere frame
    rw [others j below other]
    exact ⟨below, used', present', frame⟩

/-- What became of the pager when the page of a frame was put on the disk. -/
structure Evicted (owner : Owners Holder) (s t : Pager) (slot : Nat) : Prop where
  ok : Ok (Function.update owner (s.pages.get (s.framePages.get slot)).frame none) (some slot) t
  pages : t.pages = s.pages.set (s.framePages.get slot)
    (swappedOut (s.pages.get (s.framePages.get slot)))
  frames : t.framePages = s.framePages
  resident : t.residentFrames = s.residentFrames
  memory : Dropped owner s.toVmm t.toVmm (s.pages.get (s.framePages.get slot)).directory
    (s.pages.get (s.framePages.get slot)).page (s.pages.get (s.framePages.get slot)).frame
  written : s.disk.writeSectors (swapLbaForSlot (s.pages.get (s.framePages.get slot)).swapSlot)
    (pageSectors fun k =>
      s.memory ((s.pages.get (s.framePages.get slot)).physAddr.toNat + k)) = (true, t.disk)

/-- A frame in use is emptied, if its page could be written to the disk. -/
theorem evictFrame_spec (ok : Ok owner none s) (inside : slot < s.residentFrames)
    (done : (s.evictFrame slot).1 = true) : Evicted owner s (s.evictFrame slot).2 slot := by
  -- The write to the swap area succeeded, so the entry and the frame are as after an eviction.
  obtain ⟨small, used, present⟩ := ok.books.listed inside nofun
  have lives := ok.lives small used
  have resident := ok.frames small used present
  unfold evictFrame at done ⊢
  simp only [swapWriteSlot] at done ⊢
  generalize attempt : s.disk.writeSectors _ _ = result at done
  obtain ⟨success, disk⟩ := result
  cases success with
  | false => cases done
  | true =>
    simp only
    obtain ⟨vmm, pages, frames, residents, registered, hand, disks, ready⟩ :=
      forgetFrame_fields { s with disk } (s.framePages.get slot)
    generalize Pager.forgetFrame _ _ = t at *
    simp only at vmm pages frames residents registered hand disks ready
    have dropped := ok.spaces.drop lives.live lives.address lives.half lives.aligned resident.owned
      resident.address
    rw [← vmm] at dropped
    have slots : ∀ j, j < 128 → t.pages.get j =
        if j = s.framePages.get slot then swappedOut (s.pages.get (s.framePages.get slot))
        else s.pages.get j := by
      intro j below
      rw [pages, FixedArray.get_set _ _ below]
    refine ⟨?_, pages, frames, residents, dropped, ?_⟩
    · refine ok.drop small used present dropped (fun j below other => ?_) ?_
        (ok.books.evict inside pages frames residents registered hand) ready
      · rw [slots j below, if_neg other]
      · rw [slots _ small, if_pos rfl]
        exact ⟨rfl, fun _ => ⟨rfl, rfl⟩⟩
    · rw [disks]
      exact attempt

end Evicting

section Filling

/-- What became of the pager when a frame was made free for a page. -/
inductive Vacated (owner : Owners Holder) (s : Pager) : Owners Holder → Pager → Nat → Prop where
  /-- There was one that was not in use. -/
  | grown (room : s.residentFrames < 16) :
      Vacated owner s owner { s with residentFrames := s.residentFrames + 1 } s.residentFrames
  /-- One was emptied, whose page was not pinned if there was any such page. -/
  | evicted (t u : Pager) (slot : Nat) (full : s.residentFrames = 16) (inside : slot < 16)
      (sampled : Sampled owner s t)
      (choice : ∀ k, k < 16 → s.pinnedAt k = false → s.pinnedAt slot = false)
      (emptied : Evicted owner t u slot) :
      Vacated owner s
        (Function.update owner (t.pages.get (t.framePages.get slot)).frame none) u slot

/-- A frame that is made free is one in which there is no page. -/
theorem Vacated.ok (ok : Ok owner none s) (vacated : Vacated owner s owner' t slot) :
    Ok owner' (some slot) t := by
  -- A frame that is new holds no page, and one that was in use was emptied.
  cases vacated with
  | grown room =>
    have books := ok.books.grow (t := { s with residentFrames := s.residentFrames + 1 }) room rfl rfl
      rfl rfl rfl
    exact ⟨books, ok.ready, ok.spaces, ok.lives, ok.frames, ok.held⟩
  | evicted _ _ _ full inside sampled choice emptied => exact emptied.ok

/-- The first part of bringing in a page finds a frame for it, or fails. -/
theorem takeFrame_spec (ok : Ok owner none s) :
    s.takeFrame.1 = none ∨
    ∃ slot owner', s.takeFrame.1 = some slot ∧ Vacated owner s owner' s.takeFrame.2 slot := by
  -- There is room for a frame more, or a victim is chosen and evicted.
  have limit := ok.books.resident
  unfold takeFrame
  split
  · next room =>
    exact Or.inr ⟨s.residentFrames, owner, rfl, .grown room⟩
  · next full_ =>
    have full : s.residentFrames = 16 := by
      change ¬ s.residentFrames < 16 at full_
      omega
    obtain ⟨inside, sampled, choice⟩ := chooseVictimFrame_spec ok full
    generalize s.chooseVictimFrame = chosen at inside sampled choice
    obtain ⟨slot, t⟩ := chosen
    simp only at inside sampled choice ⊢
    have there : slot < t.residentFrames := by
      rw [sampled.resident, full]
      exact inside
    cases result : t.evictFrame slot with
    | mk done u =>
      cases done with
      | false => exact Or.inl rfl
      | true =>
        have emptied := evictFrame_spec (ok.sampled sampled) there (by rw [result])
        rw [result] at emptied
        exact Or.inr ⟨slot, _, rfl, .evicted t u slot full inside sampled choice emptied⟩

/-- An entry once its page is in memory. -/
def broughtIn (page : PagerPage) (physAddr tick : UInt32) : PagerPage :=
  { page with physAddr, present := true, swapped := false, lastUsedTick := tick }

/-- What became of the pager when a page was brought into a frame. -/
structure Filled (owner owner' : Owners Holder) (s t : Pager) (i slot : Nat) : Prop where
  ok : Ok owner' none t
  pages : ∃ physAddr tick, t.pages = s.pages.set i (broughtIn (s.pages.get i) physAddr tick)
  frames : t.framePages = s.framePages.set slot i
  resident : t.residentFrames = s.residentFrames
  memory : ∃ sectors, s.disk.readSectors (swapLbaForSlot (s.pages.get i).swapSlot) 8 =
      (some sectors, t.disk) ∧
    Placed owner owner' s.toVmm t.toVmm (s.pages.get i).directory (s.pages.get i).page
      (t.pages.get i).frame (.page i) (leafEntry (t.pages.get i).physAddr (s.pages.get i).flags)
      (sectorBytes sectors)

/-- What the last part of bringing in a page changes. -/
theorem settleFrame_fields (s : Pager) (slot : Nat) (physAddr : UInt32) (inside : i < 128) :
    (∃ tick, (s.settleFrame i slot physAddr).pages =
      s.pages.set i (broughtIn (s.pages.get i) physAddr tick)) ∧
    (s.settleFrame i slot physAddr).toVmm = s.toVmm ∧
    (s.settleFrame i slot physAddr).framePages = s.framePages.set slot i ∧
    (s.settleFrame i slot physAddr).residentFrames = s.residentFrames ∧
    (s.settleFrame i slot physAddr).registeredPages = s.registeredPages ∧
    (s.settleFrame i slot physAddr).clockHand = (slot + 1) % 16 ∧
    (s.settleFrame i slot physAddr).disk = s.disk ∧
    (s.settleFrame i slot physAddr).pagerReady = s.pagerReady := by
  -- The tick of the use is the next one, which is never zero.
  refine ⟨⟨if s.usageTick + 1 == 0 then 1 else s.usageTick + 1, ?_⟩, rfl, rfl, rfl, rfl, rfl, rfl, rfl⟩
  unfold settleFrame markPageUsed setPage
  simp only [FixedArray.set_set, FixedArray.get_set_same _ _ inside]
  rfl

/-- The steps that bring a page in: memory is taken, the page is read from its slot, and mapped. -/
theorem fillFrame_steps (ok : Ok owner (some slot) s) (inside : i < 128)
    (used : (s.pages.get i).used = true) (done : (s.fillFrame i slot).1 = true) :
    ∃ owner' f physAddr sectors disk t,
      (s.fillFrame i slot).2 = settleFrame { s with toVmm := t, disk } i slot physAddr ∧
      s.disk.readSectors (swapLbaForSlot (s.pages.get i).swapSlot) 8 = (some sectors, disk) ∧
      physAddr.toNat = f * 4096 ∧
      Placed owner owner' s.toVmm t (s.pages.get i).directory (s.pages.get i).page f (.page i)
        (leafEntry physAddr (s.pages.get i).flags) (sectorBytes sectors) := by
  -- Each of the three succeeded, for otherwise the answer would be no.
  have lives := ok.lives inside used
  unfold fillFrame at done ⊢
  simp only [swapReadSlot, show pagerSectorsPerPage.toNat = 8 from rfl] at done ⊢
  generalize taken : s.toVmm.alloc = result at done
  obtain ⟨physAddr, vmm⟩ := result
  simp only at done ⊢
  split at done
  · cases done
  · next some_ =>
    rw [if_neg some_]
    have nonzero : physAddr ≠ 0 := by simpa using some_
    generalize s.disk.readSectors _ 8 = result at done
    obtain ⟨sectors, disk⟩ := result
    cases sectors with
    | none => cases done
    | some sectors =>
      simp only [Option.map_some] at done ⊢
      generalize mapped : vmmMapPageInDirectory _ _ physAddr _ _ = result at done
      obtain ⟨success, t⟩ := result
      cases success with
      | false => cases done
      | true =>
        obtain ⟨f, owner', address, placed⟩ := ok.spaces.place (.page i) lives.live lives.address
          lives.half lives.aligned taken nonzero (sectorBytes sectors) mapped
        exact ⟨owner', f, physAddr, sectors, disk, t, rfl, rfl, address, placed⟩

/-- The pager is in order once a page is mapped, and entered as one that is in memory. -/
theorem Ok.settle (ok : Ok owner (some slot) s) (inside : i < 128)
    (used : (s.pages.get i).used = true) (absent : (s.pages.get i).present = false)
    {owner' : Owners Holder} {f : Nat} {physAddr : UInt32} {bytes : Nat → UInt8} {t : Vmm}
    (disk : Ata) (address : physAddr.toNat = f * 4096)
    (placed : Placed owner owner' s.toVmm t (s.pages.get i).directory (s.pages.get i).page f (.page i)
      (leafEntry physAddr (s.pages.get i).flags) bytes) :
    Ok owner' none (settleFrame { s with toVmm := t, disk } i slot physAddr) := by
  have lives := ok.lives inside used
  obtain ⟨⟨tick, pages⟩, vmms, frames, resident, registered, hand, -, ready⟩ :=
    @settleFrame_fields i { s with toVmm := t, disk } slot physAddr inside
  generalize settleFrame _ i slot physAddr = u at *
  simp only at vmms pages frames resident registered hand ready
  rw [← vmms] at placed
  have frame : pageOf physAddr = f := by
    unfold pageOf
    omega
  have slots : ∀ j, j < 128 → u.pages.get j =
      if j = i then broughtIn (s.pages.get i) physAddr tick else s.pages.get j := by
    intro j below
    rw [pages, FixedArray.get_set _ _ below]
  have mine : u.pages.get i = broughtIn (s.pages.get i) physAddr tick := by
    rw [slots i inside, if_pos rfl]
  have half := PagerPage.page_half lives.half
  refine ⟨?_, ready.trans ok.ready, placed.spaces, ?_, ?_, ?_⟩
  · refine ok.books.settle inside used absent pages ⟨used, rfl, rfl, rfl, rfl, rfl⟩ frames
      resident registered ?_
    rw [hand]
    exact Nat.mod_lt _ (by decide)
  · -- Every entry is about the page it was about.
    intro j below used'
    have place : (u.pages.get j).used = (s.pages.get j).used ∧
        (u.pages.get j).pageDirectoryPhys = (s.pages.get j).pageDirectoryPhys ∧
        (u.pages.get j).virtAddr = (s.pages.get j).virtAddr := by
      rw [slots j below]
      split
      · next same =>
        rw [same]
        exact ⟨rfl, rfl, rfl⟩
      · exact ⟨rfl, rfl, rfl⟩
    obtain ⟨sameUsed, directory, virt⟩ := place
    refine (ok.lives below (sameUsed ▸ used')).congr directory virt fun live => ?_
    exact (placed.roles _ .directory nofun).mpr (Or.inr live)
  · -- The page entered is mapped in its frame, and the others are mapped as they were.
    intro j below used' present'
    by_cases same : j = i
    · subst same
      have cell := @placed.cells (s.pages.get j).directory (s.pages.get j).page lives.live (by omega)
      rw [if_pos ⟨rfl, rfl⟩] at cell
      rw [mine]
      refine ⟨?_, ?_, ?_, ?_⟩
      · exact (placed.roles _ (.held (.page j)) nofun).mpr (Or.inl ⟨frame, rfl⟩)
      · change physAddr.toNat = pageOf physAddr * 4096
        rw [frame, address]
      · exact (congrArg (flagOf · 0) cell).trans (leafEntry_flags _ _).1
      · exact (congrArg pageOf cell).trans (leafEntry_page _ _)
    · have unchanged : u.pages.get j = s.pages.get j := by
        rw [slots j below, if_neg same]
      rw [unchanged] at used' present' ⊢
      have lives' := ok.lives below used'
      have half' := PagerPage.page_half lives'.half
      refine (ok.frames below used' present').congr rfl rfl rfl (fun owned => ?_) ?_
      · exact (placed.roles _ (.held (.page j)) nofun).mpr (Or.inr owned)
      · rw [placed.cells lives'.live (by omega), if_neg]
        · exact .refl _
        · exact fun there => same (ok.apart below inside used' used there.1 there.2)
  · -- A page of memory with an entry is the new one, or had its entry before.
    intro g j owned
    rcases (placed.roles _ (.held (.page j)) nofun).mp owned with ⟨rfl, same⟩ | before
    · cases same
      rw [mine]
      exact ⟨inside, used, rfl, frame.symm⟩
    · obtain ⟨below, used', present', frame'⟩ := ok.held before
      have other : j ≠ i := by
        rintro rfl
        exact nomatch absent.symm.trans present'
      rw [slots j below, if_neg other]
      exact ⟨below, used', present', frame'⟩

/-- A page is brought into a frame that is free, if there is memory for it. -/
theorem fillFrame_spec (ok : Ok owner (some slot) s) (inside : i < 128)
    (used : (s.pages.get i).used = true) (absent : (s.pages.get i).present = false)
    (done : (s.fillFrame i slot).1 = true) :
    ∃ owner', Filled owner owner' s (s.fillFrame i slot).2 i slot := by
  -- The three steps succeeded, and the entry says where the page is.
  obtain ⟨owner', f, physAddr, sectors, disk, t, result, read, address, placed⟩ :=
    fillFrame_steps ok inside used done
  have after := ok.settle inside used absent disk address placed
  obtain ⟨⟨tick, pages⟩, vmms, frames, resident, -, -, disks, -⟩ :=
    @settleFrame_fields i { s with toVmm := t, disk } slot physAddr inside
  rw [← result] at after pages vmms frames resident disks
  have mine : (s.fillFrame i slot).2.pages.get i = broughtIn (s.pages.get i) physAddr tick := by
    rw [pages]
    exact FixedArray.get_set_same _ _ inside
  have here : (broughtIn (s.pages.get i) physAddr tick).frame = f := by
    change pageOf physAddr = f
    unfold pageOf
    omega
  refine ⟨owner', after, ⟨physAddr, tick, pages⟩, frames, resident, sectors, ?_, ?_⟩
  · rw [disks]
    exact read
  · rw [mine, here, vmms]
    exact placed

/-- What became of the pager when a page was brought in. -/
structure PagedIn (owner owner' : Owners Holder) (s t : Pager) (i : Nat) : Prop where
  steps : ∃ slot ownerM m, Vacated owner s ownerM m slot ∧ Filled ownerM owner' m t i slot

/-- A page that was brought in leaves the pager in order. -/
theorem PagedIn.ok (pagedIn : PagedIn owner owner' s t i) : Ok owner' none t := by
  obtain ⟨slot, ownerM, m, -, filled⟩ := pagedIn.steps
  exact filled.ok

/-- A page that is not in memory is not there either once a frame is free for it. -/
theorem Vacated.absent (ok : Ok owner none s) (vacated : Vacated owner s owner' t slot) (inside : i < 128)
    (absent : (s.pages.get i).present = false) :
    (t.pages.get i).used = (s.pages.get i).used ∧ (t.pages.get i).present = false ∧
      (t.pages.get i).pageDirectoryPhys = (s.pages.get i).pageDirectoryPhys ∧
      (t.pages.get i).virtAddr = (s.pages.get i).virtAddr ∧
      (t.pages.get i).flags = (s.pages.get i).flags ∧ (t.pages.get i).pinned = (s.pages.get i).pinned := by
  -- A victim is in memory, and so is another page.
  cases vacated with
  | grown room => exact ⟨rfl, absent, rfl, rfl, rfl, rfl⟩
  | evicted u _ _ full below sampled choice emptied =>
    have there : slot < s.residentFrames := by omega
    have other : i ≠ u.framePages.get slot := by
      rintro rfl
      have present := (ok.books.listed there nofun).2.2
      rw [sampled.framePages] at absent
      exact nomatch absent.symm.trans present
    rw [emptied.pages, FixedArray.get_set _ _ inside, if_neg other, sampled.pages i inside]
    exact ⟨rfl, absent, rfl, rfl, rfl, rfl⟩

/-- The number of faults is not what anything depends on. -/
theorem Sampled.noteFault (spaces : Spaces owner s.toVmm) (virtAddr : UInt32) :
    Sampled owner s { s with pageFaults := s.pageFaults + 1, lastFaultAddr := virtAddr } :=
  ⟨.refl spaces, rfl, fun _ _ => rfl, rfl, rfl, rfl, rfl, id⟩

/-- A page that is not in memory is brought in, if there is room for it. -/
theorem pageIn_spec (ok : Ok owner none s) (inside : i < 128) (used : (s.pages.get i).used = true)
    (absent : (s.pages.get i).present = false) (done : (s.pageIn i).1 = true) :
    ∃ owner' u, Sampled owner s u ∧ u.pages = s.pages ∧ PagedIn owner owner' u (s.pageIn i).2 i := by
  -- A frame is found, and filled from the place of the page in the swap area.
  have noted := Sampled.noteFault ok.spaces (s.pages.get i).virtAddr
  have ok' := ok.sampled noted
  unfold pageIn at done ⊢
  simp only at done ⊢
  generalize fresh : ({ s with
    pageFaults := s.pageFaults + 1
    lastFaultAddr := (s.pages.get i).virtAddr } : Pager) = u at noted ok' done
  have pages : u.pages = s.pages := by
    rw [← fresh]
  rcases takeFrame_spec ok' with none_ | ⟨slot, ownerM, some_, vacated⟩
  · generalize u.takeFrame = result at none_ done
    obtain ⟨first, second⟩ := result
    cases none_
    cases done
  · generalize u.takeFrame = result at some_ vacated done
    obtain ⟨first, m⟩ := result
    cases some_
    simp only at done vacated ⊢
    have still := vacated.absent ok' inside (by rw [pages]; exact absent)
    rw [pages] at still
    obtain ⟨owner', filled⟩ :=
      fillFrame_spec (vacated.ok ok') inside (still.1.trans used) still.2.1 done
    exact ⟨owner', u, noted, pages, slot, ownerM, m, vacated, filled⟩

end Filling

end MyOS.Mm.Pager
