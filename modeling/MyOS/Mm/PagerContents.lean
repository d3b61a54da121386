import MyOS.Mm.PagerAccess

/-! Where the bytes of a page are, and that they are the same wherever the page goes. -/

namespace MyOS.Mm

open Pager

section Swap

variable {a b : Ata} {i : Nat}

/-- The places of pages on the disk lie one behind the other. -/
theorem lba28_swapLbaForSlot (inside : i < 128) :
    lba28 (swapLbaForSlot (UInt32.ofNat i)) = 2048 + 8 * i := by
  -- The places are computed for each of the entries.
  have all : ∀ i, i < 128 → lba28 (swapLbaForSlot (UInt32.ofNat i)) = 2048 + 8 * i := by decide
  exact all i inside

/-- The bytes that lie at the place of a page on the disk. -/
def slotByte (a : Ata) (i k : Nat) : UInt8 := (a.sectors (2048 + 8 * i + k / 512)).get (k % 512)

/-- What is written to the place of a page is there, and nothing changes at other places. -/
theorem swapWrite_sound {bytes : Nat → UInt8} (sound : a.Sound) (inside : i < 128)
    (written : a.writeSectors (swapLbaForSlot (UInt32.ofNat i)) (pageSectors bytes) = (true, b)) :
    b.Sound ∧ (∀ k, k < 4096 → slotByte b i k = bytes k) ∧
      ∀ j k, j ≠ i → k < 4096 → slotByte b j k = slotByte a j k := by
  have eight : (pageSectors bytes).length = 8 := by simp [pageSectors, pagerSectorsPerPage]
  unfold Ata.writeSectors at written
  rw [if_neg (by simp [sound.ready, eight]), lba28_swapLbaForSlot inside,
    Ata.writeLoop_sound sound] at written
  have state : a.wrote _ = b := congrArg Prod.snd written
  rw [← state]
  refine ⟨⟨sound.ready, sound.reliable⟩, fun k small => ?_, fun j k other small => ?_⟩
  · -- The sector of the byte is written once.
    have stored : (a.wrote ((pageSectors bytes).mapIdx fun k sector =>
        (2048 + 8 * i + k, sector))).sectors (2048 + 8 * i + k / 512) =
          FixedArray.ofFn fun n => bytes (512 * (k / 512) + n) := by
      have within : k / 512 < (pageSectors bytes).length := by omega
      have content : (pageSectors bytes)[k / 512] = FixedArray.ofFn fun n =>
          bytes (512 * (k / 512) + n) := by
        simp [pageSectors]
      refine Ata.applyWrites_written (Or.inr ⟨(2048 + 8 * i + k / 512, (pageSectors bytes)[k / 512]),
        List.mem_mapIdx.mpr ⟨k / 512, within, rfl⟩, rfl⟩) fun entry member place => ?_
      obtain ⟨m, below, rfl⟩ := List.mem_mapIdx.mp member
      have same : m = k / 512 := by
        simp only at place
        omega
      subst same
      exact content
    rw [slotByte, stored, FixedArray.get_ofFn _ (Nat.mod_lt _ (by decide)), Nat.div_add_mod]
  · unfold slotByte
    congr 1
    refine Ata.applyWrites_other fun entry member place => ?_
    obtain ⟨m, below, rfl⟩ := List.mem_mapIdx.mp member
    simp only at place
    omega

/-- Reading the place of a page gives the bytes that lie there. -/
theorem swapRead_sound {sectors : List Sector} (sound : a.Sound) (inside : i < 128)
    (read : a.readSectors (swapLbaForSlot (UInt32.ofNat i)) 8 = (some sectors, b)) :
    b.Sound ∧ (∀ k, k < 4096 → sectorBytes sectors k = slotByte a i k) ∧
      ∀ j k, slotByte b j k = slotByte a j k := by
  -- On a sound disk the eight reads give the eight sectors from the place on.
  unfold Ata.readSectors at read
  rw [if_neg (by simp [sound.ready]), lba28_swapLbaForSlot inside, Ata.readLoop_sound sound] at read
  obtain ⟨rfl, rfl⟩ : _ = sectors ∧ a.afterReads _ = b := by simpa using read
  refine ⟨⟨sound.ready, sound.reliable⟩, fun k small => ?_, fun _ _ => rfl⟩
  rw [sectorBytes, List.getD_eq_getElem _ _ (by simp; omega)]
  simp [slotByte]

end Swap

/-- A byte of a page, in its frame or at its place on the disk. -/
def Pager.byteAt (s : Pager) (i k : Nat) : UInt8 :=
  if (s.pages.get i).present then s.memory ((s.pages.get i).frame * 4096 + k)
  else slotByte s.disk i k

/-- The table of a space grants the rights that a page in memory was registered with. -/
def Pager.Rights (s : Pager) : Prop :=
  ∀ i, i < 128 → (s.pages.get i).used = true → (s.pages.get i).present = true →
    flagOf (s.cell (s.pages.get i).directory (s.pages.get i).page) 1 =
      flagOf (s.pages.get i).flags 1 ∧
    flagOf (s.cell (s.pages.get i).directory (s.pages.get i).page) 2 =
      flagOf (s.pages.get i).flags 2

/-- Every page that is registered has kept its bytes, and its rights if they were right. -/
structure Retains (s t : Pager) : Prop where
  used : ∀ i, i < 128 → (t.pages.get i).used = (s.pages.get i).used
  bytes : ∀ i, i < 128 → (s.pages.get i).used = true → ∀ k, k < 4096 → t.byteAt i k = s.byteAt i k
  rights : s.Rights → t.Rights
  sound : s.disk.Sound → t.disk.Sound

namespace Retains

variable {owner owner' : Owners Holder} {hole : Option Nat} {s t u : Pager} {i slot : Nat}

/-- Steps that keep the bytes follow each other. -/
theorem trans (first : Retains s t) (second : Retains t u) : Retains s u := by
  -- An entry in use is still in use for the second step.
  refine ⟨fun i inside => (second.used i inside).trans (first.used i inside), ?_,
    fun rights => second.rights (first.rights rights), fun sound => second.sound (first.sound sound)⟩
  intro i inside used k small
  rw [second.bytes i inside ((first.used i inside).trans used) k small,
    first.bytes i inside used k small]

/-- Steps that leave every page at its place, and the disk alone. -/
theorem ofSame (ok : Ok owner hole s)
    (held : ∀ {f r}, owner f = some (.held r) → s.memory.SamePage t.memory f)
    (cells : ∀ i, i < 128 → (s.pages.get i).used = true → (s.pages.get i).present = true →
      Alike (t.cell (s.pages.get i).directory (s.pages.get i).page)
        (s.cell (s.pages.get i).directory (s.pages.get i).page))
    (disk : t.disk = s.disk) (entries : ∀ i, i < 128 → (s.pages.get i).Same (t.pages.get i))
    (flags : ∀ i, i < 128 → (t.pages.get i).flags = (s.pages.get i).flags) : Retains s t := by
  -- A page in memory has its bytes in its frame, and the others theirs on the disk: both stay.
  refine ⟨fun i inside => (entries i inside).used, fun i inside used k small => ?_,
    fun rights i inside used present => ?_, fun sound => by rw [disk]; exact sound⟩
  · have same := entries i inside
    unfold Pager.byteAt PagerPage.frame
    rw [same.present, same.phys, disk]
    split
    · next present => exact held (ok.frames inside used present).owned k small
    · rfl
  · have same := entries i inside
    rw [same.used] at used
    rw [same.present] at present
    have alike := cells i inside used present
    have before := rights i inside used present
    unfold PagerPage.directory PagerPage.page at alike before ⊢
    rw [same.directory, same.virt, flags i inside, alike.flags 1 (by decide),
      alike.flags 2 (by decide)]
    exact before

/-- What is known about accesses changes, and what is known about pages besides. -/
theorem touched (ok : Ok owner hole s) (touched : Touched owner s.toVmm t.toVmm)
    (disk : t.disk = s.disk) (entries : ∀ i, i < 128 → (s.pages.get i).Same (t.pages.get i))
    (flags : ∀ i, i < 128 → (t.pages.get i).flags = (s.pages.get i).flags) : Retains s t := by
  -- A page's entry lies in the user's half, where what was touched does not show.
  refine ofSame ok touched.held (fun i inside used _ => ?_) disk entries flags
  have lives := ok.lives inside used
  have half := PagerPage.page_half lives.half
  exact touched.cells lives.live (by omega)

/-- Looking at accesses. -/
theorem sampled (ok : Ok owner hole s) (sampled : Sampled owner s t) : Retains s t := by
  -- A look at accesses touches entries, and only the times of use change in the books.
  refine touched ok sampled.vmm sampled.disk (fun i inside => (sampled.kept.entries i inside))
    fun i inside => ?_
  rw [sampled.pages i inside]

/-- The rights on pages in memory, where one page was taken out of its frame or given up. -/
theorem rights_drop (ok : Ok owner none s) (inside : i < 128) (used : (s.pages.get i).used = true)
    (dropped : Dropped owner s.toVmm t.toVmm (s.pages.get i).directory (s.pages.get i).page
      (s.pages.get i).frame)
    (others : ∀ j, j < 128 → j ≠ i → t.pages.get j = s.pages.get j)
    (gone : (t.pages.get i).present = false) (rights : s.Rights) : t.Rights := by
  -- The other pages in memory have other entries, and these are as they were.
  intro j small used' present'
  have other : j ≠ i := by
    rintro rfl
    exact nomatch gone.symm.trans present'
  rw [others j small other] at used' present' ⊢
  have lives := ok.lives small used'
  have half := PagerPage.page_half lives.half
  rw [dropped.cells lives.live (by omega)]
  · exact rights j small used' present'
  · exact fun here => other (ok.apart small inside used' used here.1 here.2)

/-- A page that is put on the disk has its bytes there. -/
theorem evicted (ok : Ok owner none s) (inside : slot < s.residentFrames) (sound : s.disk.Sound)
    (evicted : Evicted owner s t slot) : Retains s t := by
  obtain ⟨small, used, present⟩ := ok.books.listed inside nofun
  have resident := ok.frames small used present
  have written := evicted.written
  rw [ok.books.slots small] at written
  obtain ⟨soundT, here, elsewhere⟩ := swapWrite_sound sound small written
  have slots : ∀ j, j < 128 → t.pages.get j =
      if j = s.framePages.get slot then swappedOut (s.pages.get (s.framePages.get slot))
      else s.pages.get j := by
    intro j below
    rw [evicted.pages, FixedArray.get_set _ _ below]
  have others : ∀ j, j < 128 → j ≠ s.framePages.get slot → t.pages.get j = s.pages.get j :=
    fun j below other => by rw [slots j below, if_neg other]
  refine ⟨fun j below => ?_, fun j below used' k inner => ?_,
    rights_drop ok small used evicted.memory others ?_, fun _ => soundT⟩
  · rw [slots j below]
    split
    · next same =>
      rw [same]
      rfl
    · rfl
  · unfold Pager.byteAt
    by_cases same : j = s.framePages.get slot
    · -- The page itself went from its frame to its place on the disk.
      subst same
      rw [slots _ below, if_pos rfl, present, if_pos rfl]
      change slotByte t.disk (s.framePages.get slot) k = _
      rw [here k inner, resident.address]
    · rw [others j below same, elsewhere j k same inner]
      split
      · next there => exact evicted.memory.held (ok.frames below used' there).owned k inner
      · rfl
  · rw [slots _ small, if_pos rfl]
    rfl

/-- A page that is brought in has its bytes in its frame. -/
theorem filled (ok : Ok owner (some slot) s) (inside : i < 128) (used : (s.pages.get i).used = true)
    (absent : (s.pages.get i).present = false) (sound : s.disk.Sound)
    (filled : Filled owner owner' s t i slot) : Retains s t := by
  -- The bytes of the page are read from its place on the disk, and the other pages are not touched.
  obtain ⟨sectors, read, placed⟩ := filled.memory
  obtain ⟨physAddr, tick, pages⟩ := filled.pages
  rw [ok.books.slots inside] at read
  obtain ⟨soundT, bytes, disk⟩ := swapRead_sound sound inside read
  have slots : ∀ j, j < 128 → t.pages.get j =
      if j = i then broughtIn (s.pages.get i) physAddr tick else s.pages.get j := by
    intro j below
    rw [pages, FixedArray.get_set _ _ below]
  have mine : t.pages.get i = broughtIn (s.pages.get i) physAddr tick := by
    rw [slots i inside, if_pos rfl]
  have lives := ok.lives inside used
  refine ⟨fun j below => ?_, fun j below used' k inner => ?_, fun rights j below used' present' => ?_,
    fun _ => soundT⟩
  · rw [slots j below]
    split
    · next same =>
      rw [same]
      rfl
    · rfl
  · unfold Pager.byteAt
    by_cases same : j = i
    · subst same
      have there : (t.pages.get j).present = true := by
        rw [mine]
        rfl
      rw [there, absent, if_pos rfl, if_neg nofun, placed.contents k inner, bytes k inner]
    · rw [slots j below, if_neg same, disk j k]
      split
      · next there => exact placed.held (ok.frames below used' there).owned k inner
      · rfl
  · by_cases same : j = i
    · subst same
      have half := PagerPage.page_half lives.half
      have cell := @placed.cells (s.pages.get j).directory (s.pages.get j).page lives.live (by omega)
      rw [if_pos ⟨rfl, rfl⟩] at cell
      obtain ⟨-, writable, user⟩ := leafEntry_flags (t.pages.get j).physAddr (s.pages.get j).flags
      have same : (t.pages.get j).directory = (s.pages.get j).directory ∧
          (t.pages.get j).page = (s.pages.get j).page ∧
          (t.pages.get j).flags = (s.pages.get j).flags := by
        rw [mine]
        exact ⟨rfl, rfl, rfl⟩
      rw [same.1, same.2.1, same.2.2, cell]
      exact ⟨writable, user⟩
    · have unchanged : t.pages.get j = s.pages.get j := by
        rw [slots j below, if_neg same]
      rw [unchanged] at used' present' ⊢
      have lives' := ok.lives below used'
      have half' := PagerPage.page_half lives'.half
      rw [placed.cells lives'.live (by omega), if_neg]
      · exact rights j below used' present'
      · exact fun there => same (ok.apart below inside used' used there.1 there.2)

/-- Making a frame free. -/
theorem vacated (ok : Ok owner none s) (sound : s.disk.Sound)
    (vacated : Vacated owner s owner' t slot) : Retains s t := by
  -- A frame that was in use is emptied, after the accesses were looked at.
  cases vacated with
  | grown room => exact ⟨fun _ _ => rfl, fun _ _ _ _ _ => rfl, id, id⟩
  | evicted u _ _ full inside looked choice emptied =>
    have first := sampled ok looked
    refine first.trans (evicted (ok.sampled looked) ?_ (first.sound sound) emptied)
    rw [looked.resident, full]
    exact inside

/-- Bringing in a page, whether or not another one has to go for it. -/
theorem pagedIn (ok : Ok owner none s) (inside : i < 128) (used : (s.pages.get i).used = true)
    (absent : (s.pages.get i).present = false) (sound : s.disk.Sound)
    (pagedIn : PagedIn owner owner' s t i) : Retains s t := by
  -- The frame is made free first, and that step keeps the disk sound for the second one.
  obtain ⟨slot, ownerM, m, made, brought⟩ := pagedIn.steps
  have still := made.absent ok inside absent
  have first := vacated ok sound made
  exact first.trans (filled (made.ok ok) inside (still.1.trans used) still.2.1 (first.sound sound)
    brought)

/-- A page that was asked for. -/
theorem resolved (ok : Ok owner none s) (inside : i < 128) (used : (s.pages.get i).used = true)
    (sound : s.disk.Sound) (resolved : Resolved owner s i owner' t) : Retains s t := by
  -- A page in memory is there already, and another one is brought in.
  cases resolved with
  | there present => exact sampled ok (.refl ok.spaces)
  | brought _ u _ absent looked same brought =>
    have first := sampled ok looked
    exact first.trans (pagedIn (ok.sampled looked) inside (by rw [same]; exact used)
      (by rw [same]; exact absent) (first.sound sound) brought)

end Retains

section Supply

variable {owner : Owners Holder} {s : Pager} {i : Nat}

/--
Whether there is memory for a page, and its space takes it, once a frame is free for it.

These are the calls of `pmm_alloc_page` and `vmm_map_page_in_directory` in `page_in`.
-/
def Pager.supplied (s : Pager) (i : Nat) : Bool :=
  let t := ({ s with
    pageFaults := s.pageFaults + 1
    lastFaultAddr := (s.pages.get i).virtAddr } : Pager).takeFrame.2
  let page := t.pages.get i
  match t.toVmm.alloc with
  | (physAddr, vmm) =>
    physAddr != 0 &&
      match ({ t with toVmm := vmm }.swapReadSlot page.swapSlot).1 with
      | none => true
      | some bytes => (vmmMapPageInDirectory page.pageDirectoryPhys page.virtAddr physAddr
          page.flags { vmm with memory := vmm.memory.copy physAddr.toNat 4096 bytes }).1

/-- A write to the place of a page goes through on a sound disk. -/
theorem swapWrite_true {a : Ata} (sound : a.Sound) (lba : UInt32) (bytes : Nat → UInt8) :
    (a.writeSectors lba (pageSectors bytes)).1 = true := by
  -- The disk is ready and takes every sector.
  unfold Ata.writeSectors
  rw [if_neg (by simp [sound.ready, pageSectors, pagerSectorsPerPage]), Ata.writeLoop_sound sound]

/-- On a sound disk there is always a frame for a page. -/
theorem takeFrame_sound (ok : Ok owner none s) (sound : s.disk.Sound) :
    ∃ slot owner', s.takeFrame.1 = some slot ∧ Vacated owner s owner' s.takeFrame.2 slot := by
  -- There is a frame left, or a victim that can be written to the disk.
  refine (takeFrame_spec ok).resolve_left fun none_ => ?_
  unfold takeFrame at none_
  split at none_
  · cases none_
  · next full_ =>
    have full : s.residentFrames = 16 := by
      have := ok.books.resident
      change ¬ s.residentFrames < 16 at full_
      omega
    obtain ⟨-, sampled, -⟩ := chooseVictimFrame_spec ok full
    generalize s.chooseVictimFrame = chosen at sampled none_
    obtain ⟨slot, t⟩ := chosen
    simp only at sampled none_
    have done : (t.evictFrame slot).1 = true := by
      have written := @swapWrite_true t.disk (by rw [sampled.disk]; exact sound)
        (swapLbaForSlot (t.pages.get (t.framePages.get slot)).swapSlot)
        fun k => t.memory ((t.pages.get (t.framePages.get slot)).physAddr.toNat + k)
      unfold evictFrame swapWriteSlot
      simp only
      generalize Ata.writeSectors _ _ _ = result at written
      obtain ⟨done, disk⟩ := result
      cases written
      rfl
    generalize t.evictFrame slot = result at done none_
    obtain ⟨success, u⟩ := result
    cases done
    cases none_

/-- On a sound disk a page is brought in if memory is supplied. -/
theorem pageIn_supplied (ok : Ok owner none s) (inside : i < 128) (sound : s.disk.Sound)
    (supplied : s.supplied i = true) : (s.pageIn i).1 = true := by
  have noted := Sampled.noteFault ok.spaces (s.pages.get i).virtAddr
  have ok' := ok.sampled noted
  unfold Pager.supplied at supplied
  unfold pageIn
  simp only at supplied ⊢
  generalize ({ s with
    pageFaults := s.pageFaults + 1
    lastFaultAddr := (s.pages.get i).virtAddr } : Pager) = u at noted ok' supplied
  have soundU : u.disk.Sound := by
    rw [noted.disk]
    exact sound
  obtain ⟨slot, ownerM, found, vacated⟩ := takeFrame_sound ok' soundU
  have soundM := (Retains.vacated ok' soundU vacated).sound soundU
  have booksM := (vacated.ok ok').books
  generalize u.takeFrame = result at found vacated supplied soundM booksM
  obtain ⟨first, m⟩ := result
  cases found
  simp only at supplied soundM booksM ⊢
  unfold fillFrame
  simp only [swapReadSlot, show pagerSectorsPerPage.toNat = 8 from rfl, booksM.slots inside] at supplied ⊢
  generalize m.toVmm.alloc = taken at supplied
  obtain ⟨physAddr, vmm⟩ := taken
  simp only [Bool.and_eq_true, bne_iff_ne, ne_eq] at supplied ⊢
  rw [if_neg (by simpa using supplied.1)]
  -- The disk has the page, and the space takes it.
  have read : ∃ sectors disk, m.disk.readSectors (swapLbaForSlot (UInt32.ofNat i)) 8 =
      (some sectors, disk) := by
    unfold Ata.readSectors
    rw [if_neg (by simp [soundM.ready]), Ata.readLoop_sound soundM]
    exact ⟨_, _, rfl⟩
  obtain ⟨sectors, disk, read⟩ := read
  rw [read] at supplied ⊢
  simp only [Option.map_some] at supplied ⊢
  have mapped := supplied.2
  generalize vmmMapPageInDirectory _ _ _ _ _ = result at mapped
  obtain ⟨success, t⟩ := result
  cases mapped
  rfl

end Supply

end MyOS.Mm
