import MyOS.Mm.PagerFrames

/-! What each call on the pager does to its entries and to memory. -/

namespace MyOS.Mm

open Pager

variable {owner owner' : Owners Holder} {s t : Pager} {i : Nat} {dir virtAddr flags : UInt32}

section Lookup

/-- What is known of an entry that is found. -/
theorem findPageByVirt_some (found : s.findPageByVirt dir virtAddr = some i) :
    i < 128 ∧ (s.pages.get i).used = true ∧ (s.pages.get i).pageDirectoryPhys = dir ∧
      (s.pages.get i).virtAddr = alignDownPage virtAddr := by
  -- The search tests exactly these three fields.
  obtain ⟨here, member, -⟩ := List.find?_range_eq_some.mp found
  simp only [Bool.and_eq_true, beq_iff_eq] at here
  exact ⟨List.mem_range.mp member, here.1.1, here.1.2, here.2⟩

/-- Where none is found, no entry in use fits. -/
theorem findPageByVirt_none (missing : s.findPageByVirt dir virtAddr = none) (inside : i < 128)
    (used : (s.pages.get i).used = true) :
    ¬ ((s.pages.get i).pageDirectoryPhys = dir ∧
      (s.pages.get i).virtAddr = alignDownPage virtAddr) := by
  -- An entry in use that fits would have been found.
  rintro ⟨directory, virt⟩
  have absent := List.find?_eq_none.mp missing i (List.mem_range.mpr inside)
  simp [used, directory, virt] at absent

/-- The entry of a page is found by its space and any address in it. -/
theorem Pager.Books.find {hole : Option Nat} (books : s.Books hole) (inside : i < 128)
    (used : (s.pages.get i).used = true) (directory : (s.pages.get i).pageDirectoryPhys = dir)
    (virt : (s.pages.get i).virtAddr = alignDownPage virtAddr) :
    s.findPageByVirt dir virtAddr = some i := by
  -- Some entry is found, and the books know only one for the page.
  cases found : s.findPageByVirt dir virtAddr with
  | none => exact absurd ⟨directory, virt⟩ (findPageByVirt_none found inside used)
  | some j =>
    obtain ⟨inside', used', directory', virt'⟩ := findPageByVirt_some found
    rw [books.unique inside inside' used used' (directory.trans directory'.symm)
      (virt.trans virt'.symm)]

/-- What is known of a free entry that is found. -/
theorem findFreePageEntry_some (found : s.findFreePageEntry = some i) :
    i < 128 ∧ (s.pages.get i).used = false := by
  -- The search tests the one field.
  obtain ⟨here, member, -⟩ := List.find?_range_eq_some.mp found
  exact ⟨List.mem_range.mp member, by simpa using here⟩

/-- The address of the page an address lies in. -/
theorem toNat_alignDownPage (value : UInt32) :
    (alignDownPage value).toNat = value.toNat / 4096 * 4096 :=
  toNat_and_pageMask value

end Lookup

section Registering

/-- The bytes a page starts out with. -/
def initialBytes (data : Option (Nat → UInt8)) (dataSize : Nat) (k : Nat) : UInt8 :=
  match data with
  | none => 0
  | some data => if k < dataSize then data k else 0

/-- Data that is given and data that is not are written alike. -/
theorem writePageDataToSwap_eq (s : Pager) (swapSlot : UInt32) (data : Option (Nat → UInt8))
    (dataSize : Nat) :
    s.writePageDataToSwap swapSlot data dataSize =
      s.swapWriteSlot swapSlot (initialBytes data dataSize) := by
  -- Without data the page is one of zeros.
  cases data <;> rfl

/-- What asking for a page to be registered can come to. -/
inductive Registers (s : Pager) (dir virtAddr flags : UInt32) (bytes : Nat → UInt8) :
    Bool → Pager → Prop where
  | refused : Registers s dir virtAddr flags bytes false s
  /-- The page is registered already, and its place on the disk may have been written again. -/
  | again (i : Nat) (disk : Ata) (done : Bool) (inside : i < 128)
      (found : s.findPageByVirt dir virtAddr = some i)
      (written : (disk = s.disk ∧ done = true) ∨
        s.disk.writeSectors (swapLbaForSlot (s.pages.get i).swapSlot) (pageSectors bytes) =
          (done, disk)) :
      Registers s dir virtAddr flags bytes done
        { s.setPage i { s.pages.get i with flags := flags } with disk }
  /-- The disk failed. -/
  | failed (i : Nat) (disk : Ata)
      (lost : s.disk.writeSectors (swapLbaForSlot (s.pages.get i).swapSlot) (pageSectors bytes) =
        (false, disk)) :
      Registers s dir virtAddr flags bytes false { s with disk }
  | entered (i : Nat) (disk : Ata) (inside : i < 128) (free : (s.pages.get i).used = false)
      (aligned : virtAddr.toNat % 4096 = 0) (some_ : dir ≠ 0)
      (missing : s.findPageByVirt dir virtAddr = none)
      (written : s.disk.writeSectors (swapLbaForSlot (s.pages.get i).swapSlot) (pageSectors bytes) =
        (true, disk)) :
      Registers s dir virtAddr flags bytes true (enterPage { s with disk } i dir virtAddr flags)

/-- An address that is aligned is that of its page. -/
theorem alignDownPage_eq (aligned : virtAddr.toNat % 4096 = 0) : alignDownPage virtAddr = virtAddr := by
  -- The remainder that would be cut off is zero.
  apply UInt32.toNat_inj.mp
  rw [toNat_alignDownPage]
  omega

/-- What a request to register a page comes to. -/
theorem pagerRegisterPageData_cases (s : Pager) (dir virtAddr flags : UInt32)
    (data : Option (Nat → UInt8)) (dataSize : Nat) :
    Registers s dir virtAddr flags (initialBytes data dataSize)
      (pagerRegisterPageData s dir virtAddr flags data dataSize).1
      (pagerRegisterPageData s dir virtAddr flags data dataSize).2 := by
  -- The branches of the function, in its order: refused, known already, no entry, no disk, entered.
  unfold pagerRegisterPageData
  simp only [writePageDataToSwap_eq, swapWriteSlot]
  split
  · exact .refused
  · next accepted =>
    simp only [Bool.or_eq_true, mod_pageSize_ne_zero, not_or, Bool.not_eq_true, decide_eq_false_iff_not,
      not_not, beq_eq_false_iff_ne, ne_eq] at accepted
    obtain ⟨⟨⟨⟨-, some_⟩, aligned⟩, -⟩, -⟩ := accepted
    split
    · next i found =>
      obtain ⟨inside, -⟩ := findPageByVirt_some found
      split
      · generalize written : Ata.writeSectors _ _ _ = result
        obtain ⟨done, disk⟩ := result
        have slot : ((s.setPage i { s.pages.get i with flags := flags }).pages.get i).swapSlot =
            (s.pages.get i).swapSlot := by
          change ((s.pages.set i _).get i).swapSlot = _
          rw [FixedArray.get_set_same _ _ inside]
        rw [slot] at written
        exact .again i disk done inside found (Or.inr written)
      · exact .again i s.disk true inside found (Or.inl ⟨rfl, rfl⟩)
    · next missing =>
      split
      · exact .refused
      · next i found =>
        obtain ⟨inside, free⟩ := findFreePageEntry_some found
        generalize written : s.disk.writeSectors _ _ = result
        obtain ⟨done, disk⟩ := result
        cases done with
        | false => exact .failed i disk written
        | true =>
          simp only
          rw [alignDownPage_eq aligned]
          exact .entered i disk inside free aligned some_ missing written

/-- A page is entered that was not registered. -/
theorem Pager.Books.enter (books : s.Books none) (inside : i < 128)
    (free : (s.pages.get i).used = false) {p : PagerPage} (pages : t.pages = s.pages.set i p)
    (fresh : p.used = true ∧ p.present = false ∧ p.swapped = true ∧
      p.swapSlot = (s.pages.get i).swapSlot)
    (missing : ∀ j, j < 128 → (s.pages.get j).used = true →
      ¬ ((s.pages.get j).pageDirectoryPhys = p.pageDirectoryPhys ∧
        (s.pages.get j).virtAddr = p.virtAddr))
    (frames : t.framePages = s.framePages) (resident : t.residentFrames = s.residentFrames)
    (registered : t.registeredPages = s.registeredPages + 1) (hand : t.clockHand = s.clockHand) :
    t.Books none := by
  -- The entry is on the disk only, so the frames do not change, and its page was not registered.
  have limit := books.resident
  obtain ⟨used, absent, swapped, place⟩ := fresh
  have slots : ∀ j, j < 128 → t.pages.get j = if j = i then p else s.pages.get j := by
    intro j below
    rw [pages, FixedArray.get_set _ _ below]
  refine ⟨by omega, by rw [hand]; exact books.hand, nofun, ?_, ?_, ?_, ?_, ?_, ?_, ?_⟩
  · intro k below other
    have := @books.listed k
    grind
  · intro k l below below' other other' equal
    have := @books.distinct k l
    grind
  · intro j below used' present
    have := @books.complete j
    grind
  · rw [registered, books.counted]
    refine (countP_range_raise inside free ?_ fun j below apart => ?_).symm
    · rw [slots i inside, if_pos rfl]
      exact used
    · rw [slots j below, if_neg apart]
  · intro j k below below' used' used'' directory virt
    have := @books.unique j k
    have := missing j below
    have := missing k below'
    grind
  · intro j below used'
    have := @books.swapped j
    grind
  · intro j below
    have := @books.slots j
    grind

/-- Registering a page of a space that is there keeps what is always true. -/
theorem Registers.ok {bytes : Nat → UInt8} {done : Bool} (ok : Ok owner none s)
    (registers : Registers s dir virtAddr flags bytes done t) {d : Nat}
    (live : owner d = some .directory) (at_ : dir.toNat = d * 4096)
    (half : virtAddr < vmmKernelBase) : Ok owner none t := by
  -- One case for each outcome: only the last one enters a page.
  cases registers with
  | refused => exact ok
  | again i disk done inside found written =>
    refine ok.kept ⟨.refl ok.spaces, fun j below => ?_, rfl, rfl, rfl, rfl, id⟩
    change (s.pages.get j).Same ((s.pages.set i _).get j)
    rw [FixedArray.get_set _ _ below]
    split
    · next same =>
      subst same
      exact ⟨rfl, rfl, rfl, rfl, rfl, rfl, rfl⟩
    · exact .refl _
  | failed i disk lost =>
    exact ok.kept ⟨.refl ok.spaces, fun _ _ => .refl _, rfl, rfl, rfl, rfl, id⟩
  | entered i disk inside free aligned some_ missing written =>
    have directory : pageOf dir = d := by
      unfold pageOf
      omega
    have slots : ∀ j, j < 128 → (enterPage { s with disk } i dir virtAddr flags).pages.get j =
        if j = i then _ else s.pages.get j := fun j below => FixedArray.get_set _ _ below
    have absent : ∀ j, j < 128 → (s.pages.get j).used = true →
        ¬ ((s.pages.get j).pageDirectoryPhys = dir ∧ (s.pages.get j).virtAddr = virtAddr) := by
      intro j below used
      have := findPageByVirt_none missing below used
      rwa [alignDownPage_eq aligned] at this
    refine ⟨ok.books.enter inside free rfl ⟨rfl, rfl, rfl, rfl⟩ absent rfl rfl rfl rfl, ok.ready,
      ok.spaces, ?_, ?_, ?_⟩
    · intro j below used
      rw [slots j below] at used ⊢
      split at used
      · next same =>
        rw [if_pos same]
        refine ⟨?_, ?_, half, aligned⟩
        · change owner (pageOf dir) = _
          rw [directory]
          exact live
        · change dir.toNat = pageOf dir * 4096
          rw [directory]
          exact at_
      · next other =>
        rw [if_neg other]
        exact ok.lives below used
    · intro j below used present
      rw [slots j below] at used present ⊢
      split at present
      · cases present
      · next other =>
        rw [if_neg other] at used ⊢
        exact ok.frames below used present
    · intro f j owned
      obtain ⟨below, used, present, frame⟩ := ok.held owned
      have other : j ≠ i := by
        rintro rfl
        exact nomatch free.symm.trans used
      rw [slots j below, if_neg other]
      exact ⟨below, used, present, frame⟩

end Registering

section Unregistering

/-- What is always true of the entries, apart from those about frames, when a page is given up. -/
theorem Pager.Books.clear (books : s.Books none) (inside : i < 128)
    (used : (s.pages.get i).used = true) {p : PagerPage} (pages : t.pages = s.pages.set i p)
    (gone : p.used = false ∧ p.swapSlot = (s.pages.get i).swapSlot)
    (registered : t.registeredPages = s.registeredPages - 1) (hand : t.clockHand < 16)
    (resident : t.residentFrames ≤ 16)
    (listed : ∀ {k}, k < t.residentFrames → t.framePages.get k < 128 ∧ t.framePages.get k ≠ i ∧
      (s.pages.get (t.framePages.get k)).used = true ∧
      (s.pages.get (t.framePages.get k)).present = true)
    (distinct : ∀ {k l}, k < t.residentFrames → l < t.residentFrames →
      t.framePages.get k = t.framePages.get l → k = l)
    (complete : ∀ {j}, j < 128 → j ≠ i → (s.pages.get j).used = true →
      (s.pages.get j).present = true → ∃ k, k < t.residentFrames ∧ t.framePages.get k = j) :
    t.Books none := by
  -- One entry less is in use, and the frames are those that the hypotheses describe.
  obtain ⟨unused, place⟩ := gone
  have slots : ∀ j, j < 128 → t.pages.get j = if j = i then p else s.pages.get j := by
    intro j below
    rw [pages, FixedArray.get_set _ _ below]
  refine ⟨resident, hand, nofun, ?_, fun below below' _ _ equal => distinct below below' equal, ?_, ?_,
    ?_, ?_, ?_⟩
  · intro k below _
    obtain ⟨small, other, used', present⟩ := listed below
    rw [slots _ small, if_neg other]
    exact ⟨small, used', present⟩
  · intro j below used' present
    have := @complete j below
    grind
  · have fewer : usedCount s.pages = usedCount t.pages + 1 := by
      refine countP_range_raise inside ?_ used fun j below apart => ?_
      · rw [slots i inside, if_pos rfl]
        exact unused
      · rw [slots j below, if_neg apart]
    have := books.counted
    omega
  · intro j k below below' used' used'' directory virt
    have := @books.unique j k
    grind
  · intro j below used'
    have := @books.swapped j
    grind
  · intro j below
    have := @books.slots j
    grind

/-- A page on the disk is given up. -/
theorem Pager.Books.leaveDisk (books : s.Books none) (inside : i < 128)
    (used : (s.pages.get i).used = true) (absent : (s.pages.get i).present = false) :
    (clearEntry s i).Books none := by
  -- A page on the disk is in no frame.
  refine books.clear inside used rfl ⟨rfl, rfl⟩ rfl books.hand books.resident ?_ ?_ ?_
  · intro k below
    obtain ⟨small, used', present⟩ := books.listed below nofun
    refine ⟨small, fun same => ?_, used', present⟩
    rw [show (clearEntry s i).framePages = s.framePages from rfl] at same
    rw [same, absent] at present
    cases present
  · exact fun below below' equal => books.distinct below below' nofun nofun equal
  · intro j below other used' present
    obtain ⟨k, here, -, there⟩ := books.complete below used' present
    exact ⟨k, here, there⟩

/-- A frame is given up, and the last one moves to its place. -/
theorem dropFrame_fields (books : s.Books none) (inside : i < 128)
    (used : (s.pages.get i).used = true) (present : (s.pages.get i).present = true) :
    ∃ k, k < s.residentFrames ∧ s.framePages.get k = i ∧
      (dropFrame s i).residentFrames = s.residentFrames - 1 ∧
      (∀ l, l + 1 < s.residentFrames → (dropFrame s i).framePages.get l =
        if l = k then s.framePages.get (s.residentFrames - 1) else s.framePages.get l) ∧
      (dropFrame s i).clockHand < 16 ∧ (dropFrame s i).pages = s.pages ∧
      (dropFrame s i).toVmm = s.toVmm ∧ (dropFrame s i).disk = s.disk ∧
      (dropFrame s i).registeredPages = s.registeredPages ∧
      (dropFrame s i).pagerReady = s.pagerReady := by
  -- The frame is found, since the page is in memory, and the last one takes its place.
  have limit := books.resident
  have hand := books.hand
  obtain ⟨place, here, -, holds⟩ := books.complete inside used present
  unfold dropFrame
  cases found : (List.range s.residentFrames).find? fun slot => s.framePages.get slot == i with
  | none =>
    have := List.find?_eq_none.mp found place (List.mem_range.mpr here)
    simp [holds] at this
  | some k =>
    obtain ⟨match_, member, -⟩ := List.find?_range_eq_some.mp found
    have below := List.mem_range.mp member
    refine ⟨k, below, by simpa using match_, rfl, fun l inner => ?_, ?_, rfl, rfl, rfl, rfl, rfl⟩
    · simp only
      split
      · rw [FixedArray.get_set _ _ (by omega)]
      · next last =>
        simp only [Bool.and_eq_true, decide_eq_true_eq, not_and] at last
        have := last (by omega)
        rw [if_neg (by omega)]
    · simp only
      split
      · omega
      · exact hand

/-- What became of the pager when a page was given up. -/
structure Unregistered (owner owner' : Owners Holder) (s t : Pager) (i : Nat) : Prop where
  ok : Ok owner' none t
  pages : ∃ p : PagerPage, p.used = false ∧ t.pages = s.pages.set i p
  disk : t.disk = s.disk
  memory : ((s.pages.get i).present = false ∧ owner' = owner ∧ t.toVmm = s.toVmm) ∨
    ((s.pages.get i).present = true ∧
      owner' = Function.update owner (s.pages.get i).frame none ∧
      Dropped owner s.toVmm t.toVmm (s.pages.get i).directory (s.pages.get i).page
        (s.pages.get i).frame)

/-- A page in memory is given up, with the frame it is in. -/
theorem releaseFrame_unregistered (ok : Ok owner none s) (inside : i < 128)
    (used : (s.pages.get i).used = true) (present : (s.pages.get i).present = true) :
    Unregistered owner (Function.update owner (s.pages.get i).frame none) s
      (clearEntry (releaseFrame s i (s.pages.get i).pageDirectoryPhys) i) i := by
  have lives := ok.lives inside used
  have resident := ok.frames inside used present
  have dropped := ok.spaces.drop lives.live lives.address lives.half lives.aligned resident.owned
    resident.address
  obtain ⟨k, below, holds, residents, moved, hand, pages, vmm, disk, registered, ready⟩ :=
    dropFrame_fields ok.books inside used present
  have limit := ok.books.resident
  have released : releaseFrame s i (s.pages.get i).pageDirectoryPhys = { dropFrame s i with
      toVmm := (vmmUnmapPageInDirectory (s.pages.get i).pageDirectoryPhys (s.pages.get i).virtAddr
        s.toVmm).free (s.pages.get i).physAddr } := by
    unfold releaseFrame
    simp only [vmm, pages]
  rw [released]
  generalize (vmmUnmapPageInDirectory (s.pages.get i).pageDirectoryPhys (s.pages.get i).virtAddr
    s.toVmm).free (s.pages.get i).physAddr = after at dropped
  generalize dropFrame s i = u at *
  have cleared : (clearEntry { u with toVmm := after } i).pages =
      s.pages.set i { freshPage i with swapSlot := (s.pages.get i).swapSlot } := by
    change u.pages.set i { freshPage i with swapSlot := (u.pages.get i).swapSlot } = _
    rw [pages]
  have slots : ∀ j, j < 128 → (clearEntry { u with toVmm := after } i).pages.get j =
      if j = i then { freshPage i with swapSlot := (s.pages.get i).swapSlot } else s.pages.get j := by
    intro j small
    rw [cleared, FixedArray.get_set _ _ small]
  have books : (clearEntry { u with toVmm := after } i).Books none := by
    refine ok.books.clear inside used cleared ⟨rfl, rfl⟩ ?_ hand ?_ ?_ ?_ ?_
    · change u.registeredPages - 1 = _
      rw [registered]
    · change u.residentFrames ≤ 16
      omega
    · intro l small
      change l < u.residentFrames at small
      change u.framePages.get l < 128 ∧ u.framePages.get l ≠ i ∧ _
      rw [residents] at small
      -- The frame shown here is another one than the one that was given up.
      have there : ∃ m, m < s.residentFrames ∧ m ≠ k ∧ u.framePages.get l = s.framePages.get m := by
        rw [moved l (by omega)]
        split
        · exact ⟨s.residentFrames - 1, by omega, by omega, rfl⟩
        · next other => exact ⟨l, by omega, other, rfl⟩
      obtain ⟨m, inner, other, same⟩ := there
      obtain ⟨small', used', present'⟩ := ok.books.listed inner nofun
      change u.framePages.get l < 128 ∧ u.framePages.get l ≠ i ∧
        (s.pages.get (u.framePages.get l)).used = true ∧
        (s.pages.get (u.framePages.get l)).present = true
      rw [same]
      refine ⟨small', fun equal => other ?_, used', present'⟩
      exact ok.books.distinct inner below nofun nofun (equal.trans holds.symm)
    · intro l m small small' equal
      change l < u.residentFrames at small
      change m < u.residentFrames at small'
      change u.framePages.get l = u.framePages.get m at equal
      rw [residents] at small small'
      rw [moved l (by omega), moved m (by omega)] at equal
      have := @Books.distinct none s ok.books l m
      have := @Books.distinct none s ok.books l (s.residentFrames - 1)
      have := @Books.distinct none s ok.books (s.residentFrames - 1) m
      grind
    · intro j small other used' present'
      change ∃ l, l < u.residentFrames ∧ u.framePages.get l = j
      obtain ⟨m, inner, -, same⟩ := ok.books.complete small used' present'
      have apart : m ≠ k := by
        rintro rfl
        exact other (same.symm.trans holds)
      by_cases last : m = s.residentFrames - 1
      · refine ⟨k, by omega, ?_⟩
        rw [moved k (by omega), if_pos rfl, ← last, same]
      · refine ⟨m, by omega, ?_⟩
        rw [moved m (by omega), if_neg apart, same]
  refine ⟨?_, ⟨{ freshPage i with swapSlot := (s.pages.get i).swapSlot }, rfl, cleared⟩, disk,
    Or.inr ⟨present, rfl, dropped⟩⟩
  refine ok.drop inside used present dropped (fun j small other => ?_) ?_ books ready
  · rw [slots j small, if_neg other]
  · rw [slots i inside, if_pos rfl]
    exact ⟨rfl, nofun⟩

/-- A page is given up, or it was not registered. -/
theorem pagerUnregisterPage_cases (ok : Ok owner none s) (dir virtAddr : UInt32) :
    (pagerUnregisterPage s dir virtAddr = s ∧
      (dir ≠ 0 → s.findPageByVirt dir virtAddr = none)) ∨
    ∃ i owner', s.findPageByVirt dir virtAddr = some i ∧
      Unregistered owner owner' s (pagerUnregisterPage s dir virtAddr) i := by
  -- No page is found, or the entry that is found is cleared with its frame.
  unfold pagerUnregisterPage
  rw [ok.ready]
  by_cases zero : dir = 0
  · rw [if_pos (by simp [zero])]
    exact Or.inl ⟨rfl, fun some_ => absurd zero some_⟩
  rw [if_neg (by simp [zero])]
  cases found : s.findPageByVirt dir virtAddr with
  | none => exact Or.inl ⟨rfl, fun _ => rfl⟩
  | some i =>
    right
    obtain ⟨inside, used, rfl, -⟩ := findPageByVirt_some found
    simp only
    split
    · next present => exact ⟨i, _, rfl, releaseFrame_unregistered ok inside used present⟩
    · next absent_ =>
      have absent := Bool.eq_false_iff.mpr absent_
      have slots : ∀ j, j < 128 → (clearEntry s i).pages.get j =
          if j = i then _ else s.pages.get j := fun j small => FixedArray.get_set _ _ small
      have others : ∀ j, j < 128 → ((clearEntry s i).pages.get j).used = true →
          (clearEntry s i).pages.get j = s.pages.get j := by
        intro j small here
        rw [slots j small] at here ⊢
        split at here
        · cases here
        · next other => rw [if_neg other]
      refine ⟨i, owner, rfl, ⟨ok.books.leaveDisk inside used absent, ok.ready, ok.spaces, ?_, ?_, ?_⟩,
        ⟨_, rfl, rfl⟩, rfl, Or.inl ⟨absent, rfl, rfl⟩⟩
      · intro j small used'
        have same := others j small used'
        rw [same] at used' ⊢
        exact ok.lives small used'
      · intro j small used' present'
        have same := others j small used'
        rw [same] at used' present' ⊢
        exact ok.frames small used' present'
      · intro f j owned
        obtain ⟨small, used', present', frame⟩ := ok.held owned
        have other : j ≠ i := by
          rintro rfl
          exact nomatch absent.symm.trans present'
        rw [slots j small, if_neg other]
        exact ⟨small, used', present', frame⟩

end Unregistering

section Others

/-- Whether a page may be chosen is noted in its entry. -/
theorem pagerPinPageInDirectory_kept (spaces : Spaces owner s.toVmm) (dir virtAddr : UInt32)
    (pinned : Bool) : Kept owner s (pagerPinPageInDirectory s dir virtAddr pinned).2 := by
  -- Only the pin of the entry that is found may change.
  have same : Kept owner s s := ⟨.refl spaces, fun _ _ => .refl _, rfl, rfl, rfl, rfl, id⟩
  unfold pagerPinPageInDirectory
  split
  · exact same
  · split
    · exact same
    · next i found =>
      refine ⟨.refl spaces, fun j below => ?_, rfl, rfl, rfl, rfl, id⟩
      change (s.pages.get j).Same ((s.pages.set i _).get j)
      rw [FixedArray.get_set _ _ below]
      split
      · next here =>
        subst here
        exact ⟨rfl, rfl, rfl, rfl, rfl, rfl, rfl⟩
      · exact .refl _

/-- Counting the accesses to some of the frames in use changes nothing else. -/
theorem sampleFrames_sampled (ok : Ok owner none s) {slots : List Nat}
    (inside : ∀ k ∈ slots, k < s.residentFrames) :
    Sampled owner s
      (slots.foldl (fun s slot => s.samplePageUsage (s.framePages.get slot)) s) := by
  -- By induction on the frames that are left, each of which is looked at once.
  induction slots generalizing s with
  | nil => exact .refl ok.spaces
  | cons k rest ih =>
    obtain ⟨small, used, -⟩ := ok.books.listed (inside k List.mem_cons_self) nofun
    have looked := samplePageUsage_sampled ok.spaces small (ok.lives small used)
    refine looked.trans (ih (ok.sampled looked) fun l member => ?_)
    rw [looked.resident]
    exact inside l (List.mem_cons_of_mem _ member)

/-- Counting the accesses to all frames in use changes nothing else. -/
theorem pagerSampleUsage_sampled (ok : Ok owner none s) : Sampled owner s (pagerSampleUsage s) := by
  -- The loop goes over the frames in use.
  unfold pagerSampleUsage
  rw [ok.ready]
  exact sampleFrames_sampled ok fun k member => List.mem_range.mp member

/-- What a page fault can come to. -/
theorem pagerHandlePageFault_cases (faultAddr errCode : UInt32) :
    (pagerHandlePageFault s faultAddr errCode).2 = s ∨
    ∃ i, s.findPageByVirt s.currentPageDirectoryPhys faultAddr = some i ∧
      (s.pages.get i).present = false ∧ pagerHandlePageFault s faultAddr errCode = s.pageIn i := by
  -- The branches of the function, in its order.
  unfold pagerHandlePageFault
  split
  · exact Or.inl rfl
  · split
    · exact Or.inl rfl
    · next i found =>
      split
      · exact Or.inl rfl
      · next absent => exact Or.inr ⟨i, found, Bool.eq_false_iff.mpr absent, rfl⟩

end Others

end MyOS.Mm
