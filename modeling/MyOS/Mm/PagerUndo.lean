import MyOS.Mm.PagerContents

/-! Pages of a space that are registered and given up again leave nothing behind. -/

namespace MyOS.Mm

/-- A sector lies in the place of a page on the disk. -/
def PagerPage.Occupies (p : PagerPage) (lba : Nat) : Prop :=
  lba28 (swapLbaForSlot p.swapSlot) ≤ lba ∧ lba < lba28 (swapLbaForSlot p.swapSlot) + 8

/-- The disk after pages were written, only to places that are not in use. -/
structure Pager.Scribbled (s : Pager) (disk : Ata) : Prop where
  ready : disk.ready = s.disk.ready
  fails : disk.fails = s.disk.fails
  sectors : ∀ {lba}, (∀ j, j < 128 → (s.pages.get j).used = false → ¬ (s.pages.get j).Occupies lba) →
    disk.sectors lba = s.disk.sectors lba

/-- The pager after steps that only concern entries that were not in use, and still are not. -/
structure Pager.Retracted (s t : Pager) : Prop where
  rest : t = { s with pages := t.pages, disk := t.disk }
  entries : ∀ {j}, j < 128 → (t.pages.get j).used = (s.pages.get j).used ∧
    ((s.pages.get j).used = true → t.pages.get j = s.pages.get j)
  disk : s.Scribbled t.disk

namespace Pager

variable {s t : Pager} {i : Nat} {dir virtAddr flags : UInt32}

/-- Nothing was written. -/
theorem Scribbled.refl (s : Pager) : s.Scribbled s.disk := ⟨rfl, rfl, fun _ => rfl⟩

/-- A page is written to the place of an entry that is not in use, as far as the disk goes. -/
theorem swapWriteSlot_scribbled (inside : i < 128) (free : (s.pages.get i).used = false)
    (bytes : Nat → UInt8) : s.Scribbled (s.swapWriteSlot (s.pages.get i).swapSlot bytes).2.disk := by
  -- The eight sectors of the entry are the only ones that a write can reach.
  have eight : (pageSectors bytes).length = 8 := by simp [pageSectors, pagerSectorsPerPage]
  unfold swapWriteSlot Ata.writeSectors
  simp only
  split
  · exact .refl s
  · refine ⟨(Ata.writeLoop_device _ _).1, (Ata.writeLoop_device _ _).2, fun {lba} elsewhere => ?_⟩
    have apart := elsewhere i inside free
    unfold PagerPage.Occupies at apart
    refine Ata.writeLoop_outside _ _ ?_
    omega

/-- No page of a space is registered. -/
def Lacks (s : Pager) (dir : UInt32) : Prop :=
  ∀ j, j < 128 → (s.pages.get j).used = true → (s.pages.get j).pageDirectoryPhys ≠ dir

/-- No page of a space without pages is found. -/
theorem Lacks.find (lacks : s.Lacks dir) (virtAddr : UInt32) : s.findPageByVirt dir virtAddr = none := by
  -- A page that is found lies in the space.
  cases found : s.findPageByVirt dir virtAddr with
  | none => rfl
  | some j =>
    obtain ⟨inside, used, directory, -⟩ := findPageByVirt_some found
    exact absurd directory (lacks j inside used)

/-- The pager once one page of a space was registered, in an entry that was not in use. -/
structure Entered (s t : Pager) (i : Nat) (dir page : UInt32) : Prop where
  inside : i < 128
  free : (s.pages.get i).used = false
  ready : s.pagerReady = true
  space : dir ≠ 0
  rest : t = { s with pages := t.pages, disk := t.disk, registeredPages := s.registeredPages + 1 }
  others : ∀ {j}, j < 128 → j ≠ i → t.pages.get j = s.pages.get j
  used : (t.pages.get i).used = true
  absent : (t.pages.get i).present = false
  directory : (t.pages.get i).pageDirectoryPhys = dir
  virt : (t.pages.get i).virtAddr = page
  slot : (t.pages.get i).swapSlot = (s.pages.get i).swapSlot
  disk : s.Scribbled t.disk

namespace Entered

variable {page : UInt32}

/-- An entry is filled with a page. -/
theorem of_enterPage {disk : Ata} (inside : i < 128) (free : (s.pages.get i).used = false)
    (ready : s.pagerReady = true) (space : dir ≠ 0) (scribbled : s.Scribbled disk) :
    Entered s (enterPage { s with disk } i dir page flags) i dir page := by
  -- The entry has all fields of the new page, and the other entries are as they were.
  have here := FixedArray.get_set_same s.pages { s.pages.get i with
    used := true
    present := false
    swapped := true
    pageDirectoryPhys := dir
    virtAddr := page
    physAddr := 0
    flags := flags
    lastUsedTick := 0
    pinned := false } inside
  refine ⟨inside, free, ready, space, rfl, fun _ other => FixedArray.get_set_ne _ _ other, ?_, ?_, ?_,
    ?_, ?_, scribbled⟩
  · exact congrArg PagerPage.used here
  · exact congrArg PagerPage.present here
  · exact congrArg PagerPage.pageDirectoryPhys here
  · exact congrArg PagerPage.virtAddr here
  · have slot := congrArg PagerPage.swapSlot here
    exact slot

/-- The page is the only one of its space. -/
theorem eq_of_directory (entered : Entered s t i dir page) (lacks : s.Lacks dir) {j : Nat}
    (inside : j < 128) (used : (t.pages.get j).used = true)
    (directory : (t.pages.get j).pageDirectoryPhys = dir) : j = i := by
  -- Any other entry is as before, and none of these lay in the space.
  by_contra other
  rw [entered.others inside other] at used directory
  exact lacks j inside used directory

/-- The page is found by any address in it. -/
theorem find (entered : Entered s t i dir page) (lacks : s.Lacks dir)
    (virt : alignDownPage virtAddr = page) : t.findPageByVirt dir virtAddr = some i := by
  -- The entry that is found is the only one of the space.
  cases found : t.findPageByVirt dir virtAddr with
  | none =>
    exact absurd ⟨entered.directory, entered.virt.trans virt.symm⟩
      (findPageByVirt_none found entered.inside entered.used)
  | some j =>
    obtain ⟨inside, used, directory, -⟩ := findPageByVirt_some found
    rw [entered.eq_of_directory lacks inside used directory]

/-- No other page of its space is found. -/
theorem find_other (entered : Entered s t i dir page) (lacks : s.Lacks dir)
    (other : alignDownPage virtAddr ≠ page) : t.findPageByVirt dir virtAddr = none := by
  -- An entry that is found would be that of the page.
  cases found : t.findPageByVirt dir virtAddr with
  | none => rfl
  | some j =>
    obtain ⟨inside, used, directory, virt⟩ := findPageByVirt_some found
    obtain rfl := entered.eq_of_directory lacks inside used directory
    exact absurd (virt.symm.trans entered.virt) other

/-- The page may be pinned. -/
theorem pin (entered : Entered s t i dir page) (lacks : s.Lacks dir) (virtAddr : UInt32) :
    Entered s (pagerPinPageInDirectory t dir virtAddr true).2 i dir page := by
  -- The pin is a field of the entry, and the entry found is that of the page.
  unfold pagerPinPageInDirectory
  split
  · exact entered
  cases found : t.findPageByVirt dir virtAddr with
  | none => exact entered
  | some j =>
    obtain ⟨inside, used, directory, -⟩ := findPageByVirt_some found
    obtain rfl := entered.eq_of_directory lacks inside used directory
    have here := FixedArray.get_set_same t.pages { t.pages.get j with pinned := true } inside
    refine ⟨inside, entered.free, entered.ready, entered.space, ?_, fun small other =>
      (FixedArray.get_set_ne _ _ other).trans (entered.others small other), ?_, ?_, ?_, ?_, ?_,
      entered.disk⟩
    · exact congrArg (fun u : Pager => u.setPage j _) entered.rest
    · exact (congrArg PagerPage.used here).trans entered.used
    · exact (congrArg PagerPage.present here).trans entered.absent
    · exact (congrArg PagerPage.pageDirectoryPhys here).trans entered.directory
    · exact (congrArg PagerPage.virtAddr here).trans entered.virt
    · exact (congrArg PagerPage.swapSlot here).trans entered.slot

/-- Entries that are not in use now were not in use before, and have the same places. -/
theorem scribble (entered : Entered s t i dir page) {disk : Ata} (scribbled : t.Scribbled disk) :
    Entered s { t with disk } i dir page := by
  -- An entry that is not in use is none of the one entered.
  obtain ⟨inside, free, ready, space, rest, others, used, absent, directory, virt, slot, before⟩ := entered
  refine ⟨inside, free, ready, space, congrArg (fun u : Pager => { u with disk }) rest, others, used,
    absent, directory, virt, slot, scribbled.ready.trans before.ready,
    scribbled.fails.trans before.fails, fun {lba} elsewhere => ?_⟩
  refine (scribbled.sectors fun j small unused => ?_).trans (before.sectors elsewhere)
  have other : j ≠ i := by
    rintro rfl
    exact nomatch unused.symm.trans used
  rw [others small other] at unused ⊢
  exact elsewhere j small unused

/-- Giving the page up again leaves nothing behind. -/
theorem retract (entered : Entered s t i dir page) (lacks : s.Lacks dir)
    (virt : alignDownPage virtAddr = page) : s.Retracted (pagerUnregisterPage t dir virtAddr) := by
  have ready : t.pagerReady = true := by
    rw [entered.rest]
    exact entered.ready
  have found := entered.find lacks virt
  have unregistered : pagerUnregisterPage t dir virtAddr = clearEntry t i := by
    unfold pagerUnregisterPage
    rw [if_neg (by simp [ready, entered.space]), found]
    simp only
    rw [entered.absent]
    rfl
  rw [unregistered]
  have slots : ∀ {j}, j < 128 → (clearEntry t i).pages.get j =
      if j = i then { freshPage i with swapSlot := (t.pages.get i).swapSlot } else t.pages.get j :=
    fun small => FixedArray.get_set _ _ small
  refine ⟨?_, fun {j} small => ?_, entered.disk⟩
  · -- The count of registered pages goes up and down again.
    exact congrArg (fun u : Pager => clearEntry u i) entered.rest
  · rw [slots small]
    split
    · next here =>
      subst here
      exact ⟨entered.free.symm, fun used => nomatch entered.free.symm.trans used⟩
    · next other =>
      rw [entered.others small other]
      exact ⟨rfl, fun _ => rfl⟩

end Entered

end Pager

open Pager

/-- A page that is not registered yet is registered in an entry that is not in use, or not at all. -/
theorem pagerRegisterPageData_missing {s : Pager} {dir virtAddr flags : UInt32}
    (missing : s.findPageByVirt dir virtAddr = none)
    (data : Option (Nat → UInt8)) (dataSize : Nat) :
    (∃ disk, pagerRegisterPageData s dir virtAddr flags data dataSize = (false, { s with disk }) ∧
      s.Scribbled disk) ∨
    ∃ i disk, i < 128 ∧ (s.pages.get i).used = false ∧ s.Scribbled disk ∧ s.pagerReady = true ∧
      dir ≠ 0 ∧ pagerRegisterPageData s dir virtAddr flags data dataSize =
        (true, enterPage { s with disk } i dir (alignDownPage virtAddr) flags) := by
  -- The request is refused before anything happens, fails at the swap area, or fills a free entry.
  unfold pagerRegisterPageData
  split
  · exact Or.inl ⟨s.disk, rfl, .refl s⟩
  next accepted =>
  simp only [Bool.or_eq_true, not_or, Bool.not_eq_true', Bool.not_eq_false, beq_iff_eq] at accepted
  obtain ⟨⟨⟨⟨ready, some_⟩, -⟩, -⟩, -⟩ := accepted
  rw [missing]
  simp only
  cases found : s.findFreePageEntry with
  | none => exact Or.inl ⟨s.disk, rfl, .refl s⟩
  | some i =>
    obtain ⟨inside, free⟩ := findFreePageEntry_some found
    have scribbled := swapWriteSlot_scribbled inside free (initialBytes data dataSize)
    simp only [writePageDataToSwap_eq]
    have rest : (s.swapWriteSlot (s.pages.get i).swapSlot (initialBytes data dataSize)).2 =
        { s with disk := (s.swapWriteSlot (s.pages.get i).swapSlot (initialBytes data dataSize)).2.disk } :=
      rfl
    cases written : s.swapWriteSlot (s.pages.get i).swapSlot (initialBytes data dataSize) with
    | mk done u =>
    rw [written] at scribbled rest
    simp only at scribbled rest
    cases done with
    | false => exact Or.inl ⟨u.disk, by rw [rest], scribbled⟩
    | true => exact Or.inr ⟨i, u.disk, inside, free, scribbled, ready, some_, by rw [rest]⟩

end MyOS.Mm
