import MyOS.Mm.MmuLaws
import MyOS.Mm.PagerCalls
import MyOS.Mm.SpaceLife

/-! What programs reach through the pages that the pager brings in for them. -/

namespace MyOS.Mm

open Pager

section Steps

variable (s : Pager)

/-- Do something through the page tables. -/
def Pager.through {α : Type} (access : Vmm → α × Vmm) : α × Pager :=
  ((access s.toVmm).1, { s with toVmm := (access s.toVmm).2 })

/--
An access of a program.

Where there is no page, the processor reports a fault with an error code, and the access is made
again once the pager has resolved it.
-/
def Pager.attempt {α : Type} (virtAddr errCode : UInt32) (access : Vmm → Except Fault α × Vmm) :
    Except Fault α × Pager :=
  match (access s.toVmm).1 with
  | .error .notPresent =>
    match pagerHandlePageFault s virtAddr errCode with
    | (false, s) => (.error .notPresent, s)
    | (true, s) => s.through access
  | _ => s.through access

/-- A program reads a byte. -/
def pagerLoad (virtAddr : UInt32) : Except Fault UInt8 × Pager :=
  s.attempt virtAddr 4 (userRead s.currentPageDirectoryPhys virtAddr)

/-- A program writes a byte. -/
def pagerStore (virtAddr : UInt32) (value : UInt8) : Except Fault Unit × Pager :=
  s.attempt virtAddr 6 (userWrite s.currentPageDirectoryPhys virtAddr value)

end Steps

/-- An entry is about a page that its space maps. -/
structure PagerPage.Maps (p : PagerPage) (d v : Nat) : Prop where
  used : p.used = true
  present : p.present = true
  directory : p.directory = d
  page : p.page = v

/-- Every page that a space maps in the user's half is one of the pager's. -/
def Pager.Covers (owner : Owners Holder) (s : Pager) : Prop :=
  ∀ d v, owner d = some .directory → v < 786432 → flagOf (s.cell d v) 0 = true →
    ∃ i, i < 128 ∧ (s.pages.get i).Maps d v

namespace Pager

variable {owner owner' : Owners Holder} {hole : Option Nat} {s t : Pager} {i slot : Nat}

/-- Leaving every page at its place keeps what is mapped. -/
theorem Covers.kept (covers : s.Covers owner) (kept : Kept owner s t) : t.Covers owner := by
  -- A page that is mapped was mapped before, so an entry in use is about it.
  intro d v live half mapped
  rw [(kept.vmm.cells live (by omega)).flags 0 (by decide)] at mapped
  obtain ⟨i, inside, maps⟩ := covers d v live half mapped
  have same := kept.entries i inside
  refine ⟨i, inside, same.used.trans maps.used, same.present.trans maps.present, ?_, ?_⟩
  · unfold PagerPage.directory
    rw [same.directory]
    exact maps.directory
  · unfold PagerPage.page
    rw [same.virt]
    exact maps.page

/-- A page that is taken out of its frame is not mapped any more. -/
theorem Covers.drop (covers : s.Covers owner)
    (dropped : Dropped owner s.toVmm t.toVmm (s.pages.get i).directory (s.pages.get i).page
      (s.pages.get i).frame)
    (others : ∀ j, j < 128 → j ≠ i → t.pages.get j = s.pages.get j) :
    t.Covers (Function.update owner (s.pages.get i).frame none) := by
  -- The page that left its frame is the only one that was mapped and is not any more.
  intro d v live half mapped
  have before : owner d = some .directory := by
    by_cases here : d = (s.pages.get i).frame
    · rw [here, Function.update_self] at live
      cases live
    · rwa [Function.update_of_ne here] at live
  by_cases here : d = (s.pages.get i).directory ∧ v = (s.pages.get i).page
  · rw [here.1, here.2, dropped.gone] at mapped
    cases mapped
  · rw [dropped.cells before (by omega) here] at mapped
    obtain ⟨j, inside, maps⟩ := covers d v before half mapped
    have other : j ≠ i := by
      rintro rfl
      exact here ⟨maps.directory.symm, maps.page.symm⟩
    exact ⟨j, inside, others j inside other ▸ maps⟩

/-- A frame that is made free is not mapped any more. -/
theorem Vacated.covers (covers : s.Covers owner)
    (vacated : Vacated owner s owner' t slot) : t.Covers owner' := by
  -- The page of an emptied frame was unmapped.
  cases vacated with
  | grown room => exact covers
  | evicted u _ _ full inside sampled choice emptied =>
    refine (covers.kept sampled.kept).drop emptied.memory fun j small other => ?_
    rw [emptied.pages, FixedArray.get_set _ _ small, if_neg other]

/-- A page that is brought into a frame is mapped, and nothing else is that was not before. -/
theorem Filled.covers (covers : s.Covers owner) (inside : i < 128)
    (used : (s.pages.get i).used = true) (filled : Filled owner owner' s t i slot) :
    t.Covers owner' := by
  -- The page mapped is the one brought in, or was mapped before.
  obtain ⟨sectors, -, placed⟩ := filled.memory
  obtain ⟨physAddr, tick, pages⟩ := filled.pages
  have slots : ∀ j, j < 128 → t.pages.get j =
      if j = i then broughtIn (s.pages.get i) physAddr tick else s.pages.get j := by
    intro j small
    rw [pages, FixedArray.get_set _ _ small]
  intro d v live half mapped
  have before : owner d = some .directory := by
    rcases (placed.roles d .directory nofun).mp live with ⟨-, held⟩ | before
    · cases held
    · exact before
  rw [placed.cells before (by omega)] at mapped
  split at mapped
  · next here =>
    refine ⟨i, inside, ?_⟩
    rw [slots i inside, if_pos rfl]
    exact ⟨used, rfl, here.1.symm, here.2.symm⟩
  · next other =>
    obtain ⟨j, small, maps⟩ := covers d v before half mapped
    have apart : j ≠ i := by
      rintro rfl
      exact other ⟨maps.directory.symm, maps.page.symm⟩
    refine ⟨j, small, ?_⟩
    rw [slots j small, if_neg apart]
    exact maps

/-- Bringing in a page keeps it so that only pages of the pager are mapped. -/
theorem PagedIn.covers (ok : Ok owner none s) (covers : s.Covers owner) (inside : i < 128)
    (used : (s.pages.get i).used = true) (absent : (s.pages.get i).present = false)
    (pagedIn : PagedIn owner owner' s t i) : t.Covers owner' := by
  -- The frame is made free first, and then filled.
  obtain ⟨slot, ownerM, m, vacated, filled⟩ := pagedIn.steps
  have still := vacated.absent ok inside absent
  exact filled.covers (vacated.covers covers) inside (still.1.trans used)

/-- Registering a page maps nothing. -/
theorem Covers.register {dir virtAddr flags : UInt32} {bytes : Nat → UInt8} {done : Bool}
    (covers : s.Covers owner) (registers : Registers s dir virtAddr flags bytes done t) :
    t.Covers owner := by
  -- Entries that are in memory keep their place.
  have kept : t.toVmm = s.toVmm ∧ ∀ j, j < 128 → (s.pages.get j).used = true →
      (s.pages.get j).Same (t.pages.get j) := by
    cases registers with
    | refused => exact ⟨rfl, fun _ _ _ => .refl _⟩
    | again i disk done inside found written =>
      refine ⟨rfl, fun j small _ => ?_⟩
      change (s.pages.get j).Same ((s.pages.set i _).get j)
      rw [FixedArray.get_set _ _ small]
      split
      · next same =>
        subst same
        exact ⟨rfl, rfl, rfl, rfl, rfl, rfl, rfl⟩
      · exact .refl _
    | failed i disk lost => exact ⟨rfl, fun _ _ _ => .refl _⟩
    | entered i disk inside free aligned some_ missing written =>
      refine ⟨rfl, fun j small used => ?_⟩
      change (s.pages.get j).Same ((s.pages.set i _).get j)
      rw [FixedArray.get_set _ _ small, if_neg]
      · exact .refl _
      · rintro rfl
        exact nomatch free.symm.trans used
  intro d v live half mapped
  rw [kept.1] at mapped
  obtain ⟨j, small, maps⟩ := covers d v live half mapped
  have same := kept.2 j small maps.used
  refine ⟨j, small, same.used.trans maps.used, same.present.trans maps.present, ?_, ?_⟩
  · unfold PagerPage.directory
    rw [same.directory]
    exact maps.directory
  · unfold PagerPage.page
    rw [same.virt]
    exact maps.page

end Pager

/-- Giving a page up unmaps it. -/
theorem Unregistered.covers {owner owner' : Owners Holder} {s t : Pager} {i : Nat}
    (covers : s.Covers owner) (gone : Unregistered owner owner' s t i) :
    t.Covers owner' := by
  -- A page on the disk was not mapped, and one in memory is unmapped.
  obtain ⟨p, unused, pages⟩ := gone.pages
  have others : ∀ j, j < 128 → j ≠ i → t.pages.get j = s.pages.get j := by
    intro j small other
    rw [pages, FixedArray.get_set _ _ small, if_neg other]
  rcases gone.memory with ⟨absent, rfl, same⟩ | ⟨present, rfl, dropped⟩
  · intro d v live half mapped
    rw [same] at mapped
    obtain ⟨j, small, maps⟩ := covers d v live half mapped
    have other : j ≠ i := by
      rintro rfl
      exact nomatch absent.symm.trans maps.present
    exact ⟨j, small, others j small other ▸ maps⟩
  · exact covers.drop dropped others

/-- What is as it was after a step of the pager on its own: what the entries are about, and which
spaces there are. -/
structure Steady (owner owner' : Owners Holder) (s t : Pager) : Prop where
  entries : ∀ j, j < 128 → (t.pages.get j).used = (s.pages.get j).used ∧
    (t.pages.get j).pageDirectoryPhys = (s.pages.get j).pageDirectoryPhys ∧
    (t.pages.get j).virtAddr = (s.pages.get j).virtAddr ∧
    (t.pages.get j).flags = (s.pages.get j).flags ∧ (t.pages.get j).pinned = (s.pages.get j).pinned
  directories : ∀ d, owner' d = some .directory ↔ owner d = some .directory
  current : t.currentPageDirectoryPhys = s.currentPageDirectoryPhys
  kernel : t.kernelPageDirectoryPhys = s.kernelPageDirectoryPhys

namespace Steady

variable {owner owner' owner'' : Owners Holder} {s t u : Pager} {i slot : Nat}

/-- Changes that keep every page follow each other. -/
theorem trans (first : Steady owner owner' s t) (second : Steady owner' owner'' t u) :
    Steady owner owner'' s u := by
  -- The fields kept are the same ones.
  refine ⟨fun j small => ?_, fun d => (second.directories d).trans (first.directories d),
    second.current.trans first.current, second.kernel.trans first.kernel⟩
  obtain ⟨used, directory, virt, flags, pinned⟩ := first.entries j small
  obtain ⟨used', directory', virt', flags', pinned'⟩ := second.entries j small
  exact ⟨used'.trans used, directory'.trans directory, virt'.trans virt, flags'.trans flags,
    pinned'.trans pinned⟩

/-- Looking at accesses changes nothing about a page. -/
theorem sampled (sampled : Sampled owner s t) : Steady owner owner s t := by
  -- Only the time of the last use may differ.
  refine ⟨fun j small => ?_, fun _ => Iff.rfl, sampled.vmm.current, sampled.vmm.kernel⟩
  rw [sampled.pages j small]
  exact ⟨rfl, rfl, rfl, rfl, rfl⟩

/-- Making a frame free keeps every page. -/
theorem vacated (ok : Ok owner none s) (vacated : Vacated owner s owner' t slot) :
    Steady owner owner' s t := by
  cases vacated with
  | grown room => exact ⟨fun _ _ => ⟨rfl, rfl, rfl, rfl, rfl⟩, fun _ => Iff.rfl, rfl, rfl⟩
  | evicted u _ _ full inside sampled choice emptied =>
    refine (Steady.sampled sampled).trans ⟨fun j small => ?_, fun d => ?_, emptied.memory.current,
      emptied.memory.kernel⟩
    · rw [emptied.pages, FixedArray.get_set _ _ small]
      split
      · next same =>
        rw [same]
        exact ⟨rfl, rfl, rfl, rfl, rfl⟩
      · exact ⟨rfl, rfl, rfl, rfl, rfl⟩
    · -- The frame that was emptied held a page, and no directory.
      have ok' := ok.sampled sampled
      obtain ⟨small, used, present⟩ := ok'.books.listed (show slot < u.residentFrames by
        rw [sampled.resident]; omega) nofun
      have owned := (ok'.frames small used present).owned
      by_cases here : d = (u.pages.get (u.framePages.get slot)).frame
      · rw [here, Function.update_self, owned]
        exact ⟨nofun, nofun⟩
      · rw [Function.update_of_ne here]

/-- Filling a frame keeps every page. -/
theorem filled (filled : Filled owner owner' s t i slot) : Steady owner owner' s t := by
  -- The entry brought in keeps the fields that say which page it is about.
  obtain ⟨sectors, -, placed⟩ := filled.memory
  obtain ⟨physAddr, tick, pages⟩ := filled.pages
  refine ⟨fun j small => ?_, fun d => ?_, placed.current, placed.kernel⟩
  · rw [pages, FixedArray.get_set _ _ small]
    split
    · next same =>
      rw [same]
      exact ⟨rfl, rfl, rfl, rfl, rfl⟩
    · exact ⟨rfl, rfl, rfl, rfl, rfl⟩
  · rw [placed.roles d .directory nofun]
    simp

/-- So does bringing a page in. -/
theorem pagedIn (ok : Ok owner none s) (pagedIn : PagedIn owner owner' s t i) :
    Steady owner owner' s t := by
  -- The two steps follow each other.
  obtain ⟨slot, ownerM, m, vacated, filled⟩ := pagedIn.steps
  exact (Steady.vacated ok vacated).trans (.filled filled)

end Steady

/-- What became of the pager when a page was asked for that is registered. -/
inductive Resolved (owner : Owners Holder) (s : Pager) (i : Nat) : Owners Holder → Pager → Prop where
  /-- It was in memory already. -/
  | there (present : (s.pages.get i).present = true) : Resolved owner s i owner s
  | brought (owner' : Owners Holder) (u t : Pager) (absent : (s.pages.get i).present = false)
      (sampled : Sampled owner s u) (same : u.pages = s.pages) (pagedIn : PagedIn owner owner' u t i) :
      Resolved owner s i owner' t

namespace Resolved

variable {owner owner' : Owners Holder} {s t : Pager} {i : Nat}

/-- Resolving a fault leaves the pager in order. -/
theorem ok (ok : Ok owner none s) (resolved : Resolved owner s i owner' t) : Ok owner' none t := by
  -- The page is in memory already, or was brought in.
  cases resolved with
  | there present => exact ok
  | brought _ u _ absent sampled same pagedIn => exact pagedIn.ok

/-- Resolving a fault keeps every page. -/
theorem steady (ok : Ok owner none s) (resolved : Resolved owner s i owner' t) :
    Steady owner owner' s t := by
  -- The accesses are looked at before the page is brought in.
  cases resolved with
  | there present => exact .sampled (.refl ok.spaces)
  | brought _ u _ absent sampled same pagedIn =>
    exact (Steady.sampled sampled).trans (.pagedIn (ok.sampled sampled) pagedIn)

/-- Resolving a fault keeps it so that only pages of the pager are mapped. -/
theorem covers (ok : Ok owner none s) (covers : s.Covers owner) (inside : i < 128)
    (used : (s.pages.get i).used = true) (resolved : Resolved owner s i owner' t) :
    t.Covers owner' := by
  -- Nothing happens where the page is in memory already.
  cases resolved with
  | there present => exact covers
  | brought _ u _ absent sampled same pagedIn =>
    exact pagedIn.covers (ok.sampled sampled) (covers.kept sampled.kept) inside (by rw [same]; exact used)
      (by rw [same]; exact absent)

/-- Once a fault is resolved the page is in memory. -/
theorem present (inside : i < 128) (resolved : Resolved owner s i owner' t) :
    (t.pages.get i).present = true := by
  -- The frame that is filled is filled with this page.
  cases resolved with
  | there present => exact present
  | brought _ u _ absent sampled same pagedIn =>
    obtain ⟨slot, ownerM, m, -, filled⟩ := pagedIn.steps
    obtain ⟨physAddr, tick, pages⟩ := filled.pages
    rw [pages, FixedArray.get_set_same _ _ inside]
    rfl

end Resolved

section Accesses

variable {owner : Owners Holder} {s : Pager} {i d : Nat} {dir virtAddr : UInt32}

/-- The entry of a page that is registered, by any address in it. -/
theorem entry_of_found (found : s.findPageByVirt dir virtAddr = some i)
    (at_ : dir.toNat = d * 4096) :
    i < 128 ∧ (s.pages.get i).used = true ∧ (s.pages.get i).directory = d ∧
      (s.pages.get i).page = virtAddr.toNat / 4096 := by
  -- The search compares the page of the address with the address of the entry.
  obtain ⟨inside, used, directory, virt⟩ := findPageByVirt_some found
  refine ⟨inside, used, ?_, ?_⟩
  · unfold PagerPage.directory pageOf
    rw [directory]
    omega
  · unfold PagerPage.page
    rw [virt, toNat_alignDownPage]
    omega

/-- A page that is mapped is found by any address in it. -/
theorem Pager.Ok.find (ok : Ok owner none s) (inside : i < 128) (at_ : dir.toNat = d * 4096)
    (maps : (s.pages.get i).Maps d (virtAddr.toNat / 4096)) :
    s.findPageByVirt dir virtAddr = some i := by
  -- Directory and page determine the two addresses that the search compares.
  have lives := ok.lives inside maps.used
  refine ok.books.find inside maps.used ?_ ?_
  · apply UInt32.toNat_inj.mp
    rw [lives.address, maps.directory, at_]
  · apply UInt32.toNat_inj.mp
    have aligned := lives.aligned
    have page := maps.page
    unfold PagerPage.page at page
    rw [toNat_alignDownPage]
    omega

/--
What became of the pager when a program asked for the page of an address.

Where the page is not registered the access fails; else it is made once the page is in memory.
-/
inductive Attempted {α : Type} (owner : Owners Holder) (s : Pager) (dir virtAddr : UInt32)
    (access : Vmm → Except Fault α × Vmm) : Owners Holder → Except Fault α × Pager → Prop where
  | missing (none_ : s.findPageByVirt dir virtAddr = none) :
      Attempted owner s dir virtAddr access owner (.error .notPresent, s)
  | found (i : Nat) (owner' : Owners Holder) (t : Pager)
      (some_ : s.findPageByVirt dir virtAddr = some i) (resolved : Resolved owner s i owner' t) :
      Attempted owner s dir virtAddr access owner' (t.through access)

/-- The page of an address is brought in first, if need be. -/
theorem attempt_cases {α : Type} (ok : Ok owner none s) (covers : s.Covers owner)
    (live : owner d = some .directory) (at_ : s.currentPageDirectoryPhys.toNat = d * 4096)
    (half : virtAddr < vmmKernelBase) {errCode : UInt32} (code : errCode &&& 1 = 0)
    {access : Vmm → Except Fault α × Vmm}
    (faults : (access s.toVmm).1 = .error .notPresent ↔
      flagOf (s.cell d (virtAddr.toNat / 4096)) 0 = false)
    (served : ∀ i, s.findPageByVirt s.currentPageDirectoryPhys virtAddr = some i →
      (s.pages.get i).present = false → (s.pageIn i).1 = true) :
    ∃ owner', Attempted owner s s.currentPageDirectoryPhys virtAddr access owner'
      (s.attempt virtAddr errCode access) := by
  have inside := page_half half
  unfold attempt
  by_cases mapped : flagOf (s.cell d (virtAddr.toNat / 4096)) 0 = true
  · -- The page is in memory.
    obtain ⟨i, small, maps⟩ := covers d _ live inside mapped
    have here : (access s.toVmm).1 ≠ .error .notPresent := by
      rw [ne_eq, faults, mapped]
      decide
    refine ⟨owner, ?_⟩
    split
    · next absent => exact absurd absent here
    · exact .found i owner s (ok.find small at_ maps) (.there maps.present)
  · rw [Bool.not_eq_true] at mapped
    rw [faults.mpr mapped]
    simp only
    unfold pagerHandlePageFault
    rw [ok.ready, code]
    simp only [Bool.not_true, bne_self_eq_false, Bool.or_self, Bool.false_eq_true, if_false]
    cases found : s.findPageByVirt s.currentPageDirectoryPhys virtAddr with
    | none => exact ⟨owner, .missing found⟩
    | some i =>
      obtain ⟨small, used, directory, page⟩ := entry_of_found found at_
      -- Were the page in memory it would be mapped.
      have absent : (s.pages.get i).present = false := by
        by_contra present
        have resident := ok.frames small used (Bool.not_eq_false _ ▸ present)
        have there := resident.mapped
        rw [directory, page, mapped] at there
        cases there
      have done := served i found absent
      obtain ⟨owner', u, sampled, same, pagedIn⟩ := pageIn_spec ok small used absent done
      simp only [absent, Bool.false_eq_true, if_false]
      generalize s.pageIn i = result at done pagedIn
      obtain ⟨done', t⟩ := result
      cases done
      exact ⟨owner', .found i owner' t found (.brought owner' u t absent sampled same pagedIn)⟩

/-- Reading faults exactly where no page is mapped. -/
theorem userRead_faults (spaces : Spaces owner s.toVmm) (live : owner d = some .directory)
    (at_ : dir.toNat = d * 4096) (half : virtAddr < vmmKernelBase) :
    (userRead dir virtAddr s.toVmm).1 = .error .notPresent ↔
      flagOf (s.cell d (virtAddr.toNat / 4096)) 0 = false := by
  -- Rights are checked only where the page is mapped, and fail with another fault.
  unfold userRead
  rw [userTranslate_eq spaces live at_ half]
  by_cases absent : flagOf (s.cell d (virtAddr.toNat / 4096)) 0 = false
  · simp [absent]
  · by_cases denied : permits (s.cell d (virtAddr.toNat / 4096)) false = false
    · simp [absent, denied]
    · simp [absent, denied]

/-- Writing faults exactly where no page is mapped. -/
theorem userWrite_faults (spaces : Spaces owner s.toVmm) (live : owner d = some .directory)
    (at_ : dir.toNat = d * 4096) (half : virtAddr < vmmKernelBase) (value : UInt8) :
    (userWrite dir virtAddr value s.toVmm).1 = .error .notPresent ↔
      flagOf (s.cell d (virtAddr.toNat / 4096)) 0 = false := by
  -- Rights are checked only where the page is mapped, and fail with another fault.
  unfold userWrite
  rw [userTranslate_eq spaces live at_ half]
  by_cases absent : flagOf (s.cell d (virtAddr.toNat / 4096)) 0 = false
  · simp [absent]
  · by_cases denied : permits (s.cell d (virtAddr.toNat / 4096)) true = false
    · simp [absent, denied]
    · simp [absent, denied]

/-- What a program reaches in a page that is in memory lies in the frame of the page. -/
theorem userTranslate_page (ok : Ok owner none s) (inside : i < 128) (at_ : dir.toNat = d * 4096)
    (half : virtAddr < vmmKernelBase) (maps : (s.pages.get i).Maps d (virtAddr.toNat / 4096))
    (write : Bool) :
    userTranslate dir virtAddr write s.toVmm =
      if permits (s.cell d (virtAddr.toNat / 4096)) write = false then .error .protection
      else .ok (UInt32.ofNat ((s.pages.get i).frame * 4096 + virtAddr.toNat % 4096)) := by
  -- The entry of the page is mapped and leads to the frame.
  have lives := ok.lives inside maps.used
  have resident := ok.frames inside maps.used maps.present
  have live := lives.live
  have mapped := resident.mapped
  have target := resident.target
  rw [maps.directory] at live
  rw [maps.directory, maps.page] at mapped target
  rw [userTranslate_eq ok.spaces live at_ half, if_neg (by simp [mapped]), toNat_frame_or_offset,
    target]

/-- The address of a byte of a frame in use. -/
theorem Pager.Ok.toNat_byte (ok : Ok owner none s) (inside : i < 128)
    (used : (s.pages.get i).used = true) (present : (s.pages.get i).present = true) (virtAddr : UInt32) :
    (UInt32.ofNat ((s.pages.get i).frame * 4096 + virtAddr.toNat % 4096)).toNat =
      (s.pages.get i).frame * 4096 + virtAddr.toNat % 4096 := by
  -- The frame is a page of memory, so its bytes have addresses below the bound.
  have resident := ok.frames inside used present
  have small := ok.spaces.small (ok.spaces.pool resident.owned nofun)
  rw [UInt32.toNat_ofNat']
  omega

/-- A program reads a byte of a page in memory, if the page is one it may read. -/
theorem userRead_page (ok : Ok owner none s) (inside : i < 128) (at_ : dir.toNat = d * 4096)
    (half : virtAddr < vmmKernelBase) (maps : (s.pages.get i).Maps d (virtAddr.toNat / 4096)) :
    (permits (s.cell d (virtAddr.toNat / 4096)) false = false ∧
      userRead dir virtAddr s.toVmm = (.error .protection, s.toVmm)) ∨
    (permits (s.cell d (virtAddr.toNat / 4096)) false = true ∧
      ∃ vmm, Touched owner s.toVmm vmm ∧ userRead dir virtAddr s.toVmm =
        (.ok (s.memory ((s.pages.get i).frame * 4096 + virtAddr.toNat % 4096)), vmm)) := by
  -- The read marks the entry as accessed, which does not show.
  have lives := ok.lives inside maps.used
  have resident := ok.frames inside maps.used maps.present
  have live := lives.live
  have mapped := resident.mapped
  rw [maps.directory] at live
  rw [maps.directory, maps.page] at mapped
  unfold userRead
  rw [userTranslate_page ok inside at_ half maps]
  cases allowed : permits (s.cell d (virtAddr.toNat / 4096)) false with
  | false => exact Or.inl ⟨rfl, rfl⟩
  | true =>
    right
    rw [if_neg nofun]
    simp only
    rw [ok.toNat_byte inside maps.used maps.present]
    exact ⟨trivial, _, markAccess_touched ok.spaces live at_ half mapped false, rfl⟩

/-- A program writes a byte of a page in memory, if the page is one it may write. -/
theorem userWrite_page (ok : Ok owner none s) (inside : i < 128) (at_ : dir.toNat = d * 4096)
    (half : virtAddr < vmmKernelBase) (maps : (s.pages.get i).Maps d (virtAddr.toNat / 4096))
    (value : UInt8) :
    (permits (s.cell d (virtAddr.toNat / 4096)) true = false ∧
      userWrite dir virtAddr value s.toVmm = (.error .protection, s.toVmm)) ∨
    (permits (s.cell d (virtAddr.toNat / 4096)) true = true ∧
      ∃ vmm : Vmm, Touched owner s.toVmm vmm ∧ userWrite dir virtAddr value s.toVmm =
        (.ok (), { vmm with
          memory := vmm.memory.store ((s.pages.get i).frame * 4096 + virtAddr.toNat % 4096) value })) := by
  -- The write marks the entry as accessed and written, which does not show.
  have lives := ok.lives inside maps.used
  have resident := ok.frames inside maps.used maps.present
  have live := lives.live
  have mapped := resident.mapped
  rw [maps.directory] at live
  rw [maps.directory, maps.page] at mapped
  unfold userWrite
  rw [userTranslate_page ok inside at_ half maps]
  cases allowed : permits (s.cell d (virtAddr.toNat / 4096)) true with
  | false => exact Or.inl ⟨rfl, rfl⟩
  | true =>
    right
    rw [if_neg nofun]
    simp only
    rw [ok.toNat_byte inside maps.used maps.present]
    exact ⟨trivial, _, markAccess_touched ok.spaces live at_ half mapped true, rfl⟩

/-- What the processor notes about accesses leaves every page at its place. -/
theorem Pager.Kept.ofTouched {vmm : Vmm} (touched : Touched owner s.toVmm vmm) :
    Kept owner s { s with toVmm := vmm } :=
  ⟨touched, fun _ _ => .refl _, rfl, rfl, rfl, rfl, id⟩

/-- A byte of a page in memory changes. -/
theorem Pager.Ok.poke (ok : Ok owner none s) (inside : i < 128)
    (used : (s.pages.get i).used = true) (present : (s.pages.get i).present = true) {k : Nat}
    (small : k < 4096) (value : UInt8) :
    Ok owner none { s with memory := s.memory.store ((s.pages.get i).frame * 4096 + k) value } ∧
      SameTables owner s.toVmm { s.toVmm with
        memory := s.memory.store ((s.pages.get i).frame * 4096 + k) value } := by
  -- The byte is in a frame, and no table lies there.
  have resident := ok.frames inside used present
  obtain ⟨spaces, same⟩ := ok.spaces.poke resident.owned
    (m := s.memory.store ((s.pages.get i).frame * 4096 + k) value) fun l outside =>
      if_neg (by omega)
  refine ⟨ok.elsewhere spaces (fun j below used' => (ok.lives below used').live)
    (fun _ _ => Iff.rfl) fun j below used' _ => ?_, same⟩
  have lives := ok.lives below used'
  have half := PagerPage.page_half lives.half
  rw [same.cells lives.live (by omega)]
  exact .refl _

/-- What others do in their spaces maps no page of the user's half. -/
theorem Pager.Covers.elsewhere {owner' : Owners Holder} (covers : s.Covers owner) {vmm : Vmm}
    (cells : ∀ d v, owner' d = some .directory → v < 786432 → flagOf (vmm.cell d v) 0 = true →
      owner d = some .directory ∧ flagOf (s.cell d v) 0 = true) :
    Covers owner' { s with toVmm := vmm } := by
  -- A page that is mapped now was mapped before, and its entry is the same.
  intro d v live half mapped
  obtain ⟨live', mapped'⟩ := cells d v live half mapped
  exact covers d v live' half mapped'

end Accesses

section Spaces

variable {hole : Option Nat} {f d : Nat} {t : Vmm}

/-- A space that is made leaves the pager in order. -/
theorem Pager.Ok.made (ok : Pager.Ok owner hole s) (made : SpaceMade owner s.toVmm t f) :
    Pager.Ok (Function.update owner f (some .directory)) hole { s with toVmm := t } := by
  -- The page of the new directory was free, so no entry was about it.
  refine ok.elsewhere made.spaces (fun j below used => ?_) (fun g j => ?_) (fun j below used _ => ?_)
  · have live := (ok.lives below used).live
    rw [Function.update_of_ne]
    · exact live
    · intro same
      rw [same, made.free] at live
      cases live
  · by_cases here : g = f
    · rw [here, Function.update_self, made.free]
      exact ⟨nofun, nofun⟩
    · rw [Function.update_of_ne here]
  · have lives := ok.lives below used
    have half := PagerPage.page_half lives.half
    rw [made.cells lives.live (by omega)]
    exact .refl _

/-- So does a space that is taken apart, if no page of it is registered. -/
theorem Pager.Ok.gone (ok : Pager.Ok owner hole s) (live : owner d = some .directory)
    (elsewhere : ∀ i, i < 128 → (s.pages.get i).used = true → (s.pages.get i).directory ≠ d)
    (gone : SpaceGone owner s.toVmm t d) :
    Pager.Ok (withoutSpace owner d) hole { s with toVmm := t } := by
  -- The pages of the pager are in other spaces, which stay.
  refine ok.elsewhere gone.spaces (fun i inside used => ?_) (fun g i => ?_) (fun i inside used _ => ?_)
  · exact (withoutSpace_roles owner d (r := .directory) nofun).mpr
      ⟨elsewhere i inside used, (ok.lives inside used).live⟩
  · refine (@withoutSpace_roles _ owner _ g (.held (.page i)) nofun).trans ⟨And.right, fun held => ⟨?_, held⟩⟩
    rintro rfl
    exact nomatch live.symm.trans held
  · have lives := ok.lives inside used
    have half := PagerPage.page_half lives.half
    rw [gone.cells lives.live (elsewhere i inside used) (by omega)]
    exact .refl _

end Spaces

end MyOS.Mm
