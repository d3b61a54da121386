import Mathlib.Data.List.Find
import MyOS.Mm.PagerContents
import MyOS.Mm.PagerRuns

/-! Paging is transparent: programs cannot tell it from memory in which every page is there. -/

namespace MyOS.Mm

open Pager

/-- A page as programs see it. -/
structure FlatPage where
  flags : UInt32
  bytes : Nat → UInt8

/-- Memory as programs see it: the pages of all spaces, by their numbers, and no frames or disk. -/
structure FlatMemory where
  current : UInt32
  count : Nat
  pages : UInt32 → Nat → Option FlatPage

namespace FlatMemory

variable (a : FlatMemory)

/-- Memory without any page. -/
def empty (current : UInt32) : FlatMemory := ⟨current, 0, fun _ _ => none⟩

/-- The page that an address of a space lies in. -/
def find (dir virtAddr : UInt32) : Option FlatPage := a.pages dir (virtAddr.toNat / 4096)

/-- Put a page at an address of a space, or take it away. -/
def put (dir virtAddr : UInt32) (page : Option FlatPage) : FlatMemory :=
  { a with pages := fun d v => if d = dir ∧ v = virtAddr.toNat / 4096 then page else a.pages d v }

/-- Whether a page with some data at its start may be registered. -/
def accepts (dir virtAddr : UInt32) (data : Option (Nat → UInt8)) (dataSize : Nat) : Bool :=
  dir != 0 && virtAddr.toNat % 4096 == 0 && decide (dataSize ≤ 4096) &&
    (data.isSome || dataSize == 0) && decide (a.count < 128)

/-- A page comes with its data, and zeros behind it. -/
def register (dir virtAddr flags : UInt32) (data : Option (Nat → UInt8)) (dataSize : Nat) :
    FlatMemory :=
  if a.accepts dir virtAddr data dataSize then
    { a.put dir virtAddr (some ⟨flags, initialBytes data dataSize⟩) with count := a.count + 1 }
  else a

/-- A page goes, with all that was in it. -/
def unregister (dir virtAddr : UInt32) : FlatMemory :=
  if (a.find dir virtAddr).isSome then
    { a.put dir virtAddr none with count := a.count - 1 }
  else a

/-- A program reads a byte of the current space. -/
def load (virtAddr : UInt32) : Except Fault UInt8 :=
  match a.find a.current virtAddr with
  | none => .error .notPresent
  | some page =>
    if permits page.flags false then .ok (page.bytes (virtAddr.toNat % 4096))
    else .error .protection

/-- A program writes a byte of the current space. -/
def store (virtAddr : UInt32) (value : UInt8) : Except Fault Unit × FlatMemory :=
  match a.find a.current virtAddr with
  | none => (.error .notPresent, a)
  | some page =>
    if permits page.flags true then
      (.ok (), a.put a.current virtAddr (some { page with
        bytes := fun k => if k = virtAddr.toNat % 4096 then value else page.bytes k }))
    else (.error .protection, a)

end FlatMemory

/-- One call, on memory in which every page is there. -/
def flatStep (a : FlatMemory) : PagerCall → Reply × FlatMemory
  | .register dir virtAddr flags data dataSize =>
    (.nothing, a.register dir virtAddr flags data dataSize)
  | .unregister dir virtAddr => (.nothing, a.unregister dir virtAddr)
  | .switch dir => (.nothing, { a with current := dir })
  | .load virtAddr => (.loaded (a.load virtAddr), a)
  | .store virtAddr value => (.stored (a.store virtAddr value).1, (a.store virtAddr value).2)
  -- How pages are brought in, and which ones go for others, does not show.
  | .pin _ _ _ | .sampleUsage | .setAlgorithm _ | .fault _ _ | .createSpace | .destroySpace _ =>
    (.nothing, a)

/--
What a run is made of.

A page is registered once, and memory is there whenever a page has to be brought in.
-/
def Paging.Allows (p : Paging) (call : PagerCall) : Prop :=
  p.Admits call ∧ p.needed call p.pager.supplied = true ∧
    match call with
    | .register dir virtAddr _ _ _ => p.pager.findPageByVirt dir virtAddr = none
    | _ => True

/-- Whether a call is allowed is decidable. -/
instance (p : Paging) (call : PagerCall) : Decidable (p.Allows call) :=
  match call with
  | .register .. => inferInstanceAs (Decidable (_ ∧ _ ∧ _ = none))
  | .pin .. | .sampleUsage | .setAlgorithm _ | .unregister .. | .fault .. | .switch _ | .load _
  | .store .. | .createSpace | .destroySpace _ => inferInstanceAs (Decidable (_ ∧ _ ∧ True))

/-- An entry of the pager holds a page. -/
structure Pager.Shows (s : Pager) (i : Nat) (page : FlatPage) : Prop where
  flags : page.flags = (s.pages.get i).flags
  bytes : ∀ k, k < 4096 → page.bytes k = s.byteAt i k

/-- The pager holds every page of a flat memory, and no other. -/
structure Mirrors (s : Pager) (a : FlatMemory) : Prop where
  sound : s.disk.Sound
  rights : s.Rights
  current : a.current = s.currentPageDirectoryPhys
  count : a.count = s.registeredPages
  shown : ∀ dir virtAddr, Option.Rel s.Shows (s.findPageByVirt dir virtAddr) (a.find dir virtAddr)

section Lookup

variable {s t : Pager}

/-- The entry of a page is found by what the entries are about. -/
theorem findPageByVirt_congr (entries : ∀ i, i < 128 → (t.pages.get i).used = (s.pages.get i).used ∧
      (t.pages.get i).pageDirectoryPhys = (s.pages.get i).pageDirectoryPhys ∧
      (t.pages.get i).virtAddr = (s.pages.get i).virtAddr) (dir virtAddr : UInt32) :
    t.findPageByVirt dir virtAddr = s.findPageByVirt dir virtAddr := by
  -- The search compares these three fields.
  unfold findPageByVirt
  refine List.find?_congr fun i member => ?_
  obtain ⟨used, directory, virt⟩ := entries i (List.mem_range.mp member)
  rw [used, directory, virt]

/-- Two addresses lie in one page when they have the same page address. -/
theorem alignDownPage_eq_iff {first second : UInt32} :
    alignDownPage first = alignDownPage second ↔ first.toNat / 4096 = second.toNat / 4096 := by
  -- The page address is the page number times 4096.
  rw [← UInt32.toNat_inj, toNat_alignDownPage, toNat_alignDownPage]
  omega

/-- Every address in a page leads to the same entry. -/
theorem findPageByVirt_page {dir first second : UInt32}
    (same : first.toNat / 4096 = second.toNat / 4096) :
    s.findPageByVirt dir first = s.findPageByVirt dir second := by
  -- The search is for the page address.
  unfold findPageByVirt
  rw [alignDownPage_eq_iff.mpr same]

/-- Addresses in different pages lead to different entries. -/
theorem findPageByVirt_apart {dir virtAddr dir' virtAddr' : UInt32} {i j : Nat}
    (found : s.findPageByVirt dir virtAddr = some i)
    (found' : s.findPageByVirt dir' virtAddr' = some j)
    (apart : ¬ (dir' = dir ∧ virtAddr'.toNat / 4096 = virtAddr.toNat / 4096)) : j ≠ i := by
  -- One entry would have two page addresses.
  rintro rfl
  obtain ⟨-, -, directory, virt⟩ := findPageByVirt_some found
  obtain ⟨-, -, directory', virt'⟩ := findPageByVirt_some found'
  exact apart ⟨directory'.symm.trans directory, alignDownPage_eq_iff.mp (virt'.symm.trans virt)⟩

/-- A change of one entry shows only where the page of that entry is looked for. -/
theorem findPageByVirt_other {i : Nat} {dir virtAddr : UInt32}
    (others : ∀ j, j < 128 → j ≠ i → t.pages.get j = s.pages.get j)
    (before : ¬ ((s.pages.get i).used = true ∧ (s.pages.get i).pageDirectoryPhys = dir ∧
      (s.pages.get i).virtAddr = alignDownPage virtAddr))
    (after : ¬ ((t.pages.get i).used = true ∧ (t.pages.get i).pageDirectoryPhys = dir ∧
      (t.pages.get i).virtAddr = alignDownPage virtAddr)) :
    t.findPageByVirt dir virtAddr = s.findPageByVirt dir virtAddr := by
  -- The search agrees at every other entry, and passes this one over both times.
  unfold findPageByVirt
  refine List.find?_congr fun j member => ?_
  by_cases same : j = i
  · subst same
    have no : ∀ {p : PagerPage}, ¬ (p.used = true ∧ p.pageDirectoryPhys = dir ∧
        p.virtAddr = alignDownPage virtAddr) →
        (p.used && p.pageDirectoryPhys == dir && p.virtAddr == alignDownPage virtAddr) = false := by
      intro p none_
      rw [Bool.eq_false_iff]
      simpa [and_assoc] using none_
    rw [no before, no after]
  · rw [others j (List.mem_range.mp member) same]

end Lookup

namespace Mirrors

variable {owner owner' : Owners Holder} {s t : Pager} {a : FlatMemory} {i : Nat}
  {dir virtAddr : UInt32}

/-- A page that is registered is in the flat memory. -/
theorem found (mirrors : Mirrors s a) (found : s.findPageByVirt dir virtAddr = some i) :
    ∃ page, a.find dir virtAddr = some page ∧ s.Shows i page := by
  -- Both sides find the page, or neither does.
  have shown := mirrors.shown dir virtAddr
  rw [found] at shown
  cases here : a.find dir virtAddr with
  | none =>
    rw [here] at shown
    cases shown
  | some page =>
    rw [here] at shown
    cases shown with
    | some shows => exact ⟨page, rfl, shows⟩

/-- A page that is not registered is not in the flat memory. -/
theorem missing (mirrors : Mirrors s a) (missing : s.findPageByVirt dir virtAddr = none) :
    a.find dir virtAddr = none := by
  -- Both sides find the page, or neither does.
  have shown := mirrors.shown dir virtAddr
  rw [missing] at shown
  generalize a.find dir virtAddr = page at shown
  cases shown
  rfl

/-- Steps that keep the bytes of every page, and what its entry is about. -/
theorem kept (mirrors : Mirrors s a) (retains : Retains s t)
    (entries : ∀ j, j < 128 →
      (t.pages.get j).pageDirectoryPhys = (s.pages.get j).pageDirectoryPhys ∧
      (t.pages.get j).virtAddr = (s.pages.get j).virtAddr ∧
      (t.pages.get j).flags = (s.pages.get j).flags)
    (current : t.currentPageDirectoryPhys = s.currentPageDirectoryPhys)
    (count : t.registeredPages = s.registeredPages) : Mirrors t a := by
  -- The entries found are the same, and each shows what it showed.
  refine ⟨retains.sound mirrors.sound, retains.rights mirrors.rights,
    mirrors.current.trans current.symm, mirrors.count.trans count.symm, fun dir virtAddr => ?_⟩
  have same := @findPageByVirt_congr s t (fun j small =>
    ⟨retains.used j small, (entries j small).1, (entries j small).2.1⟩) dir virtAddr
  rw [same]
  cases found : s.findPageByVirt dir virtAddr with
  | none =>
    rw [mirrors.missing found]
    exact .none
  | some i =>
    obtain ⟨page, there, shows⟩ := mirrors.found found
    obtain ⟨inside, used, -⟩ := findPageByVirt_some found
    rw [there]
    refine .some ⟨shows.flags.trans (entries i inside).2.2.symm, fun k small => ?_⟩
    rw [shows.bytes k small, retains.bytes i inside used k small]

/-- A page is brought in, if need be. -/
theorem resolved (mirrors : Mirrors s a) (ok : Ok owner none s) (inside : i < 128)
    (used : (s.pages.get i).used = true) (resolved : Resolved owner s i owner' t) : Mirrors t a := by
  -- Bringing a page in keeps its bytes.
  have steady := resolved.steady ok
  have retains := Retains.resolved ok inside used mirrors.sound resolved
  refine mirrors.kept retains (fun j small => ?_) steady.current ?_
  · obtain ⟨-, directory, virt, flags, -⟩ := steady.entries j small
    exact ⟨directory, virt, flags⟩
  · rw [(resolved.ok ok).books.counted, ok.books.counted]
    exact usedCount_congr retains.used

/-- What is known about accesses changes. -/
theorem touched (mirrors : Mirrors s a) (ok : Ok owner none s) {vmm : Vmm}
    (touched : Touched owner s.toVmm vmm) : Mirrors { s with toVmm := vmm } a :=
  -- Accessed and dirty marks are no bytes.
  mirrors.kept (.touched ok touched rfl (fun _ _ => .refl _) fun _ _ => rfl)
    (fun _ _ => ⟨rfl, rfl, rfl⟩) touched.current rfl

/-- A byte of a page in memory changes. -/
theorem poke (mirrors : Mirrors s a) (ok : Ok owner none s)
    (found : s.findPageByVirt dir virtAddr = some i) (present : (s.pages.get i).present = true)
    {page : FlatPage} (there : a.find dir virtAddr = some page) (value : UInt8) :
    Mirrors
      { s with
        memory := s.memory.store ((s.pages.get i).frame * 4096 + virtAddr.toNat % 4096) value }
      (a.put dir virtAddr (some { page with
        bytes := fun k => if k = virtAddr.toNat % 4096 then value else page.bytes k })) := by
  obtain ⟨inside, used, -⟩ := findPageByVirt_some found
  obtain ⟨-, same⟩ := ok.poke inside used present (Nat.mod_lt virtAddr.toNat (by decide : 0 < 4096)) value
  obtain ⟨_, here, shows⟩ := mirrors.found found
  obtain rfl := Option.some.inj (here.symm.trans there)
  refine ⟨mirrors.sound, fun j small used' present' => ?_, mirrors.current, mirrors.count,
    fun dir' virtAddr' => ?_⟩
  · have lives := ok.lives small used'
    have half := PagerPage.page_half lives.half
    have cell := @same.cells (s.pages.get j).directory (s.pages.get j).page lives.live (by omega)
    have before := mirrors.rights j small used' present'
    rw [← cell] at before
    exact before
  · unfold FlatMemory.put FlatMemory.find
    change Option.Rel _ (s.findPageByVirt dir' virtAddr') (if _ then _ else a.find dir' virtAddr')
    by_cases this : dir' = dir ∧ virtAddr'.toNat / 4096 = virtAddr.toNat / 4096
    · rw [if_pos this, this.1, findPageByVirt_page this.2, found]
      refine .some ⟨shows.flags, fun k small => ?_⟩
      have byte := shows.bytes k small
      unfold Pager.byteAt at byte ⊢
      rw [if_pos present] at byte
      rw [if_pos (show (s.pages.get i).present = true from present)]
      simp only [Memory.store, Nat.add_left_cancel_iff]
      split
      · rfl
      · exact byte
    · rw [if_neg this]
      cases found' : s.findPageByVirt dir' virtAddr' with
      | none =>
        rw [mirrors.missing found']
        exact .none
      | some j =>
        obtain ⟨page', there', shows'⟩ := mirrors.found found'
        obtain ⟨small, used', -⟩ := findPageByVirt_some found'
        rw [there']
        refine .some ⟨shows'.flags, fun k inner => ?_⟩
        rw [shows'.bytes k inner]
        unfold Pager.byteAt
        change _ = if (s.pages.get j).present = true then
          s.memory.store _ value ((s.pages.get j).frame * 4096 + k) else _
        split
        · next present' =>
          -- The frame of another page is another frame.
          have apart : (s.pages.get j).frame ≠ (s.pages.get i).frame := by
            intro equal
            have mine := (ok.frames inside used present).owned
            have its := (ok.frames small used' present').owned
            rw [equal, mine] at its
            simp only [Option.some.injEq, Owner.held.injEq, Holder.page.injEq] at its
            exact findPageByVirt_apart found found' this its.symm
          have inner' := Nat.mod_lt virtAddr.toNat (by decide : 0 < 4096)
          exact (if_neg (by omega)).symm
        · rfl

/-- Pages whose entries did not change are shown as they were. -/
theorem shown_other (mirrors : Mirrors s a) {dir' virtAddr' : UInt32}
    (same : t.findPageByVirt dir' virtAddr' = s.findPageByVirt dir' virtAddr')
    (kept : ∀ j, j < 128 → (s.pages.get j).used = true →
      s.findPageByVirt dir' virtAddr' = some j → t.pages.get j = s.pages.get j ∧
        ∀ k, k < 4096 → t.byteAt j k = s.byteAt j k) :
    Option.Rel t.Shows (t.findPageByVirt dir' virtAddr') (a.find dir' virtAddr') := by
  -- The entry found is another one, which is as it was.
  rw [same]
  cases found : s.findPageByVirt dir' virtAddr' with
  | none =>
    rw [mirrors.missing found]
    exact .none
  | some j =>
    obtain ⟨page, there, shows⟩ := mirrors.found found
    obtain ⟨small, used, -⟩ := findPageByVirt_some found
    obtain ⟨entry, bytes⟩ := kept j small used found
    rw [there]
    refine .some ⟨?_, fun k inner => ?_⟩
    · rw [entry]
      exact shows.flags
    · rw [bytes k inner]
      exact shows.bytes k inner

/-- A page is entered that was not registered. -/
theorem enter (mirrors : Mirrors s a) (ok : Ok owner none s) {flags : UInt32} {bytes : Nat → UInt8}
    {disk : Ata} (inside : i < 128) (free : (s.pages.get i).used = false)
    (aligned : virtAddr.toNat % 4096 = 0)
    (written : s.disk.writeSectors (swapLbaForSlot (s.pages.get i).swapSlot) (pageSectors bytes) =
      (true, disk))
    (ok' : Ok owner none (enterPage { s with disk } i dir virtAddr flags)) :
    Mirrors (enterPage { s with disk } i dir virtAddr flags)
      { a.put dir virtAddr (some ⟨flags, bytes⟩) with count := a.count + 1 } := by
  -- At the page entered the new data is found, everywhere else what was there.
  rw [ok.books.slots inside] at written
  obtain ⟨sound, here, elsewhere⟩ := swapWrite_sound mirrors.sound inside written
  have unused : ¬ (s.pages.get i).used = true := by simp [free]
  obtain ⟨entry, entryIs⟩ : ∃ entry, entry = { s.pages.get i with
      used := true
      present := false
      swapped := true
      pageDirectoryPhys := dir
      virtAddr := virtAddr
      physAddr := 0
      flags := flags
      lastUsedTick := 0
      pinned := false } := ⟨_, rfl⟩
  have slots : ∀ j, j < 128 → (enterPage { s with disk } i dir virtAddr flags).pages.get j =
      if j = i then entry else s.pages.get j := by
    intro j below
    rw [entryIs]
    exact FixedArray.get_set _ _ below
  have mine : (enterPage { s with disk } i dir virtAddr flags).pages.get i = entry := by
    rw [slots i inside, if_pos rfl]
  have others : ∀ j, j < 128 → j ≠ i →
      (enterPage { s with disk } i dir virtAddr flags).pages.get j = s.pages.get j :=
    fun j below other => by rw [slots j below, if_neg other]
  have vmm : (enterPage { s with disk } i dir virtAddr flags).toVmm = s.toVmm := rfl
  have disks : (enterPage { s with disk } i dir virtAddr flags).disk = disk := rfl
  refine ⟨sound, fun j below used present => ?_, mirrors.current, congrArg (· + 1) mirrors.count,
    fun dir' virtAddr' => ?_⟩
  · have other : j ≠ i := by
      rintro rfl
      rw [mine, entryIs] at present
      cases present
    rw [others j below other] at used present ⊢
    rw [vmm]
    exact mirrors.rights j below used present
  · generalize enterPage { s with disk } i dir virtAddr flags = t at *
    change Option.Rel t.Shows _ (if _ then _ else a.find dir' virtAddr')
    by_cases this : dir' = dir ∧ virtAddr'.toNat / 4096 = virtAddr.toNat / 4096
    · have found : t.findPageByVirt dir' virtAddr' = some i := by
        refine ok'.books.find inside (by rw [mine, entryIs]) ?_ ?_
        · rw [mine, entryIs, this.1]
        · rw [mine, entryIs, alignDownPage_eq_iff.mpr this.2, alignDownPage_eq aligned]
      rw [if_pos this, found]
      refine .some ⟨by rw [mine, entryIs], fun k small => ?_⟩
      unfold Pager.byteAt
      rw [mine, entryIs, if_neg nofun, disks]
      exact (here k small).symm
    · rw [if_neg this]
      refine mirrors.shown_other (findPageByVirt_other others (fun ⟨used, _⟩ => unused used) ?_) ?_
      · rintro ⟨-, directory, virt⟩
        rw [mine, entryIs] at directory virt
        refine this ⟨directory.symm, ?_⟩
        rw [← alignDownPage_eq_iff, alignDownPage_eq aligned]
        exact virt.symm
      · intro j below used _
        have other : j ≠ i := by
          rintro rfl
          exact unused used
        refine ⟨others j below other, fun k small => ?_⟩
        unfold Pager.byteAt
        rw [others j below other, vmm, disks, elsewhere j k other small]

/-- A page is given up. -/
theorem leave (mirrors : Mirrors s a) (ok : Ok owner none s)
    (found : s.findPageByVirt dir virtAddr = some i) (gone : Unregistered owner owner' s t i) :
    Mirrors t { a.put dir virtAddr none with count := a.count - 1 } := by
  obtain ⟨inside, used, directory, virt⟩ := findPageByVirt_some found
  obtain ⟨p, unused, pages⟩ := gone.pages
  have mine : t.pages.get i = p := by
    rw [pages, FixedArray.get_set _ _ inside, if_pos rfl]
  have others : ∀ j, j < 128 → j ≠ i → t.pages.get j = s.pages.get j := by
    intro j small other
    rw [pages, FixedArray.get_set _ _ small, if_neg other]
  have current : t.currentPageDirectoryPhys = s.currentPageDirectoryPhys := by
    rcases gone.memory with ⟨-, -, same⟩ | ⟨-, -, dropped⟩
    · rw [same]
    · exact dropped.current
  have absent : (t.pages.get i).used ≠ true := by simp [mine, unused]
  refine ⟨by rw [gone.disk]; exact mirrors.sound, ?_, mirrors.current.trans current.symm, ?_,
    fun dir' virtAddr' => ?_⟩
  · intro j small used' present'
    have other : j ≠ i := by
      rintro rfl
      exact absent used'
    rw [others j small other] at used' present' ⊢
    rcases gone.memory with ⟨-, -, same⟩ | ⟨-, -, dropped⟩
    · rw [same]
      exact mirrors.rights j small used' present'
    · have lives := ok.lives small used'
      have half := PagerPage.page_half lives.half
      rw [dropped.cells lives.live (by omega)]
      · exact mirrors.rights j small used' present'
      · exact fun here => other (ok.apart small inside used' used here.1 here.2)
  · -- One entry fewer is in use.
    have fewer : usedCount s.pages = usedCount t.pages + 1 := by
      refine countP_range_raise inside (by rw [mine]; exact unused) used fun j small other => ?_
      rw [others j small other]
    have before := ok.books.counted
    have after := gone.ok.books.counted
    have count := mirrors.count
    change a.count - 1 = t.registeredPages
    omega
  · change Option.Rel t.Shows _ (if _ then _ else a.find dir' virtAddr')
    by_cases this : dir' = dir ∧ virtAddr'.toNat / 4096 = virtAddr.toNat / 4096
    · rw [if_pos this]
      have missing : t.findPageByVirt dir' virtAddr' = none := by
        cases found' : t.findPageByVirt dir' virtAddr' with
        | none => rfl
        | some j =>
          -- The entry found was there before, and is that of the page given up.
          obtain ⟨small, used', directory', virt'⟩ := findPageByVirt_some found'
          have other : j ≠ i := by
            rintro rfl
            exact absent used'
          rw [others j small other] at used' directory' virt'
          refine absurd (ok.books.unique small inside used' used ?_ ?_) other
          · rw [directory', directory, this.1]
          · rw [virt', virt, alignDownPage_eq_iff.mpr this.2]
      rw [missing]
      exact .none
    · rw [if_neg this]
      refine mirrors.shown_other (findPageByVirt_other others ?_ fun ⟨used', _⟩ => absent used') ?_
      · rintro ⟨-, directory', virt'⟩
        refine this ⟨directory'.symm.trans directory, ?_⟩
        exact alignDownPage_eq_iff.mp (virt'.symm.trans virt)
      · intro j small used' found'
        have other := findPageByVirt_apart found found' this
        refine ⟨others j small other, fun k inner => ?_⟩
        unfold Pager.byteAt
        rw [others j small other, gone.disk]
        split
        · next present' =>
          rcases gone.memory with ⟨-, -, same⟩ | ⟨-, -, dropped⟩
          · rw [same]
          · exact dropped.held (ok.frames small used' present').owned k inner
        · rfl

/-- Whether there is an entry not in use is decided by how many are. -/
theorem findFreePageEntry_isSome (s : Pager) :
    s.findFreePageEntry.isSome = decide (usedCount s.pages < 128) := by
  -- A counted entry is used, and there are 128.
  have most : usedCount s.pages ≤ 128 := by
    have := List.countP_le_length (p := fun i => (s.pages.get i).used) (l := List.range 128)
    rwa [List.length_range] at this
  have all : usedCount s.pages = 128 ↔ ∀ i ∈ List.range 128, (s.pages.get i).used = true := by
    have := List.countP_eq_length (p := fun i => (s.pages.get i).used) (l := List.range 128)
    rwa [List.length_range] at this
  cases found : s.findFreePageEntry with
  | none =>
    have every : usedCount s.pages = 128 := by
      rw [all]
      intro i member
      simpa using List.find?_eq_none.mp found i member
    rw [every]
    rfl
  | some i =>
    obtain ⟨inside, free⟩ := findFreePageEntry_some found
    have some_ : usedCount s.pages ≠ 128 := by
      rw [ne_eq, all]
      intro every
      exact nomatch free.symm.trans (every i (List.mem_range.mpr inside))
    exact (decide_eq_true (by omega)).symm

/-- A page that was not registered is registered where flat memory accepts it. -/
theorem register_cases (mirrors : Mirrors s a) (ok : Ok owner none s)
    (missing : s.findPageByVirt dir virtAddr = none) (flags : UInt32) (data : Option (Nat → UInt8))
    (dataSize : Nat) :
    (a.accepts dir virtAddr data dataSize = false ∧
      (pagerRegisterPageData s dir virtAddr flags data dataSize).2 = s) ∨
    (a.accepts dir virtAddr data dataSize = true ∧ ∃ i disk, i < 128 ∧
      (s.pages.get i).used = false ∧ virtAddr.toNat % 4096 = 0 ∧
      s.disk.writeSectors (swapLbaForSlot (s.pages.get i).swapSlot)
        (pageSectors (initialBytes data dataSize)) = (true, disk) ∧
      (pagerRegisterPageData s dir virtAddr flags data dataSize).2 =
        enterPage { s with disk } i dir virtAddr flags) := by
  -- Each check of the source is one of the flat memory.
  have room := findFreePageEntry_isSome s
  rw [← ok.books.counted, ← mirrors.count] at room
  have accepts : a.accepts dir virtAddr data dataSize =
      (!(!s.pagerReady || dir == 0 || virtAddr % pageSize != 0 || decide (dataSize > 4096) ||
        (data.isNone && dataSize != 0)) && s.findFreePageEntry.isSome) := by
    have aligned : (virtAddr % pageSize != 0) = !(virtAddr.toNat % 4096 == 0) := by
      rw [Bool.eq_iff_iff, mod_pageSize_ne_zero]
      simp
    have size : decide (dataSize > 4096) = !decide (dataSize ≤ 4096) := by
      by_cases large : dataSize > 4096
      · rw [decide_eq_true large, decide_eq_false (by omega)]
        rfl
      · rw [decide_eq_false large, decide_eq_true (by omega)]
        rfl
    unfold FlatMemory.accepts
    rw [room, ok.ready, aligned, size]
    cases data <;> simp [bne]
  unfold pagerRegisterPageData
  simp only [writePageDataToSwap_eq, swapWriteSlot, missing]
  split
  · next refused =>
    refine Or.inl ⟨?_, rfl⟩
    rw [accepts, refused]
    rfl
  · next accepted =>
    have aligned : virtAddr.toNat % 4096 = 0 := by
      simp only [Bool.or_eq_true, mod_pageSize_ne_zero, not_or, decide_eq_true_eq, not_not]
        at accepted
      exact accepted.1.1.2
    rw [Bool.not_eq_true] at accepted
    rw [accepted, Bool.not_false, Bool.true_and] at accepts
    cases found : s.findFreePageEntry with
    | none =>
      rw [found] at accepts
      exact Or.inl ⟨accepts, rfl⟩
    | some i =>
      rw [found] at accepts
      obtain ⟨inside, free⟩ := findFreePageEntry_some found
      have done := swapWrite_true mirrors.sound (swapLbaForSlot (s.pages.get i).swapSlot)
        (initialBytes data dataSize)
      simp only
      generalize written : s.disk.writeSectors _ _ = result at done
      obtain ⟨success, disk⟩ := result
      cases done
      refine Or.inr ⟨accepts, i, disk, inside, free, aligned, written, ?_⟩
      simp only
      rw [alignDownPage_eq aligned]

end Mirrors

section Steps

variable {owner : Owners Holder} {p : Paging} {a : FlatMemory} {dir virtAddr : UInt32} {i d v : Nat}

/-- The rights on a page in memory are those it was registered with. -/
theorem Pager.Rights.permits {s : Pager} (rights : s.Rights) (inside : i < 128)
    (maps : (s.pages.get i).Maps d v) (write : Bool) :
    Mm.permits (s.cell d v) write = Mm.permits (s.pages.get i).flags write := by
  -- The entry in the table has the flags of the page.
  have both := rights i inside maps.used maps.present
  rw [maps.directory, maps.page] at both
  unfold Mm.permits
  rw [both.1, both.2]

namespace Paging.Ok

/-- A program reads what it would read in flat memory. -/
theorem load_mirrors (ok : Ok owner p) (mirrors : Mirrors p.pager a) (half : virtAddr < vmmKernelBase)
    (served : ∀ i, p.pager.Needs virtAddr i → (p.pager.pageIn i).1 = true) :
    (pagerLoad p.pager virtAddr).1 = a.load virtAddr ∧ Mirrors (pagerLoad p.pager virtAddr).2 a := by
  -- A page in memory is read at once, one that is not is brought in and read then.
  obtain ⟨live, at_⟩ := ok.directory ok.current
  obtain ⟨owner', attempted⟩ := attempt_cases ok.pager ok.covers live at_ half
    (show 4 &&& 1 = 0 from rfl) (userRead_faults ok.pager.spaces live at_ half)
    fun i found absent => served i ⟨found, absent⟩
  unfold pagerLoad FlatMemory.load
  rw [mirrors.current]
  generalize p.pager.attempt virtAddr 4 _ = result at attempted
  cases attempted with
  | missing none_ =>
    rw [mirrors.missing none_]
    exact ⟨rfl, mirrors⟩
  | found i owner' t some_ resolved =>
    obtain ⟨inside, used, maps⟩ := ok.maps some_ resolved
    have ok' := resolved.ok ok.pager
    have mirrors' := mirrors.resolved ok.pager inside used resolved
    obtain ⟨page, there, shows⟩ := mirrors'.found (ok'.find inside at_ maps)
    have allowed : permits page.flags false = _ :=
      (congrArg (permits · false) shows.flags).trans (mirrors'.rights.permits inside maps false).symm
    rw [there]
    unfold through
    rcases userRead_page ok' inside at_ half maps with ⟨no, denied⟩ | ⟨yes, vmm, touched, done⟩
    · rw [denied]
      simp only
      rw [if_neg (by simp [allowed, no])]
      exact ⟨rfl, mirrors'⟩
    · rw [done]
      simp only
      rw [if_pos (allowed.trans yes), shows.bytes _ (Nat.mod_lt _ (by decide))]
      refine ⟨?_, mirrors'.touched ok' touched⟩
      unfold Pager.byteAt
      rw [if_pos maps.present]

/-- A program writes what it would write in flat memory. -/
theorem store_mirrors (ok : Ok owner p) (mirrors : Mirrors p.pager a) (half : virtAddr < vmmKernelBase)
    (served : ∀ i, p.pager.Needs virtAddr i → (p.pager.pageIn i).1 = true) (value : UInt8) :
    (pagerStore p.pager virtAddr value).1 = (a.store virtAddr value).1 ∧
      Mirrors (pagerStore p.pager virtAddr value).2 (a.store virtAddr value).2 := by
  obtain ⟨live, at_⟩ := ok.directory ok.current
  obtain ⟨owner', attempted⟩ := attempt_cases ok.pager ok.covers live at_ half
    (show 6 &&& 1 = 0 from rfl) (userWrite_faults ok.pager.spaces live at_ half value)
    fun i found absent => served i ⟨found, absent⟩
  unfold pagerStore FlatMemory.store
  rw [mirrors.current]
  generalize p.pager.attempt virtAddr 6 _ = result at attempted
  cases attempted with
  | missing none_ =>
    rw [mirrors.missing none_]
    exact ⟨rfl, mirrors⟩
  | found i owner' t some_ resolved =>
    obtain ⟨inside, used, maps⟩ := ok.maps some_ resolved
    have ok' := resolved.ok ok.pager
    have mirrors' := mirrors.resolved ok.pager inside used resolved
    have found := ok'.find inside at_ maps
    obtain ⟨page, there, shows⟩ := mirrors'.found found
    have allowed : permits page.flags true = _ :=
      (congrArg (permits · true) shows.flags).trans (mirrors'.rights.permits inside maps true).symm
    rw [there]
    unfold through
    rcases userWrite_page ok' inside at_ half maps value with ⟨no, denied⟩ | ⟨yes, vmm, touched, done⟩
    · rw [denied]
      simp only
      rw [if_neg (by simp [allowed, no])]
      exact ⟨rfl, mirrors'⟩
    · rw [done]
      simp only
      rw [if_pos (allowed.trans yes)]
      refine ⟨rfl, ?_⟩
      -- The access is noted first, and then the byte changes.
      have noted := mirrors'.touched ok' touched
      exact noted.poke (ok'.kept (.ofTouched touched)) found maps.present there value

/-- A page fault does not show. -/
theorem fault_mirrors (ok : Ok owner p) (mirrors : Mirrors p.pager a) (faultAddr errCode : UInt32)
    (served : ∀ i, p.pager.Needs faultAddr i → (p.pager.pageIn i).1 = true) :
    Mirrors (pagerHandlePageFault p.pager faultAddr errCode).2 a := by
  -- No page is missing, or the page that is missing is brought in.
  rcases pagerHandlePageFault_cases faultAddr errCode with same | ⟨i, found, absent, result⟩
  · rw [same]
    exact mirrors
  · obtain ⟨inside, used, -⟩ := findPageByVirt_some found
    obtain ⟨owner', u, sampled, same, pagedIn⟩ :=
      pageIn_spec ok.pager inside used absent (served i ⟨found, absent⟩)
    rw [result]
    exact mirrors.resolved ok.pager inside used (.brought owner' u _ absent sampled same pagedIn)

/-- A page is registered that was not, as in flat memory. -/
theorem register_mirrors (ok : Ok owner p) (mirrors : Mirrors p.pager a) (live : p.Live dir)
    (half : virtAddr < vmmKernelBase) (missing : p.pager.findPageByVirt dir virtAddr = none)
    (flags : UInt32) (data : Option (Nat → UInt8)) (dataSize : Nat) :
    Mirrors (pagerRegisterPageData p.pager dir virtAddr flags data dataSize).2
      (a.register dir virtAddr flags data dataSize) := by
  -- Accepted on both sides, or on neither.
  have after := (ok.register live half flags data dataSize).pager
  unfold FlatMemory.register
  rcases mirrors.register_cases ok.pager missing flags data dataSize with
    ⟨refused, same⟩ | ⟨accepted, i, disk, inside, free, aligned, written, result⟩
  · rw [same, if_neg (by simp [refused])]
    exact mirrors
  · change Pager.Ok owner none (pagerRegisterPageData p.pager dir virtAddr flags data dataSize).2 at after
    rw [result] at after ⊢
    rw [if_pos accepted]
    exact mirrors.enter ok.pager inside free aligned written after

/-- A page is given up, as in flat memory. -/
theorem unregister_mirrors (ok : Ok owner p) (mirrors : Mirrors p.pager a) (dir virtAddr : UInt32) :
    Mirrors (pagerUnregisterPage p.pager dir virtAddr) (a.unregister dir virtAddr) := by
  unfold FlatMemory.unregister
  rcases pagerUnregisterPage_cases ok.pager dir virtAddr with ⟨same, none_⟩ | ⟨i, owner', found, gone⟩
  · -- No page belongs to a space without a directory.
    have missing : p.pager.findPageByVirt dir virtAddr = none := by
      by_cases zero : dir = 0
      · cases found : p.pager.findPageByVirt dir virtAddr with
        | none => rfl
        | some i =>
          obtain ⟨inside, used, directory, -⟩ := findPageByVirt_some found
          have lives := ok.pager.lives inside used
          have positive := ok.pager.spaces.positive (ok.pager.spaces.directory_inPool lives.live)
          have address := lives.address
          rw [directory, zero] at address
          change 0 = _ at address
          omega
      · exact none_ zero
    rw [same, mirrors.missing missing]
    exact mirrors
  · obtain ⟨page, there, -⟩ := mirrors.found found
    rw [there]
    exact mirrors.leave ok.pager found gone

/-- Whether a page may be chosen as a victim changes no page. -/
theorem pin_retains (ok : Ok owner p) (dir virtAddr : UInt32) (pinned : Bool) :
    Retains p.pager (pagerPinPageInDirectory p.pager dir virtAddr pinned).2 ∧
      ∀ j, j < 128 → ((pagerPinPageInDirectory p.pager dir virtAddr pinned).2.pages.get j).flags =
        (p.pager.pages.get j).flags := by
  -- Only the mark of one entry changes.
  have kept := pagerPinPageInDirectory_kept ok.pager.spaces dir virtAddr pinned
  have rest : (pagerPinPageInDirectory p.pager dir virtAddr pinned).2.disk = p.pager.disk ∧
      ∀ j, j < 128 → ((pagerPinPageInDirectory p.pager dir virtAddr pinned).2.pages.get j).flags =
        (p.pager.pages.get j).flags := by
    unfold pagerPinPageInDirectory
    split
    · exact ⟨rfl, fun _ _ => rfl⟩
    · split
      · exact ⟨rfl, fun _ _ => rfl⟩
      · next i found =>
        refine ⟨rfl, fun j below => ?_⟩
        change ((p.pager.pages.set i _).get j).flags = _
        rw [FixedArray.get_set _ _ below]
        split
        · next same => rw [same]
        · rfl
  exact ⟨.touched ok.pager kept.vmm rest.1 kept.entries rest.2, rest.2⟩

/-- Whether a page may be chosen as a victim does not show. -/
theorem pin_mirrors (ok : Ok owner p) (mirrors : Mirrors p.pager a) (dir virtAddr : UInt32)
    (pinned : Bool) : Mirrors (pagerPinPageInDirectory p.pager dir virtAddr pinned).2 a := by
  -- The mark is no byte.
  have kept := pagerPinPageInDirectory_kept ok.pager.spaces dir virtAddr pinned
  obtain ⟨retains, flags⟩ := ok.pin_retains dir virtAddr pinned
  exact mirrors.kept retains
    (fun j small => ⟨(kept.entries j small).directory, (kept.entries j small).virt, flags j small⟩)
    kept.vmm.current kept.registered

/-- Looking at accesses does not show. -/
theorem sample_mirrors (ok : Ok owner p) (mirrors : Mirrors p.pager a) :
    Mirrors (pagerSampleUsage p.pager) a := by
  -- Only marks and counters change.
  have sampled := pagerSampleUsage_sampled ok.pager
  refine mirrors.kept (.sampled ok.pager sampled) (fun j small => ?_) sampled.vmm.current
    sampled.registered
  rw [sampled.pages j small]
  exact ⟨rfl, rfl, rfl⟩

/-- A new space has no pages. -/
theorem createSpace_mirrors (ok : Ok owner p) (mirrors : Mirrors p.pager a) :
    Mirrors p.createSpace.pager a := by
  -- A new space has a page that was free.
  unfold Paging.createSpace
  rcases vmmCreateAddressSpace_cases ok.pager.spaces with ⟨result, -⟩ | ⟨f, t, result, made⟩
  · rw [result]
    exact mirrors
  · rw [result]
    refine mirrors.kept (.ofSame ok.pager made.held (fun i inside used _ => ?_) rfl
      (fun _ _ => .refl _) fun _ _ => rfl) (fun _ _ => ⟨rfl, rfl, rfl⟩) made.current rfl
    have lives := ok.pager.lives inside used
    have half := PagerPage.page_half lives.half
    have cell := @made.cells (p.pager.pages.get i).directory (p.pager.pages.get i).page lives.live
      (by omega)
    exact cell ▸ .refl _

/-- A space without pages goes. -/
theorem destroySpace_mirrors (ok : Ok owner p) (mirrors : Mirrors p.pager a) (live : p.Live dir)
    (notKernel : pageOf dir ≠ p.pager.kernelDirectory)
    (unused : ∀ i, i < 128 → (p.pager.pages.get i).used = true →
      (p.pager.pages.get i).pageDirectoryPhys ≠ dir) :
    Mirrors (p.destroySpace dir).pager a := by
  -- No registered page was in the space.
  obtain ⟨owned, at_⟩ := ok.directory live
  have gone := vmmDestroyAddressSpace_gone ok.pager.spaces owned at_ notKernel
  refine mirrors.kept (.ofSame ok.pager gone.held (fun i inside used _ => ?_) rfl
    (fun _ _ => .refl _) fun _ _ => rfl) (fun _ _ => ⟨rfl, rfl, rfl⟩) gone.current rfl
  have lives := ok.pager.lives inside used
  have half := PagerPage.page_half lives.half
  have elsewhere : (p.pager.pages.get i).directory ≠ pageOf dir := by
    intro same
    refine unused i inside used (UInt32.toNat_inj.mp ?_)
    rw [lives.address, same, at_]
  have cell := @gone.cells (p.pager.pages.get i).directory (p.pager.pages.get i).page lives.live
    elsewhere (by omega)
  exact cell ▸ .refl _

/-- Every call gives the answer that flat memory gives. -/
theorem step_mirrors (ok : Ok owner p) (mirrors : Mirrors p.pager a) (call : PagerCall)
    (allowed : p.Allows call) :
    (pagingStep p call).1 = (flatStep a call).1 ∧ (∃ owner', Ok owner' (pagingStep p call).2) ∧
      Mirrors (pagingStep p call).2.pager (flatStep a call).2 := by
  obtain ⟨admitted, supplied, once⟩ := allowed
  -- Where memory is there, every page fault is resolved.
  have served : p.Serves call := by
    intro virtAddr asked i needs
    obtain ⟨inside, -⟩ := findPageByVirt_some needs.1
    exact pageIn_supplied ok.pager inside mirrors.sound
      ((p.needed_iff).mp supplied virtAddr asked i needs)
  have next := ok.step call ⟨admitted, served⟩
  cases call with
  | register dir virtAddr flags data dataSize =>
    exact ⟨rfl, next, ok.register_mirrors mirrors admitted.1 admitted.2 once flags data dataSize⟩
  | pin dir virtAddr pinned => exact ⟨rfl, next, ok.pin_mirrors mirrors dir virtAddr pinned⟩
  | sampleUsage => exact ⟨rfl, next, ok.sample_mirrors mirrors⟩
  | setAlgorithm algorithm =>
    exact ⟨rfl, next, mirrors.sound, mirrors.rights, mirrors.current, mirrors.count, fun dir virtAddr =>
      mirrors.shown_other rfl fun _ _ _ _ => ⟨rfl, fun _ _ => rfl⟩⟩
  | unregister dir virtAddr => exact ⟨rfl, next, ok.unregister_mirrors mirrors dir virtAddr⟩
  | fault faultAddr errCode =>
    exact ⟨rfl, next, ok.fault_mirrors mirrors faultAddr errCode (served _ rfl)⟩
  | switch dir =>
    refine ⟨rfl, next, ?_⟩
    change Mirrors { p.pager with toVmm := (vmmSwitchPageDirectory dir p.pager.toVmm).2 }
      { a with current := dir }
    rw [ok.switched admitted]
    exact ⟨mirrors.sound, mirrors.rights, rfl, mirrors.count, fun dir virtAddr =>
      mirrors.shown_other rfl fun _ _ _ _ => ⟨rfl, fun _ _ => rfl⟩⟩
  | load virtAddr =>
    obtain ⟨same, after⟩ := ok.load_mirrors mirrors admitted (served _ rfl)
    exact ⟨congrArg Reply.loaded same, next, after⟩
  | store virtAddr value =>
    obtain ⟨same, after⟩ := ok.store_mirrors mirrors admitted (served _ rfl) value
    exact ⟨congrArg Reply.stored same, next, after⟩
  | createSpace => exact ⟨rfl, next, ok.createSpace_mirrors mirrors⟩
  | destroySpace dir =>
    obtain ⟨live, notKernel, -, unused⟩ := admitted
    exact ⟨rfl, next, ok.destroySpace_mirrors mirrors live notKernel unused⟩

end Paging.Ok

end Steps

section Runs

variable {owner : Owners Holder} {s : Pager} {live : Nat → Bool}

/-- The pager starts out without pages. -/
theorem pagingStart_mirrors (sound : s.disk.Sound) :
    Mirrors (pagingStart s live).pager (.empty s.currentPageDirectoryPhys) := by
  -- No entry is used.
  have unused : ∀ {i}, i < 128 → ¬ ((pagingStart s live).pager.pages.get i).used = true := by
    intro i inside used
    unfold pagingStart pagerInit at used
    rw [if_neg (by simp [sound.ready])] at used
    change ((FixedArray.ofFn freshPage : FixedArray 128 PagerPage).get i).used = true at used
    rw [FixedArray.get_ofFn _ inside] at used
    cases used
  have missing : ∀ dir virtAddr, (pagingStart s live).pager.findPageByVirt dir virtAddr = none := by
    intro dir virtAddr
    cases found : (pagingStart s live).pager.findPageByVirt dir virtAddr with
    | none => rfl
    | some i =>
      obtain ⟨inside, used, -⟩ := findPageByVirt_some found
      exact absurd used (unused inside)
  have rest : (pagingStart s live).pager.disk = s.disk ∧
      (pagingStart s live).pager.toVmm = s.toVmm ∧ (pagingStart s live).pager.registeredPages = 0 := by
    unfold pagingStart pagerInit
    rw [if_neg (by simp [sound.ready])]
    exact ⟨rfl, rfl, rfl⟩
  refine ⟨by rw [rest.1]; exact sound, fun i inside used => absurd used (unused inside), ?_,
    rest.2.2.symm, fun dir virtAddr => ?_⟩
  · rw [rest.2.1]
    rfl
  · rw [missing]
    exact .none

/--
Demand paging is transparent.

In every run in which pages are registered once, on a disk on which no transfer fails and with
memory whenever a page has to be brought in, programs get the answers that they would get in
memory in which every page is there: what was last stored in a page since it was registered, or
else what it was registered with.
-/
theorem pagingRun_transparent (starts : Paging.Starts owner s live) (sound : s.disk.Sound)
    (calls : List PagerCall)
    (allowed : ∀ before call after, calls = before ++ call :: after →
      (runState pagingStep (pagingStart s live) before).Allows call) :
    (runAll pagingStep (pagingStart s live) calls).1 =
      (runAll flatStep (.empty s.currentPageDirectoryPhys) calls).1 :=
  -- One step of the run is one step of flat memory, as long as calls are allowed.
  runAll_simulates_along pagingStep
    (fun p a => (∃ owner, Paging.Ok owner p) ∧ Mirrors p.pager a) Paging.Allows
    (fun _ _ call allowed ⟨⟨_, ok⟩, mirrors⟩ => ok.step_mirrors mirrors call allowed) allowed
    ⟨⟨owner, pagingStart_ok starts sound.ready⟩, pagingStart_mirrors sound⟩

section Example

/-- A byte is stored in the first of more pages than there are frames, and the others are read. -/
def swapCalls : List PagerCall :=
  (List.range 17).map (fun k => .register 8192 (crowdPage k) 6 none 0) ++
    .store (crowdPage 0 + 7) 9 :: (List.range 16).map (fun k => .load (crowdPage (k + 1)))

/-- The page has left memory then, and comes back with the byte. -/
theorem pagingRun_transparent_small :
    ((runState pagingStep (pagingStart (loadedPager pagedMachine) pagedLive)
      swapCalls).pager.pages.get 0).present = false ∧
    (runAll pagingStep (pagingStart (loadedPager pagedMachine) pagedLive)
      (swapCalls ++ [.load (crowdPage 0 + 7)])).1.getLast? = some (.loaded (.ok 9)) := by
  -- Evaluated: the page is not present, and the load agrees with flat memory.
  refine ⟨by decide +kernel, ?_⟩
  have along : allowedAlong pagingStep (fun p call => decide (p.Allows call))
      (pagingStart (loadedPager pagedMachine) pagedLive) (swapCalls ++ [.load (crowdPage 0 + 7)]) =
        true := by
    decide +kernel
  rw [pagingRun_transparent pagedMachine_starts ⟨rfl, fun _ => rfl⟩ _ fun before call after split =>
    of_decide_eq_true (allowedAlong_spec pagingStep along split)]
  rfl

end Example

end Runs

end MyOS.Mm
