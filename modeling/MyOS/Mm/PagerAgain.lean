import MyOS.Mm.Transparency

/-! What becomes of the bytes of a page that is registered once more. -/

namespace MyOS.Mm

open Pager

/-- The page of an address is registered, and these are its bytes, wherever it is. -/
def Pager.Holds (s : Pager) (dir virtAddr : UInt32) (bytes : Nat → UInt8) : Prop :=
  ∃ i, s.findPageByVirt dir virtAddr = some i ∧ ∀ k, k < 4096 → s.byteAt i k = bytes k

/-- Two addresses lie in one page of one space. -/
def SamePlace (dir virtAddr dir' virtAddr' : UInt32) : Prop :=
  dir' = dir ∧ virtAddr'.toNat / 4096 = virtAddr.toNat / 4096

/-- Whether two addresses name the same page can be computed. -/
instance (dir virtAddr dir' virtAddr' : UInt32) : Decidable (SamePlace dir virtAddr dir' virtAddr') :=
  inferInstanceAs (Decidable (_ ∧ _))

/-- A call neither writes the page of an address, nor registers it, nor gives it up. -/
def Paging.Spares (p : Paging) (dir virtAddr : UInt32) : PagerCall → Prop
  | .store virtAddr' _ => ¬ SamePlace dir virtAddr p.pager.currentPageDirectoryPhys virtAddr'
  | .register dir' virtAddr' _ _ _ => ¬ SamePlace dir virtAddr dir' virtAddr'
  | .unregister dir' virtAddr' => ¬ SamePlace dir virtAddr dir' virtAddr'
  | _ => True

/-- Whether a call spares a page can be computed. -/
instance (p : Paging) (dir virtAddr : UInt32) (call : PagerCall) :
    Decidable (p.Spares dir virtAddr call) :=
  match call with
  | .store .. | .register .. | .unregister .. => inferInstanceAs (Decidable (¬ _))
  | .pin .. | .sampleUsage | .setAlgorithm _ | .fault .. | .switch _ | .load _ | .createSpace
  | .destroySpace _ => inferInstanceAs (Decidable True)

section Holding

variable {owner owner' : Owners Holder} {s t : Pager} {dir virtAddr dir' virtAddr' flags : UInt32}
  {bytes : Nat → UInt8} {i : Nat}

/-- Steps that keep the bytes of every page, and what its entry is about. -/
theorem Pager.Holds.kept (holds : s.Holds dir virtAddr bytes) (retains : Retains s t)
    (entries : ∀ j, j < 128 →
      (t.pages.get j).pageDirectoryPhys = (s.pages.get j).pageDirectoryPhys ∧
      (t.pages.get j).virtAddr = (s.pages.get j).virtAddr) : t.Holds dir virtAddr bytes := by
  -- The page is found by the same entry, whose bytes are kept.
  obtain ⟨i, found, same⟩ := holds
  obtain ⟨inside, used, -⟩ := findPageByVirt_some found
  refine ⟨i, ?_, fun k small => (retains.bytes i inside used k small).trans (same k small)⟩
  rw [← found]
  exact findPageByVirt_congr (fun j small => ⟨retains.used j small, entries j small⟩) dir virtAddr

/-- A page is brought in, if need be. -/
theorem Pager.Holds.resolved (holds : s.Holds dir virtAddr bytes) (ok : Ok owner none s)
    (sound : s.disk.Sound) (inside : i < 128) (used : (s.pages.get i).used = true)
    (resolved : Resolved owner s i owner' t) : t.Holds dir virtAddr bytes ∧ t.disk.Sound := by
  -- Bringing a page in keeps the bytes of all pages.
  have retains := Retains.resolved ok inside used sound resolved
  refine ⟨holds.kept retains fun j small => ?_, retains.sound sound⟩
  obtain ⟨-, directory, virt, -⟩ := (resolved.steady ok).entries j small
  exact ⟨directory, virt⟩

/-- What is known about accesses changes. -/
theorem Pager.Holds.touched (holds : s.Holds dir virtAddr bytes) (ok : Ok owner none s) {vmm : Vmm}
    (touched : Touched owner s.toVmm vmm) : Pager.Holds { s with toVmm := vmm } dir virtAddr bytes :=
  holds.kept (.touched ok touched rfl (fun _ _ => .refl _) fun _ _ => rfl) fun _ _ => ⟨rfl, rfl⟩

/-- The byte of another page changes. -/
theorem Pager.Holds.poke (holds : s.Holds dir virtAddr bytes) (ok : Ok owner none s)
    (inside : i < 128) (used : (s.pages.get i).used = true) (present : (s.pages.get i).present = true)
    (other : s.findPageByVirt dir virtAddr ≠ some i) {k : Nat} (small : k < 4096) (value : UInt8) :
    Pager.Holds { s with memory := s.memory.store ((s.pages.get i).frame * 4096 + k) value }
      dir virtAddr bytes := by
  obtain ⟨j, found, same⟩ := holds
  obtain ⟨inside', used', -⟩ := findPageByVirt_some found
  refine ⟨j, found, fun l inner => ?_⟩
  rw [← same l inner]
  unfold Pager.byteAt
  simp only
  split
  · next present' =>
    -- The frame of another page is another frame.
    have apart : (s.pages.get j).frame ≠ (s.pages.get i).frame := by
      intro equal
      have mine := (ok.frames inside used present).owned
      have its := (ok.frames inside' used' present').owned
      rw [equal, mine] at its
      simp only [Option.some.injEq, Owner.held.injEq, Holder.page.injEq] at its
      rw [its] at other
      exact other found
    exact if_neg (by omega)
  · rfl

/-- An entry that is about another page, and its place on the disk, may change. -/
theorem Pager.Holds.replaced (holds : s.Holds dir virtAddr bytes) (ok : Ok owner none s)
    (inside : i < 128) (other : s.findPageByVirt dir virtAddr ≠ some i) {p : PagerPage}
    (apart : ¬ (p.used = true ∧ p.pageDirectoryPhys = dir ∧ p.virtAddr = alignDownPage virtAddr))
    (vmm : t.toVmm = s.toVmm) (pages : t.pages = s.pages.set i p)
    (disk : ∀ j k, j ≠ i → k < 4096 → slotByte t.disk j k = slotByte s.disk j k) :
    t.Holds dir virtAddr bytes := by
  obtain ⟨j, found, same⟩ := holds
  obtain ⟨inside', used', directory, virt⟩ := findPageByVirt_some found
  have differ : j ≠ i := by
    rintro rfl
    exact other found
  have others : ∀ l, l < 128 → l ≠ i → t.pages.get l = s.pages.get l := by
    intro l small here
    rw [pages, FixedArray.get_set _ _ small, if_neg here]
  refine ⟨j, ?_, fun k small => ?_⟩
  · rw [← found]
    refine findPageByVirt_other others ?_ ?_
    · -- No two entries are about one page.
      rintro ⟨used, directory', virt'⟩
      exact differ (ok.books.unique inside' inside used' used (directory.trans directory'.symm)
        (virt.trans virt'.symm))
    · rw [pages, FixedArray.get_set_same _ _ inside]
      exact apart
  · rw [← same k small]
    unfold Pager.byteAt
    rw [others j inside' differ, vmm, disk j k differ small]

/-- Registering another page leaves this one as it is. -/
theorem Registers.holds {given : Nat → UInt8} {done : Bool}
    (registers : Registers s dir' virtAddr' flags given done t) (ok : Ok owner none s)
    (sound : s.disk.Sound) (holds : s.Holds dir virtAddr bytes)
    (other : ¬ SamePlace dir virtAddr dir' virtAddr') :
    t.Holds dir virtAddr bytes ∧ t.disk.Sound := by
  -- The entry written is one not in use, or that of another page.
  cases registers with
  | refused => exact ⟨holds, sound⟩
  | again i disk done inside found written =>
    obtain ⟨-, used, directory, virt⟩ := findPageByVirt_some found
    have apart : ¬ ((s.pages.get i).used = true ∧ (s.pages.get i).pageDirectoryPhys = dir ∧
        (s.pages.get i).virtAddr = alignDownPage virtAddr) := by
      rintro ⟨-, directory', virt'⟩
      exact other ⟨directory.symm.trans directory', alignDownPage_eq_iff.mp (virt.symm.trans virt')⟩
    have missed : s.findPageByVirt dir virtAddr ≠ some i := by
      intro here
      obtain ⟨-, used', directory', virt'⟩ := findPageByVirt_some here
      exact apart ⟨used', directory', virt'⟩
    have place : disk.Sound ∧ ∀ j k, j ≠ i → k < 4096 → slotByte disk j k = slotByte s.disk j k := by
      rcases written with ⟨rfl, -⟩ | written
      · exact ⟨sound, fun _ _ _ _ => rfl⟩
      · have success := swapWrite_true sound (swapLbaForSlot (s.pages.get i).swapSlot) given
        rw [written] at success
        cases success
        rw [ok.books.slots inside] at written
        obtain ⟨soundT, -, elsewhere⟩ := swapWrite_sound sound inside written
        exact ⟨soundT, elsewhere⟩
    exact ⟨holds.replaced (p := { s.pages.get i with flags := flags }) ok inside missed apart rfl rfl
      place.2, place.1⟩
  | failed i disk lost =>
    have success := swapWrite_true sound (swapLbaForSlot (s.pages.get i).swapSlot) given
    rw [lost] at success
    cases success
  | entered i disk inside free aligned some_ missing written =>
    rw [ok.books.slots inside] at written
    obtain ⟨soundT, -, elsewhere⟩ := swapWrite_sound sound inside written
    have missed : s.findPageByVirt dir virtAddr ≠ some i := by
      intro here
      exact nomatch free.symm.trans (findPageByVirt_some here).2.1
    refine ⟨holds.replaced ok inside missed ?_ rfl rfl elsewhere, soundT⟩
    rintro ⟨-, directory, virt⟩
    rw [← alignDownPage_eq aligned] at virt
    exact other ⟨directory, alignDownPage_eq_iff.mp virt⟩

/-- Giving another page up leaves this one as it is. -/
theorem Unregistered.holds (gone : Unregistered owner owner' s t i) (ok : Ok owner none s)
    (inside : i < 128) (holds : s.Holds dir virtAddr bytes)
    (other : s.findPageByVirt dir virtAddr ≠ some i) : t.Holds dir virtAddr bytes := by
  -- The entry cleared is that of another page, and its frame with it.
  obtain ⟨p, unused, pages⟩ := gone.pages
  have moved : Pager.Holds { s with pages := t.pages } dir virtAddr bytes :=
    holds.replaced ok inside other (p := p) (by rw [unused]; exact fun both => nomatch both.1)
      rfl pages fun _ _ _ _ => rfl
  obtain ⟨j, found, same⟩ := moved
  obtain ⟨inside', used', -⟩ := findPageByVirt_some found
  have differ : j ≠ i := by
    rintro rfl
    have here : (t.pages.get j).used = true := used'
    rw [pages, FixedArray.get_set_same _ _ inside', unused] at here
    cases here
  refine ⟨j, found, fun k small => ?_⟩
  rw [← same k small]
  unfold Pager.byteAt
  rw [gone.disk]
  have kept : t.pages.get j = s.pages.get j := by
    rw [pages, FixedArray.get_set _ _ inside', if_neg differ]
  simp only
  split
  · next present =>
    rcases gone.memory with ⟨-, -, same⟩ | ⟨-, -, dropped⟩
    · rw [same]
    · rw [kept] at used' present ⊢
      exact dropped.held (ok.frames inside' used' present).owned k small
  · rfl

end Holding

section Steps

variable {owner : Owners Holder} {p : Paging} {dir virtAddr virtAddr' : UInt32} {bytes : Nat → UInt8}

/-- A program reads, and every page that is registered keeps its bytes. -/
theorem Paging.Ok.load_holds (ok : Paging.Ok owner p) (sound : p.pager.disk.Sound)
    (holds : p.pager.Holds dir virtAddr bytes) (half : virtAddr' < vmmKernelBase)
    (served : ∀ i, p.pager.Needs virtAddr' i → (p.pager.pageIn i).1 = true) :
    ((pagerLoad p.pager virtAddr').2.Holds dir virtAddr bytes ∧
      (pagerLoad p.pager virtAddr').2.disk.Sound) ∧
    ∀ byte, (pagerLoad p.pager virtAddr').1 = .ok byte →
      SamePlace dir virtAddr p.pager.currentPageDirectoryPhys virtAddr' →
      byte = bytes (virtAddr'.toNat % 4096) := by
  obtain ⟨live, at_⟩ := ok.directory ok.current
  obtain ⟨owner', attempted⟩ := attempt_cases ok.pager ok.covers live at_ half
    (show 4 &&& 1 = 0 from rfl) (userRead_faults ok.pager.spaces live at_ half)
    fun i found absent => served i ⟨found, absent⟩
  unfold pagerLoad
  generalize p.pager.attempt virtAddr' 4 _ = result at attempted
  cases attempted with
  | missing none_ => exact ⟨⟨holds, sound⟩, nofun⟩
  | found i owner' t some_ resolved =>
    obtain ⟨inside, used, maps⟩ := ok.maps some_ resolved
    have ok' := resolved.ok ok.pager
    obtain ⟨holds', sound'⟩ := holds.resolved ok.pager sound inside used resolved
    unfold through
    rcases userRead_page ok' inside at_ half maps with ⟨-, denied⟩ | ⟨-, vmm, touched, done⟩
    · rw [denied]
      exact ⟨⟨holds', sound'⟩, nofun⟩
    · rw [done]
      refine ⟨⟨holds'.touched ok' touched, sound'⟩, fun byte loaded here => ?_⟩
      -- The page found for the address is the one in question.
      obtain ⟨j, found, same⟩ := holds'
      have this : j = i := by
        have there := ok'.find inside at_ maps
        rw [here.1, findPageByVirt_page here.2] at there
        exact Option.some.inj (found.symm.trans there)
      subst this
      simp only [Except.ok.injEq] at loaded
      rw [← loaded, ← same _ (Nat.mod_lt _ (by decide))]
      unfold Pager.byteAt
      rw [if_pos maps.present]

/-- A program writes to another page. -/
theorem Paging.Ok.store_holds (ok : Paging.Ok owner p) (sound : p.pager.disk.Sound)
    (holds : p.pager.Holds dir virtAddr bytes) (half : virtAddr' < vmmKernelBase)
    (served : ∀ i, p.pager.Needs virtAddr' i → (p.pager.pageIn i).1 = true) (value : UInt8)
    (other : ¬ SamePlace dir virtAddr p.pager.currentPageDirectoryPhys virtAddr') :
    (pagerStore p.pager virtAddr' value).2.Holds dir virtAddr bytes ∧
      (pagerStore p.pager virtAddr' value).2.disk.Sound := by
  obtain ⟨live, at_⟩ := ok.directory ok.current
  obtain ⟨owner', attempted⟩ := attempt_cases ok.pager ok.covers live at_ half
    (show 6 &&& 1 = 0 from rfl) (userWrite_faults ok.pager.spaces live at_ half value)
    fun i found absent => served i ⟨found, absent⟩
  unfold pagerStore
  generalize p.pager.attempt virtAddr' 6 _ = result at attempted
  cases attempted with
  | missing none_ => exact ⟨holds, sound⟩
  | found i owner' t some_ resolved =>
    obtain ⟨inside, used, maps⟩ := ok.maps some_ resolved
    have ok' := resolved.ok ok.pager
    obtain ⟨holds', sound'⟩ := holds.resolved ok.pager sound inside used resolved
    unfold through
    rcases userWrite_page ok' inside at_ half maps value with ⟨-, denied⟩ | ⟨-, vmm, touched, done⟩
    · rw [denied]
      exact ⟨holds', sound'⟩
    · rw [done]
      -- The access is noted first, and then the byte changes.
      have noted := holds'.touched ok' touched
      have missed : t.findPageByVirt dir virtAddr ≠ some i := by
        intro here
        exact findPageByVirt_apart here (ok'.find inside at_ maps) other rfl
      refine ⟨?_, sound'⟩
      exact noted.poke (ok'.kept (.ofTouched touched)) inside maps.used maps.present missed
        (Nat.mod_lt _ (by decide)) value

/-- Every call that spares a page leaves its bytes as they are. -/
theorem Paging.Ok.step_holds (ok : Paging.Ok owner p) (sound : p.pager.disk.Sound)
    (holds : p.pager.Holds dir virtAddr bytes) (call : PagerCall) (permitted : p.Permits call)
    (spares : p.Spares dir virtAddr call) :
    (pagingStep p call).2.pager.Holds dir virtAddr bytes ∧ (pagingStep p call).2.pager.disk.Sound := by
  -- One case for each call: those on pages name another one, and the others keep all bytes.
  obtain ⟨admitted, served⟩ := permitted
  cases call with
  | register dir' virtAddr' flags data dataSize =>
    exact (pagerRegisterPageData_cases p.pager dir' virtAddr' flags data dataSize).holds ok.pager
      sound holds spares
  | pin dir' virtAddr' pinned =>
    have kept := pagerPinPageInDirectory_kept ok.pager.spaces dir' virtAddr' pinned
    obtain ⟨retains, -⟩ := ok.pin_retains dir' virtAddr' pinned
    exact ⟨holds.kept retains fun j small =>
      ⟨(kept.entries j small).directory, (kept.entries j small).virt⟩, retains.sound sound⟩
  | sampleUsage =>
    have sampled := pagerSampleUsage_sampled ok.pager
    have retains := Retains.sampled ok.pager sampled
    refine ⟨holds.kept retains fun j small => ?_, retains.sound sound⟩
    have entry := sampled.kept.entries j small
    exact ⟨entry.directory, entry.virt⟩
  | setAlgorithm algorithm => exact ⟨holds, sound⟩
  | unregister dir' virtAddr' =>
    simp only [pagingStep]
    rcases pagerUnregisterPage_cases ok.pager dir' virtAddr' with
      ⟨same, -⟩ | ⟨i, owner', found, gone⟩
    · rw [same]
      exact ⟨holds, sound⟩
    · obtain ⟨inside, -⟩ := findPageByVirt_some found
      refine ⟨gone.holds ok.pager inside holds fun here => ?_, ?_⟩
      · exact findPageByVirt_apart here found spares rfl
      · change (pagerUnregisterPage p.pager dir' virtAddr').disk.Sound
        rw [gone.disk]
        exact sound
  | fault faultAddr errCode =>
    simp only [pagingStep]
    rcases pagerHandlePageFault_cases faultAddr errCode with
      same | ⟨i, found, absent, result⟩
    · rw [same]
      exact ⟨holds, sound⟩
    · obtain ⟨inside, used, -⟩ := findPageByVirt_some found
      obtain ⟨owner', u, sampled, same, pagedIn⟩ :=
        pageIn_spec ok.pager inside used absent (served faultAddr rfl i ⟨found, absent⟩)
      rw [result]
      exact holds.resolved ok.pager sound inside used
        (.brought owner' u _ absent sampled same pagedIn)
  | switch dir' =>
    change Pager.Holds { p.pager with toVmm := (vmmSwitchPageDirectory dir' p.pager.toVmm).2 } _ _ _ ∧ _
    rw [ok.switched admitted]
    exact ⟨holds, sound⟩
  | load virtAddr' => exact (ok.load_holds sound holds admitted (served _ rfl)).1
  | store virtAddr' value => exact ok.store_holds sound holds admitted (served _ rfl) value spares
  | createSpace =>
    simp only [pagingStep]
    unfold Paging.createSpace
    rcases vmmCreateAddressSpace_cases ok.pager.spaces with ⟨result, -⟩ | ⟨f, t, result, made⟩
    · rw [result]
      exact ⟨holds, sound⟩
    · rw [result]
      refine ⟨holds.kept (.ofSame ok.pager made.held (fun i inside used _ => ?_) rfl
        (fun _ _ => .refl _) fun _ _ => rfl) fun _ _ => ⟨rfl, rfl⟩, sound⟩
      have lives := ok.pager.lives inside used
      have half := PagerPage.page_half lives.half
      have cell := @made.cells (p.pager.pages.get i).directory (p.pager.pages.get i).page lives.live
        (by omega)
      exact cell ▸ .refl _
  | destroySpace dir' =>
    obtain ⟨live, notKernel, -, unused⟩ := admitted
    obtain ⟨owned, at_⟩ := ok.directory live
    have gone := vmmDestroyAddressSpace_gone ok.pager.spaces owned at_ notKernel
    refine ⟨holds.kept (.ofSame ok.pager gone.held (fun i inside used _ => ?_) rfl
      (fun _ _ => .refl _) fun _ _ => rfl) fun _ _ => ⟨rfl, rfl⟩, sound⟩
    have lives := ok.pager.lives inside used
    have half := PagerPage.page_half lives.half
    have elsewhere : (p.pager.pages.get i).directory ≠ pageOf dir' := by
      intro same
      refine unused i inside used (UInt32.toNat_inj.mp ?_)
      rw [lives.address, same, at_]
    have cell := @gone.cells (p.pager.pages.get i).directory (p.pager.pages.get i).page lives.live
      elsewhere (by omega)
    exact cell ▸ .refl _

end Steps

/-- `pager_register_page_in_directory` for the page of an entry that is in use. -/
def Paging.again (p : Paging) (i : Nat) (flags : UInt32) : Bool × Paging :=
  match pagerRegisterPageInDirectory p.pager (p.pager.pages.get i).pageDirectoryPhys
    (p.pager.pages.get i).virtAddr flags with
  | (done, pager) => (done, p.withPager pager)

/-- What a page that is registered once more should come to: only its rights change. -/
structure RegistersAgain (p : Paging) (i : Nat) (flags : UInt32) : Prop where
  done : (p.again i flags).1 = true
  /-- Nothing but the rights of the page and the disk changes. -/
  only : ∃ disk, (p.again i flags).2 =
    p.withPager { p.pager.setPage i { p.pager.pages.get i with flags := flags } with disk }
  /-- Every page has the bytes it had. -/
  bytes : ∀ j, j < 128 → (p.pager.pages.get j).used = true → ∀ k, k < 4096 →
    (p.again i flags).2.pager.byteAt j k = p.pager.byteAt j k
  /-- Later, until the page is written or given up, programs load the bytes it had. -/
  loads : ∀ {calls : List PagerCall} {virtAddr : UInt32} {byte : UInt8},
    (∀ before call after, calls ++ [.load virtAddr] = before ++ call :: after →
      (runState pagingStep (p.again i flags).2 before).Permits call ∧
        (runState pagingStep (p.again i flags).2 before).Spares
          (p.pager.pages.get i).pageDirectoryPhys (p.pager.pages.get i).virtAddr call) →
    SamePlace (p.pager.pages.get i).pageDirectoryPhys (p.pager.pages.get i).virtAddr
      (runState pagingStep (p.again i flags).2 calls).pager.currentPageDirectoryPhys virtAddr →
    (pagerLoad (runState pagingStep (p.again i flags).2 calls).pager virtAddr).1 = .ok byte →
    byte = p.pager.byteAt i (virtAddr.toNat % 4096)

section Again

variable {owner : Owners Holder} {p : Paging} {i : Nat}

/-- Along a run that spares a page its bytes stay, and a program loads them. -/
theorem Paging.Ok.run_holds (ok : Paging.Ok owner p) (sound : p.pager.disk.Sound)
    {dir virtAddr virtAddr' : UInt32} {bytes : Nat → UInt8} (holds : p.pager.Holds dir virtAddr bytes)
    {calls : List PagerCall}
    (allowed : ∀ before call after, calls ++ [.load virtAddr'] = before ++ call :: after →
      (runState pagingStep p before).Permits call ∧
        (runState pagingStep p before).Spares dir virtAddr call)
    (place : SamePlace dir virtAddr (runState pagingStep p calls).pager.currentPageDirectoryPhys
      virtAddr') {byte : UInt8}
    (loaded : (pagerLoad (runState pagingStep p calls).pager virtAddr').1 = .ok byte) :
    byte = bytes (virtAddr'.toNat % 4096) := by
  -- By induction on the calls, with the step lemma for each of them.
  induction calls generalizing p owner with
  | nil =>
    obtain ⟨⟨admitted, served⟩, -⟩ := allowed [] (.load virtAddr') [] rfl
    exact (ok.load_holds sound holds admitted (served _ rfl)).2 byte loaded place
  | cons call rest ih =>
    obtain ⟨permitted, spares⟩ := allowed [] call _ rfl
    obtain ⟨owner', ok'⟩ := ok.step call permitted
    obtain ⟨holds', sound'⟩ := ok.step_holds sound holds call permitted spares
    refine ih ok' sound' holds' (fun before call' after split => ?_) place loaded
    exact allowed (call :: before) call' after (by rw [List.cons_append, split]; rfl)

/-- Registering a page again changes its rights, and fills its place on the disk with zeros. -/
theorem Paging.Ok.again_eq (ok : Paging.Ok owner p) (sound : p.pager.disk.Sound) (inside : i < 128)
    (used : (p.pager.pages.get i).used = true) (flags : UInt32) :
    ∃ disk, p.again i flags = (true, p.withPager
        { p.pager.setPage i { p.pager.pages.get i with flags := flags } with disk }) ∧
      disk.Sound ∧ (∀ k, k < 4096 → slotByte disk i k = 0) ∧
      ∀ j k, j ≠ i → k < 4096 → slotByte disk j k = slotByte p.pager.disk j k := by
  -- The function finds the page, writes zeros to its place, and then notes the rights.
  have lives := ok.pager.lives inside used
  have nonzero := ne_zero_of_page lives.address
    (ok.pager.spaces.positive (ok.pager.spaces.directory_inPool lives.live))
  have found : p.pager.findPageByVirt (p.pager.pages.get i).pageDirectoryPhys
      (p.pager.pages.get i).virtAddr = some i :=
    ok.pager.books.find inside used rfl (alignDownPage_eq lives.aligned).symm
  have slot : ((p.pager.setPage i { p.pager.pages.get i with flags := flags }).pages.get i).swapSlot =
      UInt32.ofNat i := by
    change ((p.pager.pages.set i _).get i).swapSlot = _
    rw [FixedArray.get_set_same _ _ inside]
    exact ok.pager.books.slots inside
  have success := swapWrite_true sound (swapLbaForSlot (UInt32.ofNat i))
    (initialBytes (some fun _ => 0) 0)
  unfold Paging.again pagerRegisterPageInDirectory pagerRegisterPageData
  rw [if_neg (by simp [ok.pager.ready, nonzero, mod_pageSize_ne_zero, lives.aligned])]
  simp only [found, Option.isSome_some, Bool.true_or, if_true, writePageDataToSwap_eq, swapWriteSlot,
    slot]
  change (p.pager.disk.writeSectors _ _).1 = true at success
  have same : (p.pager.setPage i { p.pager.pages.get i with flags := flags }).disk = p.pager.disk := rfl
  rw [same]
  generalize written : p.pager.disk.writeSectors _ _ = result at success
  obtain ⟨done, disk⟩ := result
  cases success
  obtain ⟨soundT, zeros, elsewhere⟩ := swapWrite_sound sound inside written
  refine ⟨disk, rfl, soundT, fun k small => ?_, elsewhere⟩
  rw [zeros k small]
  simp only [initialBytes, Nat.not_lt_zero, if_false]

end Again

/--
Registering a page again keeps its bytes if it is in memory, or if they are all zero.

For a page on the disk its place there is filled with zeros.
-/
theorem register_again_iff {owner : Owners Holder} {p : Paging} {i : Nat} (ok : Paging.Ok owner p)
    (sound : p.pager.disk.Sound) (inside : i < 128) (used : (p.pager.pages.get i).used = true)
    (flags : UInt32) :
    RegistersAgain p i flags ↔
      ((p.pager.pages.get i).present = true ∨ ∀ k, k < 4096 → p.pager.byteAt i k = 0) := by
  have lives := ok.pager.lives inside used
  obtain ⟨disk, result, soundT, zeros, elsewhere⟩ := ok.again_eq sound inside used flags
  have entries : ∀ j, j < 128 → ((p.again i flags).2.pager.pages.get j).present =
      (p.pager.pages.get j).present ∧
      ((p.again i flags).2.pager.pages.get j).frame = (p.pager.pages.get j).frame := by
    intro j small
    rw [result]
    change ((p.pager.pages.set i _).get j).present = _ ∧ ((p.pager.pages.set i _).get j).frame = _
    rw [FixedArray.get_set _ _ small]
    split
    · next here =>
      subst here
      exact ⟨rfl, rfl⟩
    · exact ⟨rfl, rfl⟩
  have disks : (p.again i flags).2.pager.disk = disk := by rw [result]; rfl
  have memory : (p.again i flags).2.pager.memory = p.pager.memory := by rw [result]; rfl
  constructor
  · intro again
    by_cases present : (p.pager.pages.get i).present = true
    · exact Or.inl present
    · -- The page is on the disk, where there are zeros now.
      right
      intro k small
      rw [← again.bytes i inside used k small]
      unfold Pager.byteAt
      rw [(entries i inside).1, if_neg present, disks]
      exact zeros k small
  · intro kept
    have bytes : ∀ j, j < 128 → (p.pager.pages.get j).used = true → ∀ k, k < 4096 →
        (p.again i flags).2.pager.byteAt j k = p.pager.byteAt j k := by
      intro j small used' k inner
      unfold Pager.byteAt
      rw [(entries j small).1, (entries j small).2, memory, disks]
      split
      · rfl
      · next absent =>
        by_cases here : j = i
        · subst here
          -- What was there was zero before, or the page is in memory.
          have before := (kept.resolve_left absent) k inner
          unfold Pager.byteAt at before
          rw [if_neg absent] at before
          rw [before]
          exact zeros k inner
        · exact elsewhere j k here inner
    refine ⟨by rw [result], ⟨disk, by rw [result]⟩, bytes, fun {calls virtAddr byte} allowed place
      loaded => ?_⟩
    have live : p.Live (p.pager.pages.get i).pageDirectoryPhys := by
      have address := lives.address
      exact ⟨(ok.live _).mpr lives.live, by omega⟩
    have ok' : Paging.Ok owner (p.again i flags).2 :=
      ok.register live lives.half flags (some fun _ => 0) 0
    have holds : (p.again i flags).2.pager.Holds (p.pager.pages.get i).pageDirectoryPhys
        (p.pager.pages.get i).virtAddr (p.pager.byteAt i) := by
      refine ⟨i, ?_, fun k small => bytes i inside used k small⟩
      have mine : (p.again i flags).2.pager.pages.get i =
          { p.pager.pages.get i with flags := flags } := by
        rw [result]
        exact FixedArray.get_set_same _ _ inside
      refine ok'.pager.books.find inside ?_ ?_ ?_
      · rw [mine]
        exact used
      · rw [mine]
      · rw [mine]
        exact (alignDownPage_eq lives.aligned).symm
    exact ok'.run_holds (by rw [disks]; exact soundT) holds allowed place loaded

section Example

/-- A page that was stored to and went to the disk, for want of frames. -/
def swappedPage : Paging :=
  runState pagingStep (pagingStart (loadedPager pagedMachine) pagedLive) swapCalls

/-- The pager is in order after the run, and so is its disk. -/
theorem swappedPage_ok : (∃ owner, Paging.Ok owner swappedPage) ∧ swappedPage.pager.disk.Sound := by
  -- The run is permitted, as can be computed.
  have along : allowedAlong pagingStep (fun p call => decide (p.Allows call))
      (pagingStart (loadedPager pagedMachine) pagedLive) swapCalls = true := by
    decide +kernel
  have sound : (loadedPager pagedMachine).disk.Sound := ⟨rfl, fun _ => rfl⟩
  obtain ⟨_, ok, mirrors⟩ := runState_invariant_along pagingStep
    (fun p => ∃ a, (∃ owner, Paging.Ok owner p) ∧ Mirrors p.pager a) Paging.Allows
    (fun p call allowed ⟨a, ⟨_, ok⟩, mirrors⟩ =>
      ⟨(flatStep a call).2, (ok.step_mirrors mirrors call allowed).2⟩)
    (fun before call after split => of_decide_eq_true (allowedAlong_spec pagingStep along split))
    ⟨_, ⟨emptyOwners, pagingStart_ok pagedMachine_starts rfl⟩, pagingStart_mirrors sound⟩
  exact ⟨ok, mirrors.sound⟩

/-- A page in memory keeps its bytes when it is registered again. -/
theorem register_again_small : RegistersAgain swappedPage 1 4 := by
  -- The page is in memory, so the condition holds.
  obtain ⟨⟨owner, ok⟩, sound⟩ := swappedPage_ok
  exact (register_again_iff ok sound (by decide) (by decide +kernel) 4).mpr
    (Or.inl (by decide +kernel))

/-- A page on the disk has lost what was stored in it when it is registered again. -/
theorem register_again_zeroes : ¬ RegistersAgain swappedPage 0 6 := by
  -- The run is permitted, and what it loads at the end is zero.
  intro again
  have along : allowedAlong pagingStep (fun p call => decide (p.Permits call ∧
      p.Spares (swappedPage.pager.pages.get 0).pageDirectoryPhys
        (swappedPage.pager.pages.get 0).virtAddr call))
      (swappedPage.again 0 6).2 [.load (crowdPage 0 + 7)] = true := by
    decide +kernel
  have loaded : (pagerLoad (runState pagingStep (swappedPage.again 0 6).2 []).pager
      (crowdPage 0 + 7)).1 = .ok 0 := by
    rw [runState_nil]
    decide +kernel
  have place : SamePlace (swappedPage.pager.pages.get 0).pageDirectoryPhys
      (swappedPage.pager.pages.get 0).virtAddr
      (runState pagingStep (swappedPage.again 0 6).2 []).pager.currentPageDirectoryPhys
      (crowdPage 0 + 7) := by
    rw [runState_nil]
    decide +kernel
  have byte := @RegistersAgain.loads _ _ _ again [] (crowdPage 0 + 7) 0 (fun before call after split =>
    of_decide_eq_true (allowedAlong_spec pagingStep along split)) place loaded
  exact absurd byte (by decide +kernel)

end Example

end MyOS.Mm
