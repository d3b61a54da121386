import MyOS.Lib.Run
import MyOS.Mm.PagerAccess
import MyOS.Mm.Translation

/-! Runs of programs whose pages come and go, and what is true of the pager all along them. -/

namespace MyOS.Mm

open Pager

/-- The pager with the directories there are. -/
structure Paging where
  pager : Pager
  /-- The pages in which there is a directory. -/
  live : Nat → Bool

/-- What programs and the kernel do. -/
inductive PagerCall where
  | register (pageDirectoryPhys virtAddr flags : UInt32) (data : Option (Nat → UInt8))
      (dataSize : Nat)
  | pin (pageDirectoryPhys virtAddr : UInt32) (pinned : Bool)
  | sampleUsage
  | setAlgorithm (algorithm : PagerAlgorithm)
  | unregister (pageDirectoryPhys virtAddr : UInt32)
  | fault (faultAddr errCode : UInt32)
  | switch (pageDirectoryPhys : UInt32)
  /-- A program reads or writes a byte, in the current space. -/
  | load (virtAddr : UInt32)
  | store (virtAddr : UInt32) (value : UInt8)
  | createSpace
  | destroySpace (pageDirectoryPhys : UInt32)

/-- What a program sees of a call. -/
inductive Reply where
  | nothing
  | loaded (byte : Except Fault UInt8)
  | stored (outcome : Except Fault Unit)

namespace Paging

variable (p : Paging)

/-- There is a directory at an address. -/
def Live (dir : UInt32) : Prop := p.live (pageOf dir) = true ∧ dir.toNat % 4096 = 0

/-- Replace the pager. -/
def withPager (pager : Pager) : Paging := { p with pager }

/-- Make a space, which is there from now on. -/
def createSpace : Paging :=
  match vmmCreateAddressSpace p.pager.toVmm with
  | (none, vmm) => p.withPager { p.pager with toVmm := vmm }
  | (some dir, vmm) => ⟨{ p.pager with toVmm := vmm }, Function.update p.live (pageOf dir) true⟩

/-- Take a space apart. -/
def destroySpace (dir : UInt32) : Paging :=
  ⟨{ p.pager with toVmm := vmmDestroyAddressSpace dir p.pager.toVmm },
    Function.update p.live (pageOf dir) false⟩

end Paging

/-- One call. -/
def pagingStep (p : Paging) : PagerCall → Reply × Paging
  | .register dir virtAddr flags data dataSize =>
    (.nothing, p.withPager (pagerRegisterPageData p.pager dir virtAddr flags data dataSize).2)
  | .pin dir virtAddr pinned =>
    (.nothing, p.withPager (pagerPinPageInDirectory p.pager dir virtAddr pinned).2)
  | .sampleUsage => (.nothing, p.withPager (pagerSampleUsage p.pager))
  | .setAlgorithm algorithm => (.nothing, p.withPager (pagerSetAlgorithm p.pager algorithm))
  | .unregister dir virtAddr => (.nothing, p.withPager (pagerUnregisterPage p.pager dir virtAddr))
  | .fault faultAddr errCode =>
    (.nothing, p.withPager (pagerHandlePageFault p.pager faultAddr errCode).2)
  | .switch dir =>
    (.nothing, p.withPager { p.pager with toVmm := (vmmSwitchPageDirectory dir p.pager.toVmm).2 })
  | .load virtAddr =>
    (.loaded (pagerLoad p.pager virtAddr).1, p.withPager (pagerLoad p.pager virtAddr).2)
  | .store virtAddr value =>
    (.stored (pagerStore p.pager virtAddr value).1, p.withPager (pagerStore p.pager virtAddr value).2)
  | .createSpace => (.nothing, p.createSpace)
  | .destroySpace dir => (.nothing, p.destroySpace dir)

/-- The address for which a call may have to bring in a page. -/
def PagerCall.address : PagerCall → Option UInt32
  | .fault faultAddr _ => some faultAddr
  | .load virtAddr | .store virtAddr _ => some virtAddr
  | _ => none

/-- A page has to be brought in for an address of the current space. -/
def Pager.Needs (s : Pager) (virtAddr : UInt32) (i : Nat) : Prop :=
  s.findPageByVirt s.currentPageDirectoryPhys virtAddr = some i ∧ (s.pages.get i).present = false

/--
What may be asked where things stand.

Pages are those of the user's half of spaces that are there.
-/
def Paging.Admits (p : Paging) : PagerCall → Prop
  | .register dir virtAddr _ _ _ => p.Live dir ∧ virtAddr < vmmKernelBase
  | .switch dir => p.Live dir
  | .load virtAddr | .store virtAddr _ => virtAddr < vmmKernelBase
  | .destroySpace dir => p.Live dir ∧ pageOf dir ≠ p.pager.kernelDirectory ∧
      dir ≠ p.pager.currentPageDirectoryPhys ∧
      ∀ i, i < 128 → (p.pager.pages.get i).used = true → (p.pager.pages.get i).pageDirectoryPhys ≠ dir
  | .fault _ _ | .pin _ _ _ | .sampleUsage | .setAlgorithm _ | .unregister _ _ | .createSpace => True

/-- Should a page have to be brought in, that succeeds. -/
def Paging.Serves (p : Paging) (call : PagerCall) : Prop :=
  ∀ virtAddr ∈ call.address, ∀ i, p.pager.Needs virtAddr i → (p.pager.pageIn i).1 = true

/--
A call of a run that goes on.

A page that cannot be brought in stops the kernel, so that nothing comes after it.
-/
def Paging.Permits (p : Paging) (call : PagerCall) : Prop := p.Admits call ∧ p.Serves call

section Decidable

variable (p : Paging)

/-- Whether a space is there can be computed. -/
instance (dir : UInt32) : Decidable (p.Live dir) :=
  inferInstanceAs (Decidable (_ = true ∧ _ = _))

/-- Whether a call may be made can be computed. -/
instance (call : PagerCall) : Decidable (p.Admits call) :=
  match call with
  | .register dir virtAddr _ _ _ => inferInstanceAs (Decidable (p.Live dir ∧ virtAddr < _))
  | .switch dir => inferInstanceAs (Decidable (p.Live dir))
  | .load virtAddr | .store virtAddr _ => inferInstanceAs (Decidable (virtAddr < _))
  | .destroySpace dir => inferInstanceAs (Decidable (p.Live dir ∧ _ ≠ _ ∧ _ ≠ _ ∧ ∀ i, i < 128 → _ → _))
  | .fault _ _ | .pin _ _ _ | .sampleUsage | .setAlgorithm _ | .unregister _ _ | .createSpace =>
    inferInstanceAs (Decidable True)

/-- Whether a property holds of the page that has to be brought in, if there is one. -/
def Paging.needed (call : PagerCall) (good : Nat → Bool) : Bool :=
  (call.address.bind fun virtAddr =>
    p.pager.findPageByVirt p.pager.currentPageDirectoryPhys virtAddr).all fun i =>
      (p.pager.pages.get i).present || good i

/-- The computed form asks for the pages that an access needs. -/
theorem Paging.needed_iff {call : PagerCall} {good : Nat → Bool} :
    p.needed call good = true ↔
      ∀ virtAddr ∈ call.address, ∀ i, p.pager.Needs virtAddr i → good i = true := by
  -- Only an access to an address needs pages, and at most the one that is registered there.
  unfold Paging.needed Pager.Needs
  cases call.address with
  | none => simp
  | some virtAddr =>
    simp only [Option.mem_def, Option.some.injEq, forall_eq', Option.bind_some]
    generalize p.pager.findPageByVirt p.pager.currentPageDirectoryPhys virtAddr = found
    cases found with
    | none => simp
    | some i =>
      simp only [Option.all_some, Option.some.injEq, and_imp, forall_eq']
      cases (p.pager.pages.get i).present <;> simp

/-- Whether a call is served can be computed. -/
instance (call : PagerCall) : Decidable (p.Serves call) :=
  decidable_of_iff _ (@Paging.needed_iff p call fun i => (p.pager.pageIn i).1)

/-- Whether a call is permitted can be computed. -/
instance (call : PagerCall) : Decidable (p.Permits call) :=
  inferInstanceAs (Decidable (_ ∧ _))

end Decidable

/-- What is always true while pages come and go. -/
structure Paging.Ok (owner : Owners Holder) (p : Paging) : Prop where
  pager : Pager.Ok owner none p.pager
  covers : p.pager.Covers owner
  live : ∀ d, p.live d = true ↔ owner d = some .directory
  current : p.Live p.pager.currentPageDirectoryPhys

namespace Paging.Ok

variable {owner owner' : Owners Holder} {p : Paging} {t : Pager} {dir virtAddr : UInt32} {i : Nat}

/-- A directory that is there. -/
theorem directory (ok : Ok owner p) (live : p.Live dir) :
    owner (pageOf dir) = some .directory ∧ dir.toNat = pageOf dir * 4096 := by
  -- The address of a space is that of a whole page.
  refine ⟨(ok.live _).mp live.1, ?_⟩
  have := live.2
  unfold pageOf
  omega

/-- The pager moves on, and the spaces stay. -/
theorem withPager (ok : Ok owner p) (pager : Pager.Ok owner' none t) (covers : t.Covers owner')
    (directories : ∀ d, owner' d = some .directory ↔ owner d = some .directory)
    (current : t.currentPageDirectoryPhys = p.pager.currentPageDirectoryPhys) :
    Ok owner' (p.withPager t) := by
  -- Which spaces are there is what the owners say, and they say the same.
  refine ⟨pager, covers, fun d => (ok.live d).trans (directories d).symm, ?_⟩
  change p.Live t.currentPageDirectoryPhys
  rw [current]
  exact ok.current

/-- Steps that leave every page at its place. -/
theorem kept (ok : Ok owner p) (kept : Pager.Kept owner p.pager t) : Ok owner (p.withPager t) :=
  ok.withPager (ok.pager.kept kept) (ok.covers.kept kept) (fun _ => Iff.rfl) kept.vmm.current

/-- A page that is registered is brought in, if need be. -/
theorem resolved (ok : Ok owner p) (inside : i < 128) (used : (p.pager.pages.get i).used = true)
    (resolved : Resolved owner p.pager i owner' t) : Ok owner' (p.withPager t) := by
  -- What bringing a page in changes is what the laws of the pager say.
  have steady := resolved.steady ok.pager
  exact ok.withPager (resolved.ok ok.pager) (resolved.covers ok.pager ok.covers inside used)
    steady.directories steady.current

/-- A page fault that is resolved. -/
theorem fault (ok : Ok owner p) (faultAddr errCode : UInt32)
    (served : ∀ i, p.pager.Needs faultAddr i → (p.pager.pageIn i).1 = true) :
    ∃ owner', Ok owner' (p.withPager (pagerHandlePageFault p.pager faultAddr errCode).2) := by
  -- A fault does nothing, or brings in the page that is missing.
  rcases pagerHandlePageFault_cases faultAddr errCode with same | ⟨i, found, absent, result⟩
  · rw [same]
    exact ⟨owner, ok⟩
  · obtain ⟨inside, used, -⟩ := findPageByVirt_some found
    obtain ⟨owner', u, sampled, same, pagedIn⟩ :=
      pageIn_spec ok.pager inside used absent (served i ⟨found, absent⟩)
    rw [result]
    exact ⟨owner', ok.resolved inside used (.brought owner' u _ absent sampled same pagedIn)⟩

/-- An entry found under an address of the current space, once its page is in memory. -/
theorem maps (ok : Ok owner p)
    (found : p.pager.findPageByVirt p.pager.currentPageDirectoryPhys virtAddr = some i)
    (resolved : Resolved owner p.pager i owner' t) :
    i < 128 ∧ (p.pager.pages.get i).used = true ∧
      (t.pages.get i).Maps (pageOf p.pager.currentPageDirectoryPhys) (virtAddr.toNat / 4096) := by
  -- The entry is in use and stays about the same page while its page is brought in.
  obtain ⟨-, at_⟩ := ok.directory ok.current
  obtain ⟨inside, used, directory, page⟩ := entry_of_found found at_
  obtain ⟨sameUsed, sameDirectory, sameVirt, -⟩ := (resolved.steady ok.pager).entries i inside
  refine ⟨inside, used, sameUsed.trans used, resolved.present inside, ?_, ?_⟩
  · unfold PagerPage.directory
    rw [sameDirectory]
    exact directory
  · unfold PagerPage.page
    rw [sameVirt]
    exact page

/-- A program reads a byte. -/
theorem load (ok : Ok owner p) (half : virtAddr < vmmKernelBase)
    (served : ∀ i, p.pager.Needs virtAddr i → (p.pager.pageIn i).1 = true) :
    ∃ owner', Ok owner' (p.withPager (pagerLoad p.pager virtAddr).2) := by
  -- The read finds no page, or one that is in memory once faults are resolved.
  obtain ⟨live, at_⟩ := ok.directory ok.current
  obtain ⟨owner', attempted⟩ := attempt_cases ok.pager ok.covers live at_ half (show 4 &&& 1 = 0 from rfl)
    (userRead_faults ok.pager.spaces live at_ half) fun i found absent => served i ⟨found, absent⟩
  unfold pagerLoad
  generalize p.pager.attempt virtAddr 4 _ = result at attempted
  cases attempted with
  | missing none_ => exact ⟨owner, ok⟩
  | found i owner' t some_ resolved =>
    obtain ⟨inside, used, maps⟩ := ok.maps some_ resolved
    have ok' := ok.resolved inside used resolved
    refine ⟨owner', ?_⟩
    unfold through
    rcases userRead_page (resolved.ok ok.pager) inside at_ half maps with
      ⟨-, denied⟩ | ⟨-, vmm, touched, done⟩
    · rw [denied]
      exact ok'
    · rw [done]
      exact ok'.kept (.ofTouched touched)

/-- A program writes a byte. -/
theorem store (ok : Ok owner p) (half : virtAddr < vmmKernelBase)
    (served : ∀ i, p.pager.Needs virtAddr i → (p.pager.pageIn i).1 = true)
    (value : UInt8) : ∃ owner', Ok owner' (p.withPager (pagerStore p.pager virtAddr value).2) := by
  -- The write finds no page, or one that is in memory once faults are resolved.
  obtain ⟨live, at_⟩ := ok.directory ok.current
  obtain ⟨owner', attempted⟩ := attempt_cases ok.pager ok.covers live at_ half (show 6 &&& 1 = 0 from rfl)
    (userWrite_faults ok.pager.spaces live at_ half value)
    fun i found absent => served i ⟨found, absent⟩
  unfold pagerStore
  generalize p.pager.attempt virtAddr 6 _ = result at attempted
  cases attempted with
  | missing none_ => exact ⟨owner, ok⟩
  | found i owner' t some_ resolved =>
    obtain ⟨inside, used, maps⟩ := ok.maps some_ resolved
    have ok' := ok.resolved inside used resolved
    refine ⟨owner', ?_⟩
    unfold through
    rcases userWrite_page (resolved.ok ok.pager) inside at_ half maps value with
      ⟨-, denied⟩ | ⟨-, vmm, touched, done⟩
    · rw [denied]
      exact ok'
    · rw [done]
      have touched' := ok'.kept (.ofTouched touched)
      obtain ⟨pager, same⟩ := touched'.pager.poke inside maps.used maps.present
        (Nat.mod_lt virtAddr.toNat (by decide : 0 < 4096)) value
      refine touched'.withPager pager (touched'.covers.elsewhere fun d v live half mapped => ?_)
        (fun _ => Iff.rfl) rfl
      have cell := @same.cells d v live (by omega)
      exact ⟨live, (congrArg (flagOf · 0) cell).symm.trans mapped⟩

/-- A page is registered, or not. -/
theorem register (ok : Ok owner p) (live : p.Live dir) (half : virtAddr < vmmKernelBase)
    (flags : UInt32) (data : Option (Nat → UInt8)) (dataSize : Nat) :
    Ok owner (p.withPager (pagerRegisterPageData p.pager dir virtAddr flags data dataSize).2) := by
  -- Whatever became of the request, the pager is in order and in the same space.
  have registers := pagerRegisterPageData_cases p.pager dir virtAddr flags data dataSize
  obtain ⟨owned, at_⟩ := ok.directory live
  refine ok.withPager (registers.ok ok.pager owned at_ half) (ok.covers.register registers)
    (fun _ => Iff.rfl) ?_
  generalize pagerRegisterPageData p.pager dir virtAddr flags data dataSize = result at registers
  obtain ⟨done, t⟩ := result
  cases registers <;> rfl

/-- A page is given up, if it was registered. -/
theorem unregister (ok : Ok owner p) (dir virtAddr : UInt32) :
    ∃ owner', Ok owner' (p.withPager (pagerUnregisterPage p.pager dir virtAddr)) := by
  rcases pagerUnregisterPage_cases ok.pager dir virtAddr with ⟨same, -⟩ | ⟨i, owner', found, gone⟩
  · rw [same]
    exact ⟨owner, ok⟩
  · obtain ⟨inside, used, -⟩ := findPageByVirt_some found
    refine ⟨owner', ok.withPager gone.ok (gone.covers ok.covers) (fun d => ?_) ?_⟩
    · rcases gone.memory with ⟨-, rfl, -⟩ | ⟨present, rfl, -⟩
      · exact Iff.rfl
      · -- The frame held a page, and no directory.
        have owned := (ok.pager.frames inside used present).owned
        by_cases here : d = (p.pager.pages.get i).frame
        · rw [here, Function.update_self, owned]
          exact ⟨nofun, nofun⟩
        · rw [Function.update_of_ne here]
    · rcases gone.memory with ⟨-, -, same⟩ | ⟨-, -, dropped⟩
      · rw [same]
      · exact dropped.current

/-- Switching to a space that is there changes the current space, and nothing else. -/
theorem switched (ok : Ok owner p) (live : p.Live dir) :
    (vmmSwitchPageDirectory dir p.pager.toVmm).2 =
      { p.pager.toVmm with currentPageDirectoryPhys := dir } := by
  -- A space that is there has a page for its directory, which is not zero.
  obtain ⟨owned, at_⟩ := ok.directory live
  exact ok.pager.spaces.switched owned at_

/-- Another space becomes the current one. -/
theorem switch (ok : Ok owner p) (live : p.Live dir) :
    Ok owner (p.withPager { p.pager with toVmm := (vmmSwitchPageDirectory dir p.pager.toVmm).2 }) := by
  -- The switch changes no entry of any table.
  rw [ok.switched live]
  have after := ok.pager.spaces.withCurrent dir
  refine ⟨ok.pager.elsewhere after (fun j small used => (ok.pager.lives small used).live)
    (fun _ _ => Iff.rfl) (fun _ _ _ _ => .refl _), ok.covers.elsewhere ?_, ok.live, live⟩
  exact fun d v live' half mapped => ⟨live', mapped⟩

/-- A space is made, if there is memory for it. -/
theorem createSpace (ok : Ok owner p) : ∃ owner', Ok owner' p.createSpace := by
  -- A new space is one directory more, whose user's half is empty.
  unfold Paging.createSpace
  rcases vmmCreateAddressSpace_cases ok.pager.spaces with ⟨result, -⟩ | ⟨f, t, result, made⟩
  · rw [result]
    exact ⟨owner, ok⟩
  · rw [result]
    have small := ok.pager.spaces.small made.inPool
    have page : pageOf (UInt32.ofNat (f * 4096)) = f := by
      have := toNat_ofNat_page small
      unfold pageOf
      omega
    refine ⟨Function.update owner f (some .directory), ok.pager.made made,
      ok.covers.elsewhere fun d v live half mapped => ?_, fun d => ?_, ?_⟩
    · by_cases here : d = f
      · rw [here, made.lower half] at mapped
        cases mapped
      · rw [Function.update_of_ne here] at live
        rw [made.cells live (by omega)] at mapped
        exact ⟨live, mapped⟩
    · simp only [page]
      by_cases here : d = f
      · rw [here, Function.update_self, Function.update_self]
        exact ⟨fun _ => rfl, fun _ => rfl⟩
      · rw [Function.update_of_ne here, Function.update_of_ne here]
        exact ok.live d
    · obtain ⟨there, aligned⟩ := ok.current
      change Function.update p.live _ true (pageOf t.currentPageDirectoryPhys) = true ∧
        t.currentPageDirectoryPhys.toNat % 4096 = 0
      rw [made.current]
      refine ⟨?_, aligned⟩
      by_cases here : pageOf p.pager.currentPageDirectoryPhys = pageOf (UInt32.ofNat (f * 4096))
      · rw [here, Function.update_self]
      · rw [Function.update_of_ne here]
        exact there

/-- A space none of whose pages is registered is taken apart. -/
theorem destroySpace (ok : Ok owner p) (live : p.Live dir)
    (notKernel : pageOf dir ≠ p.pager.kernelDirectory)
    (notCurrent : dir ≠ p.pager.currentPageDirectoryPhys)
    (unused : ∀ i, i < 128 → (p.pager.pages.get i).used = true →
      (p.pager.pages.get i).pageDirectoryPhys ≠ dir) :
    Ok (withoutSpace owner (pageOf dir)) (p.destroySpace dir) := by
  -- No page of the pager lies in the space that goes.
  obtain ⟨owned, at_⟩ := ok.directory live
  have gone := vmmDestroyAddressSpace_gone ok.pager.spaces owned at_ notKernel
  have directories : ∀ g, withoutSpace owner (pageOf dir) g = some .directory ↔
      g ≠ pageOf dir ∧ owner g = some .directory := fun g => withoutSpace_roles _ _ nofun
  have elsewhere : ∀ i, i < 128 → (p.pager.pages.get i).used = true →
      (p.pager.pages.get i).directory ≠ pageOf dir := by
    intro i inside used same
    refine unused i inside used (UInt32.toNat_inj.mp ?_)
    rw [(ok.pager.lives inside used).address, same, at_]
  refine ⟨ok.pager.gone owned elsewhere gone, ok.covers.elsewhere fun d v live' half mapped => ?_,
    fun d => ?_, ?_⟩
  · obtain ⟨apart, before⟩ := (directories d).mp live'
    rw [gone.cells before apart (by omega)] at mapped
    exact ⟨before, mapped⟩
  · rw [directories d]
    change Function.update p.live (pageOf dir) false d = true ↔ _
    by_cases here : d = pageOf dir
    · simp [here]
    · rw [Function.update_of_ne here, ok.live d]
      simp [here]
  · obtain ⟨there, aligned⟩ := ok.current
    change Function.update p.live (pageOf dir) false
      (pageOf (vmmDestroyAddressSpace dir p.pager.toVmm).currentPageDirectoryPhys) = true ∧
        (vmmDestroyAddressSpace dir p.pager.toVmm).currentPageDirectoryPhys.toNat % 4096 = 0
    rw [gone.current]
    refine ⟨?_, aligned⟩
    rw [Function.update_of_ne]
    · exact there
    · intro same
      refine notCurrent (UInt32.toNat_inj.mp ?_)
      rw [at_, ← same]
      unfold pageOf
      omega

/-- Every call that is permitted keeps what is always true. -/
theorem step (ok : Ok owner p) (call : PagerCall) (permitted : p.Permits call) :
    ∃ owner', Ok owner' (pagingStep p call).2 := by
  -- One case for each call, each by the law of its function.
  cases call with
  | register dir virtAddr flags data dataSize =>
    exact ⟨owner, ok.register permitted.1.1 permitted.1.2 flags data dataSize⟩
  | pin dir virtAddr pinned =>
    exact ⟨owner, ok.kept (pagerPinPageInDirectory_kept ok.pager.spaces dir virtAddr pinned)⟩
  | sampleUsage => exact ⟨owner, ok.kept (pagerSampleUsage_sampled ok.pager).kept⟩
  | setAlgorithm algorithm =>
    exact ⟨owner, ok.kept ⟨.refl ok.pager.spaces, fun _ _ => .refl _, rfl, rfl, rfl, rfl, id⟩⟩
  | unregister dir virtAddr => exact ok.unregister dir virtAddr
  | fault faultAddr errCode => exact ok.fault faultAddr errCode (permitted.2 _ rfl)
  | switch dir => exact ⟨owner, ok.switch permitted.1⟩
  | load virtAddr => exact ok.load permitted.1 (permitted.2 _ rfl)
  | store virtAddr value => exact ok.store permitted.1 (permitted.2 _ rfl) value
  | createSpace => exact ok.createSpace
  | destroySpace dir =>
    obtain ⟨live, notKernel, notCurrent, unused⟩ := permitted.1
    exact ⟨_, ok.destroySpace live notKernel notCurrent unused⟩

end Paging.Ok

section Represented

/-- What the tables of the pager say about each other, about the frames and about the spaces. -/
structure Pager.Represented (s : Pager) : Prop where
  /-- The frames in use list the pages in memory, each of them once. -/
  nodup : ((List.range s.residentFrames).map s.framePages.get).Nodup
  listed : ∀ i, i ∈ (List.range s.residentFrames).map s.framePages.get ↔
    i < 128 ∧ (s.pages.get i).used = true ∧ (s.pages.get i).present = true
  resident : s.residentFrames ≤ 16
  registered : s.registeredPages = usedCount s.pages
  unique : ∀ i j, i < 128 → j < 128 → (s.pages.get i).used = true → (s.pages.get j).used = true →
    (s.pages.get i).pageDirectoryPhys = (s.pages.get j).pageDirectoryPhys →
    (s.pages.get i).virtAddr = (s.pages.get j).virtAddr → i = j
  /-- A page is in memory or on the disk, and not both. -/
  somewhere : ∀ i, i < 128 → (s.pages.get i).used = true →
    (s.pages.get i).swapped = !(s.pages.get i).present
  swapSlot : ∀ i, i < 128 → (s.pages.get i).used = true → (s.pages.get i).swapSlot.toNat = i
  apart : ∀ i j, i < 128 → j < 128 → (s.pages.get i).used = true → (s.pages.get j).used = true →
    (s.pages.get i).present = true → (s.pages.get j).present = true →
    (s.pages.get i).physAddr = (s.pages.get j).physAddr → i = j
  allocated : ∀ i, i < 128 → (s.pages.get i).used = true → (s.pages.get i).present = true →
    s.bitmapTest (pageOf (s.pages.get i).physAddr) = true
  mapped : ∀ i, i < 128 → (s.pages.get i).used = true → (s.pages.get i).present = true →
    vmmGetMappingInDirectory (s.pages.get i).pageDirectoryPhys (s.pages.get i).virtAddr s.toVmm =
      some (s.pages.get i).physAddr
  hand : s.clockHand < 16

/-- What is always true says all of that. -/
theorem Pager.Ok.represented {owner : Owners Holder} {s : Pager} (ok : Ok owner none s) :
    s.Represented := by
  -- The conditions are read off from the books and from what is known of each entry.
  have books := ok.books
  refine ⟨?_, fun i => ?_, books.resident, books.counted, fun _ _ => books.unique,
    fun _ => books.swapped, fun i inside _ => ?_, ?_, ?_, ?_, books.hand⟩
  · refine List.Nodup.map_on (fun k member l member' same => ?_) List.nodup_range
    exact books.distinct (List.mem_range.mp member) (List.mem_range.mp member') nofun nofun same
  · simp only [List.mem_map, List.mem_range]
    constructor
    · rintro ⟨k, inside, rfl⟩
      exact books.listed inside nofun
    · rintro ⟨inside, used, present⟩
      obtain ⟨k, below, -, here⟩ := books.complete inside used present
      exact ⟨k, below, here⟩
  · rw [books.slots inside, UInt32.toNat_ofNat']
    omega
  · intro i j inside inside' used used' present present' same
    have first := (ok.frames inside used present).owned
    have second := (ok.frames inside' used' present').owned
    unfold PagerPage.frame at first second
    rw [same, second] at first
    simpa using first.symm
  · intro i inside used present
    have resident := ok.frames inside used present
    have inPool := ok.spaces.pool resident.owned nofun
    change s.bitmapTest (s.pages.get i).frame = true
    rw [ok.spaces.used _ inPool.below, resident.owned]
    rfl
  · intro i inside used present
    have lives := ok.lives inside used
    have resident := ok.frames inside used present
    have positive := ok.spaces.positive (ok.spaces.directory_inPool lives.live)
    have cell := resident.mapped
    have target := resident.target
    unfold PagerPage.page at cell target
    rw [vmmGetMappingInDirectory_eq lives.address positive, if_pos cell, toNat_frame_or_offset, target,
      lives.aligned, Nat.add_zero, ← resident.address, UInt32.ofNat_toNat]

end Represented

section Idle

/-- The static variables of a pager that has not started. -/
structure Pager.Idle (s : Pager) : Prop where
  ready : s.pagerReady = false
  unused : ∀ i, i < 128 → (s.pages.get i).used = false
  registered : s.registeredPages = 0
  resident : s.residentFrames = 0
  hand : s.clockHand = 0

variable {s : Pager} {p : Paging}

/-- Nothing is registered with a pager that has not started. -/
theorem Pager.Idle.represented (idle : s.Idle) : s.Represented := by
  -- No entry is in use, and no frame is filled.
  have none_ : ∀ {i}, i < 128 → ¬ (s.pages.get i).used = true := by
    intro i inside used
    exact nomatch (idle.unused i inside).symm.trans used
  have hand := idle.hand
  have resident := idle.resident
  refine ⟨?_, fun i => ?_, by omega, ?_, fun i j inside _ used => absurd used (none_ inside),
    fun i inside used => absurd used (none_ inside), fun i inside used => absurd used (none_ inside),
    fun i j inside _ used => absurd used (none_ inside),
    fun i inside used => absurd used (none_ inside), fun i inside used => absurd used (none_ inside),
    by omega⟩
  · rw [resident]
    exact List.nodup_nil
  · rw [resident]
    exact ⟨nofun, fun ⟨inside, used, _⟩ => absurd used (none_ inside)⟩
  · rw [idle.registered]
    refine (List.countP_eq_zero.mpr fun i member => ?_).symm
    exact none_ (List.mem_range.mp member)

/-- Memory may change under a pager that has not started. -/
theorem Pager.Idle.elsewhere (idle : s.Idle) (vmm : Vmm) : Idle { s with toVmm := vmm } :=
  ⟨idle.ready, idle.unused, idle.registered, idle.resident, idle.hand⟩

/-- An access under a pager that has not started changes memory at most. -/
theorem Pager.Idle.attempt {α : Type} (idle : s.Idle) (virtAddr errCode : UInt32)
    (access : Vmm → Except Fault α × Vmm) : (s.attempt virtAddr errCode access).2.Idle := by
  -- The pager refuses every fault, so the access is tried once.
  have refused : pagerHandlePageFault s virtAddr errCode = (false, s) := by
    unfold pagerHandlePageFault
    rw [if_pos (by simp [idle.ready])]
  unfold Pager.attempt
  rw [refused]
  split
  · exact idle
  · exact idle.elsewhere _

/-- No call starts a pager that has not started. -/
theorem pagingStep_idle (idle : p.pager.Idle) (call : PagerCall) :
    (pagingStep p call).2.pager.Idle := by
  -- One case for each call: all that begin with a check for the pager end there.
  have ready := idle.ready
  cases call with
  | register dir virtAddr flags data dataSize =>
    change (pagerRegisterPageData p.pager dir virtAddr flags data dataSize).2.Idle
    unfold pagerRegisterPageData
    rw [if_pos (by simp [ready])]
    exact idle
  | pin dir virtAddr pinned =>
    change (pagerPinPageInDirectory p.pager dir virtAddr pinned).2.Idle
    unfold pagerPinPageInDirectory
    rw [if_pos (by simp [ready])]
    exact idle
  | sampleUsage =>
    change (pagerSampleUsage p.pager).Idle
    unfold pagerSampleUsage
    rw [if_pos (by simp [ready])]
    exact idle
  | setAlgorithm algorithm =>
    exact ⟨idle.ready, idle.unused, idle.registered, idle.resident, idle.hand⟩
  | unregister dir virtAddr =>
    change (pagerUnregisterPage p.pager dir virtAddr).Idle
    unfold pagerUnregisterPage
    rw [if_pos (by simp [ready])]
    exact idle
  | fault faultAddr errCode =>
    change (pagerHandlePageFault p.pager faultAddr errCode).2.Idle
    unfold pagerHandlePageFault
    rw [if_pos (by simp [ready])]
    exact idle
  | switch dir => exact idle.elsewhere _
  | load virtAddr => exact idle.attempt virtAddr 4 _
  | store virtAddr value => exact idle.attempt virtAddr 6 _
  | createSpace =>
    change p.createSpace.pager.Idle
    unfold Paging.createSpace
    split <;> exact idle.elsewhere _
  | destroySpace dir => exact idle.elsewhere _

end Idle

section Runs

/-- What is true when `pager_init` is called: memory is set up, and no program has a page. -/
structure Paging.Starts (owner : Owners Holder) (s : Pager) (live : Nat → Bool) : Prop where
  idle : s.Idle
  spaces : Spaces owner s.toVmm
  unheld : ∀ f i, owner f ≠ some (.held (.page i))
  empty : ∀ d v, owner d = some .directory → v < 786432 → flagOf (s.cell d v) 0 = false
  current : live (pageOf s.currentPageDirectoryPhys) = true ∧
    s.currentPageDirectoryPhys.toNat % 4096 = 0
  live : ∀ d, live d = true ↔ owner d = some .directory

/-- The pager after `pager_init`. -/
def pagingStart (s : Pager) (live : Nat → Bool) : Paging := ⟨(pagerInit s).2, live⟩

variable {owner : Owners Holder} {s : Pager} {live : Nat → Bool}

/-- A pager that has a disk starts out in order. -/
theorem pagerInit_ok (spaces : Spaces owner s.toVmm) (unheld : ∀ f i, owner f ≠ some (.held (.page i)))
    (ready : s.disk.ready = true) : Pager.Ok owner none (pagerInit s).2 := by
  -- All entries are fresh and no frame is filled.
  have entries : ∀ {i}, i < 128 → (pagerInit s).2.pages.get i = freshPage i := by
    intro i inside
    unfold pagerInit
    rw [if_neg (by simp [ready])]
    exact FixedArray.get_ofFn _ inside
  have unused : ∀ {i}, i < 128 → ¬ ((pagerInit s).2.pages.get i).used = true := by
    intro i inside used
    rw [entries inside] at used
    cases used
  have counted : (pagerInit s).2.registeredPages = usedCount (pagerInit s).2.pages := by
    rw [usedCount, List.countP_eq_zero.mpr fun i member => unused (List.mem_range.mp member)]
    unfold pagerInit
    rw [if_neg (by simp [ready])]
  obtain ⟨vmm, resident, hand, started⟩ : (pagerInit s).2.toVmm = s.toVmm ∧
      (pagerInit s).2.residentFrames = 0 ∧ (pagerInit s).2.clockHand = 0 ∧
      (pagerInit s).2.pagerReady = true := by
    unfold pagerInit
    rw [if_neg (by simp [ready])]
    exact ⟨rfl, rfl, rfl, rfl⟩
  refine ⟨⟨by omega, by omega, nofun, ?_, ?_, ?_, counted, ?_, ?_, ?_⟩, started, ?_, ?_, ?_, ?_⟩
  · intro k inside
    omega
  · intro k l inside
    omega
  · exact fun inside used => absurd used (unused inside)
  · exact fun inside _ used => absurd used (unused inside)
  · exact fun inside used => absurd used (unused inside)
  · intro i inside
    rw [entries inside]
    rfl
  · rw [vmm]
    exact spaces
  · exact fun inside used => absurd used (unused inside)
  · exact fun inside used => absurd used (unused inside)
  · exact fun owned => absurd owned (unheld _ _)

/-- Starting the pager leaves memory alone. -/
theorem pagerInit_vmm (s : Pager) : (pagerInit s).2.toVmm = s.toVmm := by
  unfold pagerInit
  split <;> rfl

/-- A pager that has a disk starts out with what is always true. -/
theorem pagingStart_ok (starts : Paging.Starts owner s live) (ready : s.disk.ready = true) :
    Paging.Ok owner (pagingStart s live) := by
  -- The pager is in order, and no page of the user's half is mapped yet.
  have vmm : (pagingStart s live).pager.toVmm = s.toVmm := pagerInit_vmm s
  refine ⟨pagerInit_ok starts.spaces starts.unheld ready, ?_, starts.live, ?_⟩
  · intro d v live half mapped
    rw [vmm, starts.empty d v live half] at mapped
    cases mapped
  · unfold Paging.Live
    rw [vmm]
    exact starts.current

/-- Without a disk the pager does not start. -/
theorem pagingStart_idle (idle : s.Idle) (missing : s.disk.ready = false) (live : Nat → Bool) :
    (pagingStart s live).pager.Idle := by
  -- Without a disk the pager returns before it is ready.
  unfold pagingStart pagerInit
  rw [if_pos (by simp [missing])]
  exact ⟨rfl, idle.unused, idle.registered, idle.resident, idle.hand⟩

/-- What is always true holds all along a run of permitted calls. -/
theorem pagingRun_ok (starts : Paging.Starts owner s live) (ready : s.disk.ready = true)
    (calls : List PagerCall)
    (permitted : ∀ before call after, calls = before ++ call :: after →
      (runState pagingStep (pagingStart s live) before).Permits call) :
    ∃ owner', Paging.Ok owner' (runState pagingStep (pagingStart s live) calls) :=
  -- By induction on the calls, with the step lemma for each of them.
  runState_invariant_along pagingStep (fun p => ∃ owner, Paging.Ok owner p) Paging.Permits
    (fun _ call allowed ⟨_, ok⟩ => ok.step call allowed) permitted
    ⟨owner, pagingStart_ok starts ready⟩

/-- After every run of permitted calls the tables of the pager agree with memory. -/
theorem pagingRun_represented (starts : Paging.Starts owner s live) (calls : List PagerCall)
    (permitted : ∀ before call after, calls = before ++ call :: after →
      (runState pagingStep (pagingStart s live) before).Permits call) :
    (runState pagingStep (pagingStart s live) calls).pager.Represented := by
  -- With a disk the pager is in order all along, and without one it never starts.
  cases ready : s.disk.ready with
  | true =>
    obtain ⟨owner', ok⟩ := pagingRun_ok starts ready calls permitted
    exact ok.pager.represented
  | false =>
    have idle : (runState pagingStep (pagingStart s live) calls).pager.Idle :=
      runState_invariant pagingStep (fun p => p.pager.Idle)
        (fun p call (_ : True) idle => pagingStep_idle idle call) (fun _ _ => trivial)
        (pagingStart_idle starts.idle ready live)
    exact idle.represented

section Example

/-- A disk of zeros on which no transfer fails. -/
def blankDisk : Ata := ⟨true, fun _ => FixedArray.fill 0, fun _ => false, 0, []⟩

/-- The pager as it is loaded on a machine with a blank disk. -/
def loadedPager (vmm : Vmm) : Pager :=
  { vmm with
    disk := blankDisk
    pages := FixedArray.fill (freshPage 0)
    framePages := FixedArray.fill 0
    registeredPages := 0
    residentFrames := 0
    clockHand := 0
    pageFaults := 0
    evictions := 0
    swapIns := 0
    swapOuts := 0
    lastFaultAddr := 0
    usageTick := 0
    victimTrace := []
    currentAlgorithm := .clock
    pagerReady := false }

/-- The pager as it starts on a machine with a blank disk. -/
def pagerOn (vmm : Vmm) : Pager := (pagerInit (loadedPager vmm)).2

/-- Its pager has not started. -/
theorem loadedPager_idle (vmm : Vmm) : (loadedPager vmm).Idle :=
  ⟨rfl, fun _ inside => congrArg PagerPage.used (FixedArray.get_fill _ inside), rfl, rfl, rfl⟩

/-- Sixty-four pages, as many as the frames of the pager and the tables for them need. -/
def pagedMachine : Vmm :=
  { smallMachine with
    totalPages := 64
    totalMemoryBytes := 262144
    bitmapBytes := 8
    freePages := 61 }

/-- The directory of the kernel is the only one there is at first. -/
def pagedLive (d : Nat) : Bool := d == 2

/-- Its memory is zero from the kernel's directory on. -/
theorem pagedMachine_zeros (k : Nat) (behind : 8192 ≤ k) : pagedMachine.memory k = 0 :=
  if_neg (by omega)

/-- The spaces of the machine are in order. -/
theorem pagedMachine_spaces {ρ : Type} : Spaces (@emptyOwners ρ) pagedMachine :=
  .ofEmpty rfl (by decide) (by decide) (by decide) (by decide) rfl rfl (by decide) (by decide) (by decide)
    pagedMachine_zeros

/-- The pager can start on it. -/
theorem pagedMachine_starts : Paging.Starts emptyOwners (loadedPager pagedMachine) pagedLive := by
  -- No page is held, the user's half is empty, and the kernel's directory is the only space.
  refine ⟨loadedPager_idle _, pagedMachine_spaces, ?_, ?_, ⟨rfl, rfl⟩, ?_⟩
  · intro f i held
    unfold emptyOwners at held
    split at held
    · cases held
    · split at held <;> cases held
  · intro d v live half
    rw [emptyOwners_directory live]
    change flagOf (pagedMachine.cell 2 v) 0 = false
    rw [cell_eq_zero (by rw [pde_empty pagedMachine_zeros]; rfl)]
    rfl
  · intro d
    unfold pagedLive
    rw [beq_iff_eq]
    refine ⟨?_, emptyOwners_directory⟩
    rintro rfl
    rfl

/-- The address of a page of a program. -/
def crowdPage (k : Nat) : UInt32 := 0x00800000 + 4096 * UInt32.ofNat k

/-- A page of bytes is registered and read. -/
def pagedCalls : List PagerCall :=
  [.register 8192 0x00800000 6 (some fun k => k.toUInt8) 4096, .load 0x00800007]

/-- The page is in memory then, and the directory leads to it. -/
theorem pagingRun_represented_small :
    vmmGetMappingInDirectory 8192 0x00800000
      (runState pagingStep (pagingStart (loadedPager pagedMachine) pagedLive) pagedCalls).pager.toVmm =
        some 0x3000 := by
  -- The run is permitted, and the entry of the page is computed.
  have so := pagingRun_represented pagedMachine_starts pagedCalls ?_
  · have entry : (runState pagingStep (pagingStart (loadedPager pagedMachine) pagedLive)
        pagedCalls).pager.pages.get 0 =
          ⟨true, true, false, 8192, 0x00800000, 0x3000, 6, 0, 1, false⟩ := by
      decide +kernel
    have mapped := so.mapped 0 (by decide) (by rw [entry]) (by rw [entry])
    rw [entry] at mapped
    exact mapped
  · intro before call after split
    have along : allowedAlong pagingStep (fun p call => decide (p.Permits call))
        (pagingStart (loadedPager pagedMachine) pagedLive) pagedCalls = true := by
      decide +kernel
    exact of_decide_eq_true (allowedAlong_spec pagingStep along split)

end Example

end Runs

end MyOS.Mm
