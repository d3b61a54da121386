import MyOS.Mm.PagerRuns

/-! How long the pages that are pinned stay in memory. -/

namespace MyOS.Mm

open Pager

/-- A page is in memory and may not be chosen as a victim. -/
structure PagerPage.Pinned (p : PagerPage) : Prop where
  used : p.used = true
  present : p.present = true
  pinned : p.pinned = true

/-- A page that was pinned still is, in the frame it was in. -/
structure PagerPage.Stays (p q : PagerPage) : Prop where
  pinned : q.Pinned
  directory : q.pageDirectoryPhys = p.pageDirectoryPhys
  virt : q.virtAddr = p.virtAddr
  phys : q.physAddr = p.physAddr

/-- A pinned page is where it is. -/
theorem PagerPage.Stays.refl {p : PagerPage} (pinned : p.Pinned) : p.Stays p :=
  ⟨pinned, rfl, rfl, rfl⟩

/-- A page that stays twice stays. -/
theorem PagerPage.Stays.trans {p q r : PagerPage} (first : p.Stays q) (second : q.Stays r) :
    p.Stays r :=
  -- It is still pinned after the first step, at the same place.
  ⟨second.pinned, second.directory.trans first.directory, second.virt.trans first.virt,
    second.phys.trans first.phys⟩

/-- A call lifts the pin of a page, or gives the page up. -/
def PagerCall.Releases (p : PagerPage) : PagerCall → Prop
  | .pin dir virtAddr pinned =>
    pinned = false ∧ p.pageDirectoryPhys = dir ∧ p.virtAddr = alignDownPage virtAddr
  | .unregister dir virtAddr => p.pageDirectoryPhys = dir ∧ p.virtAddr = alignDownPage virtAddr
  | _ => False

/-- Every frame is in use, by a page that is pinned. -/
def Pager.Crowded (s : Pager) : Prop :=
  s.residentFrames = 16 ∧ ∀ k, k < 16 → s.pinnedAt k = true

/-- Should a page have to be brought in, there is a frame for it whose page is not pinned. -/
def Paging.Eases (p : Paging) (call : PagerCall) : Prop :=
  ∀ virtAddr ∈ call.address, ∀ i, p.pager.Needs virtAddr i → ¬ p.pager.Crowded

/-- Whether all frames hold pinned pages can be computed. -/
instance (s : Pager) : Decidable s.Crowded := inferInstanceAs (Decidable (_ ∧ ∀ k, k < 16 → _))

/-- Whether a call leaves a choice of frames can be computed. -/
instance (p : Paging) (call : PagerCall) : Decidable (p.Eases call) :=
  decidable_of_iff _ ((@Paging.needed_iff p call fun _ => !decide p.pager.Crowded).trans (by
    simp only [Bool.not_eq_true', decide_eq_false_iff_not]
    rfl))

variable {owner : Owners Holder} {s : Pager} {i j slot : Nat}

section Faults

/-- An eviction takes its victim out of memory, and no other page. -/
theorem evictFrame_pages (s : Pager) (slot : Nat) :
    (s.evictFrame slot).2.pages = s.pages ∨
      (s.evictFrame slot).2.pages = s.pages.set (s.framePages.get slot)
        (swappedOut (s.pages.get (s.framePages.get slot))) := by
  -- The write to the disk fails before any entry changes, or the victim's entry is cleared.
  unfold evictFrame
  simp only [swapWriteSlot]
  generalize s.disk.writeSectors _ _ = result
  obtain ⟨done, disk⟩ := result
  cases done with
  | false => exact Or.inl rfl
  | true => exact Or.inr (forgetFrame_fields { s with disk } (s.framePages.get slot)).2.1

/-- Filling a frame concerns the page that is brought in, and no other. -/
theorem fillFrame_pages (inside : i < 128) (other : j ≠ i) (small : j < 128) (s : Pager) (slot : Nat) :
    (s.fillFrame i slot).2.pages.get j = s.pages.get j := by
  -- Only the entry of the page that is brought in is written, at the end.
  unfold fillFrame
  simp only [swapReadSlot]
  split
  · rfl
  · generalize s.disk.readSectors _ _ = result
    obtain ⟨sectors, disk⟩ := result
    cases sectors with
    | none => rfl
    | some sectors =>
      simp only [Option.map_some]
      generalize vmmMapPageInDirectory _ _ _ _ _ = result
      obtain ⟨success, t⟩ := result
      cases success with
      | false => rfl
      | true =>
        obtain ⟨⟨tick, pages⟩, -⟩ := @settleFrame_fields i { s with toVmm := t, disk } slot
          s.toVmm.alloc.1 inside
        simp only at pages ⊢
        rw [pages, FixedArray.get_set _ _ small, if_neg other]

/-- Making a frame free leaves a page that is pinned where it is, unless all of them are. -/
theorem takeFrame_stays (ok : Ok owner none s) (eased : ¬ s.Crowded) (inside : i < 128)
    (pinned : (s.pages.get i).Pinned) : (s.pages.get i).Stays (s.takeFrame.2.pages.get i) := by
  unfold takeFrame
  split
  · exact .refl pinned
  · next full_ =>
    have full : s.residentFrames = 16 := by
      have limit := ok.books.resident
      change ¬ s.residentFrames < 16 at full_
      omega
    obtain ⟨below, sampled, choice⟩ := chooseVictimFrame_spec ok full
    -- Some page may be chosen, so one such page is.
    have free : ∃ k, k < 16 ∧ s.pinnedAt k = false := by
      by_contra none_
      refine eased ⟨full, fun k small => ?_⟩
      by_contra lifted
      exact none_ ⟨k, small, Bool.eq_false_iff.mpr lifted⟩
    obtain ⟨k, small, lifted⟩ := free
    have victim := choice k small lifted
    generalize s.chooseVictimFrame = chosen at below sampled victim
    obtain ⟨slot, t⟩ := chosen
    simp only at below sampled victim ⊢
    have other : i ≠ t.framePages.get slot := by
      rintro rfl
      unfold pinnedAt at victim
      rw [sampled.framePages] at pinned
      exact nomatch victim.symm.trans pinned.pinned
    have same : (s.pages.get i).Stays (t.pages.get i) := by
      rw [sampled.pages i inside]
      exact ⟨⟨pinned.used, pinned.present, pinned.pinned⟩, rfl, rfl, rfl⟩
    have after : (t.evictFrame slot).2.pages.get i = t.pages.get i := by
      rcases evictFrame_pages t slot with unchanged | evicted
      · rw [unchanged]
      · rw [evicted, FixedArray.get_set _ _ inside, if_neg other]
    rw [← after] at same
    generalize t.evictFrame slot = result at same
    obtain ⟨done, u⟩ := result
    cases done <;> exact same

/-- Bringing in a page leaves one that is pinned where it is, whether it succeeds or not. -/
theorem pageIn_stays (ok : Ok owner none s) (eased : ¬ s.Crowded) (inside : i < 128)
    (pinned : (s.pages.get i).Pinned) (small : j < 128) (absent : (s.pages.get j).present = false) :
    (s.pages.get i).Stays ((s.pageIn j).2.pages.get i) := by
  -- The victim is not pinned, since not all frames hold pinned pages, and the page brought in is
  -- another one.
  have other : i ≠ j := by
    rintro rfl
    exact nomatch absent.symm.trans pinned.present
  have noted := Sampled.noteFault ok.spaces (s.pages.get j).virtAddr
  have stays := takeFrame_stays (ok.sampled noted) (i := i) eased inside pinned
  unfold pageIn
  simp only
  generalize Pager.takeFrame _ = result at stays
  obtain ⟨slot, t⟩ := result
  cases slot with
  | none => exact stays
  | some slot =>
    simp only at stays ⊢
    rw [fillFrame_pages small other inside]
    exact stays

/-- A page fault leaves a page that is pinned where it is, unless all frames are in use by such. -/
theorem pagerHandlePageFault_stays (ok : Ok owner none s) {faultAddr : UInt32}
    (eased : ∀ j, s.Needs faultAddr j → ¬ s.Crowded) (inside : i < 128)
    (pinned : (s.pages.get i).Pinned) (errCode : UInt32) :
    (s.pages.get i).Stays ((pagerHandlePageFault s faultAddr errCode).2.pages.get i) := by
  -- A fault does nothing, or brings in a page that was not in memory.
  rcases pagerHandlePageFault_cases faultAddr errCode with same | ⟨j, found, absent, result⟩
  · rw [same]
    exact .refl pinned
  · rw [result]
    obtain ⟨small, -⟩ := findPageByVirt_some found
    exact pageIn_stays ok (eased j ⟨found, absent⟩) inside pinned small absent

/-- So does an access of a program. -/
theorem attempt_stays {α : Type} (ok : Ok owner none s) {virtAddr : UInt32}
    (eased : ∀ j, s.Needs virtAddr j → ¬ s.Crowded) (inside : i < 128)
    (pinned : (s.pages.get i).Pinned) (errCode : UInt32) (access : Vmm → Except Fault α × Vmm) :
    (s.pages.get i).Stays ((s.attempt virtAddr errCode access).2.pages.get i) := by
  -- The access faults once at most, and changes memory only.
  have stays := pagerHandlePageFault_stays ok eased inside pinned errCode
  unfold attempt
  split
  · generalize pagerHandlePageFault s virtAddr errCode = result at stays
    obtain ⟨done, t⟩ := result
    cases done <;> exact stays
  · exact .refl pinned

end Faults

section Calls

variable {p : Paging} {call : PagerCall}

/-- Registering a page leaves one that is pinned where it is. -/
theorem Registers.stays {t : Pager} {dir virtAddr flags : UInt32} {bytes : Nat → UInt8} {done : Bool}
    (registers : Registers s dir virtAddr flags bytes done t) (inside : i < 128)
    (pinned : (s.pages.get i).Pinned) : (s.pages.get i).Stays (t.pages.get i) := by
  -- A page that is registered anew gets an entry that was not in use.
  cases registers with
  | refused => exact .refl pinned
  | again j disk done small found =>
    change (s.pages.get i).Stays ((s.pages.set j _).get i)
    rw [FixedArray.get_set _ _ inside]
    split
    · next same =>
      subst same
      exact ⟨⟨pinned.used, pinned.present, pinned.pinned⟩, rfl, rfl, rfl⟩
    · exact .refl pinned
  | failed i disk lost => exact .refl pinned
  | entered j disk small free aligned some_ missing written =>
    change (s.pages.get i).Stays ((s.pages.set j _).get i)
    rw [FixedArray.get_set _ _ inside, if_neg]
    · exact .refl pinned
    · rintro rfl
      exact nomatch free.symm.trans pinned.used

/-- A page stays pinned unless its own pin is lifted. -/
theorem pagerPinPageInDirectory_stays (inside : i < 128) (pinned : (s.pages.get i).Pinned)
    {dir virtAddr : UInt32} {value : Bool}
    (held : ¬ (PagerCall.pin dir virtAddr value).Releases (s.pages.get i)) :
    (s.pages.get i).Stays ((pagerPinPageInDirectory s dir virtAddr value).2.pages.get i) := by
  -- The pin may be that of another page, or is set once more.
  unfold pagerPinPageInDirectory
  split
  · exact .refl pinned
  · split
    · exact .refl pinned
    · next j found =>
      obtain ⟨-, -, directory, virt⟩ := findPageByVirt_some found
      change (s.pages.get i).Stays ((s.pages.set j _).get i)
      rw [FixedArray.get_set _ _ inside]
      split
      · next same =>
        subst same
        have still : value = true := by
          by_contra lifted
          exact held ⟨Bool.eq_false_iff.mpr lifted, directory, virt⟩
        exact ⟨⟨pinned.used, pinned.present, still⟩, rfl, rfl, rfl⟩
      · exact .refl pinned

/-- A page stays in memory when another one is given up. -/
theorem pagerUnregisterPage_stays (ok : Ok owner none s) (inside : i < 128)
    (pinned : (s.pages.get i).Pinned) {dir virtAddr : UInt32}
    (held : ¬ (PagerCall.unregister dir virtAddr).Releases (s.pages.get i)) :
    (s.pages.get i).Stays ((pagerUnregisterPage s dir virtAddr).pages.get i) := by
  -- The entry that is cleared is another one, since the call does not release this page.
  rcases pagerUnregisterPage_cases ok dir virtAddr with ⟨same, -⟩ | ⟨j, owner', found, gone⟩
  · rw [same]
    exact .refl pinned
  · obtain ⟨-, -, directory, virt⟩ := findPageByVirt_some found
    obtain ⟨q, -, pages⟩ := gone.pages
    have other : i ≠ j := by
      rintro rfl
      exact held ⟨directory, virt⟩
    rw [pages, FixedArray.get_set _ _ inside, if_neg other]
    exact .refl pinned

/-- A call leaves a page that is pinned where it is, unless it releases the page. -/
theorem pagingStep_stays (ok : Paging.Ok owner p) (eased : p.Eases call) (inside : i < 128)
    (pinned : (p.pager.pages.get i).Pinned) (held : ¬ call.Releases (p.pager.pages.get i)) :
    (p.pager.pages.get i).Stays ((pagingStep p call).2.pager.pages.get i) := by
  -- One case for each call, by the lemma about its function.
  cases call with
  | register dir virtAddr flags data dataSize =>
    exact (pagerRegisterPageData_cases p.pager dir virtAddr flags data dataSize).stays inside pinned
  | pin dir virtAddr value => exact pagerPinPageInDirectory_stays inside pinned held
  | sampleUsage =>
    change (p.pager.pages.get i).Stays ((pagerSampleUsage p.pager).pages.get i)
    rw [(pagerSampleUsage_sampled ok.pager).pages i inside]
    exact ⟨⟨pinned.used, pinned.present, pinned.pinned⟩, rfl, rfl, rfl⟩
  | unregister dir virtAddr => exact pagerUnregisterPage_stays ok.pager inside pinned held
  | fault faultAddr errCode =>
    exact pagerHandlePageFault_stays ok.pager (eased faultAddr rfl) inside pinned errCode
  | load virtAddr => exact attempt_stays ok.pager (eased virtAddr rfl) inside pinned 4 _
  | store virtAddr value => exact attempt_stays ok.pager (eased virtAddr rfl) inside pinned 6 _
  | createSpace =>
    change (p.pager.pages.get i).Stays (p.createSpace.pager.pages.get i)
    unfold Paging.createSpace
    split <;> exact .refl pinned
  | setAlgorithm _ | switch _ | destroySpace _ => exact .refl pinned

end Calls

section Runs

variable {live : Nat → Bool}

/-- What releases a page does not depend on where the page is. -/
theorem PagerPage.Stays.releases {p q : PagerPage} (stays : p.Stays q) {call : PagerCall}
    (releases : call.Releases q) : call.Releases p := by
  -- Releasing asks for the place of the page, which is the same.
  cases call with
  | pin dir virtAddr value =>
    obtain ⟨lifted, directory, virt⟩ := releases
    exact ⟨lifted, stays.directory ▸ directory, stays.virt ▸ virt⟩
  | unregister dir virtAddr =>
    obtain ⟨directory, virt⟩ := releases
    exact ⟨stays.directory ▸ directory, stays.virt ▸ virt⟩
  | _ => exact releases

/--
A page that is pinned stays in its frame until it is released.

This needs that no page is brought in while all frames are in use by pages that are pinned. The
last page of a run need not arrive.
-/
theorem pagingRun_pinned (starts : Paging.Starts owner s live) (calls : List PagerCall)
    (permitted : ∀ before call after, calls = before ++ call :: after →
      (runState pagingStep (pagingStart s live) before).Admits call ∧
        (after ≠ [] → (runState pagingStep (pagingStart s live) before).Serves call))
    (eased : ∀ before call after, calls = before ++ call :: after →
      (runState pagingStep (pagingStart s live) before).Eases call)
    (before between after : List PagerCall) (split : calls = before ++ (between ++ after)) (i : Nat)
    (inside : i < 128)
    (pinned : ((runState pagingStep (pagingStart s live) before).pager.pages.get i).Pinned)
    (held : ∀ call ∈ between, ¬ call.Releases
      ((runState pagingStep (pagingStart s live) before).pager.pages.get i)) :
    ((runState pagingStep (pagingStart s live) before).pager.pages.get i).Stays
      ((runState pagingStep (pagingStart s live) (before ++ between)).pager.pages.get i) := by
  -- A pager without a disk has no pages.
  have ready : s.disk.ready = true := by
    by_contra missing
    have idle : (runState pagingStep (pagingStart s live) before).pager.Idle :=
      runState_invariant pagingStep (fun p => p.pager.Idle)
        (fun p call (_ : True) idle => pagingStep_idle idle call) (fun _ _ => trivial)
        (pagingStart_idle starts.idle (Bool.eq_false_iff.mpr missing) live)
    exact nomatch (idle.unused i inside).symm.trans pinned.used
  induction between generalizing before with
  | nil =>
    rw [List.append_nil]
    exact .refl pinned
  | cons call rest ih =>
    have next : calls = before ++ call :: (rest ++ after) := split
    -- Every page asked for before this call has arrived.
    obtain ⟨owner', ok⟩ := pagingRun_ok starts ready before fun first other between' here => by
      have there : calls = first ++ other :: (between' ++ call :: (rest ++ after)) := by
        rw [next, here]
        simp
      obtain ⟨admitted, served⟩ := permitted first other _ there
      exact ⟨admitted, served (by simp)⟩
    have step := pagingStep_stays ok (eased before call _ next) inside pinned
      (held call List.mem_cons_self)
    have moved : (pagingStep (runState pagingStep (pagingStart s live) before) call).2 =
        runState pagingStep (pagingStart s live) (before ++ [call]) := by
      rw [runState_append]
      rfl
    rw [moved] at step
    have later := ih (before ++ [call]) (by rw [next]; simp) step.pinned fun other member releases =>
      held other (List.mem_cons_of_mem _ member) (step.releases releases)
    rw [List.append_assoc, List.singleton_append] at later
    exact step.trans later

section Example

/-- One page more than there are frames, as many as there are frames brought in and pinned. -/
def crowdCalls : List PagerCall :=
  (List.range 17).map (fun k => .register 8192 (crowdPage k) 6 none 0) ++
    ((List.range 16).map (fun k => .load (crowdPage k)) ++
      (List.range 16).map fun k => .pin 8192 (crowdPage k) true)

/-- A page is brought in and pinned. -/
def pinnedCalls : List PagerCall :=
  [.register 8192 (crowdPage 0) 6 none 0, .load (crowdPage 0), .pin 8192 (crowdPage 0) true]

/-- Another page is brought in. -/
def laterCalls : List PagerCall := [.register 8192 (crowdPage 1) 6 none 0, .load (crowdPage 1)]

/-- The first page stays where it is while another one is brought in. -/
theorem pagingRun_pinned_small :
    ((runState pagingStep (pagingStart (loadedPager pagedMachine) pagedLive)
      (pinnedCalls ++ laterCalls)).pager.pages.get 0).physAddr = 0x3000 := by
  -- The run leaves the page pinned, so the general theorem keeps its frame.
  have entry : (runState pagingStep (pagingStart (loadedPager pagedMachine) pagedLive)
      pinnedCalls).pager.pages.get 0 =
        ⟨true, true, false, 8192, 0x00800000, 0x3000, 6, 0, 1, true⟩ := by
    decide +kernel
  have permitted : allowedAlong pagingStep (fun p call => decide (p.Permits call))
      (pagingStart (loadedPager pagedMachine) pagedLive) (pinnedCalls ++ laterCalls) = true := by
    decide +kernel
  have eased : allowedAlong pagingStep (fun p call => decide (p.Eases call))
      (pagingStart (loadedPager pagedMachine) pagedLive) (pinnedCalls ++ laterCalls) = true := by
    decide +kernel
  have stays := pagingRun_pinned pagedMachine_starts (pinnedCalls ++ laterCalls)
    (fun before call after split => by
      obtain ⟨admitted, served⟩ := of_decide_eq_true (allowedAlong_spec pagingStep permitted split)
      exact ⟨admitted, fun _ => served⟩)
    (fun before call after split => of_decide_eq_true (allowedAlong_spec pagingStep eased split))
    pinnedCalls laterCalls [] (by simp) 0 (by decide) (by rw [entry]; exact ⟨rfl, rfl, rfl⟩)
    (by simp [laterCalls, PagerCall.Releases])
  rw [stays.phys, entry]

/-- With a pinned page in every frame, one of these pages has to go for the next one. -/
theorem pinned_page_evicted :
    ¬ ∀ calls : List PagerCall,
      (∀ before call after, calls = before ++ call :: after →
        (runState pagingStep (pagingStart (loadedPager pagedMachine) pagedLive) before).Permits call) →
      ∀ before between after, calls = before ++ (between ++ after) → ∀ i, i < 128 →
        ((runState pagingStep (pagingStart (loadedPager pagedMachine) pagedLive)
          before).pager.pages.get i).Pinned →
        (∀ call ∈ between, ¬ call.Releases ((runState pagingStep
          (pagingStart (loadedPager pagedMachine) pagedLive) before).pager.pages.get i)) →
        ((runState pagingStep (pagingStart (loadedPager pagedMachine) pagedLive)
          before).pager.pages.get i).Stays
          ((runState pagingStep (pagingStart (loadedPager pagedMachine) pagedLive)
            (before ++ between)).pager.pages.get i) := by
  -- The run is permitted throughout, and its last call evicts a pinned page.
  intro claim
  have along : allowedAlong pagingStep (fun p call => decide (p.Permits call))
      (pagingStart (loadedPager pagedMachine) pagedLive) (crowdCalls ++ [.load (crowdPage 16)]) =
        true := by
    decide +kernel
  have before : (runState pagingStep (pagingStart (loadedPager pagedMachine) pagedLive)
      crowdCalls).pager.pages.get 0 =
        ⟨true, true, false, 8192, 0x00800000, 0x3000, 6, 0, 1, true⟩ := by
    decide +kernel
  have after : ((runState pagingStep (pagingStart (loadedPager pagedMachine) pagedLive)
      (crowdCalls ++ [.load (crowdPage 16)])).pager.pages.get 0).present = false := by
    decide +kernel
  have stays := claim _ (fun first call rest split =>
    of_decide_eq_true (allowedAlong_spec pagingStep along split)) crowdCalls [.load (crowdPage 16)] [] rfl 0
    (by decide) (by rw [before]; exact ⟨rfl, rfl, rfl⟩) (by simp [PagerCall.Releases])
  exact nomatch after.symm.trans stays.pinned.present

end Example

end Runs

end MyOS.Mm
