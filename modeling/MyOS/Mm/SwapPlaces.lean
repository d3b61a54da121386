import MyOS.Mm.SwapArea

/-! What the pager writes to the disk lies among the places of pages, whatever state it is in. -/

namespace MyOS.Mm

open Pager

/-- Every entry is bound to a place in the area that pages are swapped to. -/
def Pager.Placed (s : Pager) : Prop := ∀ i, (s.pages.get i).swapSlot.toNat < 128

/-- A step that keeps the places of entries, and writes to nothing else on the disk. -/
def Swaps (s t : Pager) : Prop := s.Placed → t.Placed ∧ SwapOnly s.disk t.disk

variable {s t u : Pager}

/-- The pager starts without a transfer. -/
theorem pagerInit_disk (s : Pager) : (pagerInit s).2.disk = s.disk := by
  -- With or without a disk only the table of pages changes.
  unfold pagerInit
  split <;> rfl

/-- The pager starts with a place of its own for every entry. -/
theorem pagerInit_placed (s : Pager) (ready : s.disk.ready = true) : (pagerInit s).2.Placed := by
  -- The entries are numbered, and their places with them.
  unfold pagerInit
  rw [if_neg (by simp [ready])]
  intro i
  by_cases inside : i < 128
  · simp only [FixedArray.get_ofFn _ inside]
    change (UInt32.ofNat i).toNat < 128
    rw [UInt32.toNat_ofNat']
    omega
  · -- What lies outside the table counts as the first place.
    rw [FixedArray.get, dif_neg inside]
    decide

namespace Swaps

/-- A step that leaves the disk alone and every entry at its place. -/
theorem still (places : ∀ i, (t.pages.get i).swapSlot = (s.pages.get i).swapSlot)
    (disk : t.disk = s.disk) : Swaps s t := by
  -- Nothing at all is written.
  intro placed
  refine ⟨fun i => ?_, ?_⟩
  · rw [places]
    exact placed i
  · rw [disk]
    exact Ata.Within.refl _

/-- Nothing is written. -/
theorem refl (s : Pager) : Swaps s s := still (fun _ => rfl) rfl

/-- Two parts of a call, one after the other. -/
theorem trans (first : Swaps s t) (second : Swaps t u) : Swaps s u := by
  -- The entries keep their places in the first part.
  intro placed
  obtain ⟨placed', before⟩ := first placed
  obtain ⟨placed'', after⟩ := second placed'
  exact ⟨placed'', before.trans after⟩

/-- What is known about a page changes, but not its place. -/
theorem setPage (s : Pager) (i : Nat) {p : PagerPage} (place : p.swapSlot = (s.pages.get i).swapSlot) :
    Swaps s (s.setPage i p) := by
  refine still (fun j => ?_) rfl
  change ((s.pages.set i p).get j).swapSlot = _
  by_cases same : j = i
  · subst same
    by_cases inside : j < 128
    · rw [FixedArray.get_set_same _ _ inside, place]
    · -- Outside the table nothing is replaced.
      simp [FixedArray.get, inside]
  · rw [FixedArray.get_set_ne _ _ same]

/-- A page is written to the place of an entry. -/
theorem write (s : Pager) (i : Nat) (bytes : Nat → UInt8) :
    Swaps s (s.swapWriteSlot (s.pages.get i).swapSlot bytes).2 := by
  -- The entry names a place of the swap area.
  intro placed
  have only := swapOnly_write (placed i) s.disk bytes
  rw [UInt32.ofNat_toNat] at only
  exact ⟨placed, only⟩

/-- Reading a page writes nothing. -/
theorem read (s : Pager) (slot : UInt32) : Swaps s (s.swapReadSlot slot).2 :=
  fun placed => ⟨placed, Ata.Within.readSectors _ _⟩

section Victims

/-- Lowering a flag of an entry writes nothing to the disk. -/
theorem clearAccessed (s : Pager) (i : Nat) : Swaps s (s.clearPageAccessed i) :=
  still (fun _ => rfl) rfl

/-- Counting a use writes nothing. -/
theorem markUsed (s : Pager) (i : Nat) : Swaps s (s.markPageUsed i) := by
  -- The entry keeps its place.
  have marked : Swaps s (s.setPage i { s.pages.get i with
      lastUsedTick := if s.usageTick + 1 == 0 then 1 else s.usageTick + 1 }) := setPage s i rfl
  exact marked.trans (still (fun _ => rfl) rfl)

/-- Counting an access writes nothing. -/
theorem sample (s : Pager) (i : Nat) : Swaps s (s.samplePageUsage i) := by
  -- The use is counted, and the flag is lowered.
  unfold samplePageUsage
  split
  · exact (markUsed s i).trans (clearAccessed _ i)
  · exact refl s

/-- The hand of the clock goes around. -/
theorem clockScan (left : Nat) (s : Pager) : Swaps s (Pager.clockScan left s).2 := by
  -- By induction on the frames that may still be skipped.
  induction left generalizing s with
  | zero => exact refl s
  | succ left ih =>
    have advanced : ∀ t : Pager, Swaps t t.advanceHand := fun t => still (fun _ => rfl) rfl
    unfold Pager.clockScan
    simp only
    split
    · exact (advanced s).trans (ih _)
    · split
      · exact ((clearAccessed s _).trans (advanced _)).trans (ih _)
      · exact refl s

/-- The frames are compared by use. -/
theorem lruScan (slots : List Nat) (best : LruBest) (s : Pager) : Swaps s (Pager.lruScan slots best s).2 := by
  -- By induction on the frames that are left.
  induction slots generalizing best s with
  | nil => exact refl s
  | cons slot rest ih =>
    unfold Pager.lruScan
    simp only
    split
    · exact ih _ _
    · split
      · exact (sample s _).trans (ih _ _)
      · exact (sample s _).trans (ih _ _)

/-- Choosing a victim writes nothing. -/
theorem chooseVictim (s : Pager) : Swaps s s.chooseVictimFrame.2 := by
  -- Either algorithm may be set.
  unfold chooseVictimFrame
  split
  · exact lruScan _ _ s
  · exact clockScan _ s

end Victims

section Faults

/-- A page that goes to the disk goes to its place. -/
theorem evict (s : Pager) (slot : Nat) : Swaps s (s.evictFrame slot).2 := by
  have written := write s (s.framePages.get slot) fun k =>
    s.memory ((s.pages.get (s.framePages.get slot)).physAddr.toNat + k)
  unfold evictFrame
  simp only
  generalize s.swapWriteSlot _ _ = result at written
  obtain ⟨done, t⟩ := result
  cases done with
  | false => exact written
  | true =>
    -- Once it is there, its entry is changed, and what is known about victims.
    refine written.trans ?_
    have forgotten : ∀ i, Swaps t (t.forgetFrame i) := by
      intro i
      have entered : Swaps t (t.setPage i { t.pages.get i with
          physAddr := 0, present := false, swapped := true }) := setPage t i rfl
      refine entered.trans (still (fun j => ?_) ?_)
      · unfold forgetFrame recordVictim
        simp only
        split <;> rfl
      · unfold forgetFrame recordVictim
        simp only
        split <;> rfl
    exact forgotten _

/-- A frame is found for a page, or made free for it. -/
theorem take (s : Pager) : Swaps s s.takeFrame.2 := by
  -- There is a frame left, or a victim is evicted.
  unfold takeFrame
  split
  · exact still (fun _ => rfl) rfl
  · have chosen := chooseVictim s
    simp only
    generalize s.chooseVictimFrame = result at chosen
    obtain ⟨slot, t⟩ := result
    have evicted := chosen.trans (evict t slot)
    simp only
    generalize t.evictFrame slot = result at evicted
    obtain ⟨done, u⟩ := result
    cases done <;> exact evicted

/-- A page is read into a frame. -/
theorem fill (s : Pager) (i slot : Nat) : Swaps s (s.fillFrame i slot).2 := by
  unfold fillFrame
  simp only
  generalize s.toVmm.alloc = result
  obtain ⟨physAddr, vmm⟩ := result
  have given : Swaps s { s with toVmm := vmm } := still (fun _ => rfl) rfl
  simp only
  split
  · exact given
  · have got := given.trans (read { s with toVmm := vmm } (s.pages.get i).swapSlot)
    generalize ({ s with toVmm := vmm } : Pager).swapReadSlot _ = result at got
    obtain ⟨bytes, t⟩ := result
    cases bytes with
    | none => exact got.trans (still (fun _ => rfl) rfl)
    | some bytes =>
      simp only
      -- Whether the page can be mapped is a matter of memory.
      generalize vmmMapPageInDirectory _ _ _ _ _ = result
      obtain ⟨done, vmm'⟩ := result
      have mapped : Swaps s { t with toVmm := vmm' } := got.trans (still (fun _ => rfl) rfl)
      cases done with
      | false => exact got.trans (still (fun _ => rfl) rfl)
      | true =>
        refine mapped.trans ?_
        have settled : ∀ t : Pager, Swaps t (t.settleFrame i slot physAddr) := by
          intro t
          have entered : Swaps t (t.setPage i { t.pages.get i with
              physAddr := physAddr, present := true, swapped := false }) := setPage t i rfl
          exact (entered.trans (still (fun _ => rfl) rfl)).trans
            ((markUsed _ i).trans (still (fun _ => rfl) rfl))
        exact settled _

/-- Bringing a page in writes to the swap area at most. -/
theorem pageIn (s : Pager) (i : Nat) : Swaps s (s.pageIn i).2 := by
  -- The fault is noted, a frame is taken and filled.
  have noted : Swaps s { s with
      pageFaults := s.pageFaults + 1
      lastFaultAddr := (s.pages.get i).virtAddr } := still (fun _ => rfl) rfl
  unfold Pager.pageIn
  simp only
  have taken := noted.trans (take _)
  generalize Pager.takeFrame _ = result at taken
  obtain ⟨slot, t⟩ := result
  cases slot with
  | none => exact taken
  | some slot => exact taken.trans (fill t i slot)

/-- A page fault, whether it is resolved or not. -/
theorem fault (s : Pager) (faultAddr errCode : UInt32) :
    Swaps s (pagerHandlePageFault s faultAddr errCode).2 := by
  -- The branches of the function, of which only the last brings a page in.
  unfold pagerHandlePageFault
  split
  · exact refl s
  · split
    · exact refl s
    · split
      · exact refl s
      · exact pageIn s _

end Faults

section Calls

variable (s : Pager) (dir virtAddr : UInt32)

/-- A page is registered, and its place is written. -/
theorem register (flags : UInt32) (data : Option (Nat → UInt8)) (dataSize : Nat) :
    Swaps s (pagerRegisterPageData s dir virtAddr flags data dataSize).2 := by
  -- One case for each outcome: those that write, write to the place of the entry.
  have registers := pagerRegisterPageData_cases s dir virtAddr flags data dataSize
  generalize pagerRegisterPageData s dir virtAddr flags data dataSize = result at registers
  obtain ⟨done, t⟩ := result
  have written : ∀ {j disk done} {bytes : Nat → UInt8},
      s.disk.writeSectors (swapLbaForSlot (s.pages.get j).swapSlot) (pageSectors bytes) = (done, disk) →
      Swaps s { s with disk } := by
    intro j disk done bytes result
    have only := write s j bytes
    unfold swapWriteSlot at only
    rw [result] at only
    exact only
  cases registers with
  | refused => exact refl _
  | again j disk done inside found lost =>
    rcases lost with ⟨same, -⟩ | lost
    · rw [same]
      exact setPage s j rfl
    · exact (written lost).trans (setPage { s with disk } j rfl)
  | failed j disk lost => exact written lost
  | entered j disk inside free aligned some_ missing lost =>
    have entered := setPage { s with disk } j (p := { s.pages.get j with
      used := true
      present := false
      swapped := true
      pageDirectoryPhys := dir
      virtAddr := virtAddr
      physAddr := 0
      flags := flags
      lastUsedTick := 0
      pinned := false }) rfl
    exact ((written lost).trans entered).trans (still (fun _ => rfl) rfl)

/-- A pin writes nothing. -/
theorem pin (pinned : Bool) : Swaps s (pagerPinPageInDirectory s dir virtAddr pinned).2 := by
  -- Only the pin of an entry changes.
  unfold pagerPinPageInDirectory
  split
  · exact refl s
  · split
    · exact refl s
    · exact setPage s _ rfl

/-- A page is given up, and its entry keeps its place. -/
theorem unregister : Swaps s (pagerUnregisterPage s dir virtAddr) := by
  unfold pagerUnregisterPage
  split
  · exact refl s
  · split
    · exact refl s
    · next i found =>
      -- The frame goes first, if there is one.
      have released : Swaps s (if (s.pages.get i).present then releaseFrame s i dir else s) := by
        split
        · unfold releaseFrame dropFrame
          simp only
          split <;> exact still (fun _ => rfl) rfl
        · exact refl s
      refine released.trans ?_
      generalize (if (s.pages.get i).present then releaseFrame s i dir else s) = t
      have cleared := setPage t i (p := { freshPage i with swapSlot := (t.pages.get i).swapSlot }) rfl
      exact cleared.trans (still (fun _ => rfl) rfl)

/-- Looking at all accesses writes nothing. -/
theorem sampleUsage : Swaps s (pagerSampleUsage s) := by
  unfold pagerSampleUsage
  split
  · exact refl s
  · -- The induction is on the frames that have been looked at.
    exact foldl_range_invariant (fun _ t => Swaps s t) (refl s) fun _ t _ soFar =>
      soFar.trans (sample t _)

end Calls

end Swaps

end MyOS.Mm
