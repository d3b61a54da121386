import MyOS.Mm.PagerState

/-! How the pager looks at accesses, and which frame it chooses to empty. -/

namespace MyOS.Mm.Pager

variable {owner : Owners Holder} {hole : Option Nat} {s t : Pager} {i j : Nat}

/-- Whether the page in a frame may not be chosen. -/
def pinnedAt (s : Pager) (k : Nat) : Bool := (s.pages.get (s.framePages.get k)).pinned

section Accesses

/-- Whether a page was accessed is a flag of its entry. -/
theorem pageWasAccessed_eq (spaces : Spaces owner s.toVmm) (lives : (s.pages.get i).Lives owner) :
    s.pageWasAccessed i = flagOf (s.cell (s.pages.get i).directory (s.pages.get i).page) 5 := by
  -- Without an entry the flag counts as clear, and so it does in the empty entry.
  have positive := spaces.positive (spaces.directory_inPool lives.live)
  have flag : ∀ word : UInt32, (word &&& vmmPageAccessed != 0) = flagOf word 5 :=
    fun word => and_ne_zero_eq_flagOf word rfl
  unfold pageWasAccessed
  rw [vmmGetPageEntryInDirectory_eq lives.address positive]
  change _ = flagOf (s.cell (s.pages.get i).directory ((s.pages.get i).virtAddr.toNat / 4096)) 5
  cases present : flagOf
      (s.pde (s.pages.get i).directory ((s.pages.get i).virtAddr.toNat / 4096 / 1024)) 0 with
  | true => exact flag _
  | false =>
    rw [cell_eq_zero present]
    rfl

/-- Forgetting the accesses to a page changes nothing else. -/
theorem clearPageAccessed_sampled (spaces : Spaces owner s.toVmm)
    (lives : (s.pages.get i).Lives owner) : Sampled owner s (s.clearPageAccessed i) := by
  -- The entry of the page is the only one that may change, by the one flag.
  have touched : Touched owner s.toVmm (vmmClearPageAccessedInDirectory
      (s.pages.get i).pageDirectoryPhys (s.pages.get i).virtAddr s.toVmm).2 := by
    rcases vmmClearPageAccessedInDirectory_cases spaces lives.live lives.address lives.half with
      ⟨result, -⟩ | ⟨t, result, -, change⟩
    · rw [result]
      exact .refl spaces
    · rw [result]
      exact .ofChange change (.clearAccessed _)
  exact ⟨touched, rfl, fun _ _ => rfl, rfl, rfl, rfl, rfl, id⟩

/-- The flag is lowered for this page, and for no other. -/
theorem clearPageAccessed_accessed (ok : Ok owner hole s) (inside : i < 128)
    (used : (s.pages.get i).used = true) (present : (s.pages.get i).present = true)
    (inside' : j < 128) (used' : (s.pages.get j).used = true) :
    (s.clearPageAccessed i).pageWasAccessed j = if j = i then false else s.pageWasAccessed j := by
  have lives := ok.lives inside used
  have lives' := ok.lives inside' used'
  have sampled := clearPageAccessed_sampled ok.spaces lives
  have half := PagerPage.page_half lives'.half
  have after : (s.clearPageAccessed i).pages = s.pages := rfl
  rw [pageWasAccessed_eq sampled.vmm.spaces (by rw [after]; exact lives'),
    pageWasAccessed_eq ok.spaces lives', after]
  unfold clearPageAccessed
  rcases vmmClearPageAccessedInDirectory_cases ok.spaces lives.live lives.address lives.half with
    ⟨result, absent⟩ | ⟨t, result, -, change⟩
  · -- A page in memory has an entry in its table.
    exact nomatch absent.symm.trans (ok.frames inside used present).mapped
  · rw [result]
    change flagOf (t.cell _ _) 5 = _
    rw [change.cells lives'.live (by omega)]
    split
    · next here =>
      have same : j = i := ok.apart inside' inside used' used here.1 here.2
      rw [if_pos same, flagOf_and]
      exact Bool.and_false _
    · next other =>
      rw [if_neg]
      rintro rfl
      exact other ⟨rfl, rfl⟩

/-- Counting a use changes what is known about accesses only. -/
theorem markPageUsed_sampled (spaces : Spaces owner s.toVmm) (i : Nat) :
    Sampled owner s (s.markPageUsed i) := by
  -- The entry of the page changes, in the time of its last use.
  unfold markPageUsed setPage
  refine ⟨.refl spaces, rfl, fun j inside => ?_, rfl, rfl, rfl, rfl, id⟩
  simp only
  rw [FixedArray.get_set _ _ inside]
  split
  · next same =>
    subst same
    rfl
  · rfl

/-- Counting the accesses the processor saw to a page changes nothing else. -/
theorem samplePageUsage_sampled (spaces : Spaces owner s.toVmm) (inside : i < 128)
    (lives : (s.pages.get i).Lives owner) : Sampled owner s (s.samplePageUsage i) := by
  -- The use is counted first, and then the flag is cleared.
  unfold samplePageUsage
  split
  · have marked := @markPageUsed_sampled owner s spaces i
    refine marked.trans (clearPageAccessed_sampled marked.vmm.spaces ?_)
    have same : (s.markPageUsed i).pages = s.pages.set i _ := rfl
    rw [same, FixedArray.get_set_same _ _ inside]
    exact lives.congr rfl rfl id
  · exact .refl spaces

/-- The hand of the clock stays on the frames. -/
theorem advanceHand_sampled (spaces : Spaces owner s.toVmm) : Sampled owner s s.advanceHand :=
  ⟨.refl spaces, rfl, fun _ _ => rfl, rfl, rfl, rfl, rfl, fun _ => Nat.mod_lt _ (by decide)⟩

end Accesses

section Clock

/-- The clock chooses one of the frames, and only looks at accesses. -/
theorem clockScan_sampled (ok : Ok owner none s) (full : s.residentFrames = 16) (left : Nat) :
    (clockScan left s).1 < 16 ∧ Sampled owner s (clockScan left s).2 := by
  -- By induction on the budget: a frame is taken, or the hand goes on.
  induction left generalizing s with
  | zero => exact ⟨ok.books.hand, .refl ok.spaces⟩
  | succ left ih =>
    have hand := ok.books.hand
    obtain ⟨inside, used, -⟩ := ok.books.listed (k := s.clockHand) (by omega) nofun
    unfold clockScan
    simp only
    split
    · have advanced := @advanceHand_sampled owner s ok.spaces
      obtain ⟨slot, sampled⟩ := ih (ok.sampled advanced) full
      exact ⟨slot, advanced.trans sampled⟩
    · split
      · have cleared := clearPageAccessed_sampled ok.spaces (ok.lives inside used)
        have advanced := cleared.trans (advanceHand_sampled cleared.vmm.spaces)
        obtain ⟨slot, sampled⟩ := ih (ok.sampled advanced) full
        exact ⟨slot, advanced.trans sampled⟩
      · exact ⟨hand, .refl ok.spaces⟩

/--
The clock passes over pinned pages while there is another one.

A frame is reached at the latest on the first round, and found without an access on the second.
-/
theorem clockScan_unpinned (ok : Ok owner none s) (full : s.residentFrames = 16) (left : Nat) {k : Nat}
    (inside : k < 16) (free : s.pinnedAt k = false)
    (reach : (s.pageWasAccessed (s.framePages.get k) = false ∧ (k + 16 - s.clockHand) % 16 < left) ∨
      (k + 16 - s.clockHand) % 16 + 16 < left) :
    s.pinnedAt (clockScan left s).1 = false := by
  induction left generalizing s with
  | zero => omega
  | succ left ih =>
    have hand := ok.books.hand
    obtain ⟨small, used, present⟩ := ok.books.listed (k := s.clockHand) (by omega) nofun
    obtain ⟨small', used', -⟩ := ok.books.listed (k := k) (by omega) nofun
    unfold clockScan
    simp only
    split
    · next pinned =>
      -- The hand is not on the frame in question yet, and comes one closer to it.
      have advanced := @advanceHand_sampled owner s ok.spaces
      have other : k ≠ s.clockHand := by
        rintro rfl
        exact nomatch free.symm.trans pinned
      refine ih (ok.sampled advanced) full free ?_
      have closer : (k + 16 - s.advanceHand.clockHand) % 16 + 1 = (k + 16 - s.clockHand) % 16 := by
        change (k + 16 - (s.clockHand + 1) % 16) % 16 + 1 = _
        omega
      rcases reach with ⟨untouched, near⟩ | far
      · exact Or.inl ⟨untouched, by omega⟩
      · exact Or.inr (by omega)
    · split
      · next accessed =>
        have cleared := clearPageAccessed_sampled ok.spaces (ok.lives small used)
        have advanced := cleared.trans (advanceHand_sampled cleared.vmm.spaces)
        have flag := clearPageAccessed_accessed ok small used present small' used'
        refine ih (ok.sampled advanced) full free ?_
        have same : (s.clearPageAccessed (s.framePages.get s.clockHand)).advanceHand.pageWasAccessed
            (s.framePages.get k) =
            (s.clearPageAccessed (s.framePages.get s.clockHand)).pageWasAccessed
              (s.framePages.get k) := rfl
        have next : (s.clearPageAccessed (s.framePages.get s.clockHand)).advanceHand.clockHand =
            (s.clockHand + 1) % 16 := rfl
        have frames : (s.clearPageAccessed (s.framePages.get s.clockHand)).advanceHand.framePages =
            s.framePages := rfl
        rw [frames, same, flag, next]
        by_cases here : k = s.clockHand
        · -- The second round begins, with the flag of this page lowered.
          left
          rw [here, if_pos rfl]
          refine ⟨rfl, ?_⟩
          rcases reach with ⟨untouched, -⟩ | far
          · rw [here] at untouched
            exact nomatch untouched.symm.trans accessed
          · omega
        · have apart : s.framePages.get k ≠ s.framePages.get s.clockHand := fun equal =>
            here (ok.books.distinct (by omega) (by omega) nofun nofun equal)
          rw [if_neg apart]
          rcases reach with ⟨untouched, near⟩ | far
          · exact Or.inl ⟨untouched, by omega⟩
          · exact Or.inr (by omega)
      · next pinned _ => exact Bool.eq_false_iff.mpr pinned

/-- With a budget for two rounds the clock finds a page that is not pinned, if there is any. -/
theorem chooseClockVictimFrame_spec (ok : Ok owner none s) (full : s.residentFrames = 16) :
    s.chooseClockVictimFrame.1 < 16 ∧ Sampled owner s s.chooseClockVictimFrame.2 ∧
      ∀ k, k < 16 → s.pinnedAt k = false → s.pinnedAt s.chooseClockVictimFrame.1 = false := by
  -- The budget is two rounds, which is more than the way to the frame that is not pinned.
  obtain ⟨slot, sampled⟩ := clockScan_sampled ok full (pagerFrameLimit * 2)
  refine ⟨slot, sampled, fun k inside free => ?_⟩
  refine clockScan_unpinned ok full (pagerFrameLimit * 2) inside free (Or.inr ?_)
  change (k + 16 - s.clockHand) % 16 + 16 < 32
  omega

end Clock

section Lru

/-- Which page a frame holds, and whether it is pinned, does not depend on accesses. -/
theorem Sampled.pinnedAt (sampled : Sampled owner s t) {k : Nat} (inside : s.framePages.get k < 128) :
    t.pinnedAt k = s.pinnedAt k := by
  -- Both are fields that a look at accesses keeps.
  unfold Pager.pinnedAt
  rw [sampled.framePages, sampled.pages _ inside]

/-- The loop over the frames only looks at accesses, and keeps a frame that is not pinned. -/
theorem lruScan_spec (ok : Ok owner none s) {slots : List Nat}
    (inside : ∀ k ∈ slots, k < s.residentFrames) {best : LruBest} (slot : best.slot < 16)
    (good : best.found = true → best.slot < s.residentFrames ∧ s.pinnedAt best.slot = false) :
    (lruScan slots best s).1.slot < 16 ∧ Sampled owner s (lruScan slots best s).2 ∧
      ((best.found = true ∨ ∃ k ∈ slots, s.pinnedAt k = false) →
        (lruScan slots best s).1.slot < s.residentFrames ∧
          s.pinnedAt (lruScan slots best s).1.slot = false) := by
  induction slots generalizing best s with
  | nil =>
    refine ⟨slot, .refl ok.spaces, ?_⟩
    rintro (found | ⟨k, member, -⟩)
    · exact good found
    · cases member
  | cons k rest ih =>
    have limit := ok.books.resident
    have here := inside k List.mem_cons_self
    obtain ⟨small, used, -⟩ := ok.books.listed here nofun
    have later := fun l member => inside l (List.mem_cons_of_mem _ member)
    unfold lruScan
    simp only
    split
    · next pinned =>
      obtain ⟨slot', sampled, choice⟩ := ih ok later slot good
      refine ⟨slot', sampled, ?_⟩
      rintro (found | ⟨l, member, free⟩)
      · exact choice (Or.inl found)
      · rcases List.mem_cons.mp member with rfl | member
        · exact nomatch free.symm.trans pinned
        · exact choice (Or.inr ⟨l, member, free⟩)
    · next free =>
      have looked := samplePageUsage_sampled ok.spaces small (ok.lives small used)
      have ok' := ok.sampled looked
      have later' : ∀ l ∈ rest, l < (s.samplePageUsage (s.framePages.get k)).residentFrames := by
        rw [looked.resident]
        exact later
      -- Who was pinned before is pinned after.
      have same : ∀ l, l < s.residentFrames →
          (s.samplePageUsage (s.framePages.get k)).pinnedAt l = s.pinnedAt l :=
        fun l below => looked.pinnedAt (ok.books.listed below nofun).1
      have unpinned : s.pinnedAt k = false := Bool.eq_false_iff.mpr free
      have back : ∀ best' : LruBest, best'.slot < 16 → best'.found = true →
          best'.slot < s.residentFrames → s.pinnedAt best'.slot = false →
          (lruScan rest best' (s.samplePageUsage (s.framePages.get k))).1.slot < 16 ∧
          Sampled owner s (lruScan rest best' (s.samplePageUsage (s.framePages.get k))).2 ∧
          (lruScan rest best' (s.samplePageUsage (s.framePages.get k))).1.slot < s.residentFrames ∧
          s.pinnedAt (lruScan rest best' (s.samplePageUsage (s.framePages.get k))).1.slot = false := by
        intro best' slot' found below free'
        obtain ⟨slot'', sampled, choice⟩ := ih ok' later' slot' fun _ =>
          ⟨by rw [looked.resident]; exact below, (same _ below).trans free'⟩
        refine ⟨slot'', looked.trans sampled, ?_⟩
        obtain ⟨below', result⟩ := choice (Or.inl found)
        rw [looked.resident] at below'
        exact ⟨below', (same _ below').symm.trans result⟩
      split
      · obtain ⟨slot', sampled, choice⟩ := back ⟨k, _, true⟩ (by simp only; omega) rfl here unpinned
        exact ⟨slot', sampled, fun _ => choice⟩
      · next worse =>
        simp only [Bool.or_eq_true, Bool.not_eq_true', not_or, Bool.not_eq_false] at worse
        obtain ⟨below, free'⟩ := good worse.1
        obtain ⟨slot', sampled, choice⟩ := back best slot worse.1 below free'
        exact ⟨slot', sampled, fun _ => choice⟩

/-- The page used longest ago is one that is not pinned, if there is any. -/
theorem chooseLruVictimFrame_spec (ok : Ok owner none s) (full : s.residentFrames = 16) :
    s.chooseLruVictimFrame.1 < 16 ∧ Sampled owner s s.chooseLruVictimFrame.2 ∧
      ∀ k, k < 16 → s.pinnedAt k = false → s.pinnedAt s.chooseLruVictimFrame.1 = false := by
  -- The scan goes over all frames, so it meets the one that is not pinned.
  obtain ⟨slot, sampled, choice⟩ := @lruScan_spec owner s ok (List.range s.residentFrames)
    (fun k member => List.mem_range.mp member) ⟨0, 0xFFFFFFFF, false⟩ (by decide) nofun
  refine ⟨slot, sampled, fun k inside free => ?_⟩
  exact (choice (Or.inr ⟨k, List.mem_range.mpr (by omega), free⟩)).2

end Lru

/-- The frame to be emptied is one of those in use, and not pinned if there is any that is not. -/
theorem chooseVictimFrame_spec (ok : Ok owner none s) (full : s.residentFrames = 16) :
    s.chooseVictimFrame.1 < 16 ∧ Sampled owner s s.chooseVictimFrame.2 ∧
      ∀ k, k < 16 → s.pinnedAt k = false → s.pinnedAt s.chooseVictimFrame.1 = false := by
  -- Both algorithms do.
  unfold chooseVictimFrame
  split
  · exact chooseLruVictimFrame_spec ok full
  · exact chooseClockVictimFrame_spec ok full

end MyOS.Mm.Pager
