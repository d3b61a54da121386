import MyOS.Mm.PagerRuns

/-! Which frame the clock chooses, and which accesses it forgets on its way there. -/

namespace MyOS.Mm.Pager

variable {owner : Owners Holder} {s t : Pager} {i k n : Nat}

/-- The frame the hand of the clock comes to after some steps. -/
def handAt (s : Pager) (n : Nat) : Nat := (s.clockHand + n) % 16

/-- Whether the page in a frame was accessed. -/
def accessedAt (s : Pager) (k : Nat) : Bool := s.pageWasAccessed (s.framePages.get k)

/-- Whether the clock takes a frame when its hand comes there. -/
def ripeAt (s : Pager) (k : Nat) : Bool := !s.pinnedAt k && !s.accessedAt k

/-- What the clock does when its hand passes over a frame. -/
def passFrame (s : Pager) : Pager :=
  if s.pinnedAt s.clockHand then s.advanceHand
  else (s.clearPageAccessed (s.framePages.get s.clockHand)).advanceHand

/-- Some page is that of a frame which is not pinned and over which the hand passes in some steps. -/
def PassedPage (s : Pager) (n d v : Nat) : Prop :=
  ∃ e, e < n ∧ s.pinnedAt (s.handAt e) = false ∧
    (s.pages.get (s.framePages.get (s.handAt e))).directory = d ∧
    (s.pages.get (s.framePages.get (s.handAt e))).page = v

/-- The pager once the hand has passed over some frames: accesses to their pages are forgotten. -/
structure Passed (owner : Owners Holder) (s : Pager) (n : Nat) (t : Pager) : Prop where
  /-- Nothing but memory and the hand changes. -/
  same : t = { s with memory := t.memory, clockHand := t.clockHand }
  hand : t.clockHand = s.handAt n
  /-- In memory only page tables change. -/
  frame : ∀ {f}, (∀ d i, owner f ≠ some (.table d i)) → s.memory.SamePage t.memory f
  cleared : ∀ {d v}, owner d = some .directory → v < 1048576 → s.PassedPage n d v →
    t.cell d v = s.cell d v &&& ~~~vmmPageAccessed
  others : ∀ {d v}, owner d = some .directory → v < 1048576 → ¬ s.PassedPage n d v →
    t.cell d v = s.cell d v

/--
How many frames the hand passes over on its way to the one that is chosen.

It comes to rest on the first frame neither pinned nor accessed. If there is none it passes all of
them, and comes to rest on the first one that is not pinned.
-/
inductive SecondChance (s : Pager) : Nat → Prop where
  | first (n : Nat) (inside : n < 16) (ripe : s.ripeAt (s.handAt n) = true)
      (before : ∀ e, e < n → s.ripeAt (s.handAt e) = false) : SecondChance s n
  | second (n : Nat) (inside : n < 16) (free : s.pinnedAt (s.handAt n) = false)
      (none_ : ∀ e, e < 16 → s.ripeAt (s.handAt e) = false)
      (before : ∀ e, e < n → s.pinnedAt (s.handAt e) = true) : SecondChance s (16 + n)

section Passing

/-- The loop passes over a frame, or comes to rest there. -/
theorem clockScan_succ (left : Nat) (s : Pager) :
    clockScan (left + 1) s =
      if s.ripeAt s.clockHand then (s.clockHand, s) else clockScan left s.passFrame := by
  -- A frame is taken if its page is neither pinned nor accessed.
  unfold passFrame ripeAt accessedAt pinnedAt
  rw [clockScan]
  by_cases pinned : (s.pages.get (s.framePages.get s.clockHand)).pinned = true
  · simp only [pinned, if_true, Bool.not_true, Bool.false_and, Bool.false_eq_true, if_false]
  · by_cases accessed : s.pageWasAccessed (s.framePages.get s.clockHand) = true
    · simp only [pinned, accessed, if_true, if_false, Bool.not_true, Bool.and_false,
        Bool.false_eq_true]
    · simp only [accessed, if_false, Bool.not_false, Bool.and_true, Bool.eq_false_iff.mpr pinned,
        if_true, Bool.false_eq_true]

/-- The loop comes to rest where the first frame is that it takes. -/
theorem clockScan_rests {left : Nat} (budget : n < left)
    (passes : ∀ e, e < n → (passFrame^[e] s).ripeAt (passFrame^[e] s).clockHand = false)
    (rests : (passFrame^[n] s).ripeAt (passFrame^[n] s).clockHand = true) :
    clockScan left s = ((passFrame^[n] s).clockHand, passFrame^[n] s) := by
  -- By induction on the frames passed over.
  induction n generalizing s left with
  | zero =>
    obtain ⟨left, rfl⟩ : ∃ l, left = l + 1 := ⟨left - 1, by omega⟩
    rw [clockScan_succ]
    exact if_pos rests
  | succ n ih =>
    obtain ⟨left, rfl⟩ : ∃ l, left = l + 1 := ⟨left - 1, by omega⟩
    have now := passes 0 (by omega)
    rw [Function.iterate_zero, id] at now
    rw [clockScan_succ, now, if_neg Bool.false_ne_true]
    exact ih (by omega) (fun e below => passes (e + 1) (by omega)) rests

/-- Lowering the accessed flag changes memory only, and there only the page of one table. -/
theorem clearPageAccessed_frame (spaces : Spaces owner s.toVmm) (lives : (s.pages.get i).Lives owner) :
    s.clearPageAccessed i = { s with memory := (s.clearPageAccessed i).memory } ∧
      ∀ {f}, (∀ d i, owner f ≠ some (.table d i)) →
        s.memory.SamePage (s.clearPageAccessed i).memory f := by
  -- The flag lies in the table of the page, and no other word is written.
  have positive := spaces.positive (spaces.directory_inPool lives.live)
  have nonzero := ne_zero_of_page lives.address positive
  unfold clearPageAccessed vmmClearPageAccessedInDirectory
  rw [if_neg (by simpa using nonzero)]
  simp only [pageDirectoryIndex_eq, pageTableIndex_eq, entry_directory lives.address,
    and_pagePresent_eq_zero]
  split
  · exact ⟨rfl, fun _ => .refl _ _⟩
  · next present =>
    have half := PagerPage.page_half lives.half
    have table := spaces.table_owner (i := (s.pages.get i).virtAddr.toNat / 4096 / 1024) lives.live
      (by unfold PagerPage.page at half; omega) (by simpa using present)
    split
    · exact ⟨rfl, fun _ => .refl _ _⟩
    · refine ⟨rfl, fun {f} other => ?_⟩
      unfold Vmm.setEntry
      rw [toNat_pageTableFromDirectory]
      refine samePage_storeWord (Nat.mod_lt _ (by decide)) _ fun same => ?_
      rw [same] at other
      exact other _ _ table

/-- Lowering a flag twice is lowering it once. -/
theorem lower_twice (word : UInt32) :
    (word &&& ~~~vmmPageAccessed) &&& ~~~vmmPageAccessed = word &&& ~~~vmmPageAccessed := by
  rw [UInt32.and_assoc, UInt32.and_self]

/-- A page whose frame the hand has passed is on its way, or the hand is there now. -/
theorem passedPage_succ {d v : Nat} :
    s.PassedPage (n + 1) d v ↔ s.PassedPage n d v ∨
      (s.pinnedAt (s.handAt n) = false ∧
        (s.pages.get (s.framePages.get (s.handAt n))).directory = d ∧
        (s.pages.get (s.framePages.get (s.handAt n))).page = v) := by
  -- The frames passed so far are the earlier ones and the last one.
  unfold PassedPage
  constructor
  · rintro ⟨e, below, passed⟩
    rcases Nat.lt_succ_iff_lt_or_eq.mp below with earlier | rfl
    · exact Or.inl ⟨e, earlier, passed⟩
    · exact Or.inr passed
  · rintro (⟨e, below, passed⟩ | passed)
    · exact ⟨e, by omega, passed⟩
    · exact ⟨n, by omega, passed⟩

/-- The hand passes over one frame after the other, and every page keeps its place. -/
theorem passFrame_passed (ok : Ok owner none s) (full : s.residentFrames = 16) (n : Nat) :
    Passed owner s n (passFrame^[n] s) ∧ Ok owner none (passFrame^[n] s) := by
  have small := ok.books.hand
  induction n with
  | zero =>
    refine ⟨⟨rfl, ?_, fun _ => .refl _ _, fun _ _ passed => ?_, fun _ _ _ => rfl⟩, ok⟩
    · unfold handAt
      rw [Function.iterate_zero, id]
      omega
    · obtain ⟨e, below, -⟩ := passed
      omega
  | succ n ih =>
    obtain ⟨passed, ok'⟩ := ih
    rw [Function.iterate_succ', Function.comp]
    generalize passFrame^[n] s = t at passed ok'
    have pages : t.pages = s.pages := by
      rw [passed.same]
    have frames : t.framePages = s.framePages := by
      rw [passed.same]
    have resident : t.residentFrames = 16 := by
      rw [passed.same]
      exact full
    have same := passed.same
    have hand := passed.hand
    have pinnedAt_ : t.pinnedAt t.clockHand = s.pinnedAt (s.handAt n) := by
      unfold pinnedAt
      rw [pages, frames, hand]
    have next : (t.clockHand + 1) % 16 = s.handAt (n + 1) := by
      rw [hand]
      unfold handAt
      omega
    have inside : t.clockHand < 16 := ok'.books.hand
    obtain ⟨listed, used, -⟩ := ok'.books.listed (k := t.clockHand) (by omega) nofun
    unfold passFrame
    split
    · next pinned =>
      refine ⟨⟨?_, next, passed.frame, fun {d v} live low passes => ?_,
        fun {d v} live low passes => ?_⟩, ok'.sampled (advanceHand_sampled ok'.spaces)⟩
      · unfold advanceHand
        rw [same]
      · rcases passedPage_succ.mp passes with earlier | ⟨free, -⟩
        · exact passed.cleared live low earlier
        · rw [← pinnedAt_, pinned] at free
          cases free
      · exact passed.others live low fun earlier => passes (passedPage_succ.mpr (Or.inl earlier))
    · next free =>
      have lives := ok'.lives listed used
      have cleared := clearPageAccessed_sampled ok'.spaces lives
      obtain ⟨only, frame⟩ := clearPageAccessed_frame ok'.spaces lives
      have unpinned : s.pinnedAt (s.handAt n) = false := by
        rw [← pinnedAt_]
        exact Bool.eq_false_iff.mpr free
      have page : (t.pages.get (t.framePages.get t.clockHand)) =
          s.pages.get (s.framePages.get (s.handAt n)) := by
        rw [pages, frames, hand]
      -- Of all pages only the one in this frame changes, and only its flag does.
      have cells : ∀ {d v}, owner d = some .directory → v < 1048576 →
          (t.clearPageAccessed (t.framePages.get t.clockHand)).cell d v =
            if d = (t.pages.get (t.framePages.get t.clockHand)).directory ∧
                v = (t.pages.get (t.framePages.get t.clockHand)).page then
              t.cell d v &&& ~~~vmmPageAccessed
            else t.cell d v := by
        intro d v live low
        unfold clearPageAccessed
        rcases vmmClearPageAccessedInDirectory_cases ok'.spaces lives.live lives.address lives.half
          with ⟨result, absent⟩ | ⟨u, result, -, change⟩
        · obtain ⟨listed, used, present⟩ := ok'.books.listed (k := t.clockHand) (by omega) nofun
          exact nomatch absent.symm.trans (ok'.frames listed used present).mapped
        · rw [result]
          refine (change.cells live low).trans ?_
          split
          · next here =>
            obtain ⟨rfl, rfl⟩ := here
            rw [if_pos ⟨rfl, rfl⟩]
          · next other => exact (if_neg other).symm
      refine ⟨⟨?_, next, fun {f} plain => ?_, fun {d v} live low passes => ?_,
        fun {d v} live low passes => ?_⟩,
        ok'.sampled (cleared.trans (advanceHand_sampled cleared.vmm.spaces))⟩
      · unfold advanceHand
        rw [only, same]
      · exact (passed.frame plain).trans (frame plain)
      · refine (cells live low).trans ?_
        rw [page]
        split
        · by_cases earlier : s.PassedPage n d v
          · rw [passed.cleared live low earlier, lower_twice]
          · rw [passed.others live low earlier]
        · next other =>
          rcases passedPage_succ.mp passes with earlier | ⟨-, rfl, rfl⟩
          · exact passed.cleared live low earlier
          · exact absurd ⟨rfl, rfl⟩ other
      · refine (cells live low).trans ?_
        rw [page]
        split
        · next here =>
          exact absurd (passedPage_succ.mpr (Or.inr ⟨unpinned, here.1.symm, here.2.symm⟩)) passes
        · exact passed.others live low fun earlier => passes (passedPage_succ.mpr (Or.inl earlier))

/-- The accesses to the page in a frame are forgotten once the hand has passed over it. -/
theorem Passed.accessedAt (passed : Passed owner s n t) (ok : Ok owner none s) (ok' : Ok owner none t)
    (full : s.residentFrames = 16) (inside : k < 16) :
    (s.pinnedAt k = false → (∃ e, e < n ∧ s.handAt e = k) → t.accessedAt k = false) ∧
      ((∀ e, e < n → s.handAt e ≠ k) → t.accessedAt k = s.accessedAt k) := by
  have pages : t.pages = s.pages := by
    rw [passed.same]
  have frames : t.framePages = s.framePages := by
    rw [passed.same]
  obtain ⟨listed, used, -⟩ := ok.books.listed (k := k) (by omega) nofun
  have lives := ok.lives listed used
  have half := PagerPage.page_half lives.half
  have after : t.accessedAt k = flagOf (t.cell (s.pages.get (s.framePages.get k)).directory
      (s.pages.get (s.framePages.get k)).page) 5 := by
    unfold Pager.accessedAt
    rw [pageWasAccessed_eq ok'.spaces (by rw [pages, frames]; exact lives), pages, frames]
  rw [after]
  constructor
  · rintro free ⟨e, below, rfl⟩
    rw [passed.cleared lives.live (by omega) ⟨e, below, free, rfl, rfl⟩, flagOf_and]
    exact Bool.and_false _
  · intro ahead
    rw [passed.others lives.live (by omega)]
    · exact (pageWasAccessed_eq ok.spaces lives).symm
    · -- No other frame holds the same page.
      rintro ⟨e, below, -, directory, page⟩
      have inside' : s.handAt e < 16 := Nat.mod_lt _ (by decide)
      obtain ⟨listed', used', -⟩ := ok.books.listed (k := s.handAt e) (by omega) nofun
      have same := ok.apart listed' listed used' used directory page
      exact ahead e below (ok.books.distinct (by omega) (by omega) nofun nofun same)

end Passing

/--
The clock gives every frame that is not pinned a second chance, and then takes one.

It forgets the accesses to exactly the pages it passes over that are not pinned. The number of
frames it may pass over at most does not matter.
-/
theorem chooseClockVictimFrame_exact (ok : Ok owner none s) (full : s.residentFrames = 16)
    (inside : k < 16) (free : s.pinnedAt k = false) :
    ∃ n, n < 32 ∧ SecondChance s n ∧ s.chooseClockVictimFrame.1 = s.handAt n ∧
      Passed owner s n s.chooseClockVictimFrame.2 ∧
      ∀ left, n < left → clockScan left s = s.chooseClockVictimFrame := by
  have small := ok.books.hand
  -- Whether a frame is taken when the hand comes there, on the first round and on the second.
  have pinned : ∀ e, (passFrame^[e] s).pinnedAt (passFrame^[e] s).clockHand =
      s.pinnedAt (s.handAt e) := by
    intro e
    obtain ⟨passed, -⟩ := passFrame_passed ok full e
    unfold pinnedAt
    rw [passed.hand, passed.same]
  have first : ∀ e, e < 16 → (passFrame^[e] s).ripeAt (passFrame^[e] s).clockHand =
      s.ripeAt (s.handAt e) := by
    intro e low
    obtain ⟨passed, ok'⟩ := passFrame_passed ok full e
    obtain ⟨-, same⟩ := passed.accessedAt ok ok' full (k := s.handAt e) (Nat.mod_lt _ (by decide))
    unfold ripeAt
    rw [pinned e, passed.hand, same]
    intro e' below
    unfold handAt
    omega
  have second : ∀ e, e < 16 → (passFrame^[16 + e] s).ripeAt (passFrame^[16 + e] s).clockHand =
      !s.pinnedAt (s.handAt e) := by
    intro e low
    obtain ⟨passed, ok'⟩ := passFrame_passed ok full (16 + e)
    have again : s.handAt (16 + e) = s.handAt e := by
      unfold handAt
      omega
    obtain ⟨cleared, -⟩ := passed.accessedAt ok ok' full (k := s.handAt e) (Nat.mod_lt _ (by decide))
    unfold ripeAt
    rw [pinned (16 + e), passed.hand, again]
    cases held : s.pinnedAt (s.handAt e) with
    | true => rfl
    | false =>
      rw [cleared held ⟨e, by omega, rfl⟩]
      rfl
  -- Wherever the hand comes to rest, the loop ends there, whatever its budget.
  have rests : ∀ n, n < 32 → SecondChance s n →
      (∀ e, e < n → (passFrame^[e] s).ripeAt (passFrame^[e] s).clockHand = false) →
      (passFrame^[n] s).ripeAt (passFrame^[n] s).clockHand = true →
      ∃ n, n < 32 ∧ SecondChance s n ∧ s.chooseClockVictimFrame.1 = s.handAt n ∧
        Passed owner s n s.chooseClockVictimFrame.2 ∧
        ∀ left, n < left → clockScan left s = s.chooseClockVictimFrame := by
    intro n below chance passes stops
    have ends : s.chooseClockVictimFrame = ((passFrame^[n] s).clockHand, passFrame^[n] s) :=
      clockScan_rests below passes stops
    obtain ⟨passed, -⟩ := passFrame_passed ok full n
    refine ⟨n, below, chance, by rw [ends]; exact passed.hand, by rw [ends]; exact passed,
      fun left budget => ?_⟩
    rw [ends, clockScan_rests budget passes stops]
  by_cases some_ : ∃ e, e < 16 ∧ s.ripeAt (s.handAt e) = true
  · -- The first frame that is neither pinned nor accessed.
    have least := Nat.find_spec some_
    have before := fun {e} => @Nat.find_min _ _ some_ e
    generalize Nat.find some_ = n at least before
    have passes : ∀ e, e < n → s.ripeAt (s.handAt e) = false := fun e below =>
      Bool.eq_false_iff.mpr fun ripe => before below ⟨by omega, ripe⟩
    refine rests n (by omega) (.first n least.1 least.2 passes) (fun e below => ?_) ?_
    · rw [first e (by omega)]
      exact passes e below
    · rw [first n least.1]
      exact least.2
  · -- Every frame is passed on the first round, and the first one that is not pinned is taken.
    have none_ : ∀ e, e < 16 → s.ripeAt (s.handAt e) = false := fun e low =>
      Bool.eq_false_iff.mpr fun ripe => some_ ⟨e, low, ripe⟩
    have loose : ∃ e, e < 16 ∧ s.pinnedAt (s.handAt e) = false := by
      refine ⟨(k + 16 - s.clockHand) % 16, Nat.mod_lt _ (by decide), ?_⟩
      have there : s.handAt ((k + 16 - s.clockHand) % 16) = k := by
        unfold handAt
        omega
      rw [there]
      exact free
    have least := Nat.find_spec loose
    have before := fun {e} => @Nat.find_min _ _ loose e
    generalize Nat.find loose = n at least before
    have passes : ∀ e, e < n → s.pinnedAt (s.handAt e) = true := fun e below => by
      by_contra unpinned
      exact before below ⟨by omega, Bool.eq_false_iff.mpr unpinned⟩
    refine rests (16 + n) (by omega) (.second n least.1 least.2 none_ passes) (fun e below => ?_) ?_
    · by_cases low : e < 16
      · rw [first e low]
        exact none_ e low
      · obtain ⟨e, rfl⟩ : ∃ e', e = 16 + e' := ⟨e - 16, by omega⟩
        rw [second e (by omega), passes e (by omega)]
        rfl
    · rw [second n least.1, least.2]
      rfl

section Example

/-- As many pages as there are frames, each brought in once, and the first of them pinned. -/
def fullCalls : List PagerCall :=
  (List.range 16).map (fun k => .register 8192 (crowdPage k) 6 none 0) ++
    ((List.range 16).map (fun k => .load (crowdPage k)) ++ [.pin 8192 (crowdPage 0) true])

/-- The pager with a page in every frame. -/
def fullPager : Pager :=
  (runState pagingStep (pagingStart (loadedPager pagedMachine) pagedLive) fullCalls).pager

/-- The pager is in order with all frames in use. -/
theorem fullPager_ok : ∃ owner, Ok owner none fullPager := by
  -- The run is permitted, as can be computed.
  have along : allowedAlong pagingStep (fun p call => decide (p.Permits call))
      (pagingStart (loadedPager pagedMachine) pagedLive) fullCalls = true := by
    decide +kernel
  obtain ⟨owner, ok⟩ := pagingRun_ok pagedMachine_starts rfl fullCalls fun before call after split =>
    of_decide_eq_true (allowedAlong_spec pagingStep along split)
  exact ⟨owner, ok.pager⟩

/-- With all pages accessed and the first one pinned, the clock takes the second frame. -/
theorem chooseClockVictimFrame_small :
    ∃ n, n < 32 ∧ SecondChance fullPager n ∧ fullPager.handAt n = 1 := by
  -- The second frame is not pinned, and its distance from the hand is computed.
  obtain ⟨owner, ok⟩ := fullPager_ok
  obtain ⟨n, below, chance, chosen, -⟩ := chooseClockVictimFrame_exact ok
    (show fullPager.residentFrames = 16 by decide +kernel) (k := 1) (by decide)
    (show fullPager.pinnedAt 1 = false by decide +kernel)
  have victim : fullPager.chooseClockVictimFrame.1 = 1 := by decide +kernel
  exact ⟨n, below, chance, chosen.symm.trans victim⟩

end Example

end MyOS.Mm.Pager
