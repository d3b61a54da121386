import MyOS.Lib.Recency
import MyOS.Mm.PagerRuns

/-! Which frame is chosen as the one whose page was used longest ago. -/

namespace MyOS.Mm

open Pager

namespace Pager

variable (s : Pager)

/-- The page that `sample_page_usage` marks, if it was accessed. -/
def sampleMarks (i : Nat) : List Nat := if s.pageWasAccessed i then [i] else []

/-- The pages that the loop of `pager_sample_usage` marks, the latest first. -/
def loopMarks : List Nat → Pager → List Nat
  | [], _ => []
  | slot :: rest, s =>
    loopMarks rest (s.samplePageUsage (s.framePages.get slot)) ++ s.sampleMarks (s.framePages.get slot)

/-- The pages that the loop of `choose_lru_victim_frame` marks, the latest first. -/
def scanMarks : List Nat → Pager → List Nat
  | [], _ => []
  | slot :: rest, s =>
    let i := s.framePages.get slot
    if (s.pages.get i).pinned then scanMarks rest s
    else scanMarks rest (s.samplePageUsage i) ++ s.sampleMarks i

/-- The pages that the choice of a victim marks. -/
def victimMarks : List Nat :=
  if s.residentFrames < pagerFrameLimit then []
  else if s.currentAlgorithm = .lru then scanMarks (List.range s.residentFrames) s
  else []

/-- The pages that `page_in` marks: those the choice of a victim does, and the one brought in. -/
def pageInMarks (i : Nat) : List Nat :=
  (if (s.pageIn i).1 then [i] else []) ++
    ({ s with
      pageFaults := s.pageFaults + 1
      lastFaultAddr := (s.pages.get i).virtAddr } : Pager).victimMarks

/-- The pages that a page fault marks. -/
def faultMarks (faultAddr errCode : UInt32) : List Nat :=
  if !s.pagerReady || errCode &&& 0x01 != 0 then []
  else
    match s.findPageByVirt s.currentPageDirectoryPhys faultAddr with
    | none => []
    | some i => if (s.pages.get i).present then [] else s.pageInMarks i

/-- The pages that an access of a program marks. -/
def attemptMarks {α : Type} (virtAddr errCode : UInt32) (access : Vmm → Except Fault α × Vmm) :
    List Nat :=
  match (access s.toVmm).1 with
  | .error .notPresent => s.faultMarks virtAddr errCode
  | _ => []

end Pager

/-- The pages that a call marks, the latest first. -/
def Paging.marks (p : Paging) : PagerCall → List Nat
  | .sampleUsage =>
    if !p.pager.pagerReady then [] else loopMarks (List.range p.pager.residentFrames) p.pager
  | .fault faultAddr errCode => p.pager.faultMarks faultAddr errCode
  | .load virtAddr =>
    p.pager.attemptMarks virtAddr 4 (userRead p.pager.currentPageDirectoryPhys virtAddr)
  | .store virtAddr value =>
    p.pager.attemptMarks virtAddr 6 (userWrite p.pager.currentPageDirectoryPhys virtAddr value)
  | .register _ _ _ _ _ | .pin _ _ _ | .setAlgorithm _ | .unregister _ _ | .switch _ | .createSpace
  | .destroySpace _ => []

/-- The pages that a run marks, the latest first. -/
def markHistory : Paging → List PagerCall → List Nat
  | _, [] => []
  | p, call :: rest => markHistory (pagingStep p call).2 rest ++ p.marks call

/-- The ticks of the pages in memory tell when each of them was last marked. -/
structure Marked (history : List Nat) (s : Pager) : Prop where
  count : s.usageTick.toNat = history.length
  resident : ∀ {i}, i < 128 → (s.pages.get i).used = true → (s.pages.get i).present = true →
    (s.pages.get i).lastUsedTick.toNat = lastAt history i ∧ 0 < lastAt history i

namespace Marked

variable {owner owner' : Owners Holder} {hole : Option Nat} {history : List Nat} {s t : Pager}
  {i slot : Nat}

/-- Steps that mark no page, and bring none into memory. -/
theorem fewer (marked : Marked history s) (tick : t.usageTick = s.usageTick)
    (pages : ∀ j, j < 128 → (t.pages.get j).used = true → (t.pages.get j).present = true →
      (s.pages.get j).used = true ∧ (s.pages.get j).present = true ∧
        (t.pages.get j).lastUsedTick = (s.pages.get j).lastUsedTick) : Marked history t := by
  -- The marks of the pages that are in memory are those they had.
  refine ⟨by rw [tick]; exact marked.count, fun {j} inside used present => ?_⟩
  obtain ⟨used', present', same⟩ := pages j inside used present
  rw [same]
  exact marked.resident inside used' present'

/-- A page is marked, and with it may have come into memory. -/
theorem mark (marked : Marked history s) (room : history.length + 1 < 2 ^ 32) (inside : i < 128)
    (tick : t.usageTick = s.usageTick)
    (pages : ∀ j, j < 128 → j ≠ i → (t.pages.get j).used = true → (t.pages.get j).present = true →
      (s.pages.get j).used = true ∧ (s.pages.get j).present = true ∧
        (t.pages.get j).lastUsedTick = (s.pages.get j).lastUsedTick) :
    Marked (i :: history) (t.markPageUsed i) := by
  -- The tick goes on by one and does not wrap, so the new mark is the latest.
  have next : (if t.usageTick + 1 == 0 then 1 else t.usageTick + 1).toNat = history.length + 1 := by
    have count := marked.count
    have sum : (t.usageTick + 1).toNat = history.length + 1 := by
      rw [UInt32.toNat_add, tick, count]
      exact Nat.mod_eq_of_lt room
    rw [if_neg, sum]
    rw [beq_iff_eq, ← UInt32.toNat_inj, sum]
    exact Nat.succ_ne_zero _
  have slots : ∀ j, j < 128 → (t.markPageUsed i).pages.get j =
      if j = i then { t.pages.get i with
        lastUsedTick := if t.usageTick + 1 == 0 then 1 else t.usageTick + 1 }
      else t.pages.get j := fun j small => FixedArray.get_set _ _ small
  refine ⟨next, fun {j} small used present => ?_⟩
  rw [slots j small] at used present ⊢
  split at used
  · next here =>
    subst here
    rw [if_pos rfl, lastAt_cons_self]
    exact ⟨next, Nat.succ_pos _⟩
  · next other =>
    rw [if_neg other] at present ⊢
    rw [lastAt_cons_other (Ne.symm other)]
    obtain ⟨used', present', same⟩ := pages j small other used present
    rw [same]
    exact marked.resident small used' present'

/-- A page is marked if it was accessed. -/
theorem sample (marked : Marked history s) (room : (s.sampleMarks i ++ history).length < 2 ^ 32)
    (inside : i < 128) : Marked (s.sampleMarks i ++ history) (s.samplePageUsage i) := by
  -- Without an access there is neither a mark nor a change.
  unfold sampleMarks samplePageUsage at *
  split
  · next accessed =>
    rw [if_pos accessed] at room
    have now := marked.mark (t := s) room inside rfl fun _ _ _ used present => ⟨used, present, rfl⟩
    exact now.fewer rfl fun _ _ used present => ⟨used, present, rfl⟩
  · exact marked

/-- The loop over the frames marks the pages that were accessed. -/
theorem loop (marked : Marked history s) (ok : Ok owner none s) {slots : List Nat}
    (inside : ∀ k ∈ slots, k < s.residentFrames)
    (room : (loopMarks slots s ++ history).length < 2 ^ 32) :
    Marked (loopMarks slots s ++ history)
      (slots.foldl (fun s slot => s.samplePageUsage (s.framePages.get slot)) s) := by
  -- By induction on the frames, each of which is looked at once.
  induction slots generalizing s history with
  | nil => exact marked
  | cons slot rest ih =>
    obtain ⟨small, used, -⟩ := ok.books.listed (inside slot List.mem_cons_self) nofun
    have looked := samplePageUsage_sampled ok.spaces small (ok.lives small used)
    unfold loopMarks at room ⊢
    rw [List.append_assoc] at room ⊢
    rw [List.length_append] at room
    have first := marked.sample (i := s.framePages.get slot) (by omega) small
    refine ih first (ok.sampled looked) (fun k member => ?_) ?_
    · rw [looked.resident]
      exact inside k (List.mem_cons_of_mem _ member)
    · rw [List.length_append]
      exact room

/-- The loop of the choice of a victim marks the pages that were accessed and are not pinned. -/
theorem scan (marked : Marked history s) (ok : Ok owner none s) {slots : List Nat}
    (inside : ∀ k ∈ slots, k < s.residentFrames) (best : LruBest)
    (room : (scanMarks slots s ++ history).length < 2 ^ 32) :
    Marked (scanMarks slots s ++ history) (lruScan slots best s).2 := by
  -- By induction on the frames: a pinned one is passed over, any other is looked at first.
  induction slots generalizing s history best with
  | nil => exact marked
  | cons slot rest ih =>
    obtain ⟨small, used, -⟩ := ok.books.listed (inside slot List.mem_cons_self) nofun
    have later := fun k member => inside k (List.mem_cons_of_mem _ member)
    unfold scanMarks at room ⊢
    unfold lruScan
    simp only at room ⊢
    split
    · next pinned =>
      rw [if_pos pinned] at room
      exact ih marked ok later best room
    · next free =>
      rw [if_neg free, List.append_assoc] at room
      rw [List.append_assoc]
      have looked := samplePageUsage_sampled ok.spaces small (ok.lives small used)
      have first := marked.sample (i := s.framePages.get slot)
        (by rw [List.length_append] at room; omega) small
      have later' : ∀ k ∈ rest, k < (s.samplePageUsage (s.framePages.get slot)).residentFrames := by
        rw [looked.resident]
        exact later
      split
      · exact ih first (ok.sampled looked) later' _ room
      · exact ih first (ok.sampled looked) later' best room

/-- The clock marks nothing. -/
theorem clock (marked : Marked history s) (left : Nat) : Marked history (clockScan left s).2 := by
  -- By induction on the budget: the hand clears flags, and no tick changes.
  induction left generalizing s with
  | zero => exact marked
  | succ left ih =>
    unfold clockScan
    simp only
    split
    · exact ih (marked.fewer rfl fun _ _ used present => ⟨used, present, rfl⟩)
    · split
      · exact ih (marked.fewer rfl fun _ _ used present => ⟨used, present, rfl⟩)
      · exact marked

/-- A frame is made free, and what was accessed is marked if a victim had to be chosen. -/
theorem take (marked : Marked history s) (ok : Ok owner none s)
    (room : (s.victimMarks ++ history).length < 2 ^ 32) (done : s.takeFrame.1 = some slot) :
    Marked (s.victimMarks ++ history) s.takeFrame.2 := by
  have limit := ok.books.resident
  unfold victimMarks takeFrame at *
  split
  · next below =>
    rw [if_pos below] at room
    exact marked.fewer rfl fun _ _ used present => ⟨used, present, rfl⟩
  · next full_ =>
    rw [if_neg full_] at room done
    have full : s.residentFrames = 16 := by
      change ¬ s.residentFrames < 16 at full_
      omega
    have inside : s.chooseVictimFrame.1 < 16 ∧ Sampled owner s s.chooseVictimFrame.2 := by
      obtain ⟨inside, sampled, -⟩ := chooseVictimFrame_spec ok full
      exact ⟨inside, sampled⟩
    have chosen : Marked ((if s.currentAlgorithm = .lru then scanMarks (List.range s.residentFrames) s
        else []) ++ history) s.chooseVictimFrame.2 := by
      unfold chooseVictimFrame
      split
      · next lru =>
        rw [if_pos lru] at room
        unfold chooseLruVictimFrame
        exact marked.scan ok (fun k member => List.mem_range.mp member) _ room
      · exact marked.clock _
    generalize s.chooseVictimFrame = choice at inside chosen done
    obtain ⟨victim, t⟩ := choice
    obtain ⟨below, sampled⟩ := inside
    simp only at chosen done below sampled ⊢
    have there : victim < t.residentFrames := by
      rw [sampled.resident, full]
      exact below
    obtain ⟨small, -⟩ := (ok.sampled sampled).books.listed there nofun
    unfold evictFrame swapWriteSlot at done ⊢
    simp only at done ⊢
    generalize Ata.writeSectors _ _ _ = result at done
    obtain ⟨written, disk⟩ := result
    cases written with
    | false => cases done
    | true =>
      simp only
      -- The victim leaves memory, and no other page changes.
      obtain ⟨-, pages, -⟩ := forgetFrame_fields { t with disk } (t.framePages.get victim)
      have tick : (Pager.forgetFrame { t with disk } (t.framePages.get victim)).usageTick =
          t.usageTick := by
        unfold forgetFrame recordVictim
        simp only
        split <;> rfl
      refine chosen.fewer tick fun j inside used present => ?_
      rw [pages, FixedArray.get_set _ _ inside] at used present ⊢
      split at present
      · cases present
      · next other =>
        rw [if_neg other] at used ⊢
        exact ⟨used, present, rfl⟩

/-- A page that comes into memory is marked. -/
theorem fill (marked : Marked history s) (room : history.length + 1 < 2 ^ 32) (inside : i < 128)
    (done : (s.fillFrame i slot).1 = true) : Marked (i :: history) (s.fillFrame i slot).2 := by
  -- Each step succeeded, and the last one marks the page.
  unfold fillFrame at done ⊢
  simp only [swapReadSlot] at done ⊢
  generalize s.toVmm.alloc = result at done
  obtain ⟨physAddr, vmm⟩ := result
  simp only at done ⊢
  split at done
  · cases done
  · next some_ =>
    rw [if_neg some_]
    generalize s.disk.readSectors _ _ = result at done
    obtain ⟨sectors, disk⟩ := result
    cases sectors with
    | none => cases done
    | some sectors =>
      simp only [Option.map_some] at done ⊢
      generalize vmmMapPageInDirectory _ _ physAddr _ _ = result at done
      obtain ⟨success, u⟩ := result
      cases success with
      | false => cases done
      | true =>
        simp only
        unfold settleFrame
        refine (marked.mark (t := setPage _ i _) room inside rfl fun j small other used present => ?_).fewer
          rfl fun _ _ used present => ⟨used, present, rfl⟩
        change ((s.pages.set i _).get j).used = true at used
        change ((s.pages.set i _).get j).present = true at present
        change _ ∧ _ ∧ ((s.pages.set i _).get j).lastUsedTick = _
        rw [FixedArray.get_set _ _ small, if_neg other] at used present ⊢
        exact ⟨used, present, rfl⟩

/-- A page is brought in. -/
theorem pageIn (marked : Marked history s) (ok : Ok owner none s) (inside : i < 128)
    (room : (s.pageInMarks i ++ history).length < 2 ^ 32) (done : (s.pageIn i).1 = true) :
    Marked (s.pageInMarks i ++ history) (s.pageIn i).2 := by
  -- The fault is noted, a frame is found, which may mark pages, and filled, which marks this one.
  have noted := Sampled.noteFault ok.spaces (s.pages.get i).virtAddr
  have ok' := ok.sampled noted
  unfold pageInMarks at room ⊢
  rw [if_pos done] at room ⊢
  have before : Marked history { s with
      pageFaults := s.pageFaults + 1
      lastFaultAddr := (s.pages.get i).virtAddr } :=
    marked.fewer rfl fun _ _ used present => ⟨used, present, rfl⟩
  unfold Pager.pageIn at done ⊢
  simp only at done ⊢
  generalize ({ s with
    pageFaults := s.pageFaults + 1
    lastFaultAddr := (s.pages.get i).virtAddr } : Pager) = u at *
  rw [List.append_assoc, List.singleton_append, List.length_cons] at room
  have taken := fun slot => @take owner history u slot before ok' (by omega)
  generalize u.takeFrame = result at taken done
  obtain ⟨first, m⟩ := result
  cases first with
  | none => cases done
  | some slot =>
    rw [List.append_assoc, List.singleton_append]
    exact (taken slot rfl).fill room inside done

/-- A page that a page fault asks for is brought in. -/
theorem fault (marked : Marked history s) (ok : Ok owner none s) (faultAddr errCode : UInt32)
    (room : (s.faultMarks faultAddr errCode ++ history).length < 2 ^ 32)
    (served : ∀ i, s.Needs faultAddr i → (s.pageIn i).1 = true) :
    Marked (s.faultMarks faultAddr errCode ++ history)
      (pagerHandlePageFault s faultAddr errCode).2 := by
  -- The branches of the function: only the last one brings a page in.
  unfold faultMarks pagerHandlePageFault at *
  split
  · exact marked
  · next valid =>
    rw [if_neg valid] at room
    cases found : s.findPageByVirt s.currentPageDirectoryPhys faultAddr with
    | none => exact marked
    | some i =>
      simp only [found] at room ⊢
      split
      · exact marked
      · next absent =>
        rw [if_neg absent] at room
        have absent' : (s.pages.get i).present = false := Bool.eq_false_iff.mpr absent
        exact marked.pageIn ok (findPageByVirt_some found).1 room (served i ⟨found, absent'⟩)

/-- A page that an access of a program asks for is brought in. -/
theorem attempt {α : Type} (marked : Marked history s) (ok : Ok owner none s)
    (virtAddr errCode : UInt32) (access : Vmm → Except Fault α × Vmm)
    (room : (s.attemptMarks virtAddr errCode access ++ history).length < 2 ^ 32)
    (served : ∀ i, s.Needs virtAddr i → (s.pageIn i).1 = true) :
    Marked (s.attemptMarks virtAddr errCode access ++ history)
      (s.attempt virtAddr errCode access).2 := by
  -- The access is tried, and tried once more after the fault.
  have through : ∀ {history : List Nat} {s : Pager}, Marked history s →
      Marked history (s.through access).2 :=
    fun marked => marked.fewer rfl fun _ _ used present => ⟨used, present, rfl⟩
  unfold attemptMarks Pager.attempt at *
  cases result : (access s.toVmm).1 with
  | ok value => exact through marked
  | error reason =>
    cases reason with
    | protection => exact through marked
    | notPresent =>
      simp only [result] at room ⊢
      have resolved := marked.fault ok virtAddr errCode room served
      generalize pagerHandlePageFault s virtAddr errCode = handled at resolved
      obtain ⟨done, t⟩ := handled
      cases done with
      | false => exact resolved
      | true => exact through resolved

/-- Registering a page brings none into memory. -/
theorem register (marked : Marked history s) {dir virtAddr flags : UInt32} {bytes : Nat → UInt8}
    {done : Bool} (registers : Registers s dir virtAddr flags bytes done t) : Marked history t := by
  -- A new entry is not in memory, and the rights of an old one are no mark.
  cases registers with
  | refused => exact marked
  | again i disk done inside found written =>
    refine marked.fewer rfl fun j small used present => ?_
    change ((s.pages.set i _).get j).used = true at used
    change ((s.pages.set i _).get j).present = true at present
    change _ ∧ _ ∧ ((s.pages.set i _).get j).lastUsedTick = _
    rw [FixedArray.get_set _ _ small] at used present ⊢
    split at used
    · next here =>
      subst here
      rw [if_pos rfl] at present
      exact ⟨used, present, by rw [if_pos rfl]⟩
    · next other =>
      rw [if_neg other] at present
      exact ⟨used, present, by rw [if_neg other]⟩
  | failed i disk lost => exact marked.fewer rfl fun _ _ used present => ⟨used, present, rfl⟩
  | entered i disk inside free aligned some_ missing written =>
    refine marked.fewer rfl fun j small used present => ?_
    change ((s.pages.set i _).get j).used = true at used
    change ((s.pages.set i _).get j).present = true at present
    change _ ∧ _ ∧ ((s.pages.set i _).get j).lastUsedTick = _
    rw [FixedArray.get_set _ _ small] at used present ⊢
    split at present
    · cases present
    · next other =>
      rw [if_neg other] at used
      exact ⟨used, present, by rw [if_neg other]⟩

/-- Giving a page up brings none into memory. -/
theorem unregister (marked : Marked history s) (ok : Ok owner none s) (dir virtAddr : UInt32) :
    Marked history (pagerUnregisterPage s dir virtAddr) := by
  -- The entries that stay keep their marks.
  rcases pagerUnregisterPage_cases ok dir virtAddr with ⟨same, -⟩ | ⟨i, owner', found, gone⟩
  · rw [same]
    exact marked
  · obtain ⟨inside, -⟩ := findPageByVirt_some found
    obtain ⟨p, unused, pages⟩ := gone.pages
    have tick : (pagerUnregisterPage s dir virtAddr).usageTick = s.usageTick := by
      unfold pagerUnregisterPage clearEntry releaseFrame dropFrame
      split
      · rfl
      · split
        · rfl
        · split
          · simp only
            split <;> rfl
          · rfl
    refine marked.fewer tick fun j small used present => ?_
    rw [pages, FixedArray.get_set _ _ small] at used present ⊢
    split at used
    · exact nomatch unused.symm.trans used
    · next other =>
      rw [if_neg other] at present ⊢
      exact ⟨used, present, rfl⟩

end Marked

namespace Paging.Ok

variable {owner : Owners Holder} {p : Paging} {history : List Nat}

/-- Every call marks the pages that it is said to mark. -/
theorem step_marked (ok : Paging.Ok owner p) (marked : Marked history p.pager) (call : PagerCall)
    (permitted : p.Permits call) (room : (p.marks call ++ history).length < 2 ^ 32) :
    Marked (p.marks call ++ history) (pagingStep p call).2.pager := by
  -- One case for each call, by the lemma about its function.
  obtain ⟨admitted, served⟩ := permitted
  cases call with
  | register dir virtAddr flags data dataSize =>
    exact marked.register (pagerRegisterPageData_cases p.pager dir virtAddr flags data dataSize)
  | pin dir virtAddr pinned =>
    simp only [pagingStep]
    unfold pagerPinPageInDirectory
    split
    · exact marked
    · split
      · exact marked
      · next i found =>
        refine marked.fewer rfl fun j small used present => ?_
        change ((p.pager.pages.set i _).get j).used = true at used
        change ((p.pager.pages.set i _).get j).present = true at present
        change _ ∧ _ ∧ ((p.pager.pages.set i _).get j).lastUsedTick = _
        rw [FixedArray.get_set _ _ small] at used present ⊢
        split at used
        · next here =>
          subst here
          rw [if_pos rfl] at present
          exact ⟨used, present, by rw [if_pos rfl]⟩
        · next other =>
          rw [if_neg other] at present
          exact ⟨used, present, by rw [if_neg other]⟩
  | sampleUsage =>
    simp only [pagingStep, Paging.marks] at room ⊢
    unfold pagerSampleUsage
    rw [ok.pager.ready] at room ⊢
    exact marked.loop ok.pager (fun k member => List.mem_range.mp member) room
  | setAlgorithm algorithm => exact marked.fewer rfl fun _ _ used present => ⟨used, present, rfl⟩
  | unregister dir virtAddr => exact marked.unregister ok.pager dir virtAddr
  | fault faultAddr errCode => exact marked.fault ok.pager faultAddr errCode room (served _ rfl)
  | switch dir => exact marked.fewer rfl fun _ _ used present => ⟨used, present, rfl⟩
  | load virtAddr => exact marked.attempt ok.pager virtAddr 4 _ room (served _ rfl)
  | store virtAddr value => exact marked.attempt ok.pager virtAddr 6 _ room (served _ rfl)
  | createSpace =>
    simp only [pagingStep]
    unfold Paging.createSpace
    split <;> exact marked.fewer rfl fun _ _ used present => ⟨used, present, rfl⟩
  | destroySpace dir => exact marked.fewer rfl fun _ _ used present => ⟨used, present, rfl⟩

/-- After every run the ticks of the pages in memory tell when each of them was last marked. -/
theorem run_marked (ok : Paging.Ok owner p) (marked : Marked history p.pager) {calls : List PagerCall}
    (permitted : ∀ before call after, calls = before ++ call :: after →
      (runState pagingStep p before).Permits call)
    (room : (markHistory p calls ++ history).length < 2 ^ 32) :
    Marked (markHistory p calls ++ history) (runState pagingStep p calls).pager := by
  -- By induction on the calls, and on the marks they add.
  induction calls generalizing p owner history with
  | nil => exact marked
  | cons call rest ih =>
    have now := permitted [] call rest rfl
    obtain ⟨owner', ok'⟩ := ok.step call now
    unfold markHistory at room ⊢
    rw [List.append_assoc] at room ⊢
    have step := ok.step_marked marked call now (by
      rw [List.length_append] at room
      omega)
    refine ih ok' step (fun before call' after split => ?_) room
    exact permitted (call :: before) call' after (by rw [split]; rfl)

end Paging.Ok

namespace Pager

/-- The tick of the page in a frame. -/
def tickAt (s : Pager) (k : Nat) : UInt32 := (s.pages.get (s.framePages.get k)).lastUsedTick

/-- What the choice of a victim knows about the frames it has passed. -/
structure LruBest.Least (s : Pager) (passed : List Nat) (best : LruBest) : Prop where
  chosen : best.found = true → best.slot ∈ passed ∧ s.pinnedAt best.slot = false ∧
    best.tick = s.tickAt best.slot
  least : ∀ l ∈ passed, s.pinnedAt l = false → best.found = true ∧ best.tick ≤ s.tickAt l

section Scanning

variable {owner : Owners Holder} {s : Pager} {i j k : Nat}

/-- Counting an access to one page leaves what is known about another one as it is. -/
theorem samplePageUsage_other (ok : Ok owner none s) (inside : i < 128)
    (used : (s.pages.get i).used = true) (present : (s.pages.get i).present = true)
    (inside' : j < 128) (used' : (s.pages.get j).used = true) (other : j ≠ i) :
    (s.samplePageUsage i).pages.get j = s.pages.get j ∧
      (s.samplePageUsage i).pageWasAccessed j = s.pageWasAccessed j := by
  -- The use is counted in another entry, and the flag cleared in another page's.
  unfold samplePageUsage
  split
  · have marked := @markPageUsed_sampled owner s ok.spaces i
    have ok' := ok.sampled marked
    have entry : ∀ l, l < 128 → (s.markPageUsed i).pages.get l =
        if l = i then _ else s.pages.get l := fun l small => FixedArray.get_set _ _ small
    have mine : (s.markPageUsed i).pages.get j = s.pages.get j := by
      rw [entry j inside', if_neg other]
    have there : ((s.markPageUsed i).pages.get i).used = true ∧
        ((s.markPageUsed i).pages.get i).present = true := by
      rw [entry i inside, if_pos rfl]
      exact ⟨used, present⟩
    refine ⟨mine, ?_⟩
    rw [clearPageAccessed_accessed ok' inside there.1 there.2 inside' (by rw [mine]; exact used'),
      if_neg other]
    unfold pageWasAccessed
    rw [mine]
    rfl
  · exact ⟨rfl, rfl⟩

/-- The loop over the frames keeps the least tick. -/
theorem lruScan_least (ok : Ok owner none s) {passed slots : List Nat} {best : LruBest}
    (inside : ∀ l ∈ passed ++ slots, l < s.residentFrames) (nodup : (passed ++ slots).Nodup)
    (least : best.Least s passed) :
    (lruScan slots best s).1.Least (lruScan slots best s).2 (passed ++ slots) := by
  induction slots generalizing s passed best with
  | nil =>
    rw [List.append_nil]
    exact least
  | cons slot rest ih =>
    have here : slot < s.residentFrames := inside slot (by simp)
    have split_ : passed ++ slot :: rest = (passed ++ [slot]) ++ rest := by simp
    obtain ⟨small, used, present⟩ := ok.books.listed here (Option.some_ne_none _).symm
    rw [split_] at inside nodup ⊢
    unfold lruScan
    simp only
    split
    · next pinned =>
      -- A pinned page is not a candidate.
      refine ih ok inside nodup ⟨fun found => ?_, fun l member free => ?_⟩
      · obtain ⟨member, rest'⟩ := least.chosen found
        exact ⟨List.mem_append_left _ member, rest'⟩
      · rcases List.mem_append.mp member with earlier | now
        · exact least.least l earlier free
        · rw [List.mem_singleton.mp now] at free
          change (s.pages.get (s.framePages.get slot)).pinned = false at free
          rw [pinned] at free
          cases free
    · next free =>
      have looked := samplePageUsage_sampled ok.spaces small (ok.lives small used)
      have ok' := ok.sampled looked
      have unpinned : s.pinnedAt slot = false := Bool.eq_false_iff.mpr free
      have inside' : ∀ l ∈ (passed ++ [slot]) ++ rest,
          l < (s.samplePageUsage (s.framePages.get slot)).residentFrames := by
        rw [looked.resident]
        exact inside
      -- The pages in the frames passed before are others.
      have earlier : ∀ l ∈ passed,
          (s.samplePageUsage (s.framePages.get slot)).tickAt l = s.tickAt l ∧
          (s.samplePageUsage (s.framePages.get slot)).pinnedAt l = s.pinnedAt l := by
        intro l member
        have below : l < s.residentFrames := inside l (by simp [member])
        obtain ⟨small', used', -⟩ := ok.books.listed below (Option.some_ne_none _).symm
        have apart : l ≠ slot := by
          rintro rfl
          rw [List.append_assoc] at nodup
          exact (List.nodup_append.mp nodup).2.2 l member l (by simp) rfl
        have other : s.framePages.get l ≠ s.framePages.get slot := fun same =>
          apart (ok.books.distinct below here (Option.some_ne_none _).symm
            (Option.some_ne_none _).symm same)
        obtain ⟨entry, -⟩ := samplePageUsage_other ok small used present small' used' other
        unfold tickAt pinnedAt
        rw [looked.framePages, entry]
        exact ⟨rfl, rfl⟩
      have mine : (s.samplePageUsage (s.framePages.get slot)).pinnedAt slot = false := by
        rw [looked.pinnedAt small]
        exact unpinned
      have tick : ((s.samplePageUsage (s.framePages.get slot)).pages.get
          (s.framePages.get slot)).lastUsedTick =
            (s.samplePageUsage (s.framePages.get slot)).tickAt slot := by
        unfold tickAt
        rw [looked.framePages]
      split
      · next better =>
        refine ih ok' inside' nodup ⟨fun _ => ⟨by simp, mine, tick⟩, fun l member loose => ⟨rfl, ?_⟩⟩
        rcases List.mem_append.mp member with before | now
        · obtain ⟨same, pin⟩ := earlier l before
          rw [same]
          obtain ⟨found, le⟩ := least.least l before (pin.symm.trans loose)
          simp only [found, Bool.not_true, Bool.false_or, decide_eq_true_eq] at better
          exact UInt32.le_trans (UInt32.le_of_lt better) le
        · rw [List.mem_singleton.mp now, ← tick]
          exact UInt32.le_refl _
      · next worse =>
        simp only [Bool.or_eq_true, Bool.not_eq_true', decide_eq_true_eq, not_or,
          Bool.not_eq_false, UInt32.not_lt] at worse
        refine ih ok' inside' nodup ⟨fun found => ?_, fun l member loose => ⟨worse.1, ?_⟩⟩
        · obtain ⟨member, free', same⟩ := least.chosen found
          obtain ⟨kept, pin⟩ := earlier best.slot member
          exact ⟨List.mem_append_left _ member, pin.trans free', same.trans kept.symm⟩
        · rcases List.mem_append.mp member with before | now
          · obtain ⟨same, pin⟩ := earlier l before
            rw [same]
            exact (least.least l before (pin.symm.trans loose)).2
          · rw [List.mem_singleton.mp now, ← tick]
            exact worse.2

/-- The loop over the frames does not touch pinned pages. -/
theorem lruScan_pinned (ok : Ok owner none s) {slots : List Nat} {best : LruBest}
    (inside : ∀ l ∈ slots, l < s.residentFrames) (inside' : j < 128)
    (used' : (s.pages.get j).used = true) (pinned : (s.pages.get j).pinned = true) :
    (lruScan slots best s).2.pages.get j = s.pages.get j ∧
      (lruScan slots best s).2.pageWasAccessed j = s.pageWasAccessed j := by
  -- By induction on the frames: a pinned page is passed over before it is looked at.
  induction slots generalizing s best with
  | nil => exact ⟨rfl, rfl⟩
  | cons slot rest ih =>
    have here : slot < s.residentFrames := inside slot List.mem_cons_self
    have later := fun l member => inside l (List.mem_cons_of_mem _ member)
    obtain ⟨small, used, present⟩ := ok.books.listed here nofun
    unfold lruScan
    simp only
    split
    · exact ih ok later used' pinned
    · next free =>
      have other : j ≠ s.framePages.get slot := by
        rintro rfl
        exact free pinned
      have looked := samplePageUsage_sampled ok.spaces small (ok.lives small used)
      obtain ⟨entry, accessed⟩ := samplePageUsage_other ok small used present inside' used' other
      have later' : ∀ l ∈ rest, l < (s.samplePageUsage (s.framePages.get slot)).residentFrames := by
        rw [looked.resident]
        exact later
      have rest' : ∀ best, (lruScan rest best (s.samplePageUsage (s.framePages.get slot))).2.pages.get j =
          s.pages.get j ∧
          (lruScan rest best (s.samplePageUsage (s.framePages.get slot))).2.pageWasAccessed j =
            s.pageWasAccessed j := by
        intro best
        have kept := @ih _ (ok.sampled looked) best later' (by rw [entry]; exact used')
          (by rw [entry]; exact pinned)
        exact ⟨kept.1.trans entry, kept.2.trans accessed⟩
      split
      · exact rest' _
      · exact rest' best

end Scanning

end Pager

/-- Two pages in memory have different ticks. -/
def Pager.TicksApart (s : Pager) : Prop :=
  ∀ i j, i < 128 → j < 128 → (s.pages.get i).used = true → (s.pages.get i).present = true →
    (s.pages.get j).used = true → (s.pages.get j).present = true →
    (s.pages.get i).lastUsedTick = (s.pages.get j).lastUsedTick → i = j

/--
The choice of a victim by its last use, after a history of marks.

The marks made while the victim is chosen are part of the history.
-/
structure LeastRecent (s : Pager) (history : List Nat) : Prop where
  /-- Of the pages in memory that are not pinned the victim was marked longest ago. -/
  victim : ∀ k, k < s.residentFrames → s.pinnedAt k = false →
    s.chooseLruVictimFrame.1 < s.residentFrames ∧
    s.pinnedAt s.chooseLruVictimFrame.1 = false ∧
    0 < lastAt (scanMarks (List.range s.residentFrames) s ++ history)
      (s.framePages.get s.chooseLruVictimFrame.1) ∧
    (k ≠ s.chooseLruVictimFrame.1 →
      lastAt (scanMarks (List.range s.residentFrames) s ++ history)
          (s.framePages.get s.chooseLruVictimFrame.1) <
        lastAt (scanMarks (List.range s.residentFrames) s ++ history) (s.framePages.get k))
  apart : s.TicksApart ∧ s.chooseLruVictimFrame.2.TicksApart
  pinned : ∀ i, i < 128 → (s.pages.get i).used = true → (s.pages.get i).pinned = true →
    (s.chooseLruVictimFrame.2.pages.get i).lastUsedTick = (s.pages.get i).lastUsedTick ∧
    s.chooseLruVictimFrame.2.pageWasAccessed i = s.pageWasAccessed i

section Choice

variable {owner : Owners Holder} {history : List Nat} {s : Pager}

/-- The last uses of two pages in memory are at different times. -/
theorem Marked.ticksApart (marked : Marked history s) : s.TicksApart := by
  -- The mark of a page is its last place in the history, and a place holds one page.
  intro i j inside inside' used present used' present' same
  obtain ⟨tick, positive⟩ := marked.resident inside used present
  obtain ⟨tick', -⟩ := marked.resident inside' used' present'
  rw [same, tick'] at tick
  exact lastAt_injective tick.symm positive

/-- As long as the ticks tell when pages were marked, the victim is the one marked longest ago. -/
theorem Marked.leastRecent (marked : Marked history s) (ok : Ok owner none s)
    (room : (scanMarks (List.range s.residentFrames) s ++ history).length < 2 ^ 32) :
    LeastRecent s history := by
  have inside : ∀ l ∈ List.range s.residentFrames, l < s.residentFrames :=
    fun l member => List.mem_range.mp member
  have after := marked.scan ok inside ⟨0, 0xFFFFFFFF, false⟩ room
  have least := @lruScan_least owner s ok [] (List.range s.residentFrames) ⟨0, 0xFFFFFFFF, false⟩
    inside List.nodup_range ⟨nofun, nofun⟩
  obtain ⟨-, sampled, -⟩ := @lruScan_spec owner s ok (List.range s.residentFrames) inside
    ⟨0, 0xFFFFFFFF, false⟩ (by decide) nofun
  have untouched := fun i small used pinned =>
    @lruScan_pinned owner s i ok (List.range s.residentFrames) ⟨0, 0xFFFFFFFF, false⟩ inside small
      used pinned
  rw [List.nil_append] at least
  have chosen : s.chooseLruVictimFrame =
      ((lruScan (List.range s.residentFrames) ⟨0, 0xFFFFFFFF, false⟩ s).1.slot,
        (lruScan (List.range s.residentFrames) ⟨0, 0xFFFFFFFF, false⟩ s).2) := rfl
  rw [← congrArg Prod.snd chosen] at least after sampled untouched
  generalize (lruScan (List.range s.residentFrames) ⟨0, 0xFFFFFFFF, false⟩ s).1 = best at least chosen
  refine ⟨fun k below free => ?_, ⟨marked.ticksApart, after.ticksApart⟩,
    fun i small used pinned => ?_⟩
  · have pins : ∀ l, l < s.residentFrames →
        s.chooseLruVictimFrame.2.pinnedAt l = s.pinnedAt l :=
      fun l low => sampled.pinnedAt (ok.books.listed low nofun).1
    -- The ticks of pages in memory are the times of their last marks.
    have times : ∀ l, l < s.residentFrames →
        (s.chooseLruVictimFrame.2.tickAt l).toNat =
          lastAt (scanMarks (List.range s.residentFrames) s ++ history) (s.framePages.get l) ∧
        0 < lastAt (scanMarks (List.range s.residentFrames) s ++ history) (s.framePages.get l) := by
      intro l low
      obtain ⟨small, used, present⟩ := ok.books.listed low nofun
      have entry := sampled.kept.entries _ small
      unfold tickAt
      rw [sampled.framePages]
      exact after.resident small (entry.used.trans used) (entry.present.trans present)
    obtain ⟨found, le⟩ := least.least k (List.mem_range.mpr below) ((pins k below).trans free)
    obtain ⟨member, loose, tick⟩ := least.chosen found
    have low := List.mem_range.mp member
    have slot : s.chooseLruVictimFrame.1 = best.slot := congrArg Prod.fst chosen
    rw [slot]
    refine ⟨low, (pins _ low).symm.trans loose, (times _ low).2, fun other => ?_⟩
    rw [tick, UInt32.le_iff_toNat_le, (times _ low).1, (times k below).1] at le
    refine Nat.lt_of_le_of_ne le fun same => other ?_
    exact (ok.books.distinct low below nofun nofun
      (lastAt_injective same (times _ low).2)).symm
  · obtain ⟨entry, accessed⟩ := untouched i small used pinned
    exact ⟨by rw [entry], accessed⟩

end Choice

section Runs

variable {owner : Owners Holder} {s : Pager} {live : Nat → Bool}

/-- Once the pager has started no page is marked. -/
theorem pagingStart_marked (ready : s.disk.ready = true) : Marked [] (pagingStart s live).pager := by
  -- No entry is in use when the pager has started.
  unfold pagingStart pagerInit
  rw [if_neg (by simp [ready])]
  refine ⟨rfl, fun {i} inside used => ?_⟩
  change ((FixedArray.ofFn freshPage : FixedArray 128 PagerPage).get i).used = true at used
  rw [FixedArray.get_ofFn _ inside] at used
  cases used

/--
The page that was marked longest ago is chosen as the victim, in every run with fewer marks than
there are ticks.

When a page fault chooses a victim it has counted itself before, which is all that it has changed.
-/
theorem lru_exact (starts : Paging.Starts owner s live) (calls : List PagerCall)
    (permitted : ∀ before call after, calls = before ++ call :: after →
      (runState pagingStep (pagingStart s live) before).Permits call)
    (pageFaults lastFaultAddr : UInt32) :
    let at_ : Pager := { (runState pagingStep (pagingStart s live) calls).pager with
      pageFaults, lastFaultAddr }
    (scanMarks (List.range at_.residentFrames) at_ ++
        markHistory (pagingStart s live) calls).length < 2 ^ 32 - 1 →
      LeastRecent at_ (markHistory (pagingStart s live) calls) := by
  intro at_ few
  cases ready : s.disk.ready with
  | true =>
    obtain ⟨owner', ok⟩ := pagingRun_ok starts ready calls permitted
    have run := (pagingStart_ok starts ready).run_marked (pagingStart_marked ready) permitted (by
      rw [List.length_append] at few
      rw [List.append_nil]
      omega)
    rw [List.append_nil] at run
    have noted : Sampled owner' (runState pagingStep (pagingStart s live) calls).pager at_ :=
      ⟨.refl ok.pager.spaces, rfl, fun _ _ => rfl, rfl, rfl, rfl, rfl, id⟩
    have marked : Marked (markHistory (pagingStart s live) calls) at_ :=
      run.fewer rfl fun _ _ used present => ⟨used, present, rfl⟩
    exact marked.leastRecent (ok.pager.sampled noted) (by omega)
  | false =>
    -- A pager without a disk has no pages.
    have idle : (runState pagingStep (pagingStart s live) calls).pager.Idle :=
      runState_invariant pagingStep (fun p => p.pager.Idle)
        (fun p call (_ : True) idle => pagingStep_idle idle call) (fun _ _ => trivial)
        (pagingStart_idle starts.idle ready live)
    have none_ : ∀ {P : Prop} i, i < 128 → (at_.pages.get i).used = true → P :=
      fun i inside used => nomatch (idle.unused i inside).symm.trans used
    have empty : at_.residentFrames = 0 := idle.resident
    have still : at_.chooseLruVictimFrame.2 = at_ := by
      unfold chooseLruVictimFrame
      rw [empty]
      rfl
    refine ⟨fun k below => ?_, ⟨fun i _ inside _ used => none_ i inside used, ?_⟩,
      fun i inside used => none_ i inside used⟩
    · omega
    · rw [still]
      exact fun i _ inside _ used => none_ i inside used

section Example

/-- Three pages are brought in, the first one is pinned, and the second one is sampled after the third. -/
def agedCalls : List PagerCall :=
  [.register 8192 (crowdPage 0) 6 none 0, .register 8192 (crowdPage 1) 6 none 0,
    .register 8192 (crowdPage 2) 6 none 0, .setAlgorithm .lru, .load (crowdPage 0),
    .load (crowdPage 1), .sampleUsage, .load (crowdPage 2), .sampleUsage, .load (crowdPage 1),
    .sampleUsage, .pin 8192 (crowdPage 0) true]

/-- The third page was marked before the second one, the first one is pinned, and so it has to go. -/
theorem lru_exact_small :
    LeastRecent { (runState pagingStep (pagingStart (loadedPager pagedMachine) pagedLive)
        agedCalls).pager with pageFaults := 4, lastFaultAddr := crowdPage 3 }
      (markHistory (pagingStart (loadedPager pagedMachine) pagedLive) agedCalls) ∧
    markHistory (pagingStart (loadedPager pagedMachine) pagedLive) agedCalls = [1, 2, 2, 1, 0, 1, 0] ∧
    (runState pagingStep (pagingStart (loadedPager pagedMachine) pagedLive)
      agedCalls).pager.chooseLruVictimFrame.1 = 2 := by
  -- The run is permitted, and its marks are computed.
  have along : allowedAlong pagingStep (fun p call => decide (p.Permits call))
      (pagingStart (loadedPager pagedMachine) pagedLive) agedCalls = true := by
    decide +kernel
  refine ⟨?_, by decide +kernel, by decide +kernel⟩
  exact lru_exact pagedMachine_starts agedCalls (fun before call after split =>
    of_decide_eq_true (allowedAlong_spec pagingStep along split)) 4 (crowdPage 3) (by decide +kernel)

end Example

end Runs

end MyOS.Mm
