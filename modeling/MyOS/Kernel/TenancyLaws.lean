import MyOS.Kernel.Tenancy

/-! What the calls of processes, and the acts of the shell, leave of the memory of each process. -/

namespace MyOS.Kernel

open MyOS.Mm MyOS.Fs

variable {base owner : Owners Holder} {o : Vmm} {processes : FixedArray 8 Process} {m m' : MemDemo}
  {s t u : KernelState} {i k : Nat} {kind : UInt32 → Prop}

/-- The tenancy of all processes is in order. -/
def Tenanted (base : Owners Holder) (o : Vmm) (s : KernelState) : Prop :=
  ∃ owner, Tenancy base o owner s.processes s.toMemDemo

section Demonstration

/-- No record is written by doing nothing. -/
theorem Recording.refl (m : MemDemo) : Recording m m := ⟨rfl, rfl, rfl⟩

/-- Entering an event is one. -/
theorem recordEvent_recording (m : MemDemo) (op : UInt32) (page : Nat) (virtAddr physAddr : UInt32) :
    Recording m (m.recordEvent op page virtAddr physAddr).2 := by
  -- The record is full, or an event is put into it.
  unfold MemDemo.recordEvent
  split
  · exact .refl m
  · exact ⟨rfl, rfl, rfl⟩

/-- `memdemo_apply_op` gives a page, takes one back or does neither, and then enters it. -/
theorem memdemoApplyOp_cases (m : MemDemo) (op page : UInt32) :
    ∃ m', Recording m' (memdemoApplyOp m op page).2 ∧
      (m' = m ∨ page.toNat < 8 ∧ (m' = (allocSlot m page.toNat).2 ∨ m' = m.freeSlot page.toNat)) := by
  unfold memdemoApplyOp
  simp only
  split
  · exact ⟨m, .refl m, Or.inl rfl⟩
  next inside =>
  have below : page.toNat < 8 := by
    change ¬ (page.toNat ≥ 8 ∨ _) at inside
    omega
  split
  · -- `ALLOC`
    refine ⟨(allocSlot m page.toNat).2, ?_, Or.inr ⟨below, Or.inl rfl⟩⟩
    generalize allocSlot m page.toNat = result
    obtain ⟨done, m'⟩ := result
    cases done with
    | false => exact .refl m'
    | true =>
      have entered := recordEvent_recording m' op page.toNat (m'.slots.get page.toNat).virtAddr
        (m'.slots.get page.toNat).physAddr
      simp only
      split <;> next recorded =>
        rw [recorded] at entered
        exact entered
  split
  · -- `TOUCH`
    refine ⟨m, ?_, Or.inl rfl⟩
    split
    · exact .refl m
    · have entered := recordEvent_recording m op page.toNat (m.slots.get page.toNat).virtAddr
        (m.slots.get page.toNat).physAddr
      split <;> next recorded =>
        rw [recorded] at entered
        exact entered
  split
  · -- `FREE`
    split
    · exact ⟨m, .refl m, Or.inl rfl⟩
    · refine ⟨m.freeSlot page.toNat, ?_, Or.inr ⟨below, Or.inr rfl⟩⟩
      have entered := recordEvent_recording (m.freeSlot page.toNat) op page.toNat
        (slotVirt page.toNat) (m.slots.get page.toNat).physAddr
      split <;> next recorded =>
        rw [recorded] at entered
        exact entered
  · exact ⟨m, .refl m, Or.inl rfl⟩

namespace Tenancy

/-- An operation of the process that runs gives a page of zeros or takes one back. -/
theorem applyOp (tenancy : Tenancy base o owner processes m) (runs : i < 8)
    (used : (processes.get i).used = true)
    (here : (processes.get i).pageDirectoryPhys = m.currentPageDirectoryPhys) (op page : UInt32) :
    (∃ owner', Tenancy base o owner' processes (memdemoApplyOp m op page).2) ∧
      Relent m (memdemoApplyOp m op page).2 := by
  -- The slot of the page is given one, cleared, or freed, and the rest is the record.
  obtain ⟨m', books, parts⟩ := memdemoApplyOp_cases m op page
  have done : (∃ owner', Tenancy base o owner' processes m') ∧ Relent m m' := by
    rcases parts with rfl | ⟨inside, rfl | rfl⟩
    · exact ⟨⟨owner, tenancy⟩, (Keeps.refl _ _).relent⟩
    · obtain ⟨after, -, relent⟩ := tenancy.allocSlot inside runs used here
      exact ⟨after, relent⟩
    · obtain ⟨after, -, shrinks, -⟩ := tenancy.freeSlot inside
      exact ⟨after, shrinks.relent⟩
  obtain ⟨⟨owner', after⟩, relent⟩ := done
  obtain ⟨entered, keeps⟩ := after.rest books
  exact ⟨⟨owner', entered⟩, relent.keeps keeps⟩

/-- `memdemo_reset` takes every page of a slot back. -/
theorem reset (tenancy : Tenancy base o owner processes m) :
    (∃ owner', Tenancy base o owner' processes (memdemoReset m)) ∧ Relent m (memdemoReset m) := by
  unfold memdemoReset
  have emptied : (∃ owner', Tenancy base o owner' processes
      ((List.range memdemoPageCount).foldl (fun s i => (s.freeSlot i).clearSlot i) m)) ∧
      Shrinks m ((List.range memdemoPageCount).foldl (fun s i => (s.freeSlot i).clearSlot i) m) := by
    -- The induction is on the slots that have been looked at.
    refine foldl_range_invariant (fun _ m' => (∃ owner', Tenancy base o owner' processes m') ∧
      Shrinks m m') ⟨⟨owner, tenancy⟩, .refl m⟩ fun k m' inside before => ?_
    obtain ⟨⟨_, soFar⟩, shrinks⟩ := before
    obtain ⟨⟨_, freed⟩, -, less, -⟩ := soFar.freeSlot inside
    have empty := freeSlot_allocated m' inside
    obtain ⟨cleared, keeps⟩ : _ ∧ Keeps (fun _ => True) _ _ := freed.clearSlot empty
    refine ⟨⟨_, cleared⟩, shrinks.trans (less.trans ⟨fun dir virtAddr lent => ?_, fun dir virtAddr => ?_⟩)⟩
    · rw [← keeps.lent dir virtAddr trivial]
      exact lent
    · rw [keeps.bytes dir virtAddr trivial, keeps.lent dir virtAddr trivial]
      cases (m'.freeSlot k).lent dir virtAddr <;> rfl
  generalize (List.range memdemoPageCount).foldl (fun s i => (s.freeSlot i).clearSlot i) m = final
    at emptied ⊢
  obtain ⟨⟨owner', after⟩, shrinks⟩ := emptied
  -- The record begins anew, in memory and then in its file.
  have books : Recording final { final with
      events := FixedArray.fill emptyEvent, activePages := 0, sequence := 0 } := ⟨rfl, rfl, rfl⟩
  obtain ⟨anew, keeps⟩ := after.rest books
  obtain ⟨⟨written, keeps'⟩, -⟩ := anew.logBytes memdemoLogHeader
  exact ⟨⟨owner', written⟩, (shrinks.relent.keeps keeps).keeps keeps'⟩

/-- `memdemo_report_event` writes to a file only. -/
theorem reportEvent (tenancy : Tenancy base o owner processes m) (requestedSequence : UInt32) :
    Tenancy base o owner processes (memdemoReportEvent m requestedSequence).2 ∧
      Keeps kind m (memdemoReportEvent m requestedSequence).2 := by
  unfold memdemoReportEvent
  simp only
  split
  · exact ⟨tenancy, .refl kind m⟩
  split
  · exact ⟨tenancy, .refl kind m⟩
  split
  · exact ⟨tenancy, .refl kind m⟩
  · obtain ⟨-, written, keeps⟩ := tenancy.logBytes
      ((buildEventLine (m.events.get (requestedSequence.toNat - 1)) ++ textBytes "\n").take 163)
    generalize MyOS.Kernel.logBytes m simplefsAppendFile _ = final at written keeps ⊢
    -- The event counts as reported whether or not the file was written.
    have books : Recording final { final with
        events := final.events.set (requestedSequence.toNat - 1)
          { m.events.get (requestedSequence.toNat - 1) with reported := true } } := ⟨rfl, rfl, rfl⟩
    obtain ⟨marked, keeps'⟩ := written.rest books
    exact ⟨marked, Keeps.trans keeps keeps'⟩

end Tenancy

end Demonstration

/-- Every process that is left has the memory that it had, and the same pages. -/
structure Remembers (s t : KernelState) : Prop where
  used : ∀ {i}, i < 8 → (t.processes.get i).used = true → (s.processes.get i).used = true
  bytes : ∀ {i}, i < 8 → (t.processes.get i).used = true → ∀ virtAddr,
    t.byteOf i virtAddr = s.byteOf i virtAddr
  grants : ∀ {i}, i < 8 → (t.processes.get i).used = true → ∀ virtAddr,
    t.grants i virtAddr = s.grants i virtAddr

/--
What a step leaves to a process.

It has the memory that it had, as its pages are given or taken back, or it is born with its image.
-/
def Passes (born : Option ((Nat → UInt8) × Nat)) (s t : KernelState) : Prop :=
  ∀ i, i < 8 → (t.processes.get i).used = true →
    ((s.processes.get i).used = true ∧ ∀ virtAddr, t.byteOf i virtAddr =
      regranted (s.grants i virtAddr) (t.grants i virtAddr) (s.byteOf i virtAddr)) ∨
    ((s.processes.get i).used = false ∧ ∃ image, born = some image ∧
      ∀ virtAddr, t.byteOf i virtAddr = bornMemory image.1 image.2 virtAddr)

section Views

variable {born : Option ((Nat → UInt8) × Nat)}

namespace Remembers

/-- Nothing happens to the processes of a state left alone. -/
theorem refl (s : KernelState) : Remembers s s :=
  ⟨fun _ => id, fun _ _ _ => rfl, fun _ _ _ => rfl⟩

/-- Remembering twice is remembering. -/
theorem trans (first : Remembers s t) (second : Remembers t u) : Remembers s u := by
  -- Whoever is there at the end was there in between.
  refine ⟨fun inside used => ?_, fun inside used virtAddr => ?_, fun inside used virtAddr => ?_⟩
  · exact first.used inside (second.used inside used)
  · rw [second.bytes inside used, first.bytes inside (second.used inside used)]
  · rw [second.grants inside used, first.grants inside (second.used inside used)]

/-- Processes that keep their spaces keep what is in spaces of a kind. -/
theorem ofKeeps (keeps : Keeps kind s.toMemDemo t.toMemDemo)
    (same : ∀ {i}, i < 8 → (t.processes.get i).used = true → (s.processes.get i).used = true ∧
      (t.processes.get i).pageDirectoryPhys = (s.processes.get i).pageDirectoryPhys ∧
      (t.processes.get i).vmPageBitmap = (s.processes.get i).vmPageBitmap ∧
      kind (s.processes.get i).pageDirectoryPhys) : Remembers s t := by
  -- The space of a process is one of those whose bytes are kept.
  refine ⟨fun inside used => (same inside used).1, fun inside used virtAddr => ?_,
    fun inside used virtAddr => ?_⟩
  · obtain ⟨-, directory, -, fits⟩ := same inside used
    unfold KernelState.byteOf
    rw [directory]
    exact keeps.bytes _ virtAddr fits
  · obtain ⟨-, directory, pages, fits⟩ := same inside used
    unfold KernelState.grants Process.asked
    rw [directory, pages, keeps.lent _ virtAddr fits]

/-- Where pages stay the same, nothing is given or taken back. -/
theorem passes (remembers : Remembers s t) : Passes born s t := by
  -- Nothing is granted, so the memory is the one before.
  intro i inside used
  refine Or.inl ⟨remembers.used inside used, fun virtAddr => ?_⟩
  rw [remembers.bytes inside used, remembers.grants inside used]
  unfold regranted
  cases s.grants i virtAddr <;> rfl

end Remembers

/-- Afterwards every process may keep its memory. -/
theorem Passes.remembers (passes : Passes born s t) (remembers : Remembers t u) : Passes born s u := by
  -- A process that was there before, or one that was just born.
  intro i inside used
  rcases passes i inside (remembers.used inside used) with ⟨before, bytes⟩ | ⟨before, image, some_, bytes⟩
  · refine Or.inl ⟨before, fun virtAddr => ?_⟩
    rw [remembers.bytes inside used, remembers.grants inside used, bytes]
  · refine Or.inr ⟨before, image, some_, fun virtAddr => ?_⟩
    rw [remembers.bytes inside used, bytes]

/-- A page that a process asked for lies apart from those in slots. -/
theorem asked_unlent {p : Process} {dir virtAddr : UInt32} (asked : p.asked virtAddr = true) :
    m.lent dir virtAddr = false := by
  -- Pages asked for begin 4096 pages above those of the slots.
  unfold Process.asked samePage at asked
  simp only [List.any_eq_true, List.mem_range, Bool.and_eq_true, beq_iff_eq] at asked
  obtain ⟨k, small, -, page⟩ := asked
  rw [toNat_vmPage small] at page
  rw [Bool.eq_false_iff]
  intro lent
  obtain ⟨j, inside, lends⟩ := lent_iff.mp lent
  obtain ⟨-, -, place⟩ := lends_true lends
  rw [toNat_slotVirt inside] at place
  omega

/-- Pages in slots that are given or taken back. -/
theorem Relent.passes (relent : Relent s.toMemDemo m) : Passes born s (s.withMemDemo m) := by
  intro i inside used
  refine Or.inl ⟨used, fun virtAddr => ?_⟩
  unfold KernelState.byteOf KernelState.grants
  change m.byteIn (s.processes.get i).pageDirectoryPhys virtAddr =
    regranted _ ((s.processes.get i).asked virtAddr ||
      m.lent (s.processes.get i).pageDirectoryPhys virtAddr) _
  rw [relent]
  -- Nothing is both asked for and lent.
  cases asked : (s.processes.get i).asked virtAddr with
  | false => rfl
  | true => rw [asked_unlent asked, asked_unlent asked]; rfl

/-- A step that leaves memory alone, and to every process its pages. -/
theorem PagesKept.tenanted (pagesKept : PagesKept s t) (tenanted : Tenanted base o s) :
    Tenanted base o t ∧ Remembers s t := by
  -- The memory is the same, and so is what each process lists.
  obtain ⟨owner, tenancy⟩ := tenanted
  have keeps : Keeps (fun _ => True) s.toMemDemo t.toMemDemo := by
    rw [pagesKept.memory]
    exact .refl _ _
  refine ⟨⟨owner, ?_⟩, .ofKeeps keeps fun {i} inside used => ?_⟩
  · rw [pagesKept.memory]
    refine tenancy.congr fun j small => ⟨(pagesKept.slots small).1, fun used => ?_⟩
    obtain ⟨directory, pages⟩ := (pagesKept.slots small).2 used
    refine ⟨directory, fun virtAddr lists => ?_⟩
    unfold Process.Lists
    rw [pages]
    exact lists
  · obtain ⟨same, rest⟩ := pagesKept.slots inside
    rw [same] at used
    exact ⟨used, (rest used).1, (rest used).2, trivial⟩

/-- A step on memory alone after which every space holds what it held. -/
theorem Tenancy.remembered (tenancy : Tenancy base o owner s.processes m)
    (keeps : Keeps (fun _ => True) s.toMemDemo m) :
    Tenanted base o (s.withMemDemo m) ∧ Remembers s (s.withMemDemo m) :=
  -- The processes are the same.
  ⟨⟨owner, tenancy⟩, .ofKeeps keeps fun _ used => ⟨used, rfl, rfl, trivial⟩⟩

end Views

section Release

/-- The pages of a space in slots are taken back, and the other spaces keep theirs. -/
theorem Tenancy.release (tenancy : Tenancy base o owner processes m) (dir : UInt32) :
    (∃ owner', Tenancy base o owner' processes (memdemoReleaseForDirectory m dir)) ∧
      Fewer m (memdemoReleaseForDirectory m dir) ∧
      Keeps (· ≠ dir) m (memdemoReleaseForDirectory m dir) := by
  -- The invariant of the loop: the spaces other than this one keep what they hold.
  unfold memdemoReleaseForDirectory
  refine foldl_range_invariant (fun _ m' => (∃ owner', Tenancy base o owner' processes m') ∧
    Fewer m m' ∧ Keeps (· ≠ dir) m m') ⟨⟨owner, tenancy⟩, .refl m, .refl _ m⟩ fun k m' inside before => ?_
  obtain ⟨⟨owner', soFar⟩, fewer, keeps⟩ := before
  split
  · next here =>
    simp only [Bool.and_eq_true, beq_iff_eq] at here
    obtain ⟨freed, less, -, others⟩ := soFar.freeSlot inside
    rw [here.2] at others
    exact ⟨freed, fewer.trans less, keeps.trans others⟩
  · exact ⟨⟨owner', soFar⟩, fewer, keeps⟩

/-- A process is giving up its pages; those it still has are of a kind, and the others keep theirs. -/
structure Leaving (base : Owners Holder) (o : Vmm) (processes : FixedArray 8 Process) (i : Nat)
    (start m : MemDemo) (kind : UInt32 → Prop) : Prop where
  tenancy : ∃ owner, Tenancy base o owner processes m
  slots : NoSlotIn m (processes.get i).pageDirectoryPhys
  entries : RegisteredIn m (processes.get i).pageDirectoryPhys kind
  keeps : Keeps (· ≠ (processes.get i).pageDirectoryPhys) start m

variable {start : MemDemo}

/-- One page fewer. -/
theorem Leaving.unregister (leaving : Leaving base o processes i start m kind)
    (some_ : (processes.get i).pageDirectoryPhys ≠ 0) {virtAddr : UInt32}
    (aligned : virtAddr.toNat % 4096 = 0) :
    Leaving base o processes i start
      { m with toPager := pagerUnregisterPage m.toPager (processes.get i).pageDirectoryPhys virtAddr }
      fun v => kind v ∧ v ≠ virtAddr := by
  -- One entry goes, and the bytes of the other spaces stay.
  obtain ⟨⟨owner, tenancy⟩, slots, entries, keeps⟩ := leaving
  obtain ⟨after, fewer, without, others⟩ := tenancy.unregister some_ virtAddr
  rw [alignDownPage_eq aligned] at without
  exact ⟨after, slots.fewer fewer, fun j small used there =>
    ⟨entries.fewer fewer j small used there, without j small used there⟩, keeps.trans others⟩

/-- The pages a process asked for, one after another. -/
theorem Leaving.unregisterVmPages (leaving : Leaving base o s.processes i start s.toMemDemo fun v =>
      ∃ k, k < processUserVmPageCount ∧
        ((s.processes.get i).vmPageBitmap &&& (1 <<< UInt32.ofNat k) != 0) = true ∧
        v = processUserVmBase + UInt32.ofNat k * pageSize)
    (some_ : (s.processes.get i).pageDirectoryPhys ≠ 0) :
    let t := (List.range processUserVmPageCount).foldl (fun (t : KernelState) k =>
      if (t.processes.get i).vmPageBitmap &&& (1 <<< UInt32.ofNat k) != 0 then
        t.withPager (pagerUnregisterPage t.toPager (s.processes.get i).pageDirectoryPhys
          (processUserVmBase + UInt32.ofNat k * pageSize))
      else t) s
    t.processes = s.processes ∧ Leaving base o s.processes i start t.toMemDemo fun _ => False := by
  intro t
  -- After so many rounds only the later pages are left.
  let later := fun n v => ∃ k, n ≤ k ∧ k < processUserVmPageCount ∧
    ((s.processes.get i).vmPageBitmap &&& (1 <<< UInt32.ofNat k) != 0) = true ∧
    v = processUserVmBase + UInt32.ofNat k * pageSize
  have rounds : t.processes = s.processes ∧
      Leaving base o s.processes i start t.toMemDemo (later processUserVmPageCount) := by
    refine foldl_range_invariant (fun n (t : KernelState) => t.processes = s.processes ∧
      Leaving base o s.processes i start t.toMemDemo (later n))
      ⟨rfl, leaving.tenancy, leaving.slots, fun j small used there => ?_, leaving.keeps⟩
      fun n t below ⟨same, leaving⟩ => ?_
    · obtain ⟨k, below, set, virt⟩ := leaving.entries j small used there
      exact ⟨k, Nat.zero_le _, below, set, virt⟩
    rw [same]
    split
    · have next := leaving.unregister some_
        (show (processUserVmBase + UInt32.ofNat n * pageSize).toNat % 4096 = 0 by
          rw [toNat_vmPage below]
          omega)
      refine ⟨same, next.tenancy, next.slots, fun j small used there => ?_, next.keeps⟩
      obtain ⟨⟨k, low, high, set, virt⟩, other⟩ := next.entries j small used there
      refine ⟨k, Nat.lt_of_le_of_ne low ?_, high, set, virt⟩
      rintro rfl
      exact other virt
    · next clear =>
      refine ⟨same, leaving.tenancy, leaving.slots, fun j small used there => ?_, leaving.keeps⟩
      obtain ⟨k, low, high, set, virt⟩ := leaving.entries j small used there
      refine ⟨k, Nat.lt_of_le_of_ne low ?_, high, set, virt⟩
      rintro rfl
      exact clear set
  refine ⟨rounds.1, rounds.2.tenancy, rounds.2.slots, fun j small used there => ?_, rounds.2.keeps⟩
  obtain ⟨k, low, high, -⟩ := rounds.2.entries j small used there
  omega

/-- Two processes have two spaces. -/
theorem Tenancy.elsewhere (tenancy : Tenancy base o owner processes m) {j : Nat} (inside : i < 8)
    (inside' : j < 8) (used : (processes.get i).used = true) (used' : (processes.get j).used = true)
    (other : j ≠ i) : (processes.get j).pageDirectoryPhys ≠ (processes.get i).pageDirectoryPhys :=
  -- The homes of processes are distinct.
  fun same => other (tenancy.accounts.homes.distinct inside' inside used' used (congrArg pageOf same))

/-- A process that ends leaves the memory of the others alone. -/
theorem releaseMemory_tenanted (tenanted : Tenanted base o s) (inside : i < 8)
    (used : (s.processes.get i).used = true) {p : Process} (unused : p.used = false) :
    Tenanted base o ((releaseMemory s i).setProcess i p) ∧
      Remembers s ((releaseMemory s i).setProcess i p) := by
  obtain ⟨owner, tenancy⟩ := tenanted
  obtain ⟨live, at_, -⟩ := tenancy.accounts.home inside used
  have some_ := ne_zero_of_page at_
    (tenancy.accounts.spaces.positive (tenancy.accounts.spaces.directory_inPool live))
  -- It is enough to know the processes, and what the other spaces hold.
  suffices done : (releaseMemory s i).processes = s.processes ∧
      (∃ owner', Tenancy base o owner' (s.processes.set i p) (releaseMemory s i).toMemDemo) ∧
      Keeps (· ≠ (s.processes.get i).pageDirectoryPhys) s.toMemDemo (releaseMemory s i).toMemDemo by
    obtain ⟨same, after, keeps⟩ := done
    generalize releaseMemory s i = t at same after keeps
    have slots : (t.setProcess i p).processes = s.processes.set i p := by
      change t.processes.set i p = _
      rw [same]
    have keeps : Keeps (· ≠ (s.processes.get i).pageDirectoryPhys) s.toMemDemo
        (t.setProcess i p).toMemDemo := keeps
    refine ⟨?_, .ofKeeps keeps fun {j} small used' => ?_⟩
    · unfold Tenanted
      rw [slots]
      exact after
    · rw [slots, FixedArray.get_set _ _ small] at used' ⊢
      split at used'
      · exact nomatch unused.symm.trans used'
      · next other =>
        rw [if_neg other]
        exact ⟨used', rfl, rfl, tenancy.elsewhere inside small used used' other⟩
  unfold releaseMemory
  simp only
  rw [if_neg (by simpa using some_)]
  -- First the pages in slots, then those every process has, and last those it asked for.
  obtain ⟨released, fewer, keeps⟩ := tenancy.release (s.processes.get i).pageDirectoryPhys
  have first : Leaving base o s.processes i s.toMemDemo _ (s.processes.get i).Lists :=
    ⟨released, memdemoReleaseForDirectory_noSlotIn _ _,
      (tenancy.accounts.listed inside used).fewer fewer, keeps⟩
  have second := (first.unregister some_ (show processUserCodeBase.toNat % 4096 = 0 by decide)).unregister
    some_ (show processUserStackPage.toNat % 4096 = 0 by decide)
  generalize before : KernelState.withPager (KernelState.withPager _ _) _ = t
  have same : t.processes = s.processes := by
    rw [← before]
    rfl
  have third : Leaving base o t.processes i s.toMemDemo t.toMemDemo fun v =>
      ((s.processes.get i).Lists v ∧ v ≠ processUserCodeBase) ∧ v ≠ processUserStackPage := by
    rw [same, ← before]
    exact second
  rw [← same] at some_ used ⊢
  obtain ⟨same', emptied⟩ := Leaving.unregisterVmPages ⟨third.tenancy, third.slots,
    fun j small used' there => by
      obtain ⟨⟨lists, notCode⟩, notStack⟩ := third.entries j small used' there
      rw [same]
      rcases lists with code | stack | page
      · exact absurd code notCode
      · exact absurd stack notStack
      · exact page, third.keeps⟩ some_
  generalize List.foldl _ t _ = u at same' emptied ⊢
  -- The space goes last, when no page is in it any more.
  obtain ⟨⟨owner'', tenancy'⟩, slots, entries, others⟩ := emptied
  obtain ⟨gone, still⟩ := tenancy'.gone inside used entries slots unused
    (· ≠ (t.processes.get i).pageDirectoryPhys)
  exact ⟨same', ⟨_, gone⟩, others.trans still⟩

/-- `release_process` -/
theorem releaseProcess_tenanted (tenanted : Tenanted base o s) (inside : i < 8) :
    Tenanted base o (releaseProcess s i) ∧ Remembers s (releaseProcess s i) := by
  -- The pages go one by one, then the slots of the demonstration, and last the space.
  unfold releaseProcess
  split
  · exact ⟨tenanted, .refl s⟩
  · next stopped =>
    simp only [Bool.or_eq_true, not_or, Bool.not_eq_true, Bool.not_eq_false'] at stopped
    have orphans := PagesKept.adoptChildren s (s.processes.get i).pid
    have left : PagesKept s { s.adoptChildren (s.processes.get i).pid with
        banker := bankerUnregisterProcess (s.processes.get i).pid
          (s.adoptChildren (s.processes.get i).pid).banker } := ⟨orphans.memory, orphans.slots⟩
    obtain ⟨tenanted', remembers⟩ := left.tenanted tenanted
    obtain ⟨after, remembers'⟩ := releaseMemory_tenanted tenanted' inside
      ((left.slots inside).1.trans stopped.1) (p := emptyProcess) rfl
    exact ⟨after, remembers.trans remembers'⟩

/-- `process_kill` takes one process and its memory. -/
theorem processKill_tenanted (tenanted : Tenanted base o s) (pid : Int) :
    Tenanted base o (processKill s pid).2 ∧ Remembers s (processKill s pid).2 := by
  -- Refused, or the process is released.
  unfold processKill
  split
  · exact ⟨tenanted, .refl s⟩
  · next found =>
    split
    · exact ⟨tenanted, .refl s⟩
    · exact releaseProcess_tenanted tenanted (findProcessByPid_some found).1

/-- `process_wait_child` takes one zombie. -/
theorem processWaitChild_tenanted (tenanted : Tenanted base o s) (parentPid childPid : Int) :
    Tenanted base o (processWaitChild s parentPid childPid).2 ∧
      Remembers s (processWaitChild s parentPid childPid).2 := by
  -- Nothing to wait for, or the zombie is released.
  unfold processWaitChild
  split
  · exact ⟨tenanted, .refl s⟩
  · split
    · split <;> exact ⟨tenanted, .refl s⟩
    · next found =>
      exact releaseProcess_tenanted tenanted (List.mem_range.mp (List.mem_of_find?_eq_some found))

/-- `process_reap_zombies` takes zombies. -/
theorem processReapZombies_tenanted (tenanted : Tenanted base o s) :
    Tenanted base o (processReapZombies s) ∧ Remembers s (processReapZombies s) := by
  -- The invariant of the loop over the slots.
  refine foldl_range_invariant (fun _ (t : KernelState) => Tenanted base o t ∧ Remembers s t)
    ⟨tenanted, .refl s⟩ fun i t inside before => ?_
  obtain ⟨tenanted, remembers⟩ := before
  unfold reapStep
  split
  · obtain ⟨after, remembers'⟩ := releaseProcess_tenanted tenanted inside
    exact ⟨after, remembers.trans remembers'⟩
  · exact ⟨tenanted, remembers⟩

end Release

section Spawn

/-- A page is not registered where all those that are have other addresses. -/
theorem RegisteredIn.missing {dir virtAddr : UInt32} (registered : RegisteredIn m dir kind)
    (other : ¬ kind (alignDownPage virtAddr)) : m.findPageByVirt dir virtAddr = none := by
  -- The entry found would have the page address.
  cases found : m.findPageByVirt dir virtAddr with
  | none => rfl
  | some j =>
    obtain ⟨inside, used, directory, virt⟩ := findPageByVirt_some found
    exact absurd (virt ▸ registered j inside used directory) other

/-- A space without pages holds no byte. -/
theorem byteIn_empty {dir : UInt32} (registered : RegisteredIn m dir fun _ => False)
    (slots : NoSlotIn m dir) (virtAddr : UInt32) : m.byteIn dir virtAddr = none := by
  -- No entry and no slot is in the space.
  have unlent : m.lent dir virtAddr = false := by
    rw [Bool.eq_false_iff]
    intro lent
    obtain ⟨k, inside, lends⟩ := lent_iff.mp lent
    obtain ⟨allocated, directory, -⟩ := lends_true lends
    exact slots k inside allocated directory
  rw [byteIn_unlent unlent]
  unfold Pager.seen
  rw [registered.missing id]
  rfl

/-- The space of a process that has no page is given up. -/
theorem abandon_tenanted (tenancy : Tenancy base o owner u.processes u.toMemDemo) (inside : i < 8)
    (used : (u.processes.get i).used = true)
    (slots : NoSlotIn u.toMemDemo (u.processes.get i).pageDirectoryPhys)
    (entries : RegisteredIn u.toMemDemo (u.processes.get i).pageDirectoryPhys fun _ => False)
    (kind : UInt32 → Prop) :
    Tenanted base o ((u.destroySpace i).abandonProcess i) ∧
      Keeps kind u.toMemDemo ((u.destroySpace i).abandonProcess i).toMemDemo ∧
      (∀ j, j ≠ i → ((u.destroySpace i).abandonProcess i).processes.get j = u.processes.get j) ∧
      (((u.destroySpace i).abandonProcess i).processes.get i).used = false := by
  -- Nothing is registered in the space and no slot is in it, so it can be destroyed.
  have unused : (((u.destroySpace i).abandonProcess i).processes.get i).used = false :=
    congrArg Process.used (FixedArray.get_set_same _ _ inside)
  obtain ⟨gone, keeps⟩ := tenancy.gone inside used entries slots
    (p := { u.processes.get i with used := false, state := .unused }) rfl kind
  exact ⟨⟨_, gone⟩, keeps, fun j other => FixedArray.get_set_ne _ _ other, unused⟩

/--
What a part of a spawn does to memory.

The other spaces keep what they have, and if the process is there in the end its space holds bytes.
-/
structure Fills (base : Owners Holder) (o : Vmm) (u t : KernelState) (i : Nat)
    (bytes : UInt32 → Option UInt8) : Prop where
  tenanted : Tenanted base o t
  keeps : Keeps (· ≠ (u.processes.get i).pageDirectoryPhys) u.toMemDemo t.toMemDemo
  others : ∀ j, j ≠ i → t.processes.get j = u.processes.get j
  born : (t.processes.get i).used = true → t.processes = u.processes ∧
    ∀ virtAddr, t.byteIn (u.processes.get i).pageDirectoryPhys virtAddr = bytes virtAddr

/-- The last part of a spawn. -/
theorem spawnStack_fills (tenancy : Tenancy base o owner u.processes u.toMemDemo) (inside : i < 8)
    (used : (u.processes.get i).used = true)
    (slots : NoSlotIn u.toMemDemo (u.processes.get i).pageDirectoryPhys)
    (entries : RegisteredIn u.toMemDemo (u.processes.get i).pageDirectoryPhys (· = processUserCodeBase)) :
    Fills base o u (u.spawnStack i).2 i fun virtAddr =>
      if samePage virtAddr processUserStackPage then some 0
      else u.byteIn (u.processes.get i).pageDirectoryPhys virtAddr := by
  obtain ⟨live, at_, -⟩ := tenancy.accounts.home inside used
  have some_ := ne_zero_of_page at_
    (tenancy.accounts.spaces.positive (tenancy.accounts.spaces.directory_inPool live))
  have missing : u.findPageByVirt (u.processes.get i).pageDirectoryPhys processUserStackPage = none :=
    entries.missing (by decide)
  unfold KernelState.spawnStack
  cases registered : pagerRegisterPageInDirectory u.toPager (u.processes.get i).pageDirectoryPhys
    processUserStackPage (vmmPageWritable ||| vmmPageUser) with
  | mk done pager =>
  obtain ⟨after, -, registers, bytes⟩ := tenancy.register inside used
    (show processUserStackPage < vmmKernelBase by decide) missing (some fun _ => 0) 0 registered
    fun _ => Or.inr (Or.inl rfl)
  cases done with
  | true =>
    obtain ⟨pinned, -, keeps⟩ := after.pin (u.processes.get i).pageDirectoryPhys processUserStackPage true
      fun _ => True
    refine ⟨⟨owner, pinned⟩, ⟨fun dir virtAddr other => ?_, fun dir virtAddr _ => rfl⟩,
      fun _ _ => rfl, fun _ => ⟨rfl, fun virtAddr => ?_⟩⟩
    · refine (keeps.bytes dir virtAddr trivial).trans ((bytes dir virtAddr).trans (if_neg ?_))
      exact fun here => other here.2.1
    · refine (keeps.bytes _ virtAddr trivial).trans ((bytes _ virtAddr).trans ?_)
      simp [samePage, initialBytes]
  | false =>
    -- No slot can have a page in a space that is new.
    have none_ : memdemoReleaseForDirectory (u.withPager pager).toMemDemo
        (u.processes.get i).pageDirectoryPhys = (u.withPager pager).toMemDemo :=
      memdemoReleaseForDirectory_none slots
    have same : Keeps (fun _ => True) u.toMemDemo (u.withPager pager).toMemDemo :=
      ⟨fun dir virtAddr _ => (bytes dir virtAddr).trans (if_neg (by simp)), fun _ _ _ => rfl⟩
    obtain ⟨⟨owner', after'⟩, fewer, without, keeps⟩ := after.unregister some_ processUserCodeBase
    simp only [withPager_processes]
    rw [none_]
    have slots' : NoSlotIn (u.withPager pager).toMemDemo (u.processes.get i).pageDirectoryPhys := slots
    obtain ⟨gone, keeps', others, unused⟩ := @abandon_tenanted base owner' o ((u.withPager pager).withPager
      (pagerUnregisterPage pager (u.processes.get i).pageDirectoryPhys processUserCodeBase)) i after'
      inside used (slots'.fewer fewer) (fun j small used' there =>
        without j small used' there ((registers entries nofun).fewer fewer j small used' there))
      (· ≠ (u.processes.get i).pageDirectoryPhys)
    refine ⟨gone, (same.mono fun _ _ => trivial).trans (keeps.trans keeps'), others,
      fun there => ?_⟩
    exact nomatch unused.symm.trans there

/-- The middle part of a spawn. -/
theorem spawnCode_fills (tenancy : Tenancy base o owner u.processes u.toMemDemo) (inside : i < 8)
    (used : (u.processes.get i).used = true)
    (slots : NoSlotIn u.toMemDemo (u.processes.get i).pageDirectoryPhys)
    (entries : RegisteredIn u.toMemDemo (u.processes.get i).pageDirectoryPhys fun _ => False)
    (image : Nat → UInt8) (imageSize : Nat) :
    Fills base o u (u.spawnCode i image imageSize).2 i (bornMemory image imageSize) := by
  have missing : u.findPageByVirt (u.processes.get i).pageDirectoryPhys processUserCodeBase = none :=
    entries.missing id
  have empty := byteIn_empty entries slots
  unfold KernelState.spawnCode
  cases registered : pagerRegisterPageData u.toPager (u.processes.get i).pageDirectoryPhys
    processUserCodeBase vmmPageUser (some image) imageSize with
  | mk done pager =>
  obtain ⟨after, -, registers, bytes⟩ := tenancy.register inside used
    (show processUserCodeBase < vmmKernelBase by decide) missing (some image) imageSize registered
    fun _ => Or.inl rfl
  cases done with
  | false =>
    have same : Keeps (fun _ => True) u.toMemDemo (u.withPager pager).toMemDemo :=
      ⟨fun dir virtAddr _ => (bytes dir virtAddr).trans (if_neg (by simp)), fun _ _ _ => rfl⟩
    obtain ⟨gone, keeps, others, unused⟩ :=
      @abandon_tenanted base owner o (u.withPager pager) i after inside used
      slots (registers entries nofun) (· ≠ (u.processes.get i).pageDirectoryPhys)
    refine ⟨gone, (same.mono fun _ _ => trivial).trans keeps, others, fun there => ?_⟩
    exact nomatch unused.symm.trans there
  | true =>
    obtain ⟨pinned, fewer, keeps⟩ := after.pin (u.processes.get i).pageDirectoryPhys processUserCodeBase
      true fun _ => True
    have only : RegisteredIn (u.withPager pager).toMemDemo (u.processes.get i).pageDirectoryPhys
        (· = processUserCodeBase) :=
      registers (fun j small used' there => (entries j small used' there).elim) fun _ _ => rfl
    have slots' : NoSlotIn (u.withPager pager).toMemDemo (u.processes.get i).pageDirectoryPhys := slots
    obtain ⟨tenanted, keeps', others, born⟩ := @spawnStack_fills base owner o
      ((u.withPager pager).pinPage i processUserCodeBase) i pinned inside used (slots'.fewer fewer)
      (only.fewer fewer)
    refine ⟨tenanted, ⟨fun dir virtAddr other => ?_, fun dir virtAddr other => ?_⟩, others,
      fun there => ?_⟩
    · refine (keeps'.bytes dir virtAddr other).trans ((keeps.bytes dir virtAddr trivial).trans ?_)
      exact (bytes dir virtAddr).trans (if_neg fun here => other here.2.1)
    · exact keeps'.lent dir virtAddr other
    · obtain ⟨same, filled⟩ := born there
      refine ⟨same, fun virtAddr => (filled virtAddr).trans ?_⟩
      have code : ((u.withPager pager).pinPage i processUserCodeBase).byteIn
          (u.processes.get i).pageDirectoryPhys virtAddr = _ :=
        (keeps.bytes _ virtAddr trivial).trans (bytes _ virtAddr)
      change (if samePage virtAddr processUserStackPage then some 0
        else ((u.withPager pager).pinPage i processUserCodeBase).byteIn
          (u.processes.get i).pageDirectoryPhys virtAddr) = _
      rw [code, empty]
      -- The page of the stack is not that of the code.
      have apart : samePage virtAddr processUserStackPage = true →
          samePage virtAddr processUserCodeBase = false := by
        unfold samePage
        simp only [beq_iff_eq, beq_eq_false_iff_ne]
        intro stack
        rw [stack]
        decide
      unfold bornMemory
      unfold samePage at apart ⊢
      simp only [beq_iff_eq, beq_eq_false_iff_ne, true_and, initialBytes] at apart ⊢
      split
      · next stack => rw [if_neg (apart stack)]
      · rfl

/-- The part of a spawn that makes the space of the new process. -/
theorem spawnSpace_tenanted {p : Process} (tenancy : Tenancy base o owner processes u.toMemDemo)
    (inside : i < 8) (free : (processes.get i).used = false) (slot : u.processes = processes.set i p)
    (used : p.used = true) (image : Nat → UInt8) (imageSize : Nat) :
    let t := (u.spawnSpace i image imageSize).2
    Tenanted base o t ∧
      Keeps (fun dir => ∃ j, j < 8 ∧ (processes.get j).used = true ∧
        dir = (processes.get j).pageDirectoryPhys) u.toMemDemo t.toMemDemo ∧
      (∀ j, j ≠ i → t.processes.get j = processes.get j) ∧
      ((t.processes.get i).used = true → ∀ virtAddr,
        t.byteOf i virtAddr = bornMemory image imageSize virtAddr) := by
  intro t
  have others : ∀ {q : Process} {j : Nat}, j ≠ i → (processes.set i q).get j = processes.get j :=
    fun other => FixedArray.get_set_ne _ _ other
  revert t
  unfold KernelState.spawnSpace
  rcases vmmCreateAddressSpace_cases tenancy.accounts.spaces with ⟨full, -⟩ | ⟨f, v, result, made⟩
  · rw [full]
    intro t
    obtain ⟨q, slots, empty⟩ : ∃ q, t.processes = processes.set i q ∧ q.used = false := by
      refine ⟨{ u.processes.get i with used := false, state := .unused }, ?_, rfl⟩
      have set_ : ∀ q, u.processes.set i q = processes.set i q := by
        intro q
        rw [slot, FixedArray.set_set]
      exact set_ _
    have unused : (t.processes.get i).used = false := by
      rw [slots, FixedArray.get_set_same _ _ inside, empty]
    refine ⟨⟨owner, ?_⟩, .refl _ _, fun j other => ?_, fun there => nomatch unused.symm.trans there⟩
    · refine tenancy.congr fun j small => ?_
      by_cases here : j = i
      · subst here
        exact ⟨unused.trans free.symm, fun used' => nomatch free.symm.trans used'⟩
      · rw [slots, others here]
        exact ⟨rfl, fun _ => ⟨rfl, fun _ => id⟩⟩
    · rw [slots, others other]
  rw [result]
  simp only
  generalize before : KernelState.setProcess (u.withVmm v) i _ = w
  have here : w.processes = processes.set i { p with pageDirectoryPhys := UInt32.ofNat (f * 4096) } := by
    rw [← before]
    change u.processes.set i { u.processes.get i with pageDirectoryPhys := _ } = _
    rw [slot, FixedArray.set_set, FixedArray.get_set_same _ _ inside]
  have mine : w.processes.get i = { p with pageDirectoryPhys := UInt32.ofNat (f * 4096) } := by
    rw [here, FixedArray.get_set_same _ _ inside]
  have memory : w.toMemDemo = u.toMemDemo.withVmm v := by
    rw [← before]
    rfl
  obtain ⟨after, kept⟩ := tenancy.made inside free made
    (p := { p with pageDirectoryPhys := UInt32.ofNat (f * 4096) }) used rfl fun _ => True
  rw [← here, ← memory] at after
  obtain ⟨entries, slots⟩ := tenancy.accounts.fresh made
  obtain ⟨tenanted, keeps, same, born⟩ := spawnCode_fills after inside (by rw [mine]; exact used)
    (by rw [mine, memory]; exact slots) (by rw [mine, memory]; exact entries) image imageSize
  generalize (w.spawnCode i image imageSize).2 = final at tenanted keeps same born ⊢
  rw [memory, mine] at keeps
  refine ⟨tenanted, ⟨fun dir virtAddr there => ?_, fun dir virtAddr there => ?_⟩, fun j other => ?_,
    fun there virtAddr => ?_⟩
  all_goals
    have apart : ∀ {dir}, (∃ j, j < 8 ∧ (processes.get j).used = true ∧
        dir = (processes.get j).pageDirectoryPhys) → dir ≠ UInt32.ofNat (f * 4096) := by
      -- The directory of the new space belonged to nobody.
      rintro dir ⟨j, small, used', rfl⟩ same
      obtain ⟨live, -⟩ := tenancy.accounts.home small used'
      have address := toNat_ofNat_page (tenancy.accounts.spaces.small made.inPool)
      have page : pageOf (UInt32.ofNat (f * 4096)) = f := by
        unfold pageOf
        omega
      rw [same, page, made.free] at live
      cases live
  · exact (keeps.bytes dir virtAddr (apart there)).trans (kept.bytes dir virtAddr trivial)
  · exact (keeps.lent dir virtAddr (apart there)).trans (kept.lent dir virtAddr trivial)
  · rw [same j other, here, others other]
  · obtain ⟨slots', filled⟩ := born there
    unfold KernelState.byteOf
    rw [slots']
    exact filled virtAddr

/-- `process_spawn_child_from_buffer_with_priority` makes a process with its image and zeros. -/
theorem processSpawn_tenanted (tenanted : Tenanted base o s) (parentPid : Int)
    (image : Option (Nat → UInt8)) (imageSize : Nat) (priority : Int) :
    let t := (processSpawnChildFromBufferWithPriority s parentPid image imageSize priority).2
    Tenanted base o t ∧ Passes (image.map fun image => (image, imageSize)) s t := by
  obtain ⟨owner, tenancy⟩ := id tenanted
  unfold processSpawnChildFromBufferWithPriority
  split
  · exact ⟨tenanted, (Remembers.refl s).passes⟩
  next image =>
  split
  · exact ⟨tenanted, (Remembers.refl s).passes⟩
  unfold KernelState.allocateProcess
  cases found : (List.range processMax).find? fun i => !(s.processes.get i).used with
  | none => exact ⟨tenanted, (Remembers.refl s).passes⟩
  | some i =>
    obtain ⟨free, member, -⟩ := List.find?_range_eq_some.mp found
    have inside : i < 8 := List.mem_range.mp member
    have free : (s.processes.get i).used = false := by simpa using free
    simp only
    generalize before : KernelState.setProcess _ i _ = u
    have memory : u.toMemDemo = s.toMemDemo := by
      rw [← before]
      rfl
    have slot : u.processes = (s.processes.set i (KernelState.freshProcess s.nextPid)).set i
        { (s.processes.set i (KernelState.freshProcess s.nextPid)).get i with
          parentPid := parentPid
          priority := priority
          imageSize := imageSize } := by
      rw [← before]
      rfl
    rw [FixedArray.set_set] at slot
    rw [← memory] at tenancy
    obtain ⟨after, keeps, others, born⟩ := spawnSpace_tenanted tenancy inside free slot
      (by
        change ((s.processes.set i _).get i).used = true
        rw [FixedArray.get_set_same _ _ inside]
        rfl) image imageSize
    rw [memory] at keeps
    refine ⟨after, fun j small used => ?_⟩
    generalize (u.spawnSpace i image imageSize).2 = t at keeps others born used ⊢
    by_cases here : j = i
    · subst here
      exact Or.inr ⟨free, _, rfl, born used⟩
    · -- The others have their spaces, and what is in them.
      rw [others j here] at used
      have there : ∃ l, l < 8 ∧ (s.processes.get l).used = true ∧
          (s.processes.get j).pageDirectoryPhys = (s.processes.get l).pageDirectoryPhys :=
        ⟨j, small, used, rfl⟩
      refine Or.inl ⟨used, fun virtAddr => ?_⟩
      unfold KernelState.byteOf KernelState.grants
      rw [others j here, keeps.bytes _ virtAddr there, keeps.lent _ virtAddr there]
      unfold regranted
      cases (s.processes.get j).asked virtAddr || s.lent _ virtAddr <;> rfl

end Spawn

section Calls

/-- `process_spawn_builtin_child_for_current` makes a process with the image of a program. -/
theorem processSpawnBuiltin_tenanted (tenanted : Tenanted base o s)
    (builtin : UInt32 → Option (List UInt8)) (appId : UInt32) :
    let t := (processSpawnBuiltinChildForCurrent s builtin appId).2
    Tenanted base o t ∧ Passes ((builtin appId).map fun image =>
      (fun k => image.getD k 0, image.length)) s t := by
  -- Refused, or a spawn with the image of the program.
  have refused : Passes ((builtin appId).map fun image => (fun k => image.getD k 0, image.length)) s s :=
    (Remembers.refl s).passes
  unfold processSpawnBuiltinChildForCurrent
  split
  · exact ⟨tenanted, refused⟩
  split
  · exact ⟨tenanted, refused⟩
  split
  · exact ⟨tenanted, refused⟩
  split
  · exact ⟨tenanted, refused⟩
  · next image found =>
    rw [found]
    exact processSpawn_tenanted tenanted _ (some fun k => image.getD k 0) image.length _

/-- A page that a process asked for is one of those whose bit is set. -/
theorem asked_iff {p : Process} {virtAddr : UInt32} : p.asked virtAddr = true ↔
    ∃ k, k < processUserVmPageCount ∧ flagOf p.vmPageBitmap k = true ∧
      virtAddr.toNat / 4096 = 12288 + k := by
  -- The page number of the address is compared with that of each bit.
  unfold Process.asked samePage
  simp only [List.any_eq_true, List.mem_range, Bool.and_eq_true, beq_iff_eq]
  refine exists_congr fun k => and_congr_right fun small => ?_
  rw [and_ne_zero_eq_flagOf _ (toNat_vmPageBit small), toNat_vmPage small]
  refine and_congr_right fun _ => ?_
  omega

/-- A process that asks for one more page. -/
theorem asked_marked {p : Process} {pageIndex virtAddr : UInt32}
    (index : pageIndex.toNat < processUserVmPageCount) :
    { p with vmPageBitmap := p.vmPageBitmap ||| 1 <<< pageIndex : Process }.asked virtAddr =
      (p.asked virtAddr || decide (virtAddr.toNat / 4096 = 12288 + pageIndex.toNat)) := by
  -- The new bit is set besides the others.
  have bit := toNat_vmPageBit index
  rw [UInt32.ofNat_toNat] at bit
  have set_ : ∀ k, flagOf (p.vmPageBitmap ||| 1 <<< pageIndex) k =
      (flagOf p.vmPageBitmap k || decide (pageIndex.toNat = k)) := by
    intro k
    rw [flagOf_or]
    congr 1
    unfold flagOf
    rw [bit, Nat.testBit_two_pow]
  rw [Bool.eq_iff_iff, Bool.or_eq_true, asked_iff, asked_iff, decide_eq_true_eq]
  simp only [set_, Bool.or_eq_true, decide_eq_true_eq]
  constructor
  · rintro ⟨k, small, before | rfl, page⟩
    · exact Or.inl ⟨k, small, before, page⟩
    · exact Or.inr page
  · rintro (⟨k, small, before, page⟩ | page)
    · exact ⟨k, small, Or.inl before, page⟩
    · exact ⟨_, index, Or.inr rfl, page⟩

/-- It lists that page, besides what it listed. -/
theorem Process.Lists.marked {p : Process} {pageIndex virtAddr : UInt32}
    (index : pageIndex.toNat < processUserVmPageCount)
    (lists : p.Lists virtAddr ∨ virtAddr.toNat = 0x03000000 + pageIndex.toNat * 4096) :
    { p with vmPageBitmap := p.vmPageBitmap ||| 1 <<< pageIndex : Process }.Lists virtAddr := by
  -- Code, stack, a page listed before, or the new one.
  rcases lists with (code | stack | ⟨k, below, set, virt⟩) | place
  · exact Or.inl code
  · exact Or.inr (Or.inl stack)
  · refine Or.inr (Or.inr ⟨k, below, ?_, virt⟩)
    rw [and_ne_zero_eq_flagOf _ (toNat_vmPageBit below)] at set ⊢
    rw [flagOf_or, set, Bool.true_or]
  · refine Or.inr (Or.inr ⟨pageIndex.toNat, index, ?_, ?_⟩)
    · have bit := toNat_vmPageBit index
      rw [and_ne_zero_eq_flagOf _ bit, flagOf_or]
      rw [UInt32.ofNat_toNat] at bit
      unfold flagOf
      rw [bit, Nat.testBit_two_pow_self, Bool.or_true]
    · rw [← UInt32.toNat_inj, place, toNat_vmPage index]

/-- A page that a process did not ask for is not registered. -/
theorem Tenancy.unasked (tenancy : Tenancy base o owner processes m) (inside : i < 8)
    (used : (processes.get i).used = true) {k : Nat} (small : k < processUserVmPageCount)
    (clear : flagOf (processes.get i).vmPageBitmap k = false) {virtAddr : UInt32}
    (place : virtAddr.toNat = 0x03000000 + k * 4096) :
    m.findPageByVirt (processes.get i).pageDirectoryPhys virtAddr = none := by
  -- Its bit is clear, so the process does not list it.
  refine (tenancy.accounts.listed inside used).missing ?_
  rw [alignDownPage_eq (by omega)]
  change k < 24 at small
  rintro (code | stack | ⟨j, below, set, virt⟩)
  · rw [code] at place
    exact absurd place (by change ¬ 8388608 = _; omega)
  · rw [stack] at place
    exact absurd place (by change ¬ 3221155840 = _; omega)
  · rw [virt, toNat_vmPage below] at place
    obtain rfl : j = k := by omega
    rw [and_ne_zero_eq_flagOf _ (toNat_vmPageBit below)] at set
    exact nomatch clear.symm.trans set

/-- A page may count as one of a process before it is registered. -/
theorem Tenancy.mark {p : Process} (tenancy : Tenancy base o owner s.processes s.toMemDemo)
    (inside : i < 8) (used : (s.processes.get i).used = true) {pageIndex : UInt32}
    (small : pageIndex.toNat < 24) (marked : p = { s.processes.get i with
      vmPageBitmap := (s.processes.get i).vmPageBitmap ||| 1 <<< pageIndex }) :
    Tenancy base o owner (s.processes.set i p) s.toMemDemo := by
  -- The process only lists more pages than before.
  refine tenancy.congr fun j below => ?_
  rw [FixedArray.get_set _ _ below]
  split
  · next here =>
    subst here
    rw [marked]
    exact ⟨rfl, fun _ => ⟨rfl, fun _ lists => Process.Lists.marked small (Or.inl lists)⟩⟩
  · exact ⟨rfl, fun _ => ⟨rfl, fun _ => id⟩⟩

/-- A page that is marked and registered is a page of zeros, and nothing else changes. -/
theorem Tenancy.markedPage {p : Process} {pager : Pager}
    (tenancy : Tenancy base o owner s.processes s.toMemDemo) (inside : i < 8)
    (used : (s.processes.get i).used = true) {pageIndex virtAddr : UInt32}
    (small : pageIndex.toNat < 24)
    (clear : flagOf (s.processes.get i).vmPageBitmap pageIndex.toNat = false)
    (place : virtAddr.toNat = 0x03000000 + pageIndex.toNat * 4096) (half : virtAddr < vmmKernelBase)
    (registered : pagerRegisterPageInDirectory s.toPager (s.processes.get i).pageDirectoryPhys
      virtAddr (pageFlags virtAddr) = (true, pager))
    (marked : p = { s.processes.get i with
      vmPageBitmap := (s.processes.get i).vmPageBitmap ||| 1 <<< pageIndex }) :
    Tenanted base o ((s.withPager pager).setProcess i p) ∧
      Passes none s ((s.withPager pager).setProcess i p) := by
  have missing := tenancy.unasked inside used small clear place
  have before := tenancy.mark inside used small marked
  have asks : ∀ v, p.asked v = ((s.processes.get i).asked v ||
      decide (v.toNat / 4096 = 12288 + pageIndex.toNat)) := by
    intro v
    rw [marked]
    exact asked_marked small
  have home : p.pageDirectoryPhys = (s.processes.get i).pageDirectoryPhys ∧ p.used = true := by
    rw [marked]
    exact ⟨rfl, used⟩
  have mine : (s.processes.set i p).get i = p := FixedArray.get_set_same _ _ inside
  have there : ((s.processes.set i p).get i).pageDirectoryPhys =
      (s.processes.get i).pageDirectoryPhys := by
    rw [mine, home.1]
  rw [← there] at missing registered
  obtain ⟨after, -, -, bytes⟩ := before.register inside (by rw [mine]; exact home.2) half missing
    (some fun _ => 0) 0 registered fun _ => by
      rw [mine, marked]
      exact Process.Lists.marked small (Or.inr place)
  refine ⟨⟨owner, after⟩, fun j small' used' => ?_⟩
  have used' : ((s.processes.set i p).get j).used = true := used'
  have byte : ∀ v, ((s.withPager pager).setProcess i p).byteOf j v =
      ({ s.toMemDemo with toPager := pager } : MemDemo).byteIn
        ((s.processes.set i p).get j).pageDirectoryPhys v := fun _ => rfl
  have grant : ∀ v, ((s.withPager pager).setProcess i p).grants j v =
      (((s.processes.set i p).get j).asked v ||
        s.lent ((s.processes.set i p).get j).pageDirectoryPhys v) := fun _ => rfl
  simp only [byte, grant, bytes]
  unfold KernelState.byteOf KernelState.grants
  -- The process itself sees the zeros, and the others have spaces of their own.
  by_cases here : j = i
  · subst here
    refine Or.inl ⟨used, fun v => ?_⟩
    simp only [mine, home.1, true_and, asks, initialBytes, Nat.not_lt_zero, if_false]
    by_cases page : v.toNat / 4096 = 12288 + pageIndex.toNat
    · -- The process did not have this page before.
      have new : (s.processes.get j).asked v = false := by
        rw [Bool.eq_false_iff]
        intro asked
        obtain ⟨k, -, set, page'⟩ := asked_iff.mp asked
        obtain rfl : k = pageIndex.toNat := by omega
        exact nomatch clear.symm.trans set
      have unlent : s.lent (s.processes.get j).pageDirectoryPhys v = false :=
        asked_unlent (p := p) ((asks v).trans (by simp [page]))
      rw [if_pos (by omega), new, unlent]
      simp [regranted, page]
    · rw [if_neg (by omega)]
      simp only [page, decide_false, Bool.or_false]
      unfold regranted
      cases (s.processes.get j).asked v || s.lent _ v <;> rfl
  · rw [FixedArray.get_set _ _ small', if_neg here] at used' ⊢
    refine Or.inl ⟨used', fun v => ?_⟩
    rw [there, if_neg fun same => tenancy.elsewhere inside small' used used' here same.2.1]
    unfold regranted
    cases (s.processes.get j).asked v || s.lent _ v <;> rfl

/-- `process_vm_alloc_page` gives the process that runs a page of zeros. -/
theorem processVmAllocPage_tenanted (tenanted : Tenanted base o s) (pageIndex : UInt32) :
    Tenanted base o (processVmAllocPage s pageIndex).2 ∧
      Passes none s (processVmAllocPage s pageIndex).2 := by
  -- A request that is refused changes nothing.
  have refused : Tenanted base o s ∧ Passes none s s := ⟨tenanted, (Remembers.refl s).passes⟩
  unfold processVmAllocPage
  split
  · exact refused
  next index =>
  simp only [Bool.or_eq_true, decide_eq_true_eq, not_or, ge_iff_le, Nat.not_le] at index
  split
  · exact refused
  next i found =>
  obtain ⟨inside, used, -⟩ := findProcessByPid_some found
  split
  · exact refused
  simp only
  split
  · exact refused
  next clear =>
  -- The page lies in the part of the user's half that a process can ask for.
  obtain ⟨owner, tenancy⟩ := tenanted
  have small : pageIndex.toNat < 24 := index.2
  have bit := toNat_vmPageBit index.2
  have place := toNat_vmPage index.2
  rw [UInt32.ofNat_toNat] at bit place
  rw [and_ne_zero_eq_flagOf _ bit, Bool.not_eq_true] at clear
  generalize processUserVmBase + pageIndex * pageSize = virtAddr at place ⊢
  have half : virtAddr < vmmKernelBase := by
    rw [UInt32.lt_iff_toNat_lt, place]
    change _ < 3221225472
    omega
  have flags : vmmPageWritable ||| vmmPageUser = pageFlags virtAddr := by
    unfold pageFlags samePage
    rw [if_neg]
    simp only [beq_iff_eq, place]
    change ¬ _ = 8388608 / 4096
    omega
  rw [flags]
  cases registered : pagerRegisterPageInDirectory s.toPager (s.processes.get i).pageDirectoryPhys
    virtAddr (pageFlags virtAddr) with
  | mk done pager =>
  cases done with
  | false =>
    -- No entry is free, and no page shows anything else.
    have missing := tenancy.unasked inside used small clear place
    obtain ⟨after, -, -, bytes⟩ := tenancy.register inside used half missing (some fun _ => 0) 0
      registered nofun
    have keeps : Keeps (fun _ => True) s.toMemDemo { s.toMemDemo with toPager := pager } :=
      ⟨fun dir v _ => (bytes dir v).trans (if_neg (by simp)), fun _ _ _ => rfl⟩
    obtain ⟨tenanted, remembers⟩ := after.remembered keeps
    exact ⟨tenanted, remembers.passes⟩
  | true =>
    simp only [withPager_processes]
    exact tenancy.markedPage inside used small clear place half registered rfl

/-- A process that is entered finds its memory as it was. -/
theorem processEnter_tenanted (tenanted : Tenanted base o s) (pid : Int) :
    Tenanted base o (processEnter s pid).2 ∧ Remembers s (processEnter s pid).2 := by
  -- Refused, or the space of the slot is switched to.
  unfold processEnter
  split
  · exact ⟨tenanted, .refl s⟩
  next i found =>
  split
  · exact ⟨tenanted, .refl s⟩
  unfold vmmSwitchPageDirectory
  by_cases refused : (!s.vmmReady || (s.processes.get i).pageDirectoryPhys == 0) = true
  · rw [if_pos refused]
    exact ⟨tenanted, .refl s⟩
  · rw [if_neg refused]
    obtain ⟨owner, tenancy⟩ := tenanted
    obtain ⟨moved, keeps⟩ := tenancy.withCurrent (s.processes.get i).pageDirectoryPhys fun _ => True
    have switched : Tenanted base o (s.withVmm { s.toVmm with
          currentPageDirectoryPhys := (s.processes.get i).pageDirectoryPhys }) ∧
        Remembers s (s.withVmm { s.toVmm with
          currentPageDirectoryPhys := (s.processes.get i).pageDirectoryPhys }) :=
      moved.remembered keeps
    simp only
    generalize s.withVmm { s.toVmm with
      currentPageDirectoryPhys := (s.processes.get i).pageDirectoryPhys } = v at switched ⊢
    obtain ⟨there, remembers⟩ := switched
    have entered := (PagesKept.setCurrent v (v.processes.get i).pid).trans
      (.setProcess (i := i) (p := { v.processes.get i with state := .running }) rfl rfl rfl)
    obtain ⟨after, remembers'⟩ := entered.tenanted there
    exact ⟨after, remembers.trans remembers'⟩

/-- Back in the kernel every process has what it had. -/
theorem processLeave_tenanted (tenanted : Tenanted base o s) (i : Nat) (result : UInt32) :
    Tenanted base o (processLeave s i result) ∧ Remembers s (processLeave s i result) := by
  have moved : Tenanted base o
      (s.withVmm (vmmSwitchPageDirectory s.kernelPageDirectoryPhys s.toVmm).2) ∧
      Remembers s (s.withVmm (vmmSwitchPageDirectory s.kernelPageDirectoryPhys s.toVmm).2) := by
    unfold vmmSwitchPageDirectory
    split
    · exact ⟨tenanted, .refl s⟩
    · obtain ⟨owner, tenancy⟩ := tenanted
      obtain ⟨moved, keeps⟩ := tenancy.withCurrent s.kernelPageDirectoryPhys fun _ => True
      exact moved.remembered keeps
  unfold processLeave
  simp only
  generalize s.withVmm (vmmSwitchPageDirectory s.kernelPageDirectoryPhys s.toVmm).2 = u at moved ⊢
  obtain ⟨tenanted', remembers⟩ := moved
  -- What is left changes the table only.
  have only : ∀ {t : KernelState}, PagesKept u t → Tenanted base o t ∧ Remembers s t := by
    intro t kept
    obtain ⟨after, remembers'⟩ := kept.tenanted tenanted'
    exact ⟨after, remembers.trans remembers'⟩
  split
  · have yielded : PagesKept u (u.setProcess i { u.processes.get i with state := .ready }) :=
      .setProcess rfl rfl rfl
    exact only (yielded.trans (.setCurrent _ 0))
  · have ended : PagesKept u
        (u.setProcess i { u.processes.get i with exitCode := result, state := .zombie }) :=
      .setProcess rfl rfl rfl
    exact only ((ended.trans (.adoptChildren _ _)).trans (.setCurrent _ 0))

/-- Where no process is made, it does not matter with which image one would be. -/
theorem Passes.ofNone {born : Option ((Nat → UInt8) × Nat)} (passes : Passes none s t) :
    Passes born s t := by
  -- Nothing was born, so the memory was there before.
  intro i inside used
  rcases passes i inside used with left | ⟨-, image, none_, -⟩
  · exact Or.inl left
  · cases none_

/-- A system call of the process that runs passes every memory on. -/
theorem usermodeHandleSyscall_tenanted (tenanted : Tenanted base o s) (inside : i < 8)
    (used : (s.processes.get i).used = true)
    (here : (s.processes.get i).pageDirectoryPhys = s.currentPageDirectoryPhys)
    (builtin : UInt32 → Option (List UInt8)) (frame : InterruptFrame) :
    Tenanted base o (usermodeHandleSyscall builtin frame s).2 ∧
      Passes ((builtin frame.ebx).map fun image => (fun k => image.getD k 0, image.length)) s
        (usermodeHandleSyscall builtin frame s).2 := by
  -- One case for each number of a call, most of which leave memory alone.
  obtain ⟨owner, tenancy⟩ := id tenanted
  generalize bornIs : ((builtin frame.ebx).map fun image : List UInt8 =>
    ((fun k => image.getD k 0 : Nat → UInt8), image.length)) = born
  have only : ∀ {t : KernelState}, Tenanted base o t ∧ Remembers s t → Tenanted base o t ∧ Passes born s t :=
    fun ⟨after, remembers⟩ => ⟨after, remembers.passes⟩
  have lending : ∀ {m : MemDemo}, (∃ owner', Tenancy base o owner' s.processes m) ∧
      Relent s.toMemDemo m → Tenanted base o (s.withMemDemo m) ∧ Passes born s (s.withMemDemo m) :=
    fun ⟨after, relent⟩ => ⟨after, relent.passes⟩
  refine usermodeHandleSyscall_keeps (P := fun t => Tenanted base o t ∧ Passes born s t) builtin frame
    (only ⟨tenanted, .refl s⟩) ?_ ?_ ?_ ?_ ?_ ?_ ?_ ?_
  · exact only ((processSaveYieldFrame_pagesKept s frame).tenanted tenanted)
  · exact lending (tenancy.applyOp inside used here frame.ebx frame.ecx)
  · exact lending tenancy.reset
  · obtain ⟨after, keeps⟩ := tenancy.reportEvent frame.ebx
    exact only (after.remembered keeps)
  · obtain ⟨after, passes⟩ := processVmAllocPage_tenanted tenanted frame.ebx
    exact ⟨after, passes.ofNone⟩
  · obtain ⟨after, -, keeps⟩ := tenancy.sample fun _ => True
    exact only (after.remembered keeps)
  · have idle : pagerClearVictimTrace s.toPager = { s.toPager with
        currentAlgorithm := (pagerClearVictimTrace s.toPager).currentAlgorithm
        victimTrace := (pagerClearVictimTrace s.toPager).victimTrace } := rfl
    obtain ⟨after, -, keeps⟩ := tenancy.idle idle fun _ => True
    exact only (after.remembered keeps)
  · rw [← bornIs]
    exact processSpawnBuiltin_tenanted tenanted builtin frame.ebx

end Calls

end MyOS.Kernel
