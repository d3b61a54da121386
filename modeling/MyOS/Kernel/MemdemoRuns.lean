import MyOS.Kernel.Accounts
import MyOS.Kernel.TableRuns

/-! Which of the addresses handed out by the memory demonstration the caller can use. -/

namespace MyOS.Kernel

open MyOS.Mm MyOS.Fs

/-- What becomes of the memory demonstration as programs in several spaces take turns. -/
inductive MemdemoCall where
  /-- The processor turns to the space of another process. -/
  | run (pageDirectoryPhys : UInt32)
  | op (op page : UInt32)
  | reset
  /-- A process goes away. -/
  | release (pageDirectoryPhys : UInt32)

/-- One step, with what the program is told. -/
def memdemoStep (s : MemDemo) : MemdemoCall → UInt32 × MemDemo
  | .run pageDirectoryPhys => (0, s.withVmm (vmmSwitchPageDirectory pageDirectoryPhys s.toVmm).2)
  | .op op page => memdemoApplyOp s op page
  | .reset => (1, memdemoReset s)
  | .release pageDirectoryPhys => (0, memdemoReleaseForDirectory s pageDirectoryPhys)

/-- The program that runs reaches the frame of a slot through an address, also for writing. -/
def MemDemo.Usable (s : MemDemo) (k : Nat) (virtAddr : UInt32) : Prop :=
  userTranslate s.currentPageDirectoryPhys virtAddr true s.toVmm = .ok (s.slots.get k).physAddr

/-- No slot has a page, and no space maps anything where the pages of slots appear. -/
structure MemdemoStarts (live : Nat → Prop) (owner : Owners Holder) (m : MemDemo) : Prop where
  spaces : Spaces owner m.toVmm
  directories : ∀ {d}, live d → owner d = some .directory
  current : live (pageOf m.currentPageDirectoryPhys) ∧
    m.currentPageDirectoryPhys.toNat = pageOf m.currentPageDirectoryPhys * 4096
  empty : ∀ {k}, k < 8 → (m.slots.get k).allocated = false
  unheld : ∀ {f k}, owner f ≠ some (.held (.slot k))
  unmapped : ∀ {d k}, live d → k < 8 → flagOf (m.cell d ((slotVirt k).toNat / 4096)) 0 = false

/-- What is always true of the slots and of the spaces that run. -/
structure Demo (live : Nat → Prop) (owner : Owners Holder) (m : MemDemo) : Prop where
  spaces : Spaces owner m.toVmm
  directories : ∀ {d}, live d → owner d = some .directory
  current : live (pageOf m.currentPageDirectoryPhys) ∧
    m.currentPageDirectoryPhys.toNat = pageOf m.currentPageDirectoryPhys * 4096
  slots : Slots owner m.slots m.toVmm
  /-- The page of a slot is the user's, also for writing. -/
  rights : ∀ {k}, k < 8 → (m.slots.get k).allocated = true →
    permits (m.cell (pageOf (m.slots.get k).pageDirectoryPhys) ((slotVirt k).toNat / 4096)) true = true
  /-- What a space maps at the place of a slot is the page of the slot. -/
  mapped : ∀ {d k}, live d → k < 8 → flagOf (m.cell d ((slotVirt k).toNat / 4096)) 0 = true →
    (m.slots.get k).allocated = true ∧ pageOf (m.slots.get k).pageDirectoryPhys = d

section Laws

variable {live : Nat → Prop} {owner : Owners Holder} {m m' : MemDemo} {k : Nat}

/-- Without pages in slots there is nothing to say. -/
theorem MemdemoStarts.demo (starts : MemdemoStarts live owner m) : Demo live owner m := by
  -- No slot has a page, so none is lent and none is in reach.
  refine ⟨starts.spaces, starts.directories, starts.current, ⟨fun inside allocated => ?_, fun held => ?_⟩,
    fun inside allocated => ?_, fun here inside present => ?_⟩
  · exact nomatch (starts.empty inside).symm.trans allocated
  · exact absurd held starts.unheld
  · exact nomatch (starts.empty inside).symm.trans allocated
  · exact nomatch (starts.unmapped here inside).symm.trans present

namespace Demo

/-- What changes neither memory nor the slots changes nothing. -/
theorem rest (demo : Demo live owner m) (vmm : m'.toVmm = m.toVmm) (slots : m'.slots = m.slots) :
    Demo live owner m' := by
  -- Every clause speaks of the memory or of the slots.
  obtain ⟨spaces, here, current, all, rights, mapped⟩ := demo
  refine ⟨?_, here, ?_, ?_, ?_, ?_⟩
  · rw [vmm]
    exact spaces
  · rw [vmm]
    exact current
  · rw [vmm, slots]
    exact all
  · rw [vmm, slots]
    exact rights
  · rw [vmm, slots]
    exact mapped

/-- Another space is the current one. -/
theorem run (demo : Demo live owner m) {dir : UInt32} (here : live (pageOf dir))
    (at_ : dir.toNat = pageOf dir * 4096) :
    Demo live owner (m.withVmm (vmmSwitchPageDirectory dir m.toVmm).2) := by
  -- The switch moves nothing, and the space switched to is one of the spaces.
  rw [demo.spaces.switched (demo.directories here) at_]
  exact ⟨demo.spaces.withCurrent dir, demo.directories, ⟨here, at_⟩,
    demo.slots.unmoved ⟨fun _ _ => .refl _, ⟨rfl, rfl, rfl, rfl, rfl⟩, rfl⟩, demo.rights, demo.mapped⟩

/-- The page of a slot is taken back. -/
theorem freeSlot (demo : Demo live owner m) (inside : k < 8) :
    ∃ owner', Demo live owner' (m.freeSlot k) ∧ ((m.freeSlot k).slots.get k).allocated = false := by
  by_cases allocated : (m.slots.get k).allocated = true
  case neg =>
    unfold MemDemo.freeSlot
    simp only
    rw [if_pos (by simpa using allocated)]
    exact ⟨owner, demo, Bool.eq_false_iff.mpr allocated⟩
  obtain ⟨-, slotsIs, dropped, slots⟩ := demo.slots.freed demo.spaces inside allocated
  obtain ⟨virt, -, -, lease⟩ := demo.slots.lent inside allocated
  have other : ∀ {d}, owner d = some .directory → d ≠ pageOf (m.slots.get k).physAddr := by
    rintro d here rfl
    exact nomatch here.symm.trans lease.owned
  -- A place of a slot that is mapped afterwards is not the one just cleared.
  have place : ∀ {d j}, owner d = some .directory → j < 8 →
      ¬ (d = pageOf (m.slots.get k).pageDirectoryPhys ∧ j = k) →
      (m.freeSlot k).cell d ((slotVirt j).toNat / 4096) = m.cell d ((slotVirt j).toNat / 4096) := by
    intro d j here small apart
    refine dropped.cells here (by rw [toNat_slotVirt small]; omega) ?_
    rw [virt, toNat_slotVirt small, toNat_slotVirt inside]
    omega
  refine ⟨_, ⟨dropped.spaces, fun here => ?_, ?_, slots, fun {j} small still => ?_,
    fun {d j} here small present => ?_⟩, ?_⟩
  · rw [Function.update_of_ne (other (demo.directories here))]
    exact demo.directories here
  · rw [dropped.current]
    exact demo.current
  · rw [slotsIs] at still ⊢
    obtain ⟨apart, same⟩ := Slots.of_set_empty small still
    rw [same] at still ⊢
    rw [place (demo.slots.lent small still).lease.live small (by simp [apart])]
    exact demo.rights small still
  · by_cases cleared : d = pageOf (m.slots.get k).pageDirectoryPhys ∧ j = k
    · obtain ⟨rfl, rfl⟩ := cleared
      rw [← virt] at present
      exact nomatch dropped.gone.symm.trans present
    · rw [place (demo.directories here) small cleared] at present
      obtain ⟨still, directory⟩ := demo.mapped here small present
      have apart : j ≠ k := by
        rintro rfl
        exact cleared ⟨directory.symm, rfl⟩
      rw [slotsIs, FixedArray.get_set _ _ small, if_neg apart]
      exact ⟨still, directory⟩
  · rw [slotsIs, FixedArray.get_set _ _ inside, if_pos rfl]
    rfl

/-- A slot without a page is cleared. -/
theorem clearSlot (demo : Demo live owner m) (inside : k < 8) (empty : (m.slots.get k).allocated = false) :
    Demo live owner (m.clearSlot k) := by
  -- The other slots keep what they say, and this one had no page.
  have slots : ∀ {j}, j < 8 → (m.slots.get j).allocated = true →
      (m.clearSlot k).slots.get j = m.slots.get j := by
    intro j small allocated
    refine (FixedArray.get_set _ _ small).trans (if_neg ?_)
    rintro rfl
    exact nomatch empty.symm.trans allocated
  refine ⟨demo.spaces, demo.directories, demo.current, demo.slots.cleared empty,
    fun {j} small still => ?_, fun {d j} here small present => ?_⟩
  · obtain ⟨-, same⟩ := Slots.of_set_empty small still
    change ((m.slots.set k emptySlot).get j).allocated = true at still
    change permits (m.cell (pageOf ((m.slots.set k emptySlot).get j).pageDirectoryPhys) _) true = true
    rw [same] at still ⊢
    exact demo.rights small still
  · obtain ⟨allocated, directory⟩ := demo.mapped here small present
    rw [slots small allocated]
    exact ⟨allocated, directory⟩

/-- Memory may change where every space maps the same pages with the same rights. -/
theorem unmoved (demo : Demo live owner m) {vmm : Vmm} (spaces : Spaces owner vmm)
    (unmoved : Unmoved owner m.toVmm vmm)
    (current : vmm.currentPageDirectoryPhys = m.currentPageDirectoryPhys) :
    Demo live owner (m.withVmm vmm) := by
  -- The rights and the maps of the pages are read through the same cells.
  have alike : ∀ {d j}, owner d = some .directory → j < 8 →
      Alike (vmm.cell d ((slotVirt j).toNat / 4096)) (m.cell d ((slotVirt j).toNat / 4096)) :=
    fun here small => unmoved.cells here (by rw [toNat_slotVirt small]; omega)
  refine ⟨spaces, demo.directories, ?_, demo.slots.unmoved unmoved, fun {j} small allocated => ?_,
    fun {d j} here small present => ?_⟩
  · change live (pageOf vmm.currentPageDirectoryPhys) ∧ vmm.currentPageDirectoryPhys.toNat =
      pageOf vmm.currentPageDirectoryPhys * 4096
    rw [current]
    exact demo.current
  · have same := alike (demo.slots.lent small allocated).lease.live small
    have before := demo.rights small allocated
    unfold permits at before ⊢
    rw [← same.flags 2 (by decide), ← same.flags 1 (by decide)] at before
    exact before
  · exact demo.mapped here small
      (((alike (demo.directories here) small).flags 0 (by decide)).symm.trans present)

/-- A slot without a page gets one in the current space. -/
theorem placed (demo : Demo live owner m) (inside : k < 8) (empty : (m.slots.get k).allocated = false)
    {owner' : Owners Holder} {vmm : Vmm} {f : Nat} {physAddr : UInt32} {bytes : Nat → UInt8}
    (address : physAddr.toNat = f * 4096)
    (placed : Placed owner owner' m.toVmm vmm (pageOf m.currentPageDirectoryPhys)
      ((slotVirt k).toNat / 4096) f (.slot k) (leafEntry physAddr (vmmPageWritable ||| vmmPageUser))
      bytes) (activePages : UInt32) :
    Demo live owner' { m.withVmm vmm with
      slots := m.slots.set k ⟨true, m.currentPageDirectoryPhys, slotVirt k, physAddr⟩, activePages } := by
  obtain ⟨here, at_⟩ := demo.current
  obtain ⟨-, flag1, flag2⟩ := leafEntry_flags physAddr (vmmPageWritable ||| vmmPageUser)
  have small : ∀ {j}, j < 8 → (slotVirt j).toNat / 4096 < 1048576 := by
    intro j small
    rw [toNat_slotVirt small]
    omega
  have apart : ∀ {d j}, j < 8 → ¬ (d = pageOf m.currentPageDirectoryPhys ∧ j = k) →
      ¬ (d = pageOf m.currentPageDirectoryPhys ∧ (slotVirt j).toNat / 4096 = (slotVirt k).toNat / 4096) := by
    intro d j small other
    rw [toNat_slotVirt small, toNat_slotVirt inside]
    omega
  have slot : ∀ {j}, j < 8 → (m.slots.set k ⟨true, m.currentPageDirectoryPhys, slotVirt k, physAddr⟩).get j =
      if j = k then ⟨true, m.currentPageDirectoryPhys, slotVirt k, physAddr⟩ else m.slots.get j :=
    fun small => FixedArray.get_set _ _ small
  refine ⟨placed.spaces, fun here => (placed.roles _ .directory nofun).mpr (Or.inr (demo.directories here)),
    ?_, demo.slots.filled inside empty (demo.directories here) at_ address placed,
    fun {j} below allocated => ?_, fun {d j} here' below present => ?_⟩
  · change live (pageOf vmm.currentPageDirectoryPhys) ∧ vmm.currentPageDirectoryPhys.toNat =
      pageOf vmm.currentPageDirectoryPhys * 4096
    rw [placed.current]
    exact demo.current
  · simp only [slot below] at allocated ⊢
    split at allocated
    · next same =>
      subst same
      rw [if_pos rfl]
      change permits (vmm.cell _ _) true = true
      rw [placed.cells (demo.directories here) (small inside), if_pos ⟨rfl, rfl⟩, permits, flag2, flag1]
      rfl
    · next other =>
      rw [if_neg other]
      change permits (vmm.cell _ _) true = true
      rw [placed.cells (demo.slots.lent below allocated).lease.live (small below),
        if_neg (apart below (by simp [other]))]
      exact demo.rights below allocated
  · simp only [slot below]
    by_cases same : j = k
    · subst same
      rw [if_pos rfl]
      refine ⟨rfl, ?_⟩
      by_contra other
      -- In another space nothing was mapped at the place of a slot without a page.
      change flagOf (vmm.cell d _) 0 = true at present
      rw [placed.cells (demo.directories here') (small below),
        if_neg fun equal => other equal.1.symm] at present
      exact nomatch empty.symm.trans (demo.mapped here' below present).1
    · rw [if_neg same]
      change flagOf (vmm.cell d _) 0 = true at present
      rw [placed.cells (demo.directories here') (small below),
        if_neg (apart below (by simp [same]))] at present
      exact demo.mapped here' below present

/-- What the first part of `ALLOC` leads to: the slot has a page, or there was too little memory. -/
theorem allocSlot_cases (demo : Demo live owner m) (inside : k < 8) :
    ((m.slots.get k).allocated = true ∧ allocSlot m k = (true, m)) ∨
    (∃ m', allocSlot m k = (false, m') ∧ Demo live owner m') ∨
    ∃ owner' m', allocSlot m k = (true, m') ∧ (m.slots.get k).allocated = false ∧
      Demo live owner' m' ∧ (m'.slots.get k).allocated = true ∧
      (m'.slots.get k).pageDirectoryPhys = m'.currentPageDirectoryPhys := by
  -- The slot has a page, or the mapping was undone, or it was placed.
  obtain ⟨here, at_⟩ := demo.current
  rcases MyOS.Kernel.allocSlot_cases demo.spaces (demo.directories here) at_ inside with
    same | ⟨vmm, result, reverted⟩ | ⟨empty, owner', vmm, f, physAddr, address, result, placed⟩
  · exact Or.inl same
  · exact Or.inr (Or.inl ⟨_, result, demo.unmoved reverted.spaces reverted.unmoved reverted.current⟩)
  · refine Or.inr (Or.inr ⟨owner', _, result, empty, demo.placed inside empty address placed _, ?_, ?_⟩)
    · change ((m.slots.set k _).get k).allocated = true
      rw [FixedArray.get_set _ _ inside, if_pos rfl]
    · change ((m.slots.set k _).get k).pageDirectoryPhys = vmm.currentPageDirectoryPhys
      rw [FixedArray.get_set _ _ inside, if_pos rfl, placed.current]

/-- Every part of a call leaves the slots and the spaces in order. -/
theorem kept : KeptByParts fun m => ∃ owner, Demo live owner m := by
  -- Each part of a call has its own lemma.
  refine ⟨fun ⟨owner, demo⟩ pager slots => ⟨owner, demo.rest ?_ slots⟩,
    fun ⟨_, demo⟩ inside => ?_, fun ⟨owner, demo⟩ inside empty => ⟨owner, demo.clearSlot inside empty⟩,
    fun {m k} ⟨owner, demo⟩ inside => ?_⟩
  · rw [pager]
  · obtain ⟨owner', freed, -⟩ := demo.freeSlot inside
    exact ⟨owner', freed⟩
  · rcases demo.allocSlot_cases inside with
      ⟨-, result⟩ | ⟨m', result, demo'⟩ | ⟨owner', m', result, -, demo', -⟩
    · rw [result]
      exact ⟨owner, demo⟩
    · rw [result]
      exact ⟨owner, demo'⟩
    · rw [result]
      exact ⟨owner', demo'⟩

/-- The page of a slot is in reach exactly for the programs of the space it was given to. -/
theorem usable_iff (demo : Demo live owner m) (inside : k < 8)
    (allocated : (m.slots.get k).allocated = true) :
    m.Usable k (m.slots.get k).virtAddr ↔
      (m.slots.get k).pageDirectoryPhys = m.currentPageDirectoryPhys := by
  -- The page is mapped in one space only, so it is in reach where that space is current.
  obtain ⟨here, at_⟩ := demo.current
  obtain ⟨half, aligned⟩ := slotVirt_half inside
  obtain ⟨virt, directory, address, lease⟩ := demo.slots.lent inside allocated
  unfold MemDemo.Usable
  rw [virt, userTranslate_eq demo.spaces (demo.directories here) at_ half true]
  constructor
  · intro reached
    have present : flagOf (m.cell (pageOf m.currentPageDirectoryPhys)
        ((slotVirt k).toNat / 4096)) 0 = true := by
      by_contra absent
      rw [if_pos (Bool.eq_false_iff.mpr absent)] at reached
      cases reached
    obtain ⟨-, same⟩ := demo.mapped here inside present
    apply UInt32.toNat_inj.mp
    rw [directory, at_, same]
  · intro same
    have rights := demo.rights inside allocated
    rw [virt] at lease
    rw [same] at rights lease
    rw [if_neg (by rw [lease.mapped]; nofun), if_neg (by rw [rights]; nofun), toNat_frame_or_offset,
      lease.target, aligned, Nat.add_zero, ← address, UInt32.ofNat_toNat]

/-- An event is entered or not, and neither touches the slots or the memory. -/
theorem recordEvent_cases (m : MemDemo) (op : UInt32) (page : Nat) (virtAddr physAddr : UInt32) :
    m.recordEvent op page virtAddr physAddr = (false, m) ∨
      ∃ t, m.recordEvent op page virtAddr physAddr = (true, t) ∧ t.toVmm = m.toVmm ∧
        t.slots = m.slots := by
  -- The record is full, or one event longer.
  unfold MemDemo.recordEvent
  by_cases full : m.sequence ≥ memdemoEventCount
  · rw [if_pos full]
    exact Or.inl rfl
  · rw [if_neg full]
    exact Or.inr ⟨_, rfl, rfl, rfl⟩

/-- What an answer to `ALLOC` or `TOUCH` is about: a slot that has a page. -/
theorem applyOp_answer (demo : Demo live owner m) {op page : UInt32}
    (asks : op = memdemoOpAlloc ∨ op = memdemoOpTouch) (answered : (memdemoApplyOp m op page).1 ≠ 0) :
    ∃ owner' m', Demo live owner' m' ∧ page.toNat < 8 ∧ (m'.slots.get page.toNat).allocated = true ∧
      (memdemoApplyOp m op page).1 = (m'.slots.get page.toNat).virtAddr ∧
      (memdemoApplyOp m op page).2.toVmm = m'.toVmm ∧ (memdemoApplyOp m op page).2.slots = m'.slots ∧
      ((m.slots.get page.toNat).allocated = true ∧ m' = m ∨
        (m.slots.get page.toNat).allocated = false ∧
          (m'.slots.get page.toNat).pageDirectoryPhys = m'.currentPageDirectoryPhys) := by
  unfold memdemoApplyOp at answered ⊢
  simp only at answered ⊢
  by_cases refused : page.toNat ≥ memdemoPageCount ∨ m.sequence ≥ memdemoEventCount
  · rw [if_pos refused] at answered
    exact absurd rfl answered
  have below : page.toNat < 8 := by
    change ¬ (page.toNat ≥ 8 ∨ _) at refused
    omega
  rw [if_neg refused] at answered ⊢
  rcases asks with rfl | rfl
  · -- `ALLOC` answers with the slot as it is, or as it has just been filled.
    rw [if_pos (beq_self_eq_true _)] at answered ⊢
    rcases demo.allocSlot_cases below with
      ⟨allocated, result⟩ | ⟨m', result, -⟩ | ⟨owner', m', result, empty, demo', allocated, mine⟩
    · rw [result] at answered ⊢
      simp only at answered ⊢
      rcases recordEvent_cases m _ page.toNat _ _ with full | ⟨t, entered, vmm, slots⟩
      · rw [full] at answered
        exact absurd rfl answered
      · rw [entered]
        have address := congrArg (fun slots => (slots.get page.toNat).virtAddr) slots
        exact ⟨owner, m, demo, below, allocated, address, vmm, slots, Or.inl ⟨allocated, rfl⟩⟩
    · rw [result] at answered
      exact absurd rfl answered
    · rw [result] at answered ⊢
      simp only at answered ⊢
      rcases recordEvent_cases m' _ page.toNat _ _ with full | ⟨t, entered, vmm, slots⟩
      · rw [full] at answered
        exact absurd rfl answered
      · rw [entered]
        have address := congrArg (fun slots => (slots.get page.toNat).virtAddr) slots
        exact ⟨owner', m', demo', below, allocated, address, vmm, slots, Or.inr ⟨empty, mine⟩⟩
  · -- `TOUCH` answers with the slot as it is.
    rw [if_neg (by decide), if_pos (beq_self_eq_true _)] at answered ⊢
    cases allocated : (m.slots.get page.toNat).allocated with
    | false =>
      rw [allocated] at answered
      exact absurd rfl answered
    | true =>
      rw [allocated] at answered
      rcases recordEvent_cases m _ page.toNat _ _ with full | ⟨t, entered, vmm, slots⟩
      · rw [full] at answered
        exact absurd rfl answered
      · rw [entered]
        have address := congrArg (fun slots => (slots.get page.toNat).virtAddr) slots
        exact ⟨owner, m, demo, below, allocated, address, vmm, slots, Or.inl ⟨rfl, rfl⟩⟩

end Demo

/-- The spaces that take turns. -/
def MemdemoCall.Runs (live : Nat → Prop) : MemdemoCall → Prop
  | .run pageDirectoryPhys =>
    live (pageOf pageDirectoryPhys) ∧ pageDirectoryPhys.toNat = pageOf pageDirectoryPhys * 4096
  | _ => True

/-- The slots and the spaces are in order after every run. -/
theorem memdemoRun_demo (demo : Demo live owner m) {calls : List MemdemoCall}
    (runs : ∀ call ∈ calls, call.Runs live) :
    ∃ owner', Demo live owner' (runState memdemoStep m calls) := by
  -- The order of slots and spaces is kept by each of the calls.
  refine runState_invariant memdemoStep (fun m => ∃ owner', Demo live owner' m) ?_ runs ⟨owner, demo⟩
  rintro m call allowed ⟨owner, demo⟩
  cases call with
  | run dir => exact ⟨owner, demo.run allowed.1 allowed.2⟩
  | op op page => exact Demo.kept.applyOp ⟨owner, demo⟩ op page
  | reset => exact Demo.kept.reset ⟨owner, demo⟩
  | release dir =>
    exact memdemoReleaseForDirectory_keeps (P := fun m => ∃ owner, Demo live owner m)
      Demo.kept.freeSlot ⟨owner, demo⟩ dir

/--
An address that is handed out is one the caller can use, unless the slot has a page of another space.

The check is for the slot alone, and not for whom it was given its page.
-/
theorem memdemo_usable_iff (starts : MemdemoStarts live owner m) {calls : List MemdemoCall}
    (runs : ∀ call ∈ calls, call.Runs live) {op page : UInt32}
    (asks : op = memdemoOpAlloc ∨ op = memdemoOpTouch)
    (answered : (memdemoApplyOp (runState memdemoStep m calls) op page).1 ≠ 0) :
    (memdemoApplyOp (runState memdemoStep m calls) op page).2.Usable page.toNat
        (memdemoApplyOp (runState memdemoStep m calls) op page).1 ↔
      (((runState memdemoStep m calls).slots.get page.toNat).allocated = true →
        ((runState memdemoStep m calls).slots.get page.toNat).pageDirectoryPhys =
          (runState memdemoStep m calls).currentPageDirectoryPhys) := by
  -- After the run the answer is the address of a slot with a page, and its space decides.
  obtain ⟨owner', demo⟩ := memdemoRun_demo starts.demo runs
  generalize runState memdemoStep m calls = s at demo answered
  obtain ⟨owner'', s', demo', inside, allocated, address, vmm, slots, origin⟩ :=
    demo.applyOp_answer asks answered
  have same : (memdemoApplyOp s op page).2.Usable page.toNat (memdemoApplyOp s op page).1 ↔
      s'.Usable page.toNat (s'.slots.get page.toNat).virtAddr := by
    unfold MemDemo.Usable
    rw [address, vmm, slots]
  rw [same, demo'.usable_iff inside allocated]
  rcases origin with ⟨before, rfl⟩ | ⟨empty, mine⟩
  · exact ⟨fun same _ => same, fun same => same before⟩
  · exact iff_of_true mine fun before => nomatch empty.symm.trans before

end Laws

section Example

/-- A space for each of two processes, of which the first runs. -/
def pairedMachine : Vmm :=
  { (vmmCreateAddressSpace (vmmCreateAddressSpace pagedMachine).2).2 with
    currentPageDirectoryPhys := 0x3000 }

/-- The memory demonstration on it, before anyone uses it. -/
def pairedDemo : MemDemo := smallKernel.toMemDemo.withVmm pairedMachine

/-- The directories of the two processes. -/
def pairedLive (d : Nat) : Prop := d = 3 ∨ d = 4

/-- The first process takes a page, and the other one is given the processor. -/
def handedOver : List MemdemoCall := [.op memdemoOpAlloc 0, .run 0x4000]

/-- The page that a new directory is in, from the address that is returned. -/
theorem page_of_made {s t : Vmm} {f : Nat} (page : Nat)
    (result : vmmCreateAddressSpace s = (some (UInt32.ofNat (f * 4096)), t))
    (returned : (vmmCreateAddressSpace s).1 = some (UInt32.ofNat (page * 4096)))
    (small : f < 2 ^ 20) (small' : page < 2 ^ 20) :
    f = page ∧ (vmmCreateAddressSpace s).2 = t := by
  -- Both addresses are the same number.
  rw [result] at returned ⊢
  have same := congrArg UInt32.toNat (Option.some.inj returned)
  rw [toNat_ofNat_page small, toNat_ofNat_page small'] at same
  exact ⟨by omega, rfl⟩

/-- Two pages of the machine become directories, in which no place of the user is mapped. -/
theorem pairedDemo_starts : ∃ owner, MemdemoStarts pairedLive owner pairedDemo := by
  -- Two directories are made one after the other, and a new one maps nothing of the user.
  rcases vmmCreateAddressSpace_cases (@pagedMachine_spaces Holder) with ⟨full, -⟩ | ⟨f, s, result, first⟩
  · exact absurd (congrArg (fun made => made.1.isSome) full) (by decide +kernel)
  obtain ⟨rfl, rfl⟩ := page_of_made 3 result (by decide +kernel)
    ((@pagedMachine_spaces Holder).small first.inPool) (by decide)
  rcases vmmCreateAddressSpace_cases first.spaces with ⟨full, -⟩ | ⟨f, s, result', second⟩
  · exact absurd (congrArg (fun made => made.1.isSome) full) (by decide +kernel)
  obtain ⟨rfl, rfl⟩ := page_of_made 4 result' (by decide +kernel)
    (first.spaces.small second.inPool) (by decide)
  have spaces := second.spaces
  generalize rest : Function.update (Function.update (@emptyOwners Holder) 3 (some .directory)) 4
    (some .directory) = owner at spaces
  have live : ∀ {d}, pairedLive d → owner d = some .directory := by
    rintro d (rfl | rfl)
    · rw [← rest, Function.update_of_ne (by decide), Function.update_self]
    · rw [← rest, Function.update_self]
  have paired : Spaces owner pairedMachine := spaces.withCurrent 0x3000
  refine ⟨owner, paired, live, ⟨Or.inl rfl, rfl⟩, fun {k} inside => ?_, fun {f k} held => ?_,
    fun {d k} here inside => ?_⟩
  · exact congrArg MemDemoSlot.allocated (FixedArray.get_fill _ inside)
  · rw [← rest] at held
    simp only [Function.update_apply, emptyOwners] at held
    split_ifs at held <;> cases held
  · have low : (slotVirt k).toNat / 4096 < 786432 := by
      rw [toNat_slotVirt inside]
      omega
    have cell : ∀ (s : Vmm) v, ({ s with currentPageDirectoryPhys := 0x3000 } : Vmm).cell d v =
        s.cell d v := fun _ _ => rfl
    rw [show pairedDemo.toVmm = pairedMachine from rfl, pairedMachine, cell]
    rcases here with rfl | rfl
    · rw [second.cells (Function.update_self ..) (by omega), first.lower low]
      rfl
    · rw [second.lower low]
      rfl

/-- The processor is only ever given to the two processes. -/
theorem handedOver_runs : ∀ call ∈ handedOver, call.Runs pairedLive := by
  -- Member by member.
  intro call called
  rcases List.mem_cons.mp called with rfl | called
  · trivial
  · rcases List.mem_singleton.mp called with rfl
    exact ⟨Or.inr rfl, rfl⟩

/-- The second process is told the address of a page that is in the space of the first only. -/
theorem memdemo_usable_handed :
    (∃ owner, MemdemoStarts pairedLive owner pairedDemo) ∧ (∀ call ∈ handedOver, call.Runs pairedLive) ∧
      (memdemoApplyOp (runState memdemoStep pairedDemo handedOver) memdemoOpTouch 0).1 = 0x02000000 ∧
      ¬ (memdemoApplyOp (runState memdemoStep pairedDemo handedOver) memdemoOpTouch 0).2.Usable 0
        0x02000000 := by
  -- The slot says the first space, the current one is the second.
  refine ⟨pairedDemo_starts, handedOver_runs, by decide +kernel, fun usable => ?_⟩
  unfold MemDemo.Usable at usable
  exact absurd (congrArg Except.isOk usable) (by decide +kernel)

/-- It can use the page of another slot, which it takes itself. -/
theorem memdemo_usable_own :
    (memdemoApplyOp (runState memdemoStep pairedDemo handedOver) memdemoOpAlloc 1).2.Usable 1
      (memdemoApplyOp (runState memdemoStep pairedDemo handedOver) memdemoOpAlloc 1).1 := by
  -- The slot was free, so nobody else's page is in it.
  obtain ⟨owner, starts⟩ := pairedDemo_starts
  refine (memdemo_usable_iff starts handedOver_runs (Or.inl rfl) (by decide +kernel)).mpr fun taken => ?_
  exact absurd taken (by decide +kernel)

end Example
end MyOS.Kernel
