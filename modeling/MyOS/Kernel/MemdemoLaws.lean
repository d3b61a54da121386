import MyOS.Lib.Run
import MyOS.Kernel.Memdemo

/-! What the calls of the memory demonstration keep, from what their parts keep. -/

namespace MyOS.Kernel

open MyOS.Mm MyOS.Fs

/-- A property that every part of a call of the memory demonstration keeps. -/
structure KeptByParts (P : MemDemo → Prop) : Prop where
  /-- The record, the files and the disk have nothing to do with it. -/
  rest : ∀ {m m'}, P m → m'.toPager = { m.toPager with disk := m'.disk } → m'.slots = m.slots → P m'
  freeSlot : ∀ {m k}, P m → k < 8 → P (m.freeSlot k)
  clearSlot : ∀ {m k}, P m → k < 8 → (m.slots.get k).allocated = false → P (m.clearSlot k)
  allocSlot : ∀ {m k}, P m → k < 8 → P (allocSlot m k).2

variable {P : MemDemo → Prop} {m : MemDemo} {k j : Nat} {dir : UInt32}

section Slots

/-- A slot that is freed has no page afterwards. -/
theorem freeSlot_allocated (m : MemDemo) (inside : k < 8) :
    ((m.freeSlot k).slots.get k).allocated = false := by
  -- The last step of freeing clears the flag, and a slot without a page has none.
  unfold MemDemo.freeSlot
  simp only
  split
  · next empty => simpa using empty
  · change ((m.slots.set k emptySlot).get k).allocated = false
    rw [FixedArray.get_set _ _ inside, if_pos rfl]
    rfl

/-- The other slots stay as they are. -/
theorem freeSlot_others (m : MemDemo) (inside : j < 8) (other : j ≠ k) :
    (m.freeSlot k).slots.get j = m.slots.get j := by
  -- Only slot `k` is written.
  unfold MemDemo.freeSlot
  simp only
  split
  · rfl
  · exact (FixedArray.get_set _ _ inside).trans (if_neg other)

/-- No slot has a page in a space. -/
def NoSlotIn (m : MemDemo) (dir : UInt32) : Prop :=
  ∀ k, k < 8 → (m.slots.get k).allocated = true → (m.slots.get k).pageDirectoryPhys ≠ dir

/-- A space that goes away leaves no page in any slot. -/
theorem memdemoReleaseForDirectory_noSlotIn (m : MemDemo) (dir : UInt32) :
    NoSlotIn (memdemoReleaseForDirectory m dir) dir := by
  unfold memdemoReleaseForDirectory
  -- After so many rounds, the first slots have no page in the space.
  refine foldl_range_invariant (fun n (m : MemDemo) => ∀ k, k < n → (m.slots.get k).allocated = true →
    (m.slots.get k).pageDirectoryPhys ≠ dir) nofun fun i m inside cleared k below allocated => ?_
  change i < 8 at inside
  split at allocated <;> rename_i here
  · rw [if_pos here]
    by_cases last : k = i
    · subst last
      exact nomatch (freeSlot_allocated m inside).symm.trans allocated
    · rw [freeSlot_others m (by omega) last] at allocated ⊢
      exact cleared k (by omega) allocated
  · rw [if_neg here]
    by_cases last : k = i
    · subst last
      simpa [allocated] using here
    · exact cleared k (by omega) allocated

/-- A space without pages in slots goes away without a trace. -/
theorem memdemoReleaseForDirectory_none (none_ : NoSlotIn m dir) :
    memdemoReleaseForDirectory m dir = m := by
  -- The loop meets no slot of the space.
  unfold memdemoReleaseForDirectory
  refine foldl_range_invariant (fun _ m' => m' = m) rfl fun i m' inside same => ?_
  subst same
  rw [if_neg]
  rw [Bool.and_eq_true, beq_iff_eq]
  exact fun here => none_ i inside here.1 here.2

/-- What survives the loss of a slot's page survives the loss of all pages of a space. -/
theorem memdemoReleaseForDirectory_keeps (freeSlot : ∀ {m k}, P m → k < 8 → P (m.freeSlot k))
    (holds : P m) (dir : UInt32) : P (memdemoReleaseForDirectory m dir) := by
  -- The property is an invariant of the loop over the slots.
  unfold memdemoReleaseForDirectory
  refine foldl_range_invariant (fun _ => P) holds fun i m inside holds => ?_
  split
  · exact freeSlot holds inside
  · exact holds

end Slots

namespace KeptByParts

/-- Entering an event changes neither memory nor the slots. -/
theorem recordEvent (kept : KeptByParts P) (holds : P m) (op : UInt32) (page : Nat)
    (virtAddr physAddr : UInt32) : P (m.recordEvent op page virtAddr physAddr).2 := by
  -- The record is full, or an event is put into it.
  unfold MemDemo.recordEvent
  split
  · exact holds
  · exact kept.rest holds rfl rfl

/-- Writing to the file with the record changes the files and the disk. -/
theorem logBytes (kept : KeptByParts P) (holds : P m)
    (call : CString → (Nat → UInt8) → Nat → SimpleFs → Bool × SimpleFs) (bytes : List UInt8) :
    P (logBytes m call bytes) := by
  -- Nothing is written without a volume, and with one memory is not touched.
  unfold MyOS.Kernel.logBytes withFiles
  split
  · exact kept.rest holds rfl rfl
  · exact holds

/-- `memdemo_apply_op` -/
theorem applyOp (kept : KeptByParts P) (holds : P m) (op page : UInt32) :
    P (memdemoApplyOp m op page).2 := by
  unfold memdemoApplyOp
  simp only
  split
  · exact holds
  next inside =>
  have below : page.toNat < 8 := by
    change ¬ (page.toNat ≥ 8 ∨ _) at inside
    omega
  split
  · -- `ALLOC`
    have taken := kept.allocSlot holds below
    split <;> next result =>
      rw [result] at taken
      first
      | exact taken
      | next s =>
        have entered := kept.recordEvent taken op page.toNat (s.slots.get page.toNat).virtAddr
          (s.slots.get page.toNat).physAddr
        split <;> next recorded =>
          rw [recorded] at entered
          exact entered
  split
  · -- `TOUCH`
    split
    · exact holds
    · have entered := kept.recordEvent holds op page.toNat (m.slots.get page.toNat).virtAddr
        (m.slots.get page.toNat).physAddr
      split <;> next recorded =>
        rw [recorded] at entered
        exact entered
  split
  · -- `FREE`
    split
    · exact holds
    · have entered := kept.recordEvent (kept.freeSlot holds below) op page.toNat
        (slotVirt page.toNat) (m.slots.get page.toNat).physAddr
      split <;> next recorded =>
        rw [recorded] at entered
        exact entered
  · exact holds

/-- `memdemo_reset` -/
theorem reset (kept : KeptByParts P) (holds : P m) : P (memdemoReset m) := by
  -- The slots are emptied one after the other, then the record is cleared.
  unfold memdemoReset
  have emptied : P ((List.range memdemoPageCount).foldl (fun s i => (s.freeSlot i).clearSlot i) m) := by
    refine foldl_range_invariant (fun _ => P) holds fun i m inside holds => ?_
    exact kept.clearSlot (kept.freeSlot holds inside) inside (freeSlot_allocated m inside)
  generalize (List.range memdemoPageCount).foldl (fun s i => (s.freeSlot i).clearSlot i) m = final
    at emptied ⊢
  have anew : P { final with events := FixedArray.fill emptyEvent, activePages := 0, sequence := 0 } :=
    kept.rest emptied rfl rfl
  exact kept.logBytes anew _ _

/-- `memdemo_report_event` -/
theorem reportEvent (kept : KeptByParts P) (holds : P m) (requestedSequence : UInt32) :
    P (memdemoReportEvent m requestedSequence).2 := by
  -- An event that was asked for is written to the file.
  unfold memdemoReportEvent
  simp only
  split
  · exact holds
  split
  · exact holds
  split
  · exact holds
  · exact kept.rest (kept.logBytes holds _ _) rfl rfl

end KeptByParts

end MyOS.Kernel
