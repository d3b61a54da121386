import MyOS.Lib.Walk
import MyOS.Mm.PmmInit
import Mathlib.Data.Finite.Prod

/-! Whether the walk along the boot loader's memory map comes to an end. -/

namespace MyOS.Mm

/-- One round of the loop of `free_memory_from_map`: an entry, and the step to the next one. -/
def mmapStep (at_ : UInt32 × Pmm) : UInt32 × Pmm :=
  let s := freeMmapEntry at_.1 at_.2
  (at_.1 + ((mmapEntryAt s.memory at_.1).size + 4), s)

/-- Where the loop of `free_memory_from_map` begins. -/
def mmapStart (info : UInt32) (s : Pmm) : UInt32 × Pmm := (kernelVirtBase + infoMmapAddr s.memory info, s)

/-- Where the loop of `free_memory_from_map` ends. -/
def mmapEnd (info : UInt32) (s : Pmm) : UInt32 :=
  kernelVirtBase + (infoMmapAddr s.memory info + infoMmapLength s.memory info)

/-- The entry behind one, by the size that stands in the table. -/
def mmapNext (memory : Memory) (current : UInt32) : UInt32 :=
  current + ((mmapEntryAt memory current).size + 4)

/-- How far an entry says that the next one is: the size, and the field with the size itself. -/
def mmapStride (memory : Memory) (current : UInt32) : Nat := (mmapEntryAt memory current).size.toNat + 4

/-- An address at which no page has its flag. -/
def Pmm.NoFlag (s : Pmm) (at_ : Nat) : Prop :=
  ∀ page, page < s.totalPages.toNat → at_ ≠ s.bitmapBase.toNat + page / 8

/--
The sizes in a table lead round.

The strides from one entry met before the end to another one add up to a multiple of 2^32.
-/
def LeadsRound (memory : Memory) (start end_ : UInt32) : Prop :=
  ∃ i j, i < j ∧ (∀ k, k < j → (mmapNext memory)^[k] start < end_) ∧
    2 ^ 32 ∣ ∑ k ∈ Finset.Ico i j, mmapStride memory ((mmapNext memory)^[k] start)

/--
The sizes lead round as the loop finds them, and nothing is given back on the way.

Giving pages back changes the bitmap, and with it the sizes that it shares bytes with.
-/
def WalksRound (start : UInt32 × Pmm) (end_ : UInt32) : Prop :=
  ∃ i j, i < j ∧ (∀ k, k < j → (mmapStep^[k] start).1 < end_) ∧
    (2 ^ 32 ∣ ∑ k ∈ Finset.Ico i j,
      mmapStride (mmapStep^[k + 1] start).2.memory (mmapStep^[k] start).1) ∧
    (mmapStep^[j] start).2 = (mmapStep^[i] start).2

/-- The bitmap has no byte in the size of an entry that the table leads to before the end. -/
def TableApart (start end_ : UInt32) (s : Pmm) : Prop :=
  ∀ n k, (∀ i, i ≤ n → (mmapNext s.memory)^[i] start < end_) → k < 4 →
    s.NoFlag (bootstrapPhys ((mmapNext s.memory)^[n] start) + k)

section Laws

variable {s t u : Pmm}

/-- A step that writes only to the bytes of a bitmap and to the counter. -/
structure FreesOnly (s t : Pmm) : Prop where
  rest : t = { s with memory := t.memory, freePages := t.freePages }
  memory : ∀ at_, s.NoFlag at_ → t.memory at_ = s.memory at_

namespace FreesOnly

/-- Such a step leaves the place of every flag as it is. -/
theorem noFlag (only : FreesOnly s t) {at_ : Nat} : t.NoFlag at_ ↔ s.NoFlag at_ := by
  rw [only.rest]
  exact Iff.rfl

/-- A step that does nothing is one. -/
theorem refl (s : Pmm) : FreesOnly s s := ⟨rfl, fun _ _ => rfl⟩

/-- Two such steps make one. -/
theorem trans (first : FreesOnly s t) (second : FreesOnly t u) : FreesOnly s u := by
  -- The bytes without a flag are the same for both steps.
  refine ⟨?_, fun at_ free => ?_⟩
  · rw [second.rest, first.rest]
  · rw [second.memory at_ (first.noFlag.mpr free), first.memory at_ free]

end FreesOnly

/-- Giving one page back writes to the byte of its flag. -/
theorem freePage_only (s : Pmm) (page : Nat) : FreesOnly s (s.freePage page) := by
  -- A page that is free already is not given back again.
  unfold Pmm.freePage
  split
  · exact .refl s
  · next taken =>
    refine ⟨rfl, fun at_ free => ?_⟩
    simp only [Bool.or_eq_true, decide_eq_true_eq, not_or] at taken
    exact if_neg (free page (Nat.lt_of_not_ge taken.1))

/-- Giving pages back one after the other writes to the bytes of their flags. -/
theorem freePagesFrom_only (s : Pmm) (first past : Nat) : FreesOnly s (s.freePagesFrom first past) := by
  -- By induction on the pages.
  unfold Pmm.freePagesFrom
  generalize past - first = count
  induction count generalizing first s with
  | zero => exact .refl s
  | succ count ih => exact (freePage_only s first).trans (ih _ (first + 1))

/-- Giving a range back writes to the bytes of flags. -/
theorem freeRange_only (start end_ : UInt32) (s : Pmm) : FreesOnly s (s.freeRange start end_) := by
  -- The range is cut off at the end of memory, and its pages are given back one by one.
  unfold Pmm.freeRange
  split
  · exact .refl s
  · simp only
    generalize (if start < lowMemoryReservedBytes then lowMemoryReservedBytes else start) = start
    generalize (if end_ > s.totalMemoryBytes then s.totalMemoryBytes else end_) = end_
    split
    · exact .refl s
    · exact freePagesFrom_only s _ _

/-- What is done for one entry writes to the bytes of flags. -/
theorem freeMmapEntry_only (current : UInt32) (s : Pmm) : FreesOnly s (freeMmapEntry current s) := by
  -- Only an entry of available memory that begins below four gigabytes is given back.
  unfold freeMmapEntry
  simp only
  split
  · split
    · exact freeRange_only _ _ s
    · exact .refl s
  · exact .refl s

/-- However far the walk goes, it writes only to the bytes of the bitmap and to the counter. -/
theorem mmapWalk_only (start : UInt32 × Pmm) (n : Nat) : FreesOnly start.2 (mmapStep^[n] start).2 := by
  -- By induction on the entries that are met.
  induction n with
  | zero => exact .refl _
  | succ n ih =>
    rw [Function.iterate_succ_apply']
    exact ih.trans (freeMmapEntry_only _ _)

/-- Where the sizes it meets lie apart from the bitmap, the walk follows the table as it was. -/
theorem mmapWalk_apart {start : UInt32 × Pmm} {end_ : UInt32} (apart : TableApart start.1 end_ start.2)
    (n : Nat) (before : ∀ i, i < n → (mmapNext start.2.memory)^[i] start.1 < end_) :
    (mmapStep^[n] start).1 = (mmapNext start.2.memory)^[n] start.1 := by
  -- By induction on the entries met, each of which is reached before the end.
  induction n with
  | zero => rfl
  | succ n ih =>
    have follows := ih fun i early => before i (by omega)
    have only := (mmapWalk_only start n).trans
      (freeMmapEntry_only (mmapStep^[n] start).1 (mmapStep^[n] start).2)
    have free := fun k => apart n k fun i early => before i (by omega)
    rw [Function.iterate_succ_apply', Function.iterate_succ_apply', ← follows]
    rw [← follows] at free
    generalize mmapStep^[n] start = here at only free ⊢
    -- The size is read when the entry's range has been given back.
    have size : (mmapEntryAt (freeMmapEntry here.1 here.2).memory here.1).size =
        (mmapEntryAt start.2.memory here.1).size := by
      refine wordAt_congr fun at_ low high => only.memory at_ ?_
      have flag := free (at_ - bootstrapPhys here.1) (by omega)
      rwa [Nat.add_sub_cancel' (by omega)] at flag
    exact congrArg (fun word => here.1 + (word + 4)) size

/-- The loop gives a result exactly where the walk reaches the end, which needs no more fuel then. -/
theorem freeMmapEntries_iff (end_ : UInt32) (start : UInt32 × Pmm) :
    (∃ fuel t, freeMmapEntries fuel start.1 end_ start.2 = some t) ↔
      ∃ n, ¬ (mmapStep^[n] start).1 < end_ := by
  -- Forwards by induction on the fuel, and backwards by induction on the entries that are met.
  constructor
  · rintro ⟨fuel, t, done⟩
    induction fuel generalizing start with
    | zero => cases done
    | succ fuel ih =>
      unfold freeMmapEntries at done
      by_cases goes : start.1 < end_
      · rw [if_pos goes] at done
        obtain ⟨n, stops⟩ := ih (mmapStep start) done
        exact ⟨n + 1, stops⟩
      · exact ⟨0, goes⟩
  · rintro ⟨n, stops⟩
    induction n generalizing start with
    | zero =>
      refine ⟨1, start.2, ?_⟩
      unfold freeMmapEntries
      exact if_neg stops
    | succ n ih =>
      obtain ⟨fuel, t, done⟩ := ih (mmapStep start) stops
      by_cases goes : start.1 < end_
      · refine ⟨fuel + 1, t, ?_⟩
        unfold freeMmapEntries
        rw [if_pos goes]
        exact done
      · refine ⟨1, start.2, ?_⟩
        unfold freeMmapEntries
        exact if_neg goes

/-- What the walk can change, in finitely many values. -/
def mmapView (at_ : UInt32 × Pmm) :
    Fin UInt32.size × Fin UInt32.size × (Fin (2 ^ 33) → Fin UInt8.size) :=
  (at_.1.toFin, at_.2.freePages.toFin, fun a => (at_.2.memory a).toFin)

/-- The walk is in the same state wherever what it can change is the same. -/
theorem mmapView_tells (start : UInt32 × Pmm) (i j : Nat)
    (same : mmapView (mmapStep^[i] start) = mmapView (mmapStep^[j] start)) :
    mmapStep^[i] start = mmapStep^[j] start := by
  have first := mmapWalk_only start i
  have second := mmapWalk_only start j
  generalize mmapStep^[i] start = here at same first ⊢
  generalize mmapStep^[j] start = there at same second ⊢
  obtain ⟨cursor, t⟩ := here
  obtain ⟨cursor', u⟩ := there
  unfold mmapView at same
  simp only [Prod.mk.injEq] at same
  obtain ⟨cursors, counters, bytes⟩ := same
  have memory : t.memory = u.memory := by
    funext a
    by_cases low : a < 2 ^ 33
    · exact UInt8.toFin_inj.mp (congrFun bytes ⟨a, low⟩)
    · -- The flag of a page lies below twice the address space.
      have free : start.2.NoFlag a := fun page inside => by
        have base := start.2.bitmapBase.toNat_lt
        have pages := start.2.totalPages.toNat_lt
        omega
      rw [first.memory a free, second.memory a free]
  refine Prod.ext (UInt32.toFin_inj.mp cursors) ?_
  rw [first.rest, second.rest, memory, UInt32.toFin_inj.mp counters]

/-- A step by a size and its field is one by the stride. -/
theorem add_stride (memory : Memory) (current : UInt32) :
    mmapNext memory current = current + UInt32.ofNat (mmapStride memory current) := by
  -- Both sums keep 32 bits.
  apply UInt32.toNat_inj.mp
  unfold mmapNext mmapStride
  rw [UInt32.toNat_add, UInt32.toNat_add, UInt32.toNat_add, UInt32.toNat_ofNat']
  change (_ + (_ + 4) % 2 ^ 32) % 2 ^ 32 = _
  omega

/-- A walk along a table comes back to an entry exactly where the sizes lead round. -/
theorem revisits_iff_leadsRound (memory : Memory) (start end_ : UInt32) :
    Revisits (mmapNext memory) (· < end_) start ↔ LeadsRound memory start end_ := by
  have returns := fun i j (before : i ≤ j) =>
    @cursor_returns_iff _ (mmapNext memory) start id (mmapStride memory) (add_stride memory) i j before
  refine exists_congr fun i => exists_congr fun j => ?_
  constructor
  · rintro ⟨before, going, same⟩
    exact ⟨before, fun k early => going k (by omega), (returns i j (by omega)).mp same⟩
  · -- The entry met again lies before the end, as it did the first time.
    rintro ⟨before, going, whole⟩
    have same : (mmapNext memory)^[i] start = (mmapNext memory)^[j] start :=
      (returns i j (by omega)).mpr whole
    refine ⟨before, fun k early => ?_, same⟩
    rcases Nat.lt_or_eq_of_le early with earlier | rfl
    · exact going k earlier
    · exact same ▸ going i before

/-- The loop comes back to a state exactly where the sizes lead round and nothing is given back. -/
theorem revisits_iff_walksRound (start : UInt32 × Pmm) (end_ : UInt32) :
    Revisits mmapStep (fun at_ => at_.1 < end_) start ↔ WalksRound start end_ := by
  have moves : ∀ at_ : UInt32 × Pmm, (mmapStep at_).1 =
      at_.1 + UInt32.ofNat (mmapStride (mmapStep at_).2.memory at_.1) :=
    fun at_ => add_stride (mmapStep at_).2.memory at_.1
  have returns := fun i j (before : i ≤ j) => @cursor_returns_iff _ mmapStep start Prod.fst
    (fun at_ => mmapStride (mmapStep at_).2.memory at_.1) moves i j before
  simp only [← Function.iterate_succ_apply' mmapStep] at returns
  refine exists_congr fun i => exists_congr fun j => ?_
  constructor
  · rintro ⟨before, going, same⟩
    exact ⟨before, fun k early => going k (by omega),
      (returns i j (by omega)).mp (congrArg Prod.fst same), congrArg Prod.snd same.symm⟩
  · -- The cursor is the same because of the sizes, and the rest because nothing was given back.
    rintro ⟨before, going, whole, rest⟩
    have same : mmapStep^[i] start = mmapStep^[j] start :=
      Prod.ext ((returns i j (by omega)).mpr whole) rest.symm
    refine ⟨before, fun k early => ?_, same⟩
    rcases Nat.lt_or_eq_of_le early with earlier | rfl
    · exact going k earlier
    · exact same ▸ going i before

/--
The walk along the memory map ends exactly where the sizes met before its end do not lead round.

Where the bitmap has no byte in these sizes, they are those of the table as it is at the start.
Otherwise they are as the loop finds them, and they lead round where nothing is given back.
-/
theorem freeMemoryFromMap_ends_iff (info : UInt32) (s : Pmm) :
    (TableApart (mmapStart info s).1 (mmapEnd info s) s →
      ((∃ fuel t, freeMemoryFromMap fuel info s = some t) ↔
        ¬ LeadsRound s.memory (mmapStart info s).1 (mmapEnd info s))) ∧
    ((∃ fuel t, freeMemoryFromMap fuel info s = some t) ↔
      ¬ WalksRound (mmapStart info s) (mmapEnd info s)) := by
  have loop := freeMmapEntries_iff (mmapEnd info s) (mmapStart info s)
  constructor
  · -- Apart from the bitmap, the walk is one through addresses alone.
    intro apart
    have addresses := @walk_ends_iff _ (mmapNext s.memory) (· < mmapEnd info s) (mmapStart info s).1 _ _
      UInt32.toFin fun _ _ same => UInt32.toFin_inj.mp same
    rw [← revisits_iff_leadsRound]
    refine loop.trans (Iff.trans (ends_congr fun n before => ?_) addresses)
    rw [@mmapWalk_apart (mmapStart info s) (mmapEnd info s) apart n before]
    exact Iff.rfl
  · rw [← revisits_iff_walksRound]
    exact loop.trans (@walk_ends_iff _ mmapStep (fun at_ => at_.1 < mmapEnd info s) (mmapStart info s)
      _ _ mmapView (mmapView_tells _))

end Laws

section Example

/-- Boot information at 64 KiB, and a map at 128 KiB with one entry of a size, and zeros behind it. -/
def oneEntry (size : UInt32) : Pmm where
  memory := [(0x1002C, 24), (0x10030, 0x20000), (0x20000, size), (0x20014, 2)].foldl
    (fun memory (at_, word) => memory.storeWord at_ word) fun _ => 0
  bitmapBase := 0x200000
  bitmapBytes := 128
  totalMemoryBytes := 0x400000
  totalPages := 1024
  freePages := 0
  ready := false

/-- The map whose only entry says a size of `0xFFFFFFFC`. -/
def emptyStep : Pmm := oneEntry 0xFFFFFFFC

/-- From that entry the walk goes to the same one. -/
theorem emptyStep_stays : mmapNext emptyStep.memory (mmapStart 0xC0010000 emptyStep).1 =
    (mmapStart 0xC0010000 emptyStep).1 := by
  -- The size and its field make a stride of 2^32.
  decide +kernel

/-- The sizes of that map lead round at once. -/
theorem emptyStep_leadsRound :
    LeadsRound emptyStep.memory (mmapStart 0xC0010000 emptyStep).1 (mmapEnd 0xC0010000 emptyStep) := by
  -- The walk is where it was after one step.
  rw [← revisits_iff_leadsRound]
  refine ⟨0, 1, Nat.zero_lt_one, fun k _ => ?_, ?_⟩
  · rw [Function.iterate_fixed emptyStep_stays]
    decide +kernel
  · rw [Function.iterate_fixed emptyStep_stays, Function.iterate_fixed emptyStep_stays]

/-- Where the table stands, the bitmap does not. -/
theorem noFlag_table (size : UInt32) {at_ : Nat} (low : at_ < 0x200000) : (oneEntry size).NoFlag at_ := by
  -- The bitmap lies at 2 MiB.
  intro page _
  have base : (oneEntry size).bitmapBase.toNat = 0x200000 := rfl
  omega

/-- The walk along a map with such an entry does not end. -/
theorem emptyStep_endless :
    ¬ ∃ fuel t, freeMemoryFromMap fuel 0xC0010000 emptyStep = some t := by
  intro ends
  -- The loop follows the table, which leads round.
  have apart : TableApart (mmapStart 0xC0010000 emptyStep).1 (mmapEnd 0xC0010000 emptyStep) emptyStep := by
    intro n k _ size
    rw [Function.iterate_fixed emptyStep_stays]
    have here : bootstrapPhys (mmapStart 0xC0010000 emptyStep).1 = 0x20000 := by decide +kernel
    exact noFlag_table _ (by omega)
  obtain ⟨n, stops⟩ :=
    (freeMmapEntries_iff (mmapEnd 0xC0010000 emptyStep) (mmapStart 0xC0010000 emptyStep)).mp ends
  have goes : ∀ i, (mmapNext emptyStep.memory)^[i] (mmapStart 0xC0010000 emptyStep).1 <
      mmapEnd 0xC0010000 emptyStep := fun i =>
    ((revisits_iff_leadsRound _ _ _).mpr emptyStep_leadsRound).forever i
  rw [@mmapWalk_apart (mmapStart 0xC0010000 emptyStep) _ apart n fun i _ => goes i] at stops
  exact stops (goes n)

/-- An ordinary map has its end behind the one entry, and the walk along it ends. -/
theorem freeMemoryFromMap_ends_iff_oneEntry :
    ∃ fuel t, freeMemoryFromMap fuel 0xC0010000 (oneEntry 20) = some t := by
  have here : bootstrapPhys (mmapStart 0xC0010000 (oneEntry 20)).1 = 0x20000 := by decide +kernel
  have behind : ¬ (mmapNext (oneEntry 20).memory)^[1] (mmapStart 0xC0010000 (oneEntry 20)).1 <
      mmapEnd 0xC0010000 (oneEntry 20) := by
    change ¬ mmapNext (oneEntry 20).memory (mmapStart 0xC0010000 (oneEntry 20)).1 < _
    decide +kernel
  refine ((freeMemoryFromMap_ends_iff 0xC0010000 (oneEntry 20)).1 fun n k before size => ?_).mpr ?_
  · -- Only the first entry is met before the end.
    obtain rfl : n = 0 := by
      by_contra later
      exact behind (before 1 (by omega))
    exact noFlag_table _ (by rw [Function.iterate_zero_apply, here]; omega)
  · -- It is no more than one, whose stride is too short.
    rintro ⟨i, j, before, going, whole⟩
    obtain rfl : j = 1 := by
      by_contra later
      exact behind (going 1 (by omega))
    obtain rfl : i = 0 := by omega
    have stride : mmapStride (oneEntry 20).memory (mmapStart 0xC0010000 (oneEntry 20)).1 = 24 := by
      decide +kernel
    rw [Finset.sum_Ico_succ_top (Nat.zero_le 0), Finset.Ico_self, Finset.sum_empty,
      Function.iterate_zero_apply, stride] at whole
    omega

end Example

end MyOS.Mm
