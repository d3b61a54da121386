import MyOS.Fs.Listings
import MyOS.Fs.Mount

/-! Blocks as a resource: what a rewrite needs, what it leaves, and what it loses when it fails. -/

namespace MyOS.Fs

/-- The data blocks marked used that no allocated inode holds. -/
def SimpleFs.orphans (s : SimpleFs) : Finset Nat :=
  (Finset.range dataBlocks).filter fun b => s.marked b = true ∧
    ∀ i, i < maxInodes → ∀ k, k < slotLimit → s.Holds i k → (s.slot i k).toNat ≠ b

/-- An orphan is marked and in no place. -/
theorem mem_orphans {s : SimpleFs} {b : Nat} :
    b ∈ s.orphans ↔ b < dataBlocks ∧ s.marked b = true ∧
      ∀ i k, s.Holds i k → (s.slot i k).toNat ≠ b := by
  -- To hold a block is to be allocated and to have it in a place.
  simp only [SimpleFs.orphans, Finset.mem_filter, Finset.mem_range]
  refine and_congr Iff.rfl (and_congr Iff.rfl ⟨fun nowhere i k holds => ?_, fun nowhere => ?_⟩)
  · exact nowhere i holds.1 k holds.2.2.1 holds
  · exact fun i _ k _ holds => nowhere i k holds

section Leak

variable {s f : SimpleFs} {index size : Nat} {data : Nat → UInt8} {taken : List UInt32}
  {log : List (Nat × Sector)} {w : Rewrite}

/-- Once nothing is free, every block is marked. -/
theorem Stranded.all_marked (stranded : Stranded f index size taken log w) {b : Nat}
    (inside : b < dataBlocks) : w.fs.marked b = true := by
  -- Handed out and free at the end make up what was free at the start.
  have count := stranded.ledger.freeBlocks_add
  have none : w.fs.freeBlocks = 0 := by rw [stranded.spent] at count; omega
  exact clearCount_eq_zero.mp none b inside

/-- The blocks handed out are those unmarked when the loop began. -/
theorem Stranded.taken_iff (stranded : Stranded f index size taken log w) {b : Nat}
    (inside : b < dataBlocks) : (∃ block ∈ taken, block.toNat = b) ↔ f.marked b = false := by
  -- A block unmarked at the start is marked at the end, so it was handed out.
  constructor
  · rintro ⟨block, member, rfl⟩
    exact (stranded.ledger.fresh block member).2
  · intro free
    rcases (stranded.ledger.marks b inside).mp (stranded.all_marked inside) with before | member
    · simp [free] at before
    · exact member

/-- What a failed rewrite adds to the orphans: the blocks it was handed and cannot find again. -/
theorem Stranded.orphan_iff (stranded : Stranded f index size taken log w)
    (freed : Freed s index f) (sound : s.ata.Sound) (geometry : Geometry s.infoBlock)
    (owned : Owned s) (inTable : index < maxInodes) (used : s.inodeUsed index = true) (b : Nat) :
    b ∈ (rewriteFailed index w.fs).orphans ↔ b ∈ s.orphans ∨
      ∃ block ∈ taken, block.toNat = b ∧ ∀ k, k < slotLimit → w.fs.slot index k ≠ block := by
  obtain ⟨g, back, result⟩ :=
    stranded.toStuck.failed (freed.sound sound) (freed.geometry geometry)
  obtain ⟨rewritten, empty, -⟩ := stranded.toStuck.finish sound geometry freed inTable used
  have effect := rewritten.effect
  generalize rewriteFailed index w.fs = t at result rewritten empty effect
  have marks : ∀ b, t.marked b = true ↔ w.fs.marked b = true ∧
      ∀ k, k < slotLimit → w.fs.slot index k ≠ invalidBlock → (w.fs.slot index k).toNat ≠ b := by
    rw [result]
    exact back.marks
  -- The inode itself holds nothing any more, and the others hold what they held.
  have nothing : ∀ k, ¬ t.Holds index k := by
    rintro k ⟨-, -, small, held⟩
    rw [SimpleFs.slot, empty] at held
    exact held (slotBlock_clear rfl rfl _ small)
  have others : ∀ {j k}, t.Holds j k → j ≠ index ∧ s.Holds j k ∧ t.slot j k = s.slot j k := by
    intro j k holds
    have other : j ≠ index := by
      rintro rfl
      exact nothing k holds
    have before := (effect.holds_other owned other).mp holds
    exact ⟨other, before, effect.slot_other owned before.1 before.2.1 other k⟩
  rw [mem_orphans, mem_orphans]
  constructor
  · rintro ⟨inside, marked, nowhere⟩
    by_cases handed : ∃ block ∈ taken, block.toNat = b
    · -- A block handed out that is still marked was in no place when the rewrite gave up.
      right
      obtain ⟨block, member, rfl⟩ := handed
      refine ⟨block, member, rfl, fun k small same => ?_⟩
      have valid := ne_invalidBlock (stranded.ledger.fresh block member).1
      exact ((marks _).mp marked).2 k small (same ▸ valid) (congrArg _ same)
    · left
      have old : f.marked b = true := by
        rw [stranded.taken_iff inside, Bool.not_eq_false] at handed
        exact handed
      obtain ⟨before, foreign⟩ := (freed.marks b).mp old
      refine ⟨inside, before, fun i k holds same => ?_⟩
      by_cases this : i = index
      · subst this
        exact foreign k holds.2.2.1 holds.2.2.2 same
      · refine nowhere i k ((effect.holds_other owned this).mpr holds) ?_
        rwa [effect.slot_other owned holds.1 holds.2.1 this]
  · rintro (⟨inside, before, nowhere⟩ | ⟨block, member, rfl, lost⟩)
    · have old : f.marked b = true := (freed.marks b).mpr ⟨before, fun k small held same =>
        nowhere index k ⟨inTable, used, small, held⟩ same⟩
      refine ⟨inside, (marks b).mpr ⟨stranded.all_marked inside, fun k small held same => ?_⟩, ?_⟩
      · -- What the inode names was handed out, so it was not marked before.
        have fresh := (stranded.ledger.fresh _ (stranded.places k small held)).2
        rw [same, old] at fresh
        cases fresh
      · intro i k holds
        obtain ⟨-, holdsBefore, slotIs⟩ := others holds
        rw [slotIs]
        exact nowhere i k holdsBefore
    · have inside := (stranded.ledger.fresh block member).1
      refine ⟨inside, (marks _).mpr ⟨stranded.all_marked inside, fun k small _ same =>
        lost k small (UInt32.toNat_inj.mp same)⟩, fun i k holds same => ?_⟩
      -- A block another inode holds is never handed out.
      obtain ⟨other, holdsBefore, slotIs⟩ := others holds
      have spare := freed.spare inTable used stranded.ledger member
      rw [← UInt32.toNat_inj.mp same, slotIs] at spare
      exact owned.not_spare holdsBefore other spare

/-- A failed rewrite is free of leaks exactly when six blocks or fewer were there to be had. -/
theorem Stranded.leak_free_iff (stranded : Stranded f index size taken log w)
    (freed : Freed s index f) (sound : s.ata.Sound) (geometry : Geometry s.infoBlock)
    (owned : Owned s) (inTable : index < maxInodes) (used : s.inodeUsed index = true) :
    (rewriteFailed index w.fs).orphans.card ≤ s.orphans.card ↔ s.capacity index ≤ 6 := by
  have members := stranded.orphan_iff freed sound geometry owned inTable used
  have grown : s.orphans ⊆ (rewriteFailed index w.fs).orphans :=
    fun b orphan => (members b).mpr (Or.inl orphan)
  have capacity : s.capacity index = taken.length := by
    rw [SimpleFs.capacity, ← freed.is]
    exact stranded.spent
  rw [capacity, ← stranded.found]
  constructor
  · intro few block member
    by_contra lost
    simp only [not_exists, not_and] at lost
    -- A lost block would be an orphan that was none before.
    have same := Finset.eq_of_subset_of_card_le grown few
    have orphan : block.toNat ∈ s.orphans := by
      rw [same]
      exact (members _).mpr (Or.inr ⟨block, member, rfl, fun k small => lost k small⟩)
    have fresh := (stranded.ledger.fresh block member).2
    obtain ⟨-, marked, nowhere⟩ := mem_orphans.mp orphan
    have still : f.marked block.toNat = true := (freed.marks _).mpr ⟨marked,
      fun k small held => nowhere index k ⟨inTable, used, small, held⟩⟩
    rw [fresh] at still
    cases still
  · intro found
    refine Finset.card_le_card fun b orphan => ?_
    rcases (members b).mp orphan with before | ⟨block, member, -, lost⟩
    · exact before
    · obtain ⟨k, small, same⟩ := found block member
      exact absurd same (lost k small)

end Leak

section Rewrites

variable {s : SimpleFs} {index size : Nat} {data : Nat → UInt8}

/--
Exactly when a failed rewrite leaks no block.

With more than six blocks to be had it writes at least one block that only a local table or a
local variable names, and the way out does not find that one again.
-/
theorem writeInodeData_leak_free_iff (sound : s.ata.Sound) (geometry : Geometry s.infoBlock)
    (owned : Owned s) (inTable : index < maxInodes) (used : s.inodeUsed index = true)
    (fits : size ≤ maxFileSize) :
    ((writeInodeData index data size s).1 = false →
      (writeInodeData index data size s).2.orphans.card ≤ s.orphans.card) ↔
    s.freeBlocks + (s.heldSlots index).length ≤ 6 ∨
      need size ≤ s.freeBlocks + (s.heldSlots index).length := by
  have freed := Freed.of sound geometry
    fun k small held => owned.inRange index k ⟨inTable, used, small, held⟩
  rw [← owned.capacity sound geometry inTable used]
  rcases writeInodeData_ends data sound geometry inTable used fits freed with
    ⟨taken, log, u, stored, result⟩ | ⟨taken, log, w, stranded, result⟩
  · -- A rewrite that succeeds found all the blocks it needs.
    have free := (stored.finish freed inTable used fits).2.2.2
    rw [result]
    exact iff_of_true nofun (Or.inr (by omega))
  · have shortage : s.capacity index < need size := by
      rw [SimpleFs.capacity, ← freed.is]
      exact stranded.shortage
    rw [result]
    simp only [forall_const]
    rw [stranded.leak_free_iff freed sound geometry owned inTable used]
    exact ⟨Or.inl, fun room => room.resolve_right (by omega)⟩

/-- A full volume whose one file cannot grow loses no block when it tries. -/
theorem writeInodeData_leak_free_soleFile :
    let s := soleFile (.fill 255) 0
    (writeInodeData 1 (fun _ => 7) 513 s).1 = false ∧
      (writeInodeData 1 (fun _ => 7) 513 s).2.orphans.card ≤ s.orphans.card := by
  -- The volume is full, and the file holds its only block.
  intro s
  have mounted : Mounted s := soleFile_mounted (by decide) (by decide)
  have failed : (writeInodeData 1 (fun _ => 7) 513 s).1 = false := by decide +kernel
  refine ⟨failed, (writeInodeData_leak_free_iff mounted.sound mounted.geometry mounted.owned
    (by decide) (by decide) (by decide)).mpr (Or.inl ?_) failed⟩
  rw [← mounted.capacity (by decide) (by decide)]
  decide +kernel

/--
A failed rewrite leaks a block.

With one block of its own and six free ones the file gets seven data blocks written and then finds
no block for its table. The seventh stays marked, and no inode holds it.
-/
theorem failed_rewrite_leaks_block :
    ∃ (s : SimpleFs) (index size : Nat) (data : Nat → UInt8), s.ata.Sound ∧ Mounted s ∧
      index < maxInodes ∧ s.inodeUsed index = true ∧ size ≤ maxFileSize ∧
      (writeInodeData index data size s).1 = false ∧
      s.orphans.card < (writeInodeData index data size s).2.orphans.card := by
  -- The first byte of the bitmap leaves blocks 1 to 6 free.
  have mounted : Mounted (soleFile ((FixedArray.fill 255).set 0 129) 0) :=
    soleFile_mounted (by decide) (by decide)
  refine ⟨_, 1, 3073, fun _ => 7, mounted.sound, mounted, by decide, by decide, by decide, ?_⟩
  have room : (soleFile ((FixedArray.fill 255).set 0 129) 0).capacity 1 = 7 := by decide +kernel
  have freed : Freed _ 1 _ := Freed.of mounted.sound mounted.geometry
    (mounted.inside (by decide) (by decide))
  rcases writeInodeData_ends (fun _ => 7) mounted.sound mounted.geometry (by decide) (by decide)
      (by decide : 3073 ≤ maxFileSize) freed with
    ⟨taken, log, u, stored, result⟩ | ⟨taken, log, w, stranded, result⟩
  · have free := (stored.finish freed (by decide) (by decide) (by decide)).2.2.2
    rw [room, show need 3073 = 8 by decide] at free
    omega
  · have leaks := stranded.leak_free_iff freed mounted.sound mounted.geometry mounted.owned
      (by decide) (by decide)
    rw [room] at leaks
    rw [result]
    exact ⟨rfl, Nat.lt_of_not_le fun few => absurd (leaks.mp few) (by decide)⟩

/-- A slice of a content, in the form reads are specified in. -/
theorem slice_eq (data : Nat → UInt8) (size offset bufferSize : Nat) :
    (((List.range size).map data).drop offset).take bufferSize =
      (List.range (min (size - offset) bufferSize)).map fun p => data (offset + p) := by
  -- Both lists have the same length and agree position by position.
  apply List.ext_getElem
  · simp only [List.length_take, List.length_drop, List.length_map, List.length_range]
    omega
  · intro p _ _
    simp

/--
Reading undoes writing at every offset.

A read of the rewritten inode returns the slice of the content its offset and buffer ask for, and
a read of any other allocated inode returns what it returned before.
-/
theorem readInodeBytes_writeInodeData (sound : s.ata.Sound) (geometry : Geometry s.infoBlock)
    (owned : Owned s) (inTable : index < maxInodes) (used : s.inodeUsed index = true)
    (fits : size ≤ maxFileSize) (written : (writeInodeData index data size s).1 = true) :
    let t := (writeInodeData index data size s).2
    (∀ offset bufferSize, (readInodeBytes index offset bufferSize t).1 = true ∧
      (readInodeBytes index offset bufferSize t).2.1 =
        (((List.range size).map data).drop offset).take bufferSize) ∧
    ∀ j, j < maxInodes → s.inodeUsed j = true → j ≠ index → ∀ offset bufferSize,
      (readInodeBytes j offset bufferSize t).1 = (readInodeBytes j offset bufferSize s).1 ∧
      (readInodeBytes j offset bufferSize t).2.1 = (readInodeBytes j offset bufferSize s).2.1 := by
  -- The written inode reads as its content, every other one as before.
  rcases writeInodeData_sound data sound geometry inTable used fits
      (fun k small held => owned.inRange index k ⟨inTable, used, small, held⟩) with
    ⟨t, log, result, rewritten, filled, -⟩ | ⟨t, log, result, -⟩
  swap
  · rw [result] at written
    cases written
  rw [result]
  have effect := rewritten.effect
  have soundT := effect.ata.sound sound
  have geometryT := effect.geometry geometry
  have allocation : ∀ j, t.inodeUsed j = s.inodeUsed j := by
    intro j
    unfold SimpleFs.inodeUsed
    rw [rewritten.inodeBitmap]
  refine ⟨fun offset bufferSize => ?_, fun j inTableJ usedJ other offset bufferSize => ?_⟩
  · obtain ⟨transfers, read⟩ := readInodeBytes_sound soundT geometryT inTable
      ((allocation index).trans used) offset bufferSize
    rw [read, slice_eq, filled.bytes fits]
    exact ⟨rfl, rfl⟩
  · obtain ⟨transfers, before⟩ :=
      readInodeBytes_sound sound geometry inTableJ usedJ offset bufferSize
    obtain ⟨transfers', after⟩ := readInodeBytes_sound soundT geometryT inTableJ
      ((allocation j).trans usedJ) offset bufferSize
    rw [before, after, effect.bytes_other owned inTableJ usedJ other]
    exact ⟨rfl, rfl⟩

/-- The one file rewritten with seven bytes reads back, and the root is still empty. -/
theorem readInodeBytes_writeInodeData_soleFile :
    let t := (writeInodeData 1 UInt8.ofNat 7 (soleFile (.fill 1) 0)).2
    (readInodeBytes 1 5 512 t).2.1 = [5, 6] ∧ (readInodeBytes 0 0 512 t).2.1 = [] := by
  -- Seven bytes fit into the block the file has.
  intro t
  have mounted : Mounted (soleFile (.fill 1) 0) := soleFile_mounted (by decide) (by decide)
  have written : (writeInodeData 1 UInt8.ofNat 7 (soleFile (.fill 1) 0)).1 = true := by
    decide +kernel
  obtain ⟨own, others⟩ := readInodeBytes_writeInodeData mounted.sound mounted.geometry
    mounted.owned (by decide) (by decide) (by decide) written
  refine ⟨(own 5 512).2.trans (by decide), (others 0 (by decide) (by decide) (by decide) 0 512).2.trans
    (by decide)⟩

end Rewrites

section Shrinking

variable {s : SimpleFs} {dir : Nat}

/-- An entry that is there is always taken out, and no block is wanted in vain. -/
theorem removeEntryFromDirectory_fits (mounted : Mounted s) {name : CString} {inode : UInt32}
    {slot : Nat} (found : s.lookup dir name = some (inode, slot)) :
    ∃ t, removeEntryFromDirectory dir name s = (some inode, t) ∧
      t.blocksExhausted = s.blocksExhausted := by
  -- The directory without the entry needs no more blocks than it has.
  have readable := readable_of_lookup found
  obtain ⟨transfers, result⟩ := removeEntryFromDirectory_found mounted found
  rw [result]
  have fits : s.entryCount dir - 1 ≤ maxDirectoryEntries :=
    Nat.le_trans (Nat.sub_le _ _) (entryCount_le s dir)
  rcases writeDirectory_cases mounted readable.1 readable.2.1 fits transfers (s.removed dir slot)
    with ⟨t, write, written, -⟩ | ⟨t, write, lost⟩
  · rw [write]
    exact ⟨t, rfl, written.exhausted⟩
  · have := mounted.shrinks readable
    have := lost.shortage
    omega

/-- Taking an entry out, whether or not it is there, wants no block in vain. -/
theorem removeEntryFromDirectory_exhausted (mounted : Mounted s) (dir : Nat) (name : CString) :
    (removeEntryFromDirectory dir name s).2.blocksExhausted = s.blocksExhausted := by
  -- An entry that is missing is not written at all.
  cases found : s.lookup dir name with
  | none =>
    obtain ⟨transfers, result⟩ := removeEntryFromDirectory_absent mounted found
    rw [result]
    rfl
  | some entry =>
    obtain ⟨t, result, exhausted⟩ := removeEntryFromDirectory_fits mounted found
    rw [result]
    exact exhausted

/-- Releasing an inode wants no block. -/
theorem releaseInode_exhausted (mounted : Mounted s) (index : Nat) :
    (releaseInode index s).2.blocksExhausted = s.blocksExhausted := by
  -- A release frees, and never asks for a block.
  by_cases allowed : index < maxInodes ∧ s.inodeUsed index = true ∧ index ≠ rootInode
  · obtain ⟨inTable, used, notRoot⟩ := allowed
    obtain ⟨t, result, -, -, exhausted⟩ := releaseInode_sound mounted inTable used notRoot
    rw [result]
    exact exhausted
  · rw [releaseInode_refused allowed]

/-- A volume stays mounted when an entry is taken out of a directory. -/
theorem removeEntryFromDirectory_mounted (mounted : Mounted s) (dir : Nat) (name : CString) :
    Mounted (removeEntryFromDirectory dir name s).2 := by
  -- The call runs in the directory, and runs keep the volume mounted.
  have runs : Runs (fun _ => True) (fun _ => True) s (removeEntryFromDirectory dir name s).2 :=
    removeEntryFromDirectory_runs mounted trivial trivial name
  exact runs.mounted mounted

/-- Deleting a file never wants a block in vain. -/
theorem simplefsDelete_exhausted (mounted : Mounted s) (name : CString) :
    (simplefsDelete name s).2.blocksExhausted = s.blocksExhausted := by
  unfold simplefsDelete
  split
  · rfl
  obtain ⟨transfers, find⟩ := findEntryInDirectory_sound mounted s.currentDirectory name
  have mountedT : Mounted (s.scannedDir s.currentDirectory transfers) :=
    (Quiet.scanned s transfers (s.loaded s.currentDirectory)).mounted mounted
  have flag : (s.scannedDir s.currentDirectory transfers).blocksExhausted = s.blocksExhausted := rfl
  rw [find]
  generalize s.scannedDir s.currentDirectory transfers = t at mountedT flag
  cases s.lookup s.currentDirectory name with
  | none => exact flag
  | some entry =>
    simp only
    split
    · exact flag
    · -- The directory is rewritten in the blocks it has.
      have removal := removeEntryFromDirectory_exhausted mountedT t.currentDirectory name
      have mountedU := removeEntryFromDirectory_mounted mountedT t.currentDirectory name
      generalize removeEntryFromDirectory t.currentDirectory name t = result at removal mountedU
      obtain ⟨removed, u⟩ := result
      cases removed with
      | none => exact removal.trans flag
      | some inode =>
        have release := releaseInode_exhausted mountedU inode.toNat
        simp only at release ⊢
        generalize releaseInode inode.toNat u = result at release
        obtain ⟨released, v⟩ := result
        cases released with
        | false => exact (release.trans removal).trans flag
        | true =>
          simp only [unlinked_eq]
          exact (release.trans removal).trans flag

/-- Removing a directory never wants a block in vain. -/
theorem simplefsRemoveDir_exhausted (mounted : Mounted s) (name : CString) :
    (simplefsRemoveDir name s).2.blocksExhausted = s.blocksExhausted := by
  unfold simplefsRemoveDir
  split
  · rfl
  obtain ⟨transfers, find⟩ := findEntryInDirectory_sound mounted s.currentDirectory name
  have mountedT : Mounted (s.scannedDir s.currentDirectory transfers) :=
    (Quiet.scanned s transfers (s.loaded s.currentDirectory)).mounted mounted
  have flag : (s.scannedDir s.currentDirectory transfers).blocksExhausted = s.blocksExhausted := rfl
  rw [find]
  generalize s.scannedDir s.currentDirectory transfers = t at mountedT flag
  cases s.lookup s.currentDirectory name with
  | none => exact flag
  | some entry =>
    simp only
    split
    · exact flag
    · -- The emptiness test only reads.
      obtain ⟨second, empty, test⟩ : ∃ second empty, directoryIsEmpty entry.1.toNat t =
          (empty, t.scannedDir entry.1.toNat second) := by
        obtain ⟨second, test⟩ := directoryIsEmpty_sound mountedT entry.1.toNat
        exact ⟨second, _, test⟩
      have mountedV : Mounted (t.scannedDir entry.1.toNat second) :=
        (Quiet.scanned t second (t.loaded entry.1.toNat)).mounted mountedT
      have flagV : (t.scannedDir entry.1.toNat second).blocksExhausted = s.blocksExhausted := flag
      rw [test]
      generalize t.scannedDir entry.1.toNat second = v at mountedV flagV
      cases empty with
      | false => exact flagV
      | true =>
        have removal := removeEntryFromDirectory_exhausted mountedV v.currentDirectory name
        have mountedU := removeEntryFromDirectory_mounted mountedV v.currentDirectory name
        simp only
        generalize removeEntryFromDirectory v.currentDirectory name v = result at removal mountedU
        obtain ⟨removed, u⟩ := result
        cases removed with
        | none => exact removal.trans flagV
        | some inode =>
          exact ((releaseInode_exhausted mountedU inode.toNat).trans removal).trans flagV

/--
Exact space accounting.

A rewrite succeeds exactly when the blocks its content needs are among the free ones and its own,
and leaves the rest free. So a directory always has room to lose an entry, and neither deleting
a file nor removing a directory ever wants a block with every block in use.
-/
theorem writeInodeData_space (sound : s.ata.Sound) (geometry : Geometry s.infoBlock)
    (owned : Owned s) :
    (∀ index data size, index < maxInodes → s.inodeUsed index = true → size ≤ maxFileSize →
      let room := s.freeBlocks + (s.heldSlots index).length
      let result := writeInodeData index data size s
      (result.1 = true ↔ need size ≤ room) ∧
        (result.1 = true → result.2.freeBlocks = room - need size)) ∧
    (Mounted s → ∀ name,
      (∀ dir inode slot, (findEntryInDirectory dir name s).1 = some (inode, slot) →
        (removeEntryFromDirectory dir name s).1 = some inode) ∧
      (simplefsDelete name s).2.blocksExhausted = s.blocksExhausted ∧
      (simplefsRemoveDir name s).2.blocksExhausted = s.blocksExhausted) := by
  -- The rewrite is settled by the blocks it may use, a removal never wants one.
  constructor
  · intro index data size inTable used fits
    rw [← owned.capacity sound geometry inTable used]
    rcases writeInodeData_sound data sound geometry inTable used fits
        (fun k small held => owned.inRange index k ⟨inTable, used, small, held⟩) with
      ⟨t, log, result, -, -, -, free⟩ | ⟨t, log, result, -, -, -, shortage⟩
    · simp only [result]
      exact ⟨⟨fun _ => by omega, fun _ => trivial⟩, fun _ => by omega⟩
    · simp only [result]
      exact ⟨⟨nofun, fun enough => by omega⟩, nofun⟩
  · intro mounted name
    refine ⟨fun dir inode slot found => ?_, simplefsDelete_exhausted mounted name,
      simplefsRemoveDir_exhausted mounted name⟩
    obtain ⟨transfers, find⟩ := findEntryInDirectory_sound mounted dir name
    rw [find] at found
    obtain ⟨t, result, -⟩ := removeEntryFromDirectory_fits mounted found
    rw [result]

/-- The one file of a full volume can be rewritten in its own block, and not in two. -/
theorem writeInodeData_space_soleFile :
    let s := soleFile (.fill 255) 0
    s.freeBlocks = 0 ∧ (s.heldSlots 1).length = 1 ∧
      (writeInodeData 1 (fun _ => 7) 512 s).1 = true ∧
      (writeInodeData 1 (fun _ => 7) 513 s).1 = false := by
  -- One block is needed for 512 bytes, two for 513.
  intro s
  have mounted : Mounted s := soleFile_mounted (by decide) (by decide)
  have free : s.freeBlocks = 0 := by decide +kernel
  have held : (s.heldSlots 1).length = 1 := by decide +kernel
  obtain ⟨exact_, -⟩ := writeInodeData_space mounted.sound mounted.geometry mounted.owned
  refine ⟨free, held, ?_, ?_⟩
  · refine (exact_ 1 _ 512 (by decide) (by decide) (by decide)).1.mpr ?_
    rw [free, held]
    decide
  · rw [Bool.eq_false_iff]
    intro fits
    have := (exact_ 1 _ 513 (by decide) (by decide) (by decide)).1.mp fits
    rw [free, held] at this
    exact absurd this (by decide)

end Shrinking

end MyOS.Fs
