import MyOS.Fs.BlockLaws

/-! Rewriting a whole inode on a sound disk: what the block loop has done after each turn. -/

namespace MyOS.Fs

/--
The blocks handed out since a state, and what was written to them.

Every block handed out was free, and nothing but blocks handed out was written.
-/
structure Ledger (s : SimpleFs) (taken : List UInt32) (log : List (Nat × Sector))
    (t : SimpleFs) : Prop where
  ata : t.ata = s.ata.wrote log
  info : t.infoBlock = { s.infoBlock with dataBitmap := t.infoBlock.dataBitmap }
  nodup : taken.Nodup
  fresh : ∀ block ∈ taken, block.toNat < dataBlocks ∧ s.marked block.toNat = false
  marks : ∀ b, b < dataBlocks →
    (t.marked b = true ↔ s.marked b = true ∨ ∃ block ∈ taken, block.toNat = b)
  targets : ∀ entry ∈ log, ∃ block ∈ taken, entry.1 = blockSector block

namespace Ledger

variable {s t : SimpleFs} {taken : List UInt32} {log : List (Nat × Sector)}

/-- At first nothing was handed out. -/
theorem start (s : SimpleFs) : Ledger s [] [] s where
  -- The log is empty and no block was taken.
  ata := by simp
  info := rfl
  nodup := List.nodup_nil
  fresh := by simp
  marks := by simp
  targets := by simp

/-- Changes outside the disk and the info block do not concern the ledger. -/
theorem congr {t' : SimpleFs} (ledger : Ledger s taken log t) (ata : t'.ata = t.ata)
    (info : t'.infoBlock = t.infoBlock) : Ledger s taken log t' where
  -- Every field speaks of the disk and the info block only.
  ata := ata.trans ledger.ata
  info := by rw [info]; exact ledger.info
  nodup := ledger.nodup
  fresh := ledger.fresh
  marks := by simpa only [SimpleFs.marked, info] using ledger.marks
  targets := ledger.targets

/-- The layout parameters are those of the start. -/
theorem geometry (ledger : Ledger s taken log t) (geometry : Geometry s.infoBlock) :
    Geometry t.infoBlock := by
  -- Only the data bitmap of the info block changes.
  rw [ledger.info]
  exact geometry.congr rfl rfl rfl

/-- The disk is as sound as at the start. -/
theorem sound (ledger : Ledger s taken log t) (sound : s.ata.Sound) : t.ata.Sound := by
  rw [ledger.ata]
  exact Sound.wrote sound _

/-- The blocks still free and those handed out make up the blocks that were free. -/
theorem freeBlocks_add (ledger : Ledger s taken log t) :
    t.freeBlocks + taken.length = s.freeBlocks := by
  -- A block is marked now if it was before or was handed out, and never both.
  have inside : ∀ b ∈ (taken.map UInt32.toNat).toFinset, b < dataBlocks ∧ s.marked b = false := by
    intro b member
    simp only [List.mem_toFinset, List.mem_map] at member
    obtain ⟨block, held, rfl⟩ := member
    exact ledger.fresh block held
  have count := clearCount_add_card _ inside fun b small => by
    simpa using ledger.marks b small
  have distinct : (taken.map UInt32.toNat).Nodup :=
    ledger.nodup.map fun a b same => UInt32.toNat_inj.mp same
  rwa [List.toFinset_card_of_nodup distinct, List.length_map] at count

/-- When every block is marked, the free blocks are those handed out. -/
theorem freeBlocks_full (ledger : Ledger s taken log t)
    (full : ∀ b, b < dataBlocks → t.marked b = true) : s.freeBlocks = taken.length := by
  -- Nothing is free now, so all that was free was handed out.
  have none : t.freeBlocks = 0 := clearCount_eq_zero.mpr full
  rw [← ledger.freeBlocks_add, none, Nat.zero_add]

/-- The device of a ledger answers if the transfer after its log is not one that fails. -/
theorem answers_iff (ledger : Ledger s taken log t) :
    t.ata.answers = true ↔
      s.ata.ready = true ∧ s.ata.fails (s.ata.transfers + log.length) = false := by
  -- Every entry of the log was one transfer.
  rw [ledger.ata, Ata.answers_wrote]

/-- A free block that is handed out is a new one, and goes into the ledger. -/
theorem handOut (ledger : Ledger s taken log t) {block : UInt32} (inside : block.toNat < dataBlocks)
    (free : t.marked block.toNat = false) :
    block ∉ taken ∧
      Ledger s (block :: taken) (log ++ [(blockSector block, .fill 0)]) (t.handedOut block) := by
  -- A block free now is neither in use before nor handed out since.
  have notBefore : ¬ (s.marked block.toNat = true ∨ ∃ c ∈ taken, c.toNat = block.toNat) := by
    rw [← ledger.marks _ inside, free]
    simp
  have newBlock : block ∉ taken := fun member => notBefore (Or.inr ⟨block, member, rfl⟩)
  have byteInside : block.toNat / 8 < 256 := by simp only [dataBlocks] at inside; omega
  refine ⟨newBlock, ?_⟩
  constructor
  · simp [SimpleFs.handedOut, SimpleFs.logged, SimpleFs.withDataBitmap, ledger.ata]
  · simp only [SimpleFs.handedOut, SimpleFs.logged, SimpleFs.withDataBitmap]
    rw [ledger.info]
  · exact List.nodup_cons.mpr ⟨newBlock, ledger.nodup⟩
  · intro c member
    rcases List.mem_cons.mp member with rfl | member
    · exact ⟨inside, by simpa using fun before => notBefore (Or.inl before)⟩
    · exact ledger.fresh c member
  · intro b small
    have test : (t.handedOut block).marked b =
        (decide (block.toNat = b) || t.marked b) := bitmapTest_bitmapSet _ _ byteInside
    rw [test, Bool.or_eq_true, decide_eq_true_eq, ledger.marks b small]
    simp [or_left_comm]
  · intro entry member
    rcases List.mem_append.mp member with old | new
    · obtain ⟨c, held, target⟩ := ledger.targets entry old
      exact ⟨c, List.mem_cons_of_mem _ held, target⟩
    · exact ⟨block, List.mem_cons_self, by simp at new; rw [new]⟩

/-- The next block is a new one, unless all are in use or the disk does not answer. -/
theorem allocate (ledger : Ledger s taken log t) (geometry : Geometry s.infoBlock) :
    (∃ block, block ∉ taken ∧ t.ata.answers = true ∧
      allocateDataBlock t = (some block, t.handedOut block) ∧
      Ledger s (block :: taken) (log ++ [(blockSector block, .fill 0)]) (t.handedOut block)) ∨
    (allocateDataBlock t = (none, { t with blocksExhausted := true }) ∧
      s.freeBlocks = taken.length) ∨
    (t.ata.answers = false ∧ ∃ u, allocateDataBlock t = (none, u) ∧ TakenBack t u) := by
  -- A block handed out was not marked, so it is in neither of the lists.
  rcases allocateDataBlock_cases (ledger.geometry geometry) with
    ⟨block, inside, free, answers, result⟩ | ⟨full, result⟩ | refused
  · obtain ⟨new, handed⟩ := ledger.handOut inside free
    exact Or.inl ⟨block, new, answers, result, handed⟩
  · exact Or.inr (Or.inl ⟨result, ledger.freeBlocks_full full⟩)
  · exact Or.inr (Or.inr refused)

/-- Writing a block that was handed out stays within the ledger. -/
theorem write (ledger : Ledger s taken log t) (geometry : Geometry s.infoBlock)
    (answers : t.ata.answers = true) {block : UInt32} (held : block ∈ taken) (sector : Sector) :
    writeBlock block sector t = (true, t.logged [(blockSector block, sector)]) ∧
      Ledger s taken (log ++ [(blockSector block, sector)])
        (t.logged [(blockSector block, sector)]) := by
  -- The target is the block handed out, and marks do not change.
  refine ⟨by rw [writeBlock_eq (ledger.geometry geometry), if_pos answers], ?_⟩
  constructor
  · simp [SimpleFs.logged, ledger.ata]
  · exact ledger.info
  · exact ledger.nodup
  · exact ledger.fresh
  · exact ledger.marks
  · intro entry member
    rcases List.mem_append.mp member with old | new
    · exact ledger.targets entry old
    · exact ⟨block, held, by simp at new; rw [new]⟩

end Ledger

/-- Everything a rewrite has no business with: all but the disk, the bitmaps and the inodes. -/
structure Frame (s t : SimpleFs) : Prop where
  bootBlock : t.bootBlock = s.bootBlock
  openFiles : t.openFiles = s.openFiles
  directoryScratch : t.directoryScratch = s.directoryScratch
  fileScratch : t.fileScratch = s.fileScratch
  currentDirectory : t.currentDirectory = s.currentDirectory
  fsMounted : t.fsMounted = s.fsMounted
  exhausted : s.blocksExhausted = true → t.blocksExhausted = true

/-- Nothing changed outside the frame. -/
theorem Frame.refl (s : SimpleFs) : Frame s s := ⟨rfl, rfl, rfl, rfl, rfl, rfl, id⟩

/-- Frames are composed. -/
theorem Frame.trans {s t u : SimpleFs} (first : Frame s t) (second : Frame t u) : Frame s u :=
  -- Field by field.
  ⟨second.bootBlock.trans first.bootBlock, second.openFiles.trans first.openFiles,
    second.directoryScratch.trans first.directoryScratch,
    second.fileScratch.trans first.fileScratch,
    second.currentDirectory.trans first.currentDirectory,
    second.fsMounted.trans first.fsMounted,
    fun before => second.exhausted (first.exhausted before)⟩

/-- The block a rewrite has put in a place so far, counting the table it has not stored yet. -/
def Rewrite.slot (w : Rewrite) (index k : Nat) : UInt32 :=
  if k < 6 then (w.fs.inodeTable.get index).directBlocks.get k
  else if k = 6 then (w.fs.inodeTable.get index).indirectBlock
  else w.indirectTable.get (k - 7)

/-- The sector that holds one logical block of a content. -/
def contentSector (data : Nat → UInt8) (size logical : Nat) : Sector :=
  dataSector data (512 * logical) (min (size - 512 * logical) 512)

/-- The state of the block loop after `n` turns, starting from an inode without blocks. -/
structure Progress (s : SimpleFs) (index : Nat) (data : Nat → UInt8) (size n : Nat)
    (taken : List UInt32) (log : List (Nat × Sector)) (w : Rewrite) : Prop where
  ledger : Ledger s taken log w.fs
  frame : Frame s w.fs
  exhausted : w.fs.blocksExhausted = s.blocksExhausted
  table : w.fs.inodeTable = s.inodeTable.set index (w.fs.inodeTable.get index)
  inode : w.fs.inodeTable.get index = { s.inodeTable.get index with
    directBlocks := (w.fs.inodeTable.get index).directBlocks
    indirectBlock := (w.fs.inodeTable.get index).indirectBlock }
  count : taken.length = slotCount n
  filled : ∀ k, k < slotCount n → w.slot index k ∈ taken
  vacant : ∀ k, slotCount n ≤ k → k < slotLimit → w.slot index k = invalidBlock
  injective : ∀ k l, k < slotCount n → l < slotCount n →
    w.slot index k = w.slot index l → k = l
  content : ∀ l, l < n → w.fs.ata.sectors (blockSector (w.slot index (dataSlot l))) =
    contentSector data size l
  blank : 6 < n → decodeTable (w.fs.ata.sectors (blockSector (w.slot index 6))) =
    .fill invalidBlock
  written : w.written = min size (512 * n)
  needs : w.needsIndirect = decide (6 < n)

namespace Progress

variable {s : SimpleFs} {index : Nat} {data : Nat → UInt8} {size n : Nat}
  {taken taken' : List UInt32} {log log' : List (Nat × Sector)} {w w' : Rewrite}

/-- Places fill in order, so the place of an earlier logical block is already filled. -/
theorem dataSlot_lt {l : Nat} (earlier : l < n) : dataSlot l < slotCount n := by
  unfold dataSlot slotCount
  split <;> split <;> omega

/--
One more turn keeps the loop invariant.

It is enough that the places filled before are untouched, on disk too, and that the new ones
hold blocks not handed out before.
-/
theorem extend (before : Progress s index data size n taken log w)
    (ledger : Ledger s taken' log' w'.fs)
    (frame : Frame s w'.fs) (exhausted : w'.fs.blocksExhausted = s.blocksExhausted)
    (table : w'.fs.inodeTable = s.inodeTable.set index (w'.fs.inodeTable.get index))
    (inode : w'.fs.inodeTable.get index = { s.inodeTable.get index with
      directBlocks := (w'.fs.inodeTable.get index).directBlocks
      indirectBlock := (w'.fs.inodeTable.get index).indirectBlock })
    (count : taken'.length = slotCount (n + 1))
    (grown : ∀ block ∈ taken, block ∈ taken')
    (same : ∀ k, k < slotCount n → w'.slot index k = w.slot index k)
    (new : ∀ k, slotCount n ≤ k → k < slotCount (n + 1) →
      w'.slot index k ∈ taken' ∧ w'.slot index k ∉ taken)
    (apart : ∀ k l, slotCount n ≤ k → k < slotCount (n + 1) → slotCount n ≤ l →
      l < slotCount (n + 1) → w'.slot index k = w'.slot index l → k = l)
    (vacant : ∀ k, slotCount (n + 1) ≤ k → k < slotLimit → w'.slot index k = invalidBlock)
    (kept : ∀ block ∈ taken, w'.fs.ata.sectors (blockSector block) =
      w.fs.ata.sectors (blockSector block))
    (content : w'.fs.ata.sectors (blockSector (w'.slot index (dataSlot n))) =
      contentSector data size n)
    (blank : n = 6 → decodeTable (w'.fs.ata.sectors (blockSector (w'.slot index 6))) =
      .fill invalidBlock)
    (written : w'.written = min size (512 * (n + 1)))
    (needs : w'.needsIndirect = decide (6 < n + 1)) :
    Progress s index data size (n + 1) taken' log' w' where
  ledger := ledger
  frame := frame
  exhausted := exhausted
  table := table
  inode := inode
  count := count
  filled := by
    intro k small
    by_cases old : k < slotCount n
    · rw [same k old]; exact grown _ (before.filled k old)
    · exact (new k (by omega) small).1
  vacant := vacant
  injective := by
    -- An old block was handed out before, a new one was not.
    intro k l smallK smallL equal
    by_cases oldK : k < slotCount n <;> by_cases oldL : l < slotCount n
    · rw [same k oldK, same l oldL] at equal
      exact before.injective k l oldK oldL equal
    · rw [same k oldK] at equal
      exact absurd (equal ▸ before.filled k oldK) (new l (by omega) smallL).2
    · rw [same l oldL] at equal
      exact absurd (equal ▸ before.filled l oldL) (new k (by omega) smallK).2
    · exact apart k l (by omega) smallK (by omega) smallL equal
  content := by
    intro l small
    by_cases last : l = n
    · rw [last]; exact content
    · have earlier := dataSlot_lt (show l < n by omega)
      rw [same _ earlier, kept _ (before.filled _ earlier)]
      exact before.content l (by omega)
  blank := by
    intro past
    by_cases first : n = 6
    · exact blank first
    · have held : 6 < slotCount n := by unfold slotCount; split <;> omega
      rw [same 6 held, kept _ (before.filled 6 held)]
      exact before.blank (by omega)
  written := written
  needs := needs

/-- Sectors of blocks handed out earlier are out of reach of later writes. -/
theorem kept_of_log (before : Progress s index data size n taken log w)
    {ata : Ata} {more : List (Nat × Sector)} (extended : ata = s.ata.wrote (log ++ more))
    (fresh : ∀ entry ∈ more, ∃ block : UInt32, block.toNat < dataBlocks ∧ block ∉ taken ∧
      entry.1 = blockSector block) :
    ∀ block ∈ taken, ata.sectors (blockSector block) =
      w.fs.ata.sectors (blockSector block) := by
  -- The later writes go to blocks that were not handed out then.
  intro block held
  rw [extended, before.ledger.ata, ← wrote_wrote]
  refine Ata.applyWrites_other fun entry member same => ?_
  obtain ⟨other, inside, new, target⟩ := fresh entry member
  have apart : other ≠ block := fun equal => new (equal ▸ held)
  exact blockSector_ne inside (before.ledger.fresh block held).1 apart (target.symm.trans same)

end Progress

/-- The state in which the block loop gives up because every block is in use. -/
structure Stuck (s : SimpleFs) (index size : Nat) (taken : List UInt32)
    (log : List (Nat × Sector)) (w : Rewrite) : Prop where
  ledger : Ledger s taken log w.fs
  frame : Frame s w.fs
  exhausted : w.fs.blocksExhausted = true
  table : w.fs.inodeTable = s.inodeTable.set index (w.fs.inodeTable.get index)
  inode : w.fs.inodeTable.get index = { s.inodeTable.get index with
    directBlocks := (w.fs.inodeTable.get index).directBlocks
    indirectBlock := (w.fs.inodeTable.get index).indirectBlock }
  places : ∀ k, k < slotLimit → w.fs.slot index k ≠ invalidBlock → w.fs.slot index k ∈ taken
  shortage : s.freeBlocks < need size

/--
A rewrite that gave up, and whether its inode still names every block it was handed.

The table of further blocks is kept in a local variable until the end, so only the direct blocks
and the indirect block are found again.
-/
structure Stranded (s : SimpleFs) (index size : Nat) (taken : List UInt32)
    (log : List (Nat × Sector)) (w : Rewrite) : Prop extends Stuck s index size taken log w where
  spent : s.freeBlocks = taken.length
  found : (∀ block ∈ taken, ∃ k, k < slotLimit ∧ w.fs.slot index k = block) ↔ taken.length ≤ 6

section Loop

variable {s : SimpleFs} {index : Nat} {data : Nat → UInt8} {size n : Nat}
  {taken : List UInt32} {log : List (Nat × Sector)} {w : Rewrite}

/-- The direct blocks and the indirect block are in the inode as soon as the loop has them. -/
theorem Progress.slot_low (_ : Progress s index data size n taken log w) {k : Nat} (low : k ≤ 6) :
    w.fs.slot index k = w.slot index k := by
  -- Both places are in the record, not in the table on disk.
  unfold SimpleFs.slot slotBlock Rewrite.slot
  split
  · rfl
  · rw [if_pos (by omega), if_pos (by omega)]

/-- Before the local table is stored, the table on disk is still blank. -/
theorem Progress.slot_high (before : Progress s index data size n taken log w) {k : Nat}
    (high : 6 < k) (small : k < slotLimit) : w.fs.slot index k = invalidBlock := by
  -- There is no table yet, or the one on disk was stored without an entry.
  simp only [slotLimit] at small
  have sixIs : (w.fs.inodeTable.get index).indirectBlock = w.slot index 6 := by
    simp [Rewrite.slot]
  simp only [SimpleFs.slot, slotBlock, show ¬ k < 6 by omega, show k ≠ 6 by omega, if_false,
    tableOf]
  split
  · exact FixedArray.get_fill _ (by omega)
  · rename_i present
    have past : 6 < n := by
      by_contra few
      have : slotCount n ≤ 6 := by unfold slotCount; split <;> omega
      exact present (sixIs.trans (before.vacant 6 this (by decide)))
    rw [sixIs, before.blank past]
    exact FixedArray.get_fill _ (by omega)

/-- So the places of the inode itself are only the direct blocks and the indirect block. -/
theorem Progress.places (before : Progress s index data size n taken log w) :
    ∀ k, k < slotLimit → w.fs.slot index k ≠ invalidBlock → w.fs.slot index k ∈ taken := by
  -- A low place was filled with a block handed out, a high one is empty.
  intro k small held
  by_cases low : k ≤ 6
  · rw [before.slot_low low] at held ⊢
    by_cases full : k < slotCount n
    · exact before.filled k full
    · exact absurd (before.vacant k (by omega) small) held
  · exact absurd (before.slot_high (by omega) small) held

/-- With at most six turns done, every block handed out is in a place of the inode. -/
theorem Progress.found_of_few (before : Progress s index data size n taken log w) (few : n ≤ 6) :
    ∀ block ∈ taken, ∃ k, k < slotLimit ∧ w.fs.slot index k = block := by
  have count : slotCount n = n := by simp [slotCount, few]
  -- As many places are filled as blocks were handed out, so each block is in one of them.
  have nodup : ((List.range n).map (w.slot index)).Nodup := by
    refine List.Nodup.map_on (fun k smallK l smallL same => ?_) List.nodup_range
    rw [List.mem_range] at smallK smallL
    exact before.injective k l (by omega) (by omega) same
  have inside : (List.range n).map (w.slot index) ⊆ taken := by
    intro block member
    obtain ⟨k, small, rfl⟩ := List.mem_map.mp member
    exact before.filled k (by rw [count]; exact List.mem_range.mp small)
  have all := (List.subperm_of_subset nodup inside).perm_of_length_le
    (by rw [before.count, count, List.length_map, List.length_range])
  intro block member
  obtain ⟨k, small, rfl⟩ := List.mem_map.mp (all.mem_iff.mpr member)
  rw [List.mem_range] at small
  exact ⟨k, by simp only [slotLimit]; omega, before.slot_low (by omega)⟩

/-- From the seventh turn on, the first block of the local table is in no place of the inode. -/
theorem Progress.lost_of_many (before : Progress s index data size n taken log w) (many : 6 < n) :
    w.slot index 7 ∈ taken ∧ ∀ k, k < slotLimit → w.fs.slot index k ≠ w.slot index 7 := by
  -- The place was filled, and no place of the inode itself leads to its block.
  have count : slotCount n = n + 1 := by simp [slotCount]; omega
  have member := before.filled 7 (by omega)
  refine ⟨member, fun k small same => ?_⟩
  by_cases low : k ≤ 6
  · rw [before.slot_low low] at same
    have := before.injective k 7 (by omega) (by omega) same
    omega
  · rw [before.slot_high (by omega) small] at same
    exact ne_invalidBlock (before.ledger.fresh _ member).1 same.symm

/-- Running out at the data block leaves the state of the turn before. -/
theorem Progress.stuck (before : Progress s index data size n taken log w)
    (more : n < blocksOf size) (full : s.freeBlocks = taken.length) :
    Stuck s index size taken log { w with fs := { w.fs with blocksExhausted := true } } where
  -- Nothing was placed in this turn, only the failure was recorded.
  ledger := before.ledger.congr rfl rfl
  frame := before.frame.trans ⟨rfl, rfl, rfl, rfl, rfl, rfl, fun _ => rfl⟩
  exhausted := rfl
  table := before.table
  inode := before.inode
  places := before.places
  shortage := by
    rw [full, before.count]
    unfold need slotCount
    split <;> split <;> omega

/-- Running out at the data block strands the blocks of the local table. -/
theorem Progress.stranded (before : Progress s index data size n taken log w)
    (more : n < blocksOf size) (full : s.freeBlocks = taken.length) :
    Stranded s index size taken log { w with fs := { w.fs with blocksExhausted := true } } where
  -- What was handed out is in the places of the local table.
  toStuck := before.stuck more full
  spent := full
  found := by
    rw [before.count]
    constructor
    · intro found
      by_contra beyond
      have many : 6 < n := by unfold slotCount at beyond; split at beyond <;> omega
      obtain ⟨member, nowhere⟩ := before.lost_of_many many
      obtain ⟨k, small, same⟩ := found _ member
      exact nowhere k small same
    · intro few
      exact before.found_of_few (by unfold slotCount at few; split at few <;> omega)

/-- The state once the next data block is on disk but in no place yet. -/
structure Pending (s : SimpleFs) (index : Nat) (data : Nat → UInt8) (size n : Nat)
    (taken : List UInt32) (more : List (Nat × Sector)) (w : Rewrite) (block : UInt32)
    (t : SimpleFs) : Prop where
  new : block ∉ taken
  ledger : Ledger s (block :: taken) more t
  frame : Frame s t
  exhausted : t.blocksExhausted = s.blocksExhausted
  table : t.inodeTable = w.fs.inodeTable
  kept : ∀ c ∈ taken, t.ata.sectors (blockSector c) = w.fs.ata.sectors (blockSector c)
  content : t.ata.sectors (blockSector block) = contentSector data size n

section Place

variable {block : UInt32} {t : SimpleFs} {more : List (Nat × Sector)}

/-- One of the first six blocks goes straight into the inode. -/
theorem Pending.direct (pending : Pending s index data size n taken more w block t)
    (before : Progress s index data size n taken log w) (inTable : index < 64) (low : n < 6)
    {written : Nat} (advance : written = min size (512 * (n + 1))) :
    let inode := t.inodeTable.get index
    let fs := t.withInode index { inode with directBlocks := inode.directBlocks.set n block }
    Progress s index data size (n + 1) (block :: taken) more
      { w with fs := fs, written := written } := by
  -- The block goes into place `n` of the record, every other place is as it was.
  intro inode fs
  have here : slotCount n = n := by simp [slotCount]; omega
  have next : slotCount (n + 1) = n + 1 := by simp [slotCount]; omega
  have stored : fs.inodeTable.get index =
      { inode with directBlocks := inode.directBlocks.set n block } :=
    FixedArray.get_set_same _ _ inTable
  have inodeIs : inode = w.fs.inodeTable.get index := by
    simp only [inode, pending.table]
  have places : ∀ k, ({ w with fs := fs, written := written } : Rewrite).slot index k =
      if k = n then block else w.slot index k := by
    intro k
    unfold Rewrite.slot
    simp only [stored, inodeIs]
    by_cases small : k < 6
    · simp only [small, if_true]
      rw [FixedArray.get_set _ _ small]
    · simp [small, show k ≠ n by omega]
  refine before.extend (pending.ledger.congr rfl rfl) (pending.frame.trans
    ⟨rfl, rfl, rfl, rfl, rfl, rfl, id⟩) pending.exhausted ?_ ?_ ?_ ?_ ?_ ?_ ?_ ?_ ?_ ?_ ?_ ?_ ?_
  · rw [stored]
    simp only [fs, SimpleFs.withInode, inodeIs]
    rw [pending.table, before.table, FixedArray.set_set,
      FixedArray.get_set_same _ _ inTable]
  · rw [stored, inodeIs, before.inode]
  · simp [before.count, here, next]
  · exact fun c member => List.mem_cons_of_mem _ member
  · intro k small
    rw [places, if_neg (by omega)]
  · intro k low high
    rw [places, if_pos (by omega)]
    exact ⟨List.mem_cons_self, pending.new⟩
  · intros; omega
  · intro k low high
    rw [places, if_neg (by omega)]
    exact before.vacant k (by omega) high
  · exact pending.kept
  · rw [places, show dataSlot n = n by simp [dataSlot, low], if_pos rfl]
    exact pending.content
  · omega
  · exact advance
  · rw [before.needs, decide_eq_decide]; omega

/-- A later block goes into the table kept in memory. -/
theorem Pending.entry (pending : Pending s index data size n taken more w block t)
    (before : Progress s index data size n taken log w) (past : 6 < n) (turns : n < 134)
    {written : Nat} (advance : written = min size (512 * (n + 1))) :
    Progress s index data size (n + 1) (block :: taken) more
      { w with fs := t, indirectTable := w.indirectTable.set (n - 6) block, written := written } := by
  -- The block goes into place `n + 1` of the table, and the record is as it was.
  have here : slotCount n = n + 1 := by simp [slotCount]; omega
  have next : slotCount (n + 1) = n + 2 := by simp [slotCount]; omega
  generalize afterIs : ({ w with
    fs := t
    indirectTable := w.indirectTable.set (n - 6) block
    written := written } : Rewrite) = w'
  have places : ∀ k, k < slotLimit → w'.slot index k =
      if k = n + 1 then block else w.slot index k := by
    intro k small
    rw [← afterIs]
    simp only [slotLimit] at small
    unfold Rewrite.slot
    simp only [pending.table]
    by_cases low : k ≤ 6
    · split
      · rw [if_neg (by omega)]
      · rw [if_pos (by omega), if_neg (by omega), if_pos (by omega)]
    · rw [if_neg (by omega), if_neg (by omega), FixedArray.get_set _ _ (by omega)]
      by_cases last : k = n + 1
      · rw [if_pos (by omega), if_pos last]
      · rw [if_neg (by omega), if_neg last, if_neg (by omega), if_neg (by omega)]
  have fsIs : w'.fs = t := by rw [← afterIs]
  have tableIs : w'.fs.inodeTable = w.fs.inodeTable := by rw [fsIs, pending.table]
  refine before.extend (fsIs ▸ pending.ledger) (fsIs ▸ pending.frame) (fsIs ▸ pending.exhausted)
    ?_ ?_ ?_ ?_ ?_ ?_ ?_ ?_ ?_ ?_ ?_ ?_ ?_
  · rw [tableIs]
    exact before.table
  · rw [tableIs]
    exact before.inode
  · simp [before.count, here, next]
  · exact fun c member => List.mem_cons_of_mem _ member
  · intro k small
    rw [places k (by simp only [slotLimit]; omega), if_neg (by omega)]
  · intro k low high
    rw [places k (by simp only [slotLimit]; omega), if_pos (by omega)]
    exact ⟨List.mem_cons_self, pending.new⟩
  · intros; omega
  · intro k low high
    rw [places k high, if_neg (by omega)]
    exact before.vacant k (by omega) high
  · rw [fsIs]
    exact pending.kept
  · rw [show dataSlot n = n + 1 by simp [dataSlot]; omega, places _ (by simp only [slotLimit]; omega),
      if_pos rfl, fsIs]
    exact pending.content
  · omega
  · rw [← afterIs]
    exact advance
  · rw [← afterIs]
    simp only [before.needs, decide_eq_decide]
    omega

/-- The seventh block brings the indirect block, whose table on disk starts out blank. -/
theorem Pending.indirect (pending : Pending s index data size 6 taken more w block t)
    (before : Progress s index data size 6 taken log w) (inTable : index < 64)
    {indirect : UInt32} (apart : indirect ∉ block :: taken)
    {written : Nat} (advance : written = min size (512 * 7)) {final : List (Nat × Sector)} :
    let inode := { t.inodeTable.get index with indirectBlock := indirect }
    let fs := ((t.handedOut indirect).withInode index inode).logged
      [(blockSector indirect, encodeTable w.indirectTable)]
    Ledger s (indirect :: block :: taken) final fs →
    Progress s index data size 7 (indirect :: block :: taken) final
      { fs := fs, written := written, indirectTable := w.indirectTable.set 0 block,
        needsIndirect := true } := by
  -- The seventh block becomes place 7 of the table, and the indirect block place 6.
  intro inode fs ledger
  have here : slotCount 6 = 6 := rfl
  have next : slotCount (6 + 1) = 8 := rfl
  have stored : fs.inodeTable.get index = inode := FixedArray.get_set_same _ _ inTable
  have blankTable : w.indirectTable = .fill invalidBlock := by
    apply FixedArray.ext_get
    intro k small
    have := before.vacant (k + 7) (by omega) (by simp only [slotLimit]; omega)
    simp only [Rewrite.slot, show ¬ k + 7 < 6 by omega, show k + 7 ≠ 6 by omega, if_false,
      Nat.add_sub_cancel] at this
    rw [this, FixedArray.get_fill _ small]
  generalize afterIs : ({
    fs := fs
    written := written
    indirectTable := w.indirectTable.set 0 block
    needsIndirect := true } : Rewrite) = w'
  have fsIs : w'.fs = fs := by rw [← afterIs]
  have places : ∀ k, k < slotLimit → w'.slot index k =
      if k = 6 then indirect else if k = 7 then block else w.slot index k := by
    intro k small
    rw [← afterIs]
    simp only [slotLimit] at small
    unfold Rewrite.slot
    simp only [stored, inode, pending.table]
    by_cases low : k < 6
    · simp [low, show k ≠ 6 by omega, show k ≠ 7 by omega]
    · by_cases six : k = 6
      · simp [six]
      · rw [if_neg low, if_neg six, if_neg six, FixedArray.get_set _ _ (by omega)]
        by_cases seven : k = 7
        · rw [if_pos (by omega), if_pos seven]
        · rw [if_neg (by omega), if_neg seven, if_neg low, if_neg six]
  have sectors : ∀ c : UInt32, c ∈ block :: taken → fs.ata.sectors (blockSector c) =
      t.ata.sectors (blockSector c) := by
    intro c member
    have away : blockSector c ≠ blockSector indirect :=
      blockSector_ne (ledger.fresh c (List.mem_cons_of_mem _ member)).1
        (ledger.fresh indirect List.mem_cons_self).1 (fun same => apart (same ▸ member))
    simp [fs, SimpleFs.logged, SimpleFs.withInode, SimpleFs.handedOut, SimpleFs.withDataBitmap,
      Ata.store_ne _ _ away]
  have own : fs.ata.sectors (blockSector indirect) = encodeTable w.indirectTable := by
    simp [fs, SimpleFs.logged]
  have frame : Frame s fs := pending.frame.trans ⟨rfl, rfl, rfl, rfl, rfl, rfl, id⟩
  refine before.extend (fsIs ▸ ledger) (fsIs ▸ frame) (fsIs ▸ pending.exhausted)
    ?_ ?_ ?_ ?_ ?_ ?_ ?_ ?_ ?_ ?_ ?_ ?_ ?_
  · rw [fsIs, stored]
    simp only [fs, SimpleFs.logged, SimpleFs.withInode, SimpleFs.handedOut,
      SimpleFs.withDataBitmap]
    rw [pending.table, before.table, FixedArray.set_set]
  · rw [fsIs, stored]
    simp only [inode, pending.table]
    rw [before.inode]
  · simp [before.count, here, next]
  · exact fun c member => List.mem_cons_of_mem _ (List.mem_cons_of_mem _ member)
  · intro k small
    rw [places k (by simp only [slotLimit]; omega), if_neg (by omega), if_neg (by omega)]
  · intro k low high
    rw [places k (by simp only [slotLimit]; omega)]
    by_cases six : k = 6
    · rw [if_pos six]
      exact ⟨List.mem_cons_self, fun member => apart (List.mem_cons_of_mem _ member)⟩
    · rw [if_neg six, if_pos (by omega)]
      exact ⟨List.mem_cons_of_mem _ List.mem_cons_self, pending.new⟩
  · intro k l lowK highK lowL highL same
    have differ : indirect ≠ block := fun equal => apart (equal ▸ List.mem_cons_self)
    rw [places k (by simp only [slotLimit]; omega), places l (by simp only [slotLimit]; omega)]
      at same
    rcases (show k = 6 ∨ k = 7 by omega) with rfl | rfl <;>
      rcases (show l = 6 ∨ l = 7 by omega) with rfl | rfl <;> simp_all
  · intro k low high
    rw [places k high, if_neg (by omega), if_neg (by omega)]
    exact before.vacant k (by omega) high
  · intro c member
    rw [fsIs, sectors c (List.mem_cons_of_mem _ member)]
    exact pending.kept c member
  · rw [show dataSlot 6 = 7 from rfl, places 7 (by decide), if_neg (by omega), if_pos rfl,
      fsIs, sectors block List.mem_cons_self]
    exact pending.content
  · intro _
    rw [places 6 (by decide), if_pos rfl, fsIs, own, decodeTable_encodeTable, blankTable]
  · rw [← afterIs]
    exact advance
  · rw [← afterIs]
    rfl

/-- Without an indirect block the places of the inode do not depend on the disk. -/
theorem Pending.slot (pending : Pending s index data size 6 taken more w block t)
    (before : Progress s index data size 6 taken log w) (k : Nat) :
    t.slot index k = w.fs.slot index k := by
  -- A place above the sixth is read through the indirect block, which is missing.
  have without : (w.fs.inodeTable.get index).indirectBlock = invalidBlock := by
    have := before.vacant 6 (by decide) (by decide)
    simpa [Rewrite.slot] using this
  unfold SimpleFs.slot
  rw [pending.table]
  exact slotBlock_congr (fun held => absurd without held) k

/-- Running out at the indirect block leaves a data block that is in no place. -/
theorem Pending.stuck (pending : Pending s index data size 6 taken more w block t)
    (before : Progress s index data size 6 taken log w) (reached : 6 < blocksOf size)
    (full : s.freeBlocks = (block :: taken).length) :
    Stuck s index size (block :: taken) more
      { w with fs := { t with blocksExhausted := true } } where
  -- The block pending is in no place, and everything else is as the turn before left it.
  ledger := pending.ledger.congr rfl rfl
  frame := pending.frame.trans ⟨rfl, rfl, rfl, rfl, rfl, rfl, fun _ => rfl⟩
  exhausted := rfl
  table := by
    simp only [pending.table]
    exact before.table
  inode := by
    simp only [pending.table]
    exact before.inode
  places := by
    intro k small held
    change t.slot index k ≠ invalidBlock at held
    change t.slot index k ∈ block :: taken
    rw [pending.slot before] at held ⊢
    exact List.mem_cons_of_mem _ (before.places k small held)
  shortage := by
    rw [full, List.length_cons, before.count, show slotCount 6 = 6 from rfl]
    unfold need slotCount
    split <;> omega

/-- The data block written before the indirect block was wanted is in no place. -/
theorem Pending.stranded (pending : Pending s index data size 6 taken more w block t)
    (before : Progress s index data size 6 taken log w) (reached : 6 < blocksOf size)
    (full : s.freeBlocks = (block :: taken).length) :
    Stranded s index size (block :: taken) more
      { w with fs := { t with blocksExhausted := true } } where
  -- The pending block is one of those handed out, so places fall short by one.
  toStuck := pending.stuck before reached full
  spent := full
  found := by
    rw [List.length_cons, before.count, show slotCount 6 = 6 from rfl]
    refine ⟨fun found => ?_, fun few => absurd few (by omega)⟩
    obtain ⟨k, small, same⟩ := found block List.mem_cons_self
    change t.slot index k = block at same
    rw [pending.slot before] at same
    have valid := ne_invalidBlock (pending.ledger.fresh block List.mem_cons_self).1
    exact absurd (same ▸ before.places k small (same ▸ valid)) pending.new

end Place

/-- A data block that is handed out and written is pending. -/
theorem Progress.pending (before : Progress s index data size n taken log w) {block : UInt32}
    {t : SimpleFs} {sector : Sector} (new : block ∉ taken)
    (stateIs : t = (w.fs.handedOut block).logged [(blockSector block, sector)])
    (sectorIs : sector = contentSector data size n)
    (ledger : Ledger s (block :: taken)
      (log ++ [(blockSector block, .fill 0)] ++ [(blockSector block, sector)]) t) :
    Pending s index data size n taken
      (log ++ [(blockSector block, .fill 0)] ++ [(blockSector block, sector)]) w block t := by
  -- Only its mark and its content are new.
  have inside : block.toNat < dataBlocks := (ledger.fresh block List.mem_cons_self).1
  refine ⟨new, ledger, ?_, ?_, ?_, ?_, ?_⟩
  · rw [stateIs]; exact before.frame.trans ⟨rfl, rfl, rfl, rfl, rfl, rfl, id⟩
  · rw [stateIs]; exact before.exhausted
  · rw [stateIs]; rfl
  · refine before.kept_of_log (ledger.ata.trans (by rw [List.append_assoc])) ?_
    intro entry member
    refine ⟨block, inside, new, ?_⟩
    rcases (by simpa using member) with rfl | rfl <;> rfl
  · rw [stateIs, sectorIs]; simp [SimpleFs.logged]

/--
The state in which the block loop gives up, with all its inode names handed out since it began.

So giving back what the inode names costs nobody else a block.
-/
structure Interrupted (s : SimpleFs) (index : Nat) (t : SimpleFs) : Prop where
  geometry : Geometry t.infoBlock
  marks : ∀ b, b < dataBlocks → s.marked b = true → t.marked b = true
  places : ∀ k, k < slotLimit → t.slot index k ≠ invalidBlock →
    (t.slot index k).toNat < dataBlocks ∧ s.marked (t.slot index k).toNat = false

/-- Running out of blocks is one way to give up. -/
theorem Stranded.interrupted (stranded : Stranded s index size taken log w)
    (geometry : Geometry s.infoBlock) : Interrupted s index w.fs where
  -- Marks and places are those of the ledger.
  geometry := stranded.ledger.geometry geometry
  marks := fun b inside marked => (stranded.ledger.marks b inside).mpr (Or.inl marked)
  places := fun k small held => stranded.ledger.fresh _ (stranded.places k small held)

/-- A turn that leaves the inode and the blocks handed out before alone can be given up. -/
theorem Progress.interrupted (before : Progress s index data size n taken log w)
    (geometry : Geometry s.infoBlock) {t : SimpleFs}
    (info : t.infoBlock = { w.fs.infoBlock with dataBitmap := t.infoBlock.dataBitmap })
    (table : t.inodeTable = w.fs.inodeTable)
    (kept : ∀ c ∈ taken, t.ata.sectors (blockSector c) = w.fs.ata.sectors (blockSector c))
    (marks : ∀ b, b < dataBlocks → s.marked b = true → t.marked b = true) :
    Interrupted s index t where
  geometry := by
  -- Marked blocks stay marked, and the places name blocks handed out before.
    rw [info]
    exact (before.ledger.geometry geometry).congr rfl rfl rfl
  marks := marks
  places := by
    intro k small held
    have same : t.slot index k = w.fs.slot index k := by
      unfold SimpleFs.slot
      rw [table]
      refine slotBlock_congr (fun present => kept _ ?_) k
      have six := before.places 6 (by decide)
      simp only [SimpleFs.slot, slotBlock, show ¬ 6 < 6 by omega, if_false, if_true] at six
      exact six present
    rw [same] at held ⊢
    exact before.ledger.fresh _ (before.places k small held)

/--
The state in which the indirect block is in the inode but its table could not be stored.

The sector still holds the zeros it was cleared with, which read as a table of block 0.
-/
structure Zeroed (s : SimpleFs) (index start : Nat) (t : SimpleFs) : Prop where
  geometry : Geometry t.infoBlock
  marks : ∀ b, b < dataBlocks → s.marked b = true → t.marked b = true
  low : ∀ k, k ≤ 6 → t.slot index k ≠ invalidBlock →
    (t.slot index k).toNat < dataBlocks ∧ s.marked (t.slot index k).toNat = false
  held : t.slot index 6 ≠ invalidBlock
  zeros : ∀ k, 6 < k → k < slotLimit → t.slot index k = 0
  room : 8 ≤ s.freeBlocks
  served : s.ata.Serves (start + 3)
  refused : s.ata.fails (s.ata.transfers + (start + 3)) = true
  transfers : t.ata.transfers = s.ata.transfers + (start + 4)
  ready : t.ata.ready = true
  fails : t.ata.fails = s.ata.fails

/-- A cleared sector reads as a table of block 0. -/
theorem decodeTable_zeros {k : Nat} (small : k < 128) :
    (decodeTable (.fill 0)).get k = 0 := by
  -- Each word is made of four zero bytes.
  have bytes : ∀ p, p < 512 → (FixedArray.fill 0 : Sector).get p = 0 :=
    fun p inside => FixedArray.get_fill _ inside
  rw [decodeTable, FixedArray.get_ofFn _ small, wordAt, bytes _ (by omega), bytes _ (by omega),
    bytes _ (by omega), bytes _ (by omega)]
  decide

/-- Failing to store the blank table leaves the cleared sector in its place. -/
theorem Pending.zeroed {block indirect : UInt32} {t : SimpleFs} {extended : List (Nat × Sector)}
    {start : Nat} (pending : Pending s index data size 6 taken extended w block t)
    (before : Progress s index data size 6 taken log w) (geometry : Geometry s.infoBlock)
    (inTable : index < 64)
    (ledger : Ledger s (indirect :: block :: taken)
      (extended ++ [(blockSector indirect, .fill 0)]) (t.handedOut indirect))
    (length : extended.length = start + 2) (served : s.ata.Serves (start + 3))
    (refused : (t.handedOut indirect).ata.answers = false) :
    let entered := (t.handedOut indirect).withInode index
      { (t.handedOut indirect).inodeTable.get index with indirectBlock := indirect }
    Zeroed s index start (entered.scanned entered.ata.tried entered.directoryScratch) := by
  intro entered
  have ready : s.ata.ready = true := (served 0 (by omega)).1
  have disk : entered.ata = s.ata.wrote (extended ++ [(blockSector indirect, .fill 0)]) := ledger.ata
  have valid : indirect ≠ invalidBlock := ne_invalidBlock (ledger.fresh _ List.mem_cons_self).1
  have record : entered.inodeTable.get index =
      { w.fs.inodeTable.get index with indirectBlock := indirect } := by
    rw [show entered.inodeTable.get index = _ from FixedArray.get_set_same _ _ inTable]
    change { t.inodeTable.get index with indirectBlock := indirect } = _
    rw [pending.table]
  have cleared : entered.ata.sectors (blockSector indirect) = .fill 0 := by
    simp [entered, SimpleFs.withInode, SimpleFs.handedOut, SimpleFs.logged]
  have six : (entered.scanned entered.ata.tried entered.directoryScratch).slot index 6 =
      indirect := by
    rw [slot_six]
    change (entered.inodeTable.get index).indirectBlock = indirect
    rw [record]
  refine ⟨ledger.geometry geometry, ?_, ?_, ?_, ?_, ?_, served, ?_, ?_, ?_, ?_⟩
  · exact fun b inside marked => (ledger.marks b inside).mpr (Or.inl marked)
  · intro k low held
    by_cases last : k = 6
    · rw [last, six]
      exact ledger.fresh _ List.mem_cons_self
    · -- The direct blocks are those of the turn before.
      have same : (entered.scanned entered.ata.tried entered.directoryScratch).slot index k =
          w.fs.slot index k := by
        change slotBlock _ (entered.inodeTable.get index) k = _
        simp only [record, SimpleFs.slot, slotBlock, show k < 6 by omega, if_true]
      rw [same] at held ⊢
      exact before.ledger.fresh _ (before.places k (by simp only [slotLimit]; omega) held)
  · rw [six]
    exact valid
  · intro k high small
    simp only [slotLimit] at small
    change slotBlock entered.ata.sectors (entered.inodeTable.get index) k = 0
    rw [record]
    simp only [slotBlock, show ¬ k < 6 by omega, show k ≠ 6 by omega, if_false, tableOf, valid,
      cleared]
    exact decodeTable_zeros (by omega)
  · have count := ledger.freeBlocks_add
    rw [List.length_cons, List.length_cons, before.count, show slotCount 6 = 6 from rfl] at count
    omega
  · by_contra fine
    rw [Bool.not_eq_true] at fine
    have : (t.handedOut indirect).ata.answers = true := by
      rw [ledger.answers_iff, List.length_append, length]
      exact ⟨ready, fine⟩
    rw [this] at refused
    cases refused
  · change entered.ata.tried = _
    rw [disk]
    simp only [Ata.tried, Ata.wrote, ready, if_true, List.length_append, length,
      List.length_singleton]
    omega
  · change entered.ata.ready = true
    rw [disk]
    exact ready
  · change entered.ata.fails = s.ata.fails
    rw [disk]
    rfl

/-- What entering the seventh block comes to, whatever the disk does. -/
theorem Pending.enter {block : UInt32} {t : SimpleFs} {extended : List (Nat × Sector)}
    (pending : Pending s index data size 6 taken extended w block t)
    (before : Progress s index data size 6 taken log w) (geometry : Geometry s.infoBlock)
    (inTable : index < maxInodes) (more : 6 < blocksOf size)
    (length : extended.length = log.length + 2) (served : s.ata.Serves (log.length + 2))
    {written : Nat} (advance : written = min size (512 * 7)) :
    (∃ taken' log' w', enterIndirect index 6 block { w with fs := t } = (true, w') ∧
      w'.written = w.written ∧ Progress s index data size 7 taken' log' { w' with written := written } ∧
      s.ata.Serves log'.length ∧ log'.length = log.length + 4) ∨
    (∃ taken' log' w', enterIndirect index 6 block { w with fs := t } = (false, w') ∧
      Stranded s index size taken' log' w' ∧ s.freeBlocks < 8) ∨
    (∃ w', enterIndirect index 6 block { w with fs := t } = (false, w') ∧
      Interrupted s index w'.fs ∧ ¬ s.ata.Serves (log.length + 3)) ∨
    (∃ w', enterIndirect index 6 block { w with fs := t } = (false, w') ∧
      Zeroed s index log.length w'.fs) := by
  have notYet : w.needsIndirect = false := by simp [before.needs]
  unfold enterIndirect
  simp only [notYet, Bool.false_eq_true, if_false]
  rcases pending.ledger.allocate geometry with
    ⟨indirect, apart, answers, handed, ledger⟩ | ⟨outOf, full⟩ | ⟨refused, u, result, back⟩
  · have valid : indirect ≠ invalidBlock :=
      ne_invalidBlock (ledger.fresh indirect List.mem_cons_self).1
    have served3 : s.ata.Serves (log.length + 3) := by
      have now := pending.ledger.answers_iff.mp answers
      rw [length] at now
      exact served.next now
    have zeroed := fun refused =>
      pending.zeroed before geometry inTable ledger length served3 refused
    rw [handed]
    simp only [writeIndirectBlock, valid, if_false] at zeroed ⊢
    generalize enteredIs : (t.handedOut indirect).withInode index
      { (t.handedOut indirect).inodeTable.get index with indirectBlock := indirect } = entered
      at zeroed ⊢
    have same : entered.ata = (t.handedOut indirect).ata := by rw [← enteredIs]; rfl
    have enteredLedger := ledger.congr same (by rw [← enteredIs]; rfl)
    cases answers4 : (t.handedOut indirect).ata.answers with
    | true =>
      left
      obtain ⟨blanked, ledger4⟩ := enteredLedger.write geometry (by rw [same, answers4])
        List.mem_cons_self (encodeTable w.indirectTable)
      rw [blanked]
      refine ⟨indirect :: block :: taken, extended ++ [(blockSector indirect, .fill 0)] ++
        [(blockSector indirect, encodeTable w.indirectTable)], _, rfl, rfl, ?_, ?_, ?_⟩
      · rw [← enteredIs] at ledger4 ⊢
        exact pending.indirect before inTable apart advance ledger4
      · have now := ledger.answers_iff.mp answers4
        simp only [List.length_append, List.length_singleton, length] at now ⊢
        exact served3.next now
      · simp only [List.length_append, List.length_singleton, length]
    | false =>
      -- The blank table could not be stored.
      right; right; right
      have refused := writeBlock_eq (enteredLedger.geometry geometry) indirect
        (encodeTable w.indirectTable)
      rw [same, answers4, if_neg (by decide)] at refused
      rw [refused]
      have := zeroed answers4
      rw [same] at this
      exact ⟨_, rfl, this⟩
  · right; left
    have stranded := pending.stranded before more full
    rw [notYet] at stranded
    rw [outOf]
    refine ⟨_, _, _, rfl, stranded, ?_⟩
    rw [full, List.length_cons, before.count]
    decide
  · -- The sector of the indirect block could not be cleared.
    right; right; left
    rw [result]
    refine ⟨_, rfl, before.interrupted geometry ?_ (back.table.trans pending.table)
      (fun c member => ?_) (fun b small marked => ?_), fun all => ?_⟩
    · rw [back.info, pending.ledger.info, before.ledger.info]
    · rw [back.ata]
      exact pending.kept c member
    · rw [back.marks]
      exact (pending.ledger.marks b small).mpr (Or.inl marked)
    · have := pending.ledger.answers_iff.mpr (by rw [length]; exact all _ (by omega))
      rw [this] at refused
      cases refused

/-- A data block whose content could not be written is given back. -/
theorem Progress.unwritten (before : Progress s index data size n taken log w)
    (geometry : Geometry s.infoBlock) {block : UInt32} (new : block ∉ taken)
    (ledger : Ledger s (block :: taken) (log ++ [(blockSector block, .fill 0)])
      (w.fs.handedOut block)) {t : SimpleFs}
    (stateIs : t = (w.fs.handedOut block).scanned (w.fs.handedOut block).ata.tried
      (w.fs.handedOut block).directoryScratch) :
    Interrupted s index (t.withDataBitmap (bitmapClear t.infoBlock.dataBitmap block.toNat)) := by
  -- Its mark is cleared again, so the marks are those of the turn before.
  obtain ⟨inside, fresh⟩ := ledger.fresh block List.mem_cons_self
  have inByte : block.toNat / 8 < 256 := by simp only [dataBlocks] at inside; omega
  subst stateIs
  refine before.interrupted geometry rfl rfl (fun c member => ?_) fun b small marked => ?_
  · have away := blockSector_ne (before.ledger.fresh c member).1 inside
      (fun same => new (same ▸ member))
    change Ata.applyWrites w.fs.ata.sectors [(blockSector block, .fill 0)] (blockSector c) = _
    simp [Ata.store_ne _ _ away]
  · change bitmapTest (bitmapClear (bitmapSet w.fs.infoBlock.dataBitmap block.toNat)
      block.toNat) b = true
    rw [bitmapTest_bitmapClear _ _ inByte, bitmapTest_bitmapSet _ _ inByte]
    have apart : block.toNat ≠ b := by
      rintro rfl
      rw [fresh] at marked
      cases marked
    have still : w.fs.marked b = true := (before.ledger.marks b small).mpr (Or.inl marked)
    rw [SimpleFs.marked] at still
    simp [apart, still]

/-- The transfers of one turn: two for a data block, and as many for the indirect block. -/
def turnTransfers (n : Nat) : Nat := if n = 6 then 4 else 2

/--
What one turn of the block loop comes to, whatever the disk does.

It fills the next place, runs out of blocks, is given up because a transfer failed, or leaves the
indirect block with the zeros it was cleared with.
-/
theorem rewriteBlock_turn (geometry : Geometry s.infoBlock) (inTable : index < maxInodes)
    (before : Progress s index data size n taken log w) (served : s.ata.Serves log.length)
    (more : n < blocksOf size) (fits : size ≤ maxFileSize) :
    (∃ taken' log' w', rewriteBlock index data size n w = (true, w') ∧
      Progress s index data size (n + 1) taken' log' w' ∧ s.ata.Serves log'.length ∧
      log'.length = log.length + turnTransfers n) ∨
    (∃ taken' log' w', rewriteBlock index data size n w = (false, w') ∧
      Stranded s index size taken' log' w' ∧ (n ≤ 6 → s.freeBlocks < 8)) ∨
    (∃ w', rewriteBlock index data size n w = (false, w') ∧ Interrupted s index w'.fs ∧
      ¬ s.ata.Serves (log.length + min (turnTransfers n) 3)) ∨
    (n = 6 ∧ ∃ w', rewriteBlock index data size n w = (false, w') ∧
      Zeroed s index log.length w'.fs) := by
  have turns : n < 134 := by simp only [maxFileSize] at fits; simp only [blocksOf] at more; omega
  have start : w.written = 512 * n := by
    simp only [blocksOf] at more
    rw [before.written, Nat.min_eq_right (by omega)]
  have steps : 2 ≤ turnTransfers n := by unfold turnTransfers; split <;> omega
  unfold rewriteBlock
  dsimp only
  generalize sizeIs : min (size - w.written) sectorSize = toWrite
  have advance : w.written + toWrite = min size (512 * (n + 1)) := by
    simp only [blocksOf] at more
    rw [← sizeIs, start, sectorSize]
    omega
  rcases before.ledger.allocate geometry with
    ⟨block, new, answers1, handed, ledger1⟩ | ⟨outOf, full⟩ | ⟨refused, u, result, back⟩
  rotate_left
  · right; left
    rw [outOf]
    refine ⟨taken, log, _, rfl, before.stranded more full, fun few => ?_⟩
    rw [full, before.count]
    unfold slotCount
    split <;> omega
  · -- The sector of the data block could not be cleared.
    right; right; left
    rw [result]
    refine ⟨_, rfl, before.interrupted geometry back.info back.table
      (fun c _ => by rw [back.ata]; rfl) fun b inside marked => ?_, fun all => ?_⟩
    · rw [back.marks]
      exact (before.ledger.marks b inside).mpr (Or.inl marked)
    · have := before.ledger.answers_iff.mpr (all log.length (by omega))
      rw [this] at refused
      cases refused
  rw [handed]
  have served1 := served.next (before.ledger.answers_iff.mp answers1)
  generalize sectorIs : dataSector data w.written toWrite = sector
  have contentIs : sector = contentSector data size n := by
    rw [← sectorIs, ← sizeIs, start]
    rfl
  cases answers2 : (w.fs.handedOut block).ata.answers with
  | false =>
    right; right; left
    have refused := writeBlock_eq (ledger1.geometry geometry) block sector
    rw [answers2, if_neg (by decide)] at refused
    simp only [refused]
    refine ⟨_, rfl, before.unwritten geometry new ledger1 rfl, fun all => ?_⟩
    have := ledger1.answers_iff.mpr
      (by rw [List.length_append]; exact all (log.length + 1) (by omega))
    rw [this] at answers2
    cases answers2
  | true =>
    obtain ⟨wrote, ledger2⟩ := ledger1.write geometry answers2 List.mem_cons_self sector
    generalize stateIs : (w.fs.handedOut block).logged [(blockSector block, sector)] = t
      at wrote ledger2
    have pending := before.pending new stateIs.symm contentIs ledger2
    generalize extendedIs : log ++ [(blockSector block, FixedArray.fill 0)] ++
      [(blockSector block, sector)] = extended at pending
    have length : extended.length = log.length + 2 := by rw [← extendedIs]; simp
    have served2 : s.ata.Serves (log.length + 2) := by
      have now := ledger1.answers_iff.mp answers2
      rw [List.length_append] at now
      exact served1.next now
    simp only [wrote]
    rcases Nat.lt_trichotomy n 6 with low | rfl | past
    · left
      refine ⟨_, _, _, ?_, pending.direct before inTable low advance, by rwa [length], ?_⟩
      · simp only [directCount, low, if_true]
      · rw [length, turnTransfers, if_neg (by omega)]
    · simp only [directCount, Nat.lt_irrefl, if_false]
      rcases pending.enter before geometry inTable more length served2 advance with
        ⟨taken', log', w', entered, writtenIs, after, served', length'⟩ |
        ⟨taken', log', w', entered, stranded, few⟩ | ⟨w', entered, interrupted, failed⟩ |
        ⟨w', entered, zeroed⟩
      · left
        rw [entered]
        refine ⟨taken', log', _, rfl, ?_, served', length'⟩
        rw [writtenIs]
        exact after
      · right; left
        rw [entered]
        exact ⟨taken', log', w', rfl, stranded, fun _ => few⟩
      · right; right; left
        rw [entered]
        exact ⟨w', rfl, interrupted, failed⟩
      · right; right; right
        rw [entered]
        exact ⟨trivial, w', rfl, zeroed⟩
    · left
      refine ⟨_, _, _, ?_, pending.entry before past turns advance, by rwa [length], ?_⟩
      · simp only [directCount, show ¬ n < 6 by omega, if_false, enterIndirect, before.needs, past,
          decide_true, if_true]
      · rw [length, turnTransfers, if_neg (by omega)]

/-- One turn of the block loop on a sound disk fills the next place, or runs out of blocks. -/
theorem rewriteBlock_progress (sound : s.ata.Sound) (geometry : Geometry s.infoBlock)
    (inTable : index < maxInodes) (before : Progress s index data size n taken log w)
    (more : n < blocksOf size) (fits : size ≤ maxFileSize) :
    (∃ taken' log' w', rewriteBlock index data size n w = (true, w') ∧
      Progress s index data size (n + 1) taken' log' w') ∨
    (∃ taken' log' w', rewriteBlock index data size n w = (false, w') ∧
      Stranded s index size taken' log' w') := by
  -- A sound disk rules out the two outcomes in which a transfer failed.
  rcases rewriteBlock_turn geometry inTable before (sound.serves _) more fits with
    ⟨taken', log', w', turn, after, -⟩ | ⟨taken', log', w', turn, stranded, -⟩ |
    ⟨w', -, -, failed⟩ | ⟨-, w', -, zeroed⟩
  · exact Or.inl ⟨taken', log', w', turn, after⟩
  · exact Or.inr ⟨taken', log', w', turn, stranded⟩
  · exact absurd (sound.serves _) failed
  · have := zeroed.refused
    rw [sound.reliable] at this
    cases this

/-- The block loop reaches its end, or runs out of blocks on the way. -/
theorem rewriteBlocks_progress (sound : s.ata.Sound) (geometry : Geometry s.infoBlock)
    (inTable : index < maxInodes) (fits : size ≤ maxFileSize) {count : Nat}
    (before : Progress s index data size n taken log w) (turns : n + count = blocksOf size) :
    (∃ taken' log' w', rewriteBlocks index data size count n w = (true, w') ∧
      Progress s index data size (blocksOf size) taken' log' w') ∨
    (∃ taken' log' w', rewriteBlocks index data size count n w = (false, w') ∧
      Stranded s index size taken' log' w') := by
  -- Induction on the turns that are left.
  induction count generalizing n taken log w with
  | zero =>
    obtain rfl : n = blocksOf size := by omega
    exact Or.inl ⟨taken, log, w, rfl, before⟩
  | succ count ih =>
    rcases rewriteBlock_progress sound geometry inTable before (by omega) fits with
      ⟨taken', log', w', turn, after⟩ | ⟨taken', log', w', turn, stranded⟩
    · unfold rewriteBlocks
      rw [turn]
      exact ih after (by omega)
    · right
      refine ⟨taken', log', w', ?_, stranded⟩
      unfold rewriteBlocks
      rw [turn]

end Loop

end MyOS.Fs
