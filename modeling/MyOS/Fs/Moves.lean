import Mathlib.Logic.Relation
import MyOS.Fs.DirectoryLaws

/-! Operations as chains of updates, and what whole chains preserve. -/

namespace MyOS.Fs

/-- Two states of one volume: they differ at most in scratch buffers and in the session. -/
structure Quiet (s t : SimpleFs) : Prop where
  ata : s.ata.Extends [] t.ata
  bootBlock : t.bootBlock = s.bootBlock
  infoBlock : t.infoBlock = s.infoBlock
  inodeTable : t.inodeTable = s.inodeTable
  exhausted : s.blocksExhausted = true → t.blocksExhausted = true

/--
One step of an operation that may touch some inodes and rewrite some of those.

An inode it may touch but not rewrite can only be released.
-/
def Move (touched rewritten : Nat → Prop) (s t : SimpleFs) : Prop :=
  Quiet s t ∨ ∃ index body closing, index < maxInodes ∧ touched index ∧
    Effect s index body closing t ∧
      (rewritten index ∨ body = [] ∧ t.inodeUsed index = false)

/-- An operation as a chain of steps. -/
def Moves (touched rewritten : Nat → Prop) : SimpleFs → SimpleFs → Prop :=
  Relation.ReflTransGen (Move touched rewritten)

namespace Quiet

variable {s t u : SimpleFs}

/-- Every state is quietly reached from itself. -/
theorem refl (s : SimpleFs) : Quiet s s := ⟨Ata.Extends.refl _, rfl, rfl, rfl, id⟩

/-- Quiet steps follow each other. -/
theorem trans (first : Quiet s t) (second : Quiet t u) : Quiet s u :=
  -- What the first step leaves alone, the second one does too.
  ⟨first.ata.trans second.ata, second.bootBlock.trans first.bootBlock,
    second.infoBlock.trans first.infoBlock, second.inodeTable.trans first.inodeTable,
    fun before => second.exhausted (first.exhausted before)⟩

/-- Reading moves nothing on the volume. -/
theorem scanned (s : SimpleFs) (transfers : Nat) (scratch : Scratch) :
    Quiet s (s.scanned transfers scratch) :=
  ⟨Ata.Extends.afterReads _ _, rfl, rfl, rfl, id⟩

/-- Nothing is written to the disk. -/
theorem sectors (quiet : Quiet s t) : t.ata.sectors = s.ata.sectors := quiet.ata.sectors

/-- Every inode holds the block it held in each place. -/
theorem slot (quiet : Quiet s t) (index k : Nat) : t.slot index k = s.slot index k := by
  simp only [SimpleFs.slot, quiet.sectors, quiet.inodeTable]

/-- The same inodes are allocated. -/
theorem inodeUsed (quiet : Quiet s t) (index : Nat) : t.inodeUsed index = s.inodeUsed index := by
  simp only [SimpleFs.inodeUsed, quiet.infoBlock]

/-- The same blocks are marked. -/
theorem marked (quiet : Quiet s t) (b : Nat) : t.marked b = s.marked b := by
  simp only [SimpleFs.marked, quiet.infoBlock]

/-- What is held stays held. -/
theorem holds (quiet : Quiet s t) (index k : Nat) : t.Holds index k ↔ s.Holds index k := by
  simp only [SimpleFs.Holds, quiet.slot, quiet.inodeUsed]

/-- No block is marked without need. -/
theorem thrifty (quiet : Quiet s t) (thrifty : s.Thrifty) : t.Thrifty := by
  -- The place that held a marked block still holds it.
  intro b inside marked
  rw [quiet.marked] at marked
  obtain ⟨i, k, holds, same⟩ := thrifty b inside marked
  exact ⟨i, k, (quiet.holds i k).mpr holds, by rw [quiet.slot, same]⟩

/-- Every inode reads the same. -/
theorem bytes (quiet : Quiet s t) (index offset bufferSize : Nat) :
    t.bytes index offset bufferSize = s.bytes index offset bufferSize := by
  simp only [SimpleFs.bytes, quiet.sectors, quiet.inodeTable]

/-- Blocks belong to the inodes that owned them. -/
theorem owned (quiet : Quiet s t) (owned : Owned s) : Owned t :=
  owned.congr quiet.sectors quiet.infoBlock quiet.inodeTable

/-- The volume stays mounted. -/
theorem mounted (quiet : Quiet s t) (mounted : Mounted s) : Mounted t := by
  -- The blocks in memory that a mounted volume is judged by are the same.
  refine ⟨quiet.ata.sound mounted.sound, ?_, ?_, ?_, quiet.owned mounted.owned⟩
  · rw [quiet.bootBlock, quiet.infoBlock]
    exact mounted.header
  · rw [quiet.inodeUsed]
    exact mounted.rootUsed
  · rw [quiet.inodeTable]
    exact mounted.rootType

/-- The record of an inode keeps its shape. -/
theorem shapedAt (quiet : Quiet s t) {index : Nat} (shaped : ShapedAt s index) :
    ShapedAt t index := by
  -- The shape is a fact about the record and the places, and both are the same.
  constructor
  · intro used
    rw [quiet.inodeTable]
    exact shaped.size (quiet.inodeUsed index ▸ used)
  · intro used k small
    rw [quiet.slot, quiet.inodeTable]
    exact shaped.places (quiet.inodeUsed index ▸ used) k small

/-- What can be read as a directory still can. -/
theorem readable (quiet : Quiet s t) (dir : Nat) : t.Readable dir ↔ s.Readable dir := by
  simp only [SimpleFs.Readable, quiet.inodeUsed, quiet.inodeTable]

/-- A directory has as many entries. -/
theorem entryCount (quiet : Quiet s t) (dir : Nat) : t.entryCount dir = s.entryCount dir := by
  simp only [SimpleFs.entryCount, quiet.bytes]

end Quiet

/-- The metadata on disk is that in memory. -/
structure Synced (s : SimpleFs) : Prop where
  boot : BootBlock.decode (s.ata.sectors 4096) = s.bootBlock
  info : InfoBlock.decode (s.ata.sectors 4097) = s.infoBlock
  inodes : ∀ i, i < maxInodes →
    decodeInode (s.ata.sectors (4098 + i / 8)) i = s.inodeTable.get i

/-- What the log of metadata writes can put into the sector of the info block. -/
theorem metadataLog_info {info : InfoBlock} {table : FixedArray 64 Inode} {entry : Nat × Sector}
    (member : entry ∈ metadataLog info table) (place : entry.1 = 4097) :
    entry.2 = info.encode := by
  -- The first write of the log is that of the info block, and the others go to the table behind it.
  rcases List.mem_cons.mp member with rfl | member
  · rfl
  · obtain ⟨j, -, rfl⟩ := List.mem_map.mp member
    simp only at place
    omega

/-- What the log of metadata writes can put into a sector of the inode table. -/
theorem metadataLog_table {info : InfoBlock} {table : FixedArray 64 Inode} {entry : Nat × Sector}
    {j : Nat} (member : entry ∈ metadataLog info table) (place : entry.1 = 4098 + j) :
    entry.2 = encodeInodes table j := by
  -- Every write behind the first one goes to a sector of the table, at its own place.
  rcases List.mem_cons.mp member with rfl | member
  · simp only at place
    omega
  · obtain ⟨k, -, rfl⟩ := List.mem_map.mp member
    obtain rfl : k = j := by simp only at place; omega
    rfl

/-- The inode table is stored whole. -/
theorem mem_tableLog (table : FixedArray 64 Inode) {j : Nat} (small : j < 8) :
    (4098 + j, encodeInodes table j) ∈ tableLog table :=
  List.mem_map.mpr ⟨j, List.mem_range.mpr small, rfl⟩

namespace Effect

variable {s t : SimpleFs} {index : Nat} {body closing : List (Nat × Sector)}

/-- A sector before the data area is written by the metadata only. -/
theorem closing_of_low (effect : Effect s index body closing t) {entry : Nat × Sector}
    (member : entry ∈ body ++ closing) (low : entry.1 < 4106) :
    entry ∈ metadataLog t.infoBlock t.inodeTable := by
  rcases List.mem_append.mp member with written | written
  · -- Data goes to data blocks.
    obtain ⟨block, spare, target⟩ := effect.targets entry written
    rw [target, blockSector_eq spare.1] at low
    omega
  · exact effect.closing_mem written

/-- Every update brings the metadata on disk up to date. -/
theorem synced (effect : Effect s index body closing t) (synced : Synced s) : Synced t := by
  constructor
  · -- The boot block is not written.
    rw [effect.ata.sectors, effect.frame.bootBlock, ← synced.boot]
    congr 1
    refine Ata.applyWrites_other fun entry member same => ?_
    have := metadataLog_lt (effect.closing_of_low member (by omega))
    omega
  · have stored : t.ata.sectors 4097 = t.infoBlock.encode ∨
        t.ata.sectors 4097 = s.ata.sectors 4097 ∧ t.infoBlock = s.infoBlock := by
      rw [effect.ata.sectors]
      rcases effect.metadata with whole | ⟨tableOnly, same⟩
      · left
        refine Ata.applyWrites_written (Or.inr ⟨(4097, t.infoBlock.encode), ?_, rfl⟩) ?_
        · rw [whole]
          exact List.mem_append_right _ List.mem_cons_self
        · intro entry member place
          exact metadataLog_info (effect.closing_of_low member (by omega)) place
      · -- A change of link counts leaves the info block alone, in memory and on disk.
        right
        refine ⟨Ata.applyWrites_other fun entry member place => ?_, same⟩
        rcases List.mem_append.mp member with written | written
        · obtain ⟨block, spare, target⟩ := effect.targets entry written
          rw [target, blockSector_eq spare.1] at place
          omega
        · rw [tableOnly] at written
          obtain ⟨j, -, rfl⟩ := List.mem_map.mp written
          simp only at place
          omega
    rcases stored with stored | ⟨stored, same⟩
    · rw [stored, InfoBlock.decode_encode]
    · rw [stored, same, synced.info]
  · intro i inTable
    simp only [maxInodes] at inTable
    have stored : t.ata.sectors (4098 + i / 8) = encodeInodes t.inodeTable (i / 8) := by
      rw [effect.ata.sectors]
      refine Ata.applyWrites_written
        (Or.inr ⟨(4098 + i / 8, encodeInodes t.inodeTable (i / 8)), ?_, rfl⟩) ?_
      · apply List.mem_append_right
        have member := mem_tableLog t.inodeTable (show i / 8 < 8 by omega)
        rcases effect.metadata with whole | ⟨tableOnly, -⟩
        · rw [whole]
          exact List.mem_cons_of_mem _ member
        · rw [tableOnly]
          exact member
      · intro entry member place
        exact metadataLog_table (effect.closing_of_low member (by omega)) place
    rw [stored, decodeInode_encodeInodes]

end Effect

/-- Memory and disk still agree. -/
theorem Quiet.synced {s t : SimpleFs} (quiet : Quiet s t) (synced : Synced s) : Synced t := by
  -- Neither of the two changed.
  constructor
  · rw [quiet.sectors, quiet.bootBlock, synced.boot]
  · rw [quiet.sectors, quiet.infoBlock, synced.info]
  · intro i inTable
    rw [quiet.sectors, quiet.inodeTable, synced.inodes i inTable]

/-- The invariants of a volume in use. -/
structure Healthy (s : SimpleFs) : Prop where
  mounted : Mounted s
  shaped : ∀ i, i < maxInodes → ShapedAt s i
  synced : Synced s

section Chains

variable {touched rewritten : Nat → Prop} {s t u : SimpleFs}

namespace Moves

/-- An operation may have no steps. -/
theorem refl (s : SimpleFs) : Moves touched rewritten s s := Relation.ReflTransGen.refl

/-- A quiet step is an operation. -/
theorem quiet (quiet : Quiet s t) : Moves touched rewritten s t :=
  Relation.ReflTransGen.single (Or.inl quiet)

/-- Operations follow each other. -/
theorem trans (first : Moves touched rewritten s t) (second : Moves touched rewritten t u) :
    Moves touched rewritten s u :=
  Relation.ReflTransGen.trans first second

/-- An update of an inode the operation may rewrite. -/
theorem update {index : Nat} {body closing : List (Nat × Sector)} (inTable : index < maxInodes)
    (touches : touched index) (rewrites : rewritten index) (effect : Effect s index body closing t) :
    Moves touched rewritten s t :=
  -- The update is the only step.
  Relation.ReflTransGen.single
    (Or.inr ⟨index, body, closing, inTable, touches, effect, Or.inl rewrites⟩)

/-- A volume stays mounted through a whole operation. -/
theorem mounted (moves : Moves touched rewritten s t) (mounted : Mounted s) : Mounted t := by
  -- By induction on the steps, each of which keeps the volume mounted.
  induction moves with
  | refl => exact mounted
  | tail _ move ih =>
    rcases move with quiet | ⟨_, _, _, _, _, effect, _⟩
    · exact quiet.mounted ih
    · exact effect.mounted ih

/-- That blocks ran out is not forgotten through a whole operation. -/
theorem exhausted (moves : Moves touched rewritten s t) (before : s.blocksExhausted = true) :
    t.blocksExhausted = true := by
  -- By induction on the steps: no step lowers the flag.
  induction moves with
  | refl => exact before
  | tail _ move ih =>
    rcases move with quiet | ⟨_, _, _, _, _, effect, _⟩
    · exact quiet.exhausted ih
    · exact effect.frame.exhausted ih

/-- Unless blocks ran out, a whole operation leaves no block marked that nobody holds. -/
theorem thrifty (moves : Moves touched rewritten s t) (mounted : Mounted s) (thrifty : s.Thrifty)
    (clear : t.blocksExhausted = false) : t.Thrifty := by
  induction moves with
  | refl => exact thrifty
  | @tail u v front move ih =>
    have mountedU := Moves.mounted front mounted
    rcases move with quiet | ⟨_, _, _, _, _, effect, _⟩
    · -- Blocks that had run out before would be out now.
      refine quiet.thrifty (ih ?_)
      by_contra exhausted
      exact absurd (quiet.exhausted (Bool.not_eq_false _ ▸ exhausted)) (by simp [clear])
    · refine effect.thrifty mountedU.owned (ih ?_) clear
      by_contra exhausted
      exact absurd (effect.frame.exhausted (Bool.not_eq_false _ ▸ exhausted)) (by simp [clear])

/-- The metadata on disk stays that in memory through a whole operation. -/
theorem synced (moves : Moves touched rewritten s t) (synced : Synced s) : Synced t := by
  -- By induction on the steps, each of which ends with its metadata on disk.
  induction moves with
  | refl => exact synced
  | tail _ move ih =>
    rcases move with quiet | ⟨_, _, _, _, _, effect, _⟩
    · exact quiet.synced ih
    · exact effect.synced ih

/-- A healthy volume stays healthy through a whole operation. -/
theorem healthy (moves : Moves touched rewritten s t) (healthy : Healthy s) : Healthy t := by
  -- By induction on the steps, with what a mounted volume has kept along the way.
  induction moves with
  | refl => exact healthy
  | tail _ move ih =>
    rcases move with quiet | ⟨_, _, _, _, _, effect, _⟩
    · exact ⟨quiet.mounted ih.mounted, fun i inTable => quiet.shapedAt (ih.shaped i inTable),
        quiet.synced ih.synced⟩
    · exact ⟨effect.mounted ih.mounted, effect.shapedAt ih.mounted.owned ih.shaped,
        effect.synced ih.synced⟩

end Moves

/-- Rewriting an inode, whether or not that succeeds, is a step of an operation. -/
theorem writeInodeData_moves (mounted : Mounted s) {index : Nat} (touches : touched index)
    (rewrites : rewritten index) (data : Nat → UInt8) (size : Nat) :
    Moves touched rewritten s (writeInodeData index data size s).2 := by
  -- A rewrite that is accepted updates the inode whether or not it finds its blocks.
  by_cases allowed : index < maxInodes ∧ s.inodeUsed index = true ∧ size ≤ maxFileSize
  · obtain ⟨inTable, used, fits⟩ := allowed
    rcases writeInodeData_sound data mounted.sound mounted.geometry inTable used fits
        (mounted.inside inTable used) with ⟨t, log, result, done, -⟩ | ⟨t, log, result, done, -⟩
    · rw [result]
      exact Moves.update inTable touches rewrites done.effect
    · rw [result]
      exact Moves.update inTable touches rewrites done.effect
  · rw [writeInodeData_refused allowed]
    exact Moves.refl s

/-- Releasing an inode is a step of an operation, even of one that may not rewrite it. -/
theorem releaseInode_moves (mounted : Mounted s) {index : Nat} (touches : touched index) :
    Moves touched rewritten s (releaseInode index s).2 := by
  -- Only the root, and an inode that is not there, cannot be released.
  by_cases allowed : index < maxInodes ∧ s.inodeUsed index = true ∧ index ≠ rootInode
  · obtain ⟨inTable, used, notRoot⟩ := allowed
    obtain ⟨t, result, effect, free, -⟩ := releaseInode_sound mounted inTable used notRoot
    rw [result]
    exact Relation.ReflTransGen.single
      (Or.inr ⟨index, [], _, inTable, touches, effect, Or.inr ⟨rfl, free⟩⟩)
  · rw [releaseInode_refused allowed]
    exact Moves.refl s

end Chains

end MyOS.Fs
