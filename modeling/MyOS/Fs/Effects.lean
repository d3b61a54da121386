import MyOS.Fs.RewriteLaws

/-! What one metadata update may do to the volume, and the invariants every update keeps. -/

namespace MyOS.Fs

/-- A block an update of an inode may use: one nobody holds, or one the inode holds itself. -/
def SimpleFs.Spare (s : SimpleFs) (index : Nat) (block : UInt32) : Prop :=
  block.toNat < dataBlocks ∧
    (s.marked block.toNat = true → ∃ k, s.Holds index k ∧ s.slot index k = block)

/-- An allocated inode has a lawful size and a block in exactly the places that size calls for. -/
structure ShapedAt (s : SimpleFs) (index : Nat) : Prop where
  size : s.inodeUsed index = true → (s.inodeTable.get index).size.toNat ≤ maxFileSize
  places : s.inodeUsed index = true → ∀ k, k < slotLimit →
    (s.slot index k ≠ invalidBlock ↔ k < need (s.inodeTable.get index).size.toNat)

/-- Every block marked used is held by an allocated inode. -/
def SimpleFs.Thrifty (s : SimpleFs) : Prop :=
  ∀ b, b < dataBlocks → s.marked b = true → ∃ i k, s.Holds i k ∧ (s.slot i k).toNat = b

/--
One update of the volume, with the data sectors and then the metadata sectors it wrote.

Every operation of the file system is a chain of such updates, each concerning one inode.
-/
structure Effect (s : SimpleFs) (index : Nat) (body closing : List (Nat × Sector)) (t : SimpleFs) :
    Prop where
  ata : s.ata.Extends (body ++ closing) t.ata
  metadata : closing = metadataLog t.infoBlock t.inodeTable ∨
    closing = tableLog t.inodeTable ∧ t.infoBlock = s.infoBlock
  frame : Frame s t
  info : t.infoBlock = { s.infoBlock with
    inodeBitmap := t.infoBlock.inodeBitmap
    dataBitmap := t.infoBlock.dataBitmap }
  others : ∀ j, j ≠ index → t.inodeTable.get j = s.inodeTable.get j
  allocation : ∀ j, j < maxInodes → j ≠ index → t.inodeUsed j = s.inodeUsed j
  root : index = rootInode → t.inodeUsed index = s.inodeUsed index ∧
    (t.inodeTable.get index).type = (s.inodeTable.get index).type
  targets : ∀ entry ∈ body, ∃ block, s.Spare index block ∧ entry.1 = blockSector block
  spared : ∀ b, b < dataBlocks → s.marked b = true →
    (∀ k, s.Holds index k → (s.slot index k).toNat ≠ b) → t.marked b = true
  own : ∀ k, t.Holds index k →
    s.Spare index (t.slot index k) ∧ t.marked (t.slot index k).toNat = true
  injective : ∀ k l, t.Holds index k → t.Holds index l → t.slot index k = t.slot index l → k = l
  shaped : ShapedAt s index → ShapedAt t index
  saved : t.blocksExhausted = false → ∀ b, b < dataBlocks → t.marked b = true →
    (∃ k, t.Holds index k ∧ (t.slot index k).toNat = b) ∨
    s.marked b = true ∧ ∀ k, s.Holds index k → (s.slot index k).toNat ≠ b

/-- An update that replaces one inode and otherwise only moves marks of data blocks. -/
theorem Effect.of_set {s t : SimpleFs} {index : Nat} {body closing : List (Nat × Sector)}
    (ata : s.ata.Extends (body ++ closing) t.ata)
    (metadata : closing = metadataLog t.infoBlock t.inodeTable ∨
      closing = tableLog t.inodeTable ∧ t.infoBlock = s.infoBlock)
    (frame : Frame s t)
    (info : t.infoBlock = { s.infoBlock with dataBitmap := t.infoBlock.dataBitmap })
    (table : t.inodeTable = s.inodeTable.set index (t.inodeTable.get index))
    (type : (t.inodeTable.get index).type = (s.inodeTable.get index).type)
    (targets : ∀ entry ∈ body, ∃ block, s.Spare index block ∧ entry.1 = blockSector block)
    (spared : ∀ b, b < dataBlocks → s.marked b = true →
      (∀ k, s.Holds index k → (s.slot index k).toNat ≠ b) → t.marked b = true)
    (own : ∀ k, t.Holds index k →
      s.Spare index (t.slot index k) ∧ t.marked (t.slot index k).toNat = true)
    (injective : ∀ k l, t.Holds index k → t.Holds index l →
      t.slot index k = t.slot index l → k = l)
    (shaped : ShapedAt s index → ShapedAt t index)
    (saved : t.blocksExhausted = false → ∀ b, b < dataBlocks → t.marked b = true →
      (∃ k, t.Holds index k ∧ (t.slot index k).toNat = b) ∨
      s.marked b = true ∧ ∀ k, s.Holds index k → (s.slot index k).toNat ≠ b) :
    Effect s index body closing t := by
  -- Only the inode's own record differs, so every other field follows from the replaced table.
  have bitmap : t.infoBlock.inodeBitmap = s.infoBlock.inodeBitmap := by rw [info]
  have allocation : ∀ j, t.inodeUsed j = s.inodeUsed j := by
    intro j
    unfold SimpleFs.inodeUsed
    rw [bitmap]
  refine ⟨ata, metadata, frame, ?_, ?_, fun j _ _ => allocation j,
    fun _ => ⟨allocation index, type⟩, targets, spared, own, injective, shaped, saved⟩
  · rw [info]
  · intro j other
    rw [table]
    exact FixedArray.get_set_ne _ _ other

/-- The metadata lies before every data block. -/
theorem metadataLog_lt {info : InfoBlock} {table : FixedArray 64 Inode} {entry : Nat × Sector}
    (member : entry ∈ metadataLog info table) : 4097 ≤ entry.1 ∧ entry.1 < 4106 := by
  rcases List.mem_cons.mp member with rfl | member
  · -- The info block comes first.
    simp
  · -- The eight sectors of the inode table follow it.
    obtain ⟨j, small, rfl⟩ := List.mem_map.mp member
    have := List.mem_range.mp small
    simp only
    omega

/-- Writing the metadata leaves the sectors of data blocks alone. -/
theorem applyWrites_metadataLog (sectors : Nat → Sector) (info : InfoBlock)
    (table : FixedArray 64 Inode) {block : UInt32} (inside : block.toNat < dataBlocks) :
    Ata.applyWrites sectors (metadataLog info table) (blockSector block) =
      sectors (blockSector block) := by
  refine Ata.applyWrites_other fun entry member same => ?_
  -- The two areas do not overlap.
  have := metadataLog_lt member
  rw [blockSector_eq inside] at same
  omega

/-- The places of an inode are the same on a disk whose metadata was written. -/
theorem slotBlock_metadataLog (sectors : Nat → Sector) (info : InfoBlock)
    (table : FixedArray 64 Inode) {inode : Inode}
    (inside : inode.indirectBlock ≠ invalidBlock → inode.indirectBlock.toNat < dataBlocks)
    (k : Nat) :
    slotBlock (Ata.applyWrites sectors (metadataLog info table)) inode k =
      slotBlock sectors inode k :=
  -- Metadata sectors lie before the data blocks, so an indirect table is not among them.
  slotBlock_congr (fun held => applyWrites_metadataLog sectors info table (inside held)) k

namespace Owned

variable {s : SimpleFs} {i j k : Nat}

/-- Ownership is a matter of the disk, the info block and the inode table. -/
theorem congr {t : SimpleFs} (owned : Owned s) (sectors : t.ata.sectors = s.ata.sectors)
    (info : t.infoBlock = s.infoBlock) (table : t.inodeTable = s.inodeTable) : Owned t := by
  -- Places are computed from these three, so all of them are as before.
  have slots : ∀ i k, t.slot i k = s.slot i k := by
    intro i k
    rw [SimpleFs.slot, sectors, table]
    rfl
  have holds : ∀ i k, t.Holds i k → s.Holds i k := by
    rintro i k ⟨inTable, used, small, held⟩
    rw [SimpleFs.inodeUsed, info] at used
    rw [slots] at held
    exact ⟨inTable, used, small, held⟩
  constructor
  · intro i k held
    rw [slots]
    exact owned.inRange i k (holds i k held)
  · intro i k held
    rw [slots, SimpleFs.marked, info]
    exact owned.isMarked i k (holds i k held)
  · intro i k j l heldK heldL same
    rw [slots, slots] at same
    exact owned.distinct i k j l (holds i k heldK) (holds j l heldL) same

/-- No block another inode holds is spare. -/
theorem not_spare (owned : Owned s) (holds : s.Holds j k) (other : j ≠ i) :
    ¬ s.Spare i (s.slot j k) := by
  rintro ⟨-, own⟩
  -- A held block is marked, so a spare one would be held by the inode itself too.
  obtain ⟨l, holdsL, same⟩ := own (owned.isMarked j k holds)
  exact other (owned.distinct j k i l holds holdsL same.symm).1

end Owned

namespace Effect

variable {s t : SimpleFs} {index : Nat} {body closing : List (Nat × Sector)}

/-- Whichever metadata an update writes, it is part of the metadata of its result. -/
theorem closing_mem (effect : Effect s index body closing t) {entry : Nat × Sector}
    (member : entry ∈ closing) : entry ∈ metadataLog t.infoBlock t.inodeTable := by
  -- Either the whole metadata is written or all of it but the bitmap.
  rcases effect.metadata with rfl | ⟨rfl, -⟩
  · exact member
  · exact List.mem_cons_of_mem _ member

/-- An update writes no sector of a block another inode holds. -/
theorem untouched (effect : Effect s index body closing t) (owned : Owned s) {j k : Nat}
    (holds : s.Holds j k) (other : j ≠ index) :
    ∀ entry ∈ body ++ closing, entry.1 ≠ blockSector (s.slot j k) := by
  intro entry member same
  have inside := owned.inRange j k holds
  rcases List.mem_append.mp member with written | written
  · -- Data goes to spare blocks only.
    obtain ⟨block, spare, target⟩ := effect.targets entry written
    by_cases equal : block = s.slot j k
    · exact owned.not_spare holds other (equal ▸ spare)
    · exact blockSector_ne spare.1 inside equal (target.symm.trans same)
  · -- Metadata lies elsewhere.
    have := metadataLog_lt (effect.closing_mem written)
    rw [blockSector_eq inside] at same
    omega

/-- The sectors of blocks another inode holds are as they were. -/
theorem sectors_other (effect : Effect s index body closing t) (owned : Owned s) {j k : Nat}
    (holds : s.Holds j k) (other : j ≠ index) :
    t.ata.sectors (blockSector (s.slot j k)) = s.ata.sectors (blockSector (s.slot j k)) := by
  -- No write goes to a block that another inode holds.
  rw [effect.ata.sectors]
  exact Ata.applyWrites_other (effect.untouched owned holds other)

/-- The places of another allocated inode are as they were. -/
theorem slot_other (effect : Effect s index body closing t) (owned : Owned s) {j : Nat}
    (inTable : j < maxInodes) (used : s.inodeUsed j = true) (other : j ≠ index) (k : Nat) :
    t.slot j k = s.slot j k := by
  unfold SimpleFs.slot
  rw [effect.others j other]
  refine slotBlock_congr (fun held => ?_) k
  -- The table of further blocks lies in a block the inode holds.
  have holds : s.Holds j 6 := ⟨inTable, used, by decide, by rw [slot_six]; exact held⟩
  have same := effect.sectors_other owned holds other
  rwa [slot_six] at same

/-- Another inode holds what it held. -/
theorem holds_other (effect : Effect s index body closing t) (owned : Owned s) {j k : Nat}
    (other : j ≠ index) : t.Holds j k ↔ s.Holds j k := by
  -- Allocation and places of another inode are the same in both directions.
  constructor
  · rintro ⟨inTable, used, small, held⟩
    rw [effect.allocation j inTable other] at used
    rw [effect.slot_other owned inTable used other] at held
    exact ⟨inTable, used, small, held⟩
  · rintro ⟨inTable, used, small, held⟩
    refine ⟨inTable, ?_, small, ?_⟩
    · rw [effect.allocation j inTable other]
      exact used
    · rw [effect.slot_other owned inTable used other]
      exact held

/-- The block-ownership invariant survives every update. -/
theorem owned (effect : Effect s index body closing t) (owned : Owned s) : Owned t := by
  -- Another inode keeps its blocks, and they are not spare for this one.
  have foreign : ∀ {j k : Nat}, t.Holds j k → j ≠ index →
      s.Holds j k ∧ t.slot j k = s.slot j k := by
    intro j k holds other
    have before := (effect.holds_other owned other).mp holds
    exact ⟨before, effect.slot_other owned before.1 before.2.1 other k⟩
  have apart : ∀ {j k l : Nat}, t.Holds j k → j ≠ index → t.Holds index l →
      t.slot j k ≠ t.slot index l := by
    intro j k l holds other holdsL same
    obtain ⟨before, slotIs⟩ := foreign holds other
    apply owned.not_spare before other
    rw [← slotIs, same]
    exact (effect.own l holdsL).1
  constructor
  · intro i k holds
    by_cases this : i = index
    · subst this
      exact (effect.own k holds).1.1
    · obtain ⟨before, slotIs⟩ := foreign holds this
      rw [slotIs]
      exact owned.inRange i k before
  · intro i k holds
    by_cases this : i = index
    · subst this
      exact (effect.own k holds).2
    · obtain ⟨before, slotIs⟩ := foreign holds this
      rw [slotIs]
      refine effect.spared _ (owned.inRange i k before) (owned.isMarked i k before) ?_
      -- A block of this inode is not that of another.
      intro l holdsL same
      exact this (owned.distinct i k index l before holdsL (UInt32.toNat_inj.mp same.symm)).1
  · intro i k j l holdsK holdsL same
    by_cases thisI : i = index <;> by_cases thisJ : j = index
    · subst thisI thisJ
      exact ⟨rfl, effect.injective k l holdsK holdsL same⟩
    · subst thisI
      exact absurd same.symm (apart holdsL thisJ holdsK)
    · subst thisJ
      exact absurd same (apart holdsK thisI holdsL)
    · obtain ⟨beforeK, slotK⟩ := foreign holdsK thisI
      obtain ⟨beforeL, slotL⟩ := foreign holdsL thisJ
      rw [slotK, slotL] at same
      exact owned.distinct i k j l beforeK beforeL same

/-- The shape of every allocated inode survives every update. -/
theorem shapedAt (effect : Effect s index body closing t) (owned : Owned s)
    (shaped : ∀ j, j < maxInodes → ShapedAt s j) : ∀ j, j < maxInodes → ShapedAt t j := by
  -- The inode updated is shaped by the update, the others have not changed.
  intro j inTable
  by_cases this : j = index
  · subst this
    exact effect.shaped (shaped j inTable)
  · have allocation := effect.allocation j inTable this
    constructor
    · intro used
      rw [effect.others j this]
      exact (shaped j inTable).size (allocation ▸ used)
    · intro used k small
      rw [effect.others j this, effect.slot_other owned inTable (allocation ▸ used) this]
      exact (shaped j inTable).places (allocation ▸ used) k small

/-- Unless blocks ran out, an update leaves no block marked that nobody holds. -/
theorem thrifty (effect : Effect s index body closing t) (owned : Owned s) (thrifty : s.Thrifty)
    (clear : t.blocksExhausted = false) : t.Thrifty := by
  intro b inside marked
  rcases effect.saved clear b inside marked with ⟨k, holds, same⟩ | ⟨before, foreign⟩
  · exact ⟨index, k, holds, same⟩
  · -- The block is that of another inode, which holds what it held.
    obtain ⟨j, k, holds, same⟩ := thrifty b inside before
    have other : j ≠ index := by
      rintro rfl
      exact foreign k holds same
    refine ⟨j, k, (effect.holds_other owned other).mpr holds, ?_⟩
    rw [effect.slot_other owned holds.1 holds.2.1 other, same]

/-- The layout parameters survive every update. -/
theorem geometry (effect : Effect s index body closing t) (geometry : Geometry s.infoBlock) :
    Geometry t.infoBlock := by
  -- Only the bitmap of the info block may differ.
  rw [effect.info]
  exact geometry.congr rfl rfl rfl

end Effect

end MyOS.Fs
