import MyOS.Fs.Effects

/-! What replacing the content of an inode does on a sound disk, whether or not it fits. -/

namespace MyOS.Fs

/-- Blocks free once an inode has given back its own. -/
def SimpleFs.capacity (s : SimpleFs) (index : Nat) : Nat := (freeInodeBlocks index s).freeBlocks

/-- The places in which an inode holds a block. -/
def SimpleFs.heldSlots (s : SimpleFs) (index : Nat) : List Nat :=
  (List.range slotLimit).filter fun k => s.slot index k != invalidBlock

/--
The state after an inode was rewritten, with the data sectors written before the metadata.

It holds of a rewrite that ran out of blocks too: that one leaves the inode without blocks.
-/
structure Rewritten (s : SimpleFs) (index : Nat) (body : List (Nat × Sector)) (t : SimpleFs) :
    Prop where
  effect : Effect s index body (metadataLog t.infoBlock t.inodeTable) t
  type : (t.inodeTable.get index).type = (s.inodeTable.get index).type
  linkCount : (t.inodeTable.get index).linkCount = (s.inodeTable.get index).linkCount
  inodeBitmap : t.infoBlock.inodeBitmap = s.infoBlock.inodeBitmap

/-- An inode holds a content: its size, a block for each sector of it, and the sectors. -/
structure Filled (index : Nat) (data : Nat → UInt8) (size : Nat) (t : SimpleFs) : Prop where
  sized : (t.inodeTable.get index).size = UInt32.ofNat size
  held : ∀ k, k < need size → t.slot index k ≠ invalidBlock
  vacant : ∀ k, need size ≤ k → k < slotLimit → t.slot index k = invalidBlock
  content : ∀ l, l < blocksOf size →
    t.ata.sectors (blockSector (t.slot index (dataSlot l))) = contentSector data size l

/-- A content of lawful size needs no more places than there are. -/
theorem need_le {size : Nat} (fits : size ≤ maxFileSize) : need size ≤ slotLimit := by
  -- 134 blocks and the indirect one
  simp only [maxFileSize] at fits
  unfold need slotCount blocksOf slotLimit
  split <;> omega

/-- A filled inode has the shape its size calls for. -/
theorem Filled.shapedAt {index : Nat} {data : Nat → UInt8} {size : Nat} {t : SimpleFs}
    (filled : Filled index data size t) (fits : size ≤ maxFileSize) : ShapedAt t index := by
  -- The size survives its storage as a 32-bit field.
  have sizeIs : (t.inodeTable.get index).size.toNat = size := by
    simp only [maxFileSize] at fits
    rw [filled.sized, UInt32.toNat_ofNat']
    omega
  constructor
  · intro _
    rw [sizeIs]
    exact fits
  · intro _ k small
    rw [sizeIs]
    constructor
    · intro held
      by_contra past
      exact held (filled.vacant k (by omega) small)
    · exact filled.held k

section Write

variable {s : SimpleFs} {index : Nat} {data : Nat → UInt8} {size : Nat}

/-- The blocks still unmarked once an inode gave back its own are the spare ones. -/
theorem spare_of_freed {f : SimpleFs} (inTable : index < maxInodes)
    (used : s.inodeUsed index = true)
    (marks : ∀ b, f.marked b = true ↔ s.marked b = true ∧
      ∀ k, k < slotLimit → s.slot index k ≠ invalidBlock → (s.slot index k).toNat ≠ b)
    {block : UInt32} (inside : block.toNat < dataBlocks) (free : f.marked block.toNat = false) :
    s.Spare index block := by
  -- A marked block that is not free was marked before and is held by the inode.
  refine ⟨inside, fun marked => ?_⟩
  by_contra nowhere
  have : f.marked block.toNat = true := by
    rw [marks]
    refine ⟨marked, fun k small held same => nowhere ⟨k, ?_, UInt32.toNat_inj.mp same⟩⟩
    exact ⟨inTable, used, small, held⟩
  simp [free] at this

/-- The block loop starts from an inode without blocks. -/
theorem Progress.start {f : SimpleFs} {inode : Inode} (empty : f.inodeTable.get index = emptied inode) :
    Progress f index data size 0 [] []
      { fs := f, written := 0, indirectTable := .fill invalidBlock, needsIndirect := false } where
  -- No turn was taken, so nothing is placed, marked or written.
  ledger := Ledger.start f
  frame := Frame.refl f
  exhausted := rfl
  table := (FixedArray.set_get _ _).symm
  inode := rfl
  count := rfl
  filled := by intro k small; simp [slotCount] at small
  vacant := by
    intro k _ small
    simp only [slotLimit] at small
    simp only [Rewrite.slot, empty, emptied]
    split
    · exact FixedArray.get_fill _ (by assumption)
    · split
      · rfl
      · exact FixedArray.get_fill _ (by omega)
  injective := by intro k l small; simp [slotCount] at small
  content := by intro l small; omega
  blank := by intro past; omega
  written := by simp
  needs := rfl

/-- The state of a rewrite whose blocks and indirect table are all on disk. -/
structure Stored (f : SimpleFs) (index : Nat) (data : Nat → UInt8) (size : Nat)
    (taken : List UInt32) (log : List (Nat × Sector)) (u : SimpleFs) : Prop where
  ledger : Ledger f taken log u
  frame : Frame f u
  exhausted : u.blocksExhausted = f.blocksExhausted
  table : u.inodeTable = f.inodeTable.set index (u.inodeTable.get index)
  inode : u.inodeTable.get index = { f.inodeTable.get index with
    directBlocks := (u.inodeTable.get index).directBlocks
    indirectBlock := (u.inodeTable.get index).indirectBlock }
  count : taken.length = need size
  filled : ∀ k, k < need size → u.slot index k ∈ taken
  vacant : ∀ k, need size ≤ k → k < slotLimit → u.slot index k = invalidBlock
  injective : ∀ k l, k < need size → l < need size → u.slot index k = u.slot index l → k = l
  content : ∀ l, l < blocksOf size →
    u.ata.sectors (blockSector (u.slot index (dataSlot l))) = contentSector data size l

variable {f : SimpleFs} {taken : List UInt32} {log : List (Nat × Sector)} {w : Rewrite}

/-- Finishing the loop without an indirect block leaves nothing to store. -/
theorem Progress.stored_direct (done : Progress f index data size (blocksOf size) taken log w)
    (few : ¬ 6 < blocksOf size) : Stored f index data size taken log w.fs := by
  have without : (w.fs.inodeTable.get index).indirectBlock = invalidBlock := by
    have := done.vacant 6 (by unfold slotCount; split <;> omega) (by decide)
    simpa [Rewrite.slot] using this
  have places : ∀ k, k < slotLimit → w.fs.slot index k = w.slot index k := by
    intro k small
    unfold SimpleFs.slot slotBlock Rewrite.slot tableOf
    rw [without, if_pos rfl]
    split
    · rfl
    · split
      · rfl
      · -- Neither the disk nor the local table names a further block.
        have := done.vacant k (by unfold slotCount; split <;> omega) small
        simp only [Rewrite.slot, *, if_false] at this
        rw [this]
        exact FixedArray.get_fill _ (by simp only [slotLimit] at small; omega)
  have bound : need size ≤ slotLimit := by
    unfold need slotCount slotLimit; split <;> omega
  refine ⟨done.ledger, done.frame, done.exhausted, done.table, done.inode, done.count, ?_, ?_, ?_,
    ?_⟩
  · intro k small
    rw [places k (by omega)]
    exact done.filled k small
  · intro k high small
    rw [places k small]
    exact done.vacant k high small
  · intro k l smallK smallL same
    rw [places k (by omega), places l (by omega)] at same
    exact done.injective k l smallK smallL same
  · intro l small
    have := Progress.dataSlot_lt small
    rw [places _ (Nat.lt_of_lt_of_le this bound)]
    exact done.content l small

/-- Storing the table makes the places on disk those the loop has filled. -/
theorem Progress.stored_indirect (done : Progress f index data size (blocksOf size) taken log w)
    (many : 6 < blocksOf size) (fits : size ≤ maxFileSize)
    (ledger : Ledger f taken (log ++ [(blockSector (w.slot index 6), encodeTable w.indirectTable)])
      (w.fs.logged [(blockSector (w.slot index 6), encodeTable w.indirectTable)])) :
    Stored f index data size taken
      (log ++ [(blockSector (w.slot index 6), encodeTable w.indirectTable)])
      (w.fs.logged [(blockSector (w.slot index 6), encodeTable w.indirectTable)]) := by
  have counted : slotCount (blocksOf size) = blocksOf size + 1 := by
    unfold slotCount; rw [if_neg (by omega)]
  have bound : need size ≤ slotLimit := need_le fits
  have member : w.slot index 6 ∈ taken := done.filled 6 (by omega)
  have sixIs : (w.fs.inodeTable.get index).indirectBlock = w.slot index 6 := by
    simp [Rewrite.slot]
  generalize afterIs : w.fs.logged
    [(blockSector (w.slot index 6), encodeTable w.indirectTable)] = u at ledger ⊢
  have tableIs : u.inodeTable = w.fs.inodeTable := by rw [← afterIs]; rfl
  have own : u.ata.sectors (blockSector (w.slot index 6)) = encodeTable w.indirectTable := by
    rw [← afterIs]
    simp [SimpleFs.logged]
  have places : ∀ k, k < slotLimit → u.slot index k = w.slot index k := by
    intro k small
    have valid : (w.fs.inodeTable.get index).indirectBlock ≠ invalidBlock := by
      rw [sixIs]; exact ne_invalidBlock (ledger.fresh _ member).1
    unfold SimpleFs.slot slotBlock tableOf
    rw [tableIs, if_neg valid, sixIs, own, decodeTable_encodeTable]
    unfold Rewrite.slot
    split
    · rfl
    · split <;> simp
  refine ⟨ledger, ?_, ?_, ?_, ?_, done.count, ?_, ?_, ?_, ?_⟩
  · rw [← afterIs]; exact done.frame.trans ⟨rfl, rfl, rfl, rfl, rfl, rfl, id⟩
  · rw [← afterIs]; exact done.exhausted
  · rw [tableIs]; exact done.table
  · rw [tableIs]; exact done.inode
  · intro k small
    rw [places k (by omega)]
    exact done.filled k small
  · intro k high small
    rw [places k small]
    exact done.vacant k high small
  · intro k l smallK smallL same
    rw [places k (by omega), places l (by omega)] at same
    exact done.injective k l smallK smallL same
  · intro l small
    have early := Progress.dataSlot_lt small
    rw [places _ (Nat.lt_of_lt_of_le early bound), ← done.content l small, ← afterIs]
    -- The table goes to the indirect block, which holds no data.
    have apart : w.slot index (dataSlot l) ≠ w.slot index 6 := by
      intro same
      have := done.injective _ _ early (by omega) same
      unfold dataSlot at this
      split at this <;> omega
    have away := blockSector_ne (done.ledger.fresh _ (done.filled _ early)).1
      (done.ledger.fresh _ member).1 apart
    simp [SimpleFs.logged, Ata.store_ne _ _ away]

/-- Placing the table and the metadata completes a rewrite that found all its blocks. -/
theorem rewriteCommit_sound (sound : f.ata.Sound) (geometry : Geometry f.infoBlock)
    (fits : size ≤ maxFileSize) (done : Progress f index data size (blocksOf size) taken log w) :
    ∃ log' u, Stored f index data size taken log' u ∧
      rewriteCommit index size w = writeMetadata (u.withInode index
        { u.inodeTable.get index with size := UInt32.ofNat size }) := by
  -- With more than six blocks the indirect table is written too.
  unfold rewriteCommit
  by_cases many : 6 < blocksOf size
  · have held : w.slot index 6 ∈ taken := done.filled 6 (by unfold slotCount; split <;> omega)
    have sixIs : (w.fs.inodeTable.get index).indirectBlock = w.slot index 6 := by
      simp [Rewrite.slot]
    have valid : w.slot index 6 ≠ invalidBlock := ne_invalidBlock (done.ledger.fresh _ held).1
    obtain ⟨write, ledger⟩ := done.ledger.write geometry (done.ledger.sound sound).answers held
      (encodeTable w.indirectTable)
    refine ⟨_, _, done.stored_indirect many fits ledger, ?_⟩
    simp only [done.needs, many, decide_true, if_true, writeIndirectBlock, sixIs, valid, if_false,
      write]
  · refine ⟨_, _, done.stored_direct many, ?_⟩
    simp only [done.needs, many, decide_false, Bool.false_eq_true, if_false]

/-- The state after an inode was given back, as the rest of the rewrite sees it. -/
structure Freed (s : SimpleFs) (index : Nat) (f : SimpleFs) : Prop where
  is : f = freeInodeBlocks index s
  ata : s.ata.Extends [] f.ata
  info : f.infoBlock = { s.infoBlock with dataBitmap := f.infoBlock.dataBitmap }
  table : f.inodeTable = s.inodeTable.set index (emptied (s.inodeTable.get index))
  frame : Frame s f
  exhausted : f.blocksExhausted = s.blocksExhausted
  marks : ∀ b, f.marked b = true ↔ s.marked b = true ∧
    ∀ k, k < slotLimit → s.slot index k ≠ invalidBlock → (s.slot index k).toNat ≠ b

/-- Freeing an inode, seen from the state it leads to. -/
theorem Freed.of (sound : s.ata.Sound) (geometry : Geometry s.infoBlock)
    (inside : ∀ k, k < slotLimit → s.slot index k ≠ invalidBlock →
      (s.slot index k).toNat < dataBlocks) :
    Freed s index (freeInodeBlocks index s) := by
  -- Freeing reads the indirect table and clears marks in memory.
  obtain ⟨transfers, bitmap, result, marks⟩ := freeInodeBlocks_sound sound geometry inside
  rw [result]
  exact ⟨result.symm, Ata.Extends.afterReads _ transfers, rfl, rfl,
    ⟨rfl, rfl, rfl, rfl, rfl, rfl, id⟩, rfl, marks⟩

namespace Freed

variable (freed : Freed s index f)
include freed

/-- The disk stays sound. -/
theorem sound (sound : s.ata.Sound) : f.ata.Sound := freed.ata.sound sound

/-- The layout parameters stay the fixed ones. -/
theorem geometry (geometry : Geometry s.infoBlock) : Geometry f.infoBlock := by
  rw [freed.info]
  exact geometry.congr rfl rfl rfl

/-- The record of the inode is emptied. -/
theorem inode (inTable : index < maxInodes) :
    f.inodeTable.get index = emptied (s.inodeTable.get index) := by
  rw [freed.table, get_set_inode _ _ inTable]

/-- Blocks handed out after the inode was given back are spare ones. -/
theorem spare {u : SimpleFs} (inTable : index < maxInodes) (used : s.inodeUsed index = true)
    (ledger : Ledger f taken log u) {block : UInt32} (member : block ∈ taken) :
    s.Spare index block :=
  -- The ledger hands out blocks that were free after the inode gave back its own.
  spare_of_freed inTable used freed.marks (ledger.fresh block member).1 (ledger.fresh block member).2

end Freed

/-- A block whose mark was not the inode's own keeps it while blocks are handed out. -/
theorem Freed.spared {u : SimpleFs} (freed : Freed s index f) (inTable : index < maxInodes)
    (used : s.inodeUsed index = true) (ledger : Ledger f taken log u)
    {b : Nat} (inside : b < dataBlocks) (marked : s.marked b = true)
    (foreign : ∀ k, s.Holds index k → (s.slot index k).toNat ≠ b) :
    f.marked b = true ∧ u.marked b = true := by
  -- Its mark survived the freeing and the handing out.
  have before : f.marked b = true := (freed.marks b).mpr
    ⟨marked, fun k small held => foreign k ⟨inTable, used, small, held⟩⟩
  exact ⟨before, (ledger.marks b inside).mpr (Or.inl before)⟩

/-- Every block handed out has a place of the inode. -/
theorem Stored.place {u : SimpleFs} (stored : Stored f index data size taken log u)
    {block : UInt32} (member : block ∈ taken) : ∃ k, k < need size ∧ u.slot index k = block := by
  -- The places are as many as the blocks, and all different.
  have nodup : ((List.range (need size)).map (u.slot index)).Nodup := by
    refine List.Nodup.map_on (fun k small l small' same => ?_) List.nodup_range
    exact stored.injective k l (List.mem_range.mp small) (List.mem_range.mp small') same
  have inside : (List.range (need size)).map (u.slot index) ⊆ taken := by
    intro b held
    obtain ⟨k, small, rfl⟩ := List.mem_map.mp held
    exact stored.filled k (List.mem_range.mp small)
  have perm : ((List.range (need size)).map (u.slot index)).Perm taken := by
    refine (List.subperm_of_subset nodup inside).perm_of_length_le ?_
    rw [List.length_map, List.length_range, stored.count]
  obtain ⟨k, small, same⟩ := List.mem_map.mp (perm.mem_iff.mpr member)
  exact ⟨k, List.mem_range.mp small, same⟩

/-- A rewrite that found all its blocks leaves the inode filled. -/
theorem Stored.finish (freed : Freed s index f) {u : SimpleFs}
    (stored : Stored f index data size taken log u) (inTable : index < maxInodes)
    (used : s.inodeUsed index = true) (fits : size ≤ maxFileSize) :
    let v := u.withInode index { u.inodeTable.get index with size := UInt32.ofNat size }
    let t := v.logged (metadataLog v.infoBlock v.inodeTable)
    Rewritten s index log t ∧ Filled index data size t ∧
      t.blocksExhausted = s.blocksExhausted ∧ t.freeBlocks + need size = s.capacity index := by
  intro v t
  have inodeIs : t.inodeTable.get index =
      { u.inodeTable.get index with size := UInt32.ofNat size } :=
    get_set_inode _ _ inTable
  have full : ∀ k, k < slotLimit → u.slot index k ≠ invalidBlock → k < need size := by
    intro k small held
    by_contra past
    exact held (stored.vacant k (by omega) small)
  have inside : ∀ k, k < need size → (u.slot index k).toNat < dataBlocks :=
    fun k small => (stored.ledger.fresh _ (stored.filled k small)).1
  have places : ∀ k, t.slot index k = u.slot index k := by
    intro k
    unfold SimpleFs.slot
    rw [inodeIs]
    refine slotBlock_metadataLog u.ata.sectors _ _ (fun held => ?_) k
    have sixIs : u.slot index 6 = (u.inodeTable.get index).indirectBlock := by
      simp [SimpleFs.slot, slotBlock]
    have := inside 6 (full 6 (by decide) (by rw [sixIs]; exact held))
    rwa [sixIs] at this
  have infoIs : t.infoBlock = { s.infoBlock with dataBitmap := t.infoBlock.dataBitmap } := by
    change u.infoBlock = _
    rw [stored.ledger.info, freed.info]
    rfl
  have tableIs : t.inodeTable = s.inodeTable.set index (t.inodeTable.get index) := by
    rw [inodeIs]
    simp only [t, v, SimpleFs.logged, SimpleFs.withInode]
    rw [stored.table, freed.table, FixedArray.set_set, FixedArray.set_set,
      get_set_inode _ _ inTable]
  have type : (t.inodeTable.get index).type = (s.inodeTable.get index).type := by
    rw [inodeIs, stored.inode, freed.inode inTable]
    simp only [emptied]
  have filled : Filled index data size t := by
    refine ⟨?_, ?_, ?_, ?_⟩
    · rw [inodeIs]
    · intro k small
      rw [places]
      exact ne_invalidBlock (inside k small)
    · intro k high small
      rw [places]
      exact stored.vacant k high small
    · intro l small
      rw [places, ← stored.content l small]
      exact applyWrites_metadataLog _ _ _ (inside _ (Progress.dataSlot_lt small))
  refine ⟨⟨Effect.of_set ?_ (Or.inl rfl) ?_ infoIs tableIs type ?_ ?_ ?_ ?_
    (fun _ => filled.shapedAt fits) ?_, type, ?_, ?_⟩, filled, ?_, ?_⟩
  · -- The frees only read; the data and then the metadata are written.
    have data : f.ata.Extends log u.ata := by
      rw [stored.ledger.ata]; exact Ata.Extends.wrote _ _
    exact (freed.ata.trans data).trans (Ata.Extends.wrote _ _)
  · exact (freed.frame.trans stored.frame).trans ⟨rfl, rfl, rfl, rfl, rfl, rfl, id⟩
  · intro entry member
    obtain ⟨block, held, target⟩ := stored.ledger.targets entry member
    exact ⟨block, freed.spare inTable used stored.ledger held, target⟩
  · intro b small marked foreign
    exact (freed.spared inTable used stored.ledger small marked foreign).2
  · rintro k ⟨-, -, small, held⟩
    rw [places] at held ⊢
    have member := stored.filled k (full k small held)
    refine ⟨freed.spare inTable used stored.ledger member, ?_⟩
    exact (stored.ledger.marks _ (stored.ledger.fresh _ member).1).mpr (Or.inr ⟨_, member, rfl⟩)
  · rintro k l ⟨-, -, smallK, heldK⟩ ⟨-, -, smallL, heldL⟩ same
    rw [places] at heldK heldL
    rw [places, places] at same
    exact stored.injective k l (full k smallK heldK) (full l smallL heldL) same
  · intro _ b small marked
    rcases (stored.ledger.marks b small).mp marked with before | ⟨block, member, rfl⟩
    · obtain ⟨old, foreign⟩ := (freed.marks b).mp before
      exact Or.inr ⟨old, fun k holds => foreign k holds.2.2.1 holds.2.2.2⟩
    · -- A block handed out was given a place.
      obtain ⟨k, low, same⟩ := stored.place member
      have usedT : t.inodeUsed index = true := by
        unfold SimpleFs.inodeUsed at used ⊢
        rw [infoIs]
        exact used
      have within : k < slotLimit := Nat.lt_of_lt_of_le low (need_le fits)
      refine Or.inl ⟨k, ⟨inTable, usedT, within, ?_⟩, ?_⟩
      · rw [places]
        exact ne_invalidBlock (inside k low)
      · rw [places, same]
  · rw [inodeIs, stored.inode, freed.inode inTable]
    simp only [emptied]
  · rw [infoIs]
  · exact stored.exhausted.trans freed.exhausted
  · rw [← stored.count, SimpleFs.capacity, ← freed.is]
    exact stored.ledger.freeBlocks_add

/-- The way out of a rewrite that gave up frees what the inode names, and stores the metadata. -/
theorem Stuck.failed (sound : f.ata.Sound) (geometry : Geometry f.infoBlock)
    (stuck : Stuck f index size taken log w) :
    ∃ g, Freed w.fs index g ∧
      rewriteFailed index w.fs = g.logged (metadataLog g.infoBlock g.inodeTable) := by
  -- Every place names a block handed out, so freeing is in range.
  have inside : ∀ k, k < slotLimit → w.fs.slot index k ≠ invalidBlock →
      (w.fs.slot index k).toNat < dataBlocks :=
    fun k small held => (stuck.ledger.fresh _ (stuck.places k small held)).1
  have soundW := stuck.ledger.sound sound
  have geometryW := stuck.ledger.geometry geometry
  have back := Freed.of soundW geometryW inside
  generalize freeInodeBlocks index w.fs = g at back
  have soundG := back.sound soundW
  refine ⟨g, back, ?_⟩
  unfold rewriteFailed
  simp only [← back.is, writeInfoBlock_sound soundG]
  rw [writeInodeTable_sound (s := g.logged _) (Sound.wrote soundG _) (back.geometry geometryW),
    SimpleFs.logged_logged]
  rfl

/-- A rewrite that ran out leaves the inode without blocks, on disk too. -/
theorem Stuck.finish (sound : s.ata.Sound) (geometry : Geometry s.infoBlock)
    (freed : Freed s index f) (stuck : Stuck f index size taken log w)
    (inTable : index < maxInodes) (used : s.inodeUsed index = true) :
    Rewritten s index log (rewriteFailed index w.fs) ∧
      (rewriteFailed index w.fs).inodeTable.get index = emptied (s.inodeTable.get index) ∧
      (rewriteFailed index w.fs).blocksExhausted = true := by
  obtain ⟨g, back, result⟩ := stuck.failed (freed.sound sound) (freed.geometry geometry)
  rw [result]
  have inodeIs : g.inodeTable.get index = emptied (s.inodeTable.get index) := by
    rw [back.inode inTable, stuck.inode, freed.inode inTable]
    rfl
  have places : ∀ k, k < slotLimit → (g.logged (metadataLog g.infoBlock g.inodeTable)).slot
      index k = invalidBlock := by
    intro k small
    simp only [slotLimit] at small
    unfold SimpleFs.slot slotBlock tableOf
    simp only [SimpleFs.logged, inodeIs, emptied, if_true]
    split
    · exact FixedArray.get_fill _ (by assumption)
    · split
      · rfl
      · exact FixedArray.get_fill _ (by omega)
  have vacant : ∀ k, ¬ (g.logged (metadataLog g.infoBlock g.inodeTable)).Holds index k :=
    fun k holds => holds.2.2.2 (places k holds.2.2.1)
  have infoIs : g.infoBlock = { s.infoBlock with dataBitmap := g.infoBlock.dataBitmap } := by
    rw [back.info, stuck.ledger.info, freed.info]
  have tableIs : g.inodeTable = s.inodeTable.set index (g.inodeTable.get index) := by
    rw [back.inode inTable, back.table, stuck.table, freed.table, FixedArray.set_set,
      FixedArray.set_set, get_set_inode _ _ inTable]
  have type : (g.inodeTable.get index).type = (s.inodeTable.get index).type := by
    rw [inodeIs, emptied]
  refine ⟨⟨Effect.of_set ?_ (Or.inl rfl) ?_ infoIs tableIs type ?_ ?_
    (fun k holds => absurd holds (vacant k)) (fun k l holds => absurd holds (vacant k)) ?_
    (fun clear => ?_), type, ?_, ?_⟩, inodeIs, ?_⟩
  · -- Both frees only read; between them blocks were filled, and at the end the metadata.
    have data : f.ata.Extends log w.fs.ata := by
      rw [stuck.ledger.ata]; exact Ata.Extends.wrote _ _
    have all := ((freed.ata.trans data).trans back.ata).trans
      (Ata.Extends.wrote g.ata (metadataLog g.infoBlock g.inodeTable))
    rwa [List.nil_append, List.append_nil] at all
  · exact ((freed.frame.trans stuck.frame).trans back.frame).trans ⟨rfl, rfl, rfl, rfl, rfl, rfl, id⟩
  · intro entry member
    obtain ⟨block, held, target⟩ := stuck.ledger.targets entry member
    exact ⟨block, freed.spare inTable used stuck.ledger held, target⟩
  · intro b small marked foreign
    obtain ⟨before, after⟩ := freed.spared inTable used stuck.ledger small marked foreign
    refine (back.marks b).mpr ⟨after, fun k low held same => ?_⟩
    -- What is given back was handed out since, so it was not marked before.
    have := (stuck.ledger.fresh _ (stuck.places k low held)).2
    simp [same, before] at this
  · intro _
    have sized : (g.inodeTable.get index).size = 0 := by rw [inodeIs, emptied]
    constructor
    · intro _
      change (g.inodeTable.get index).size.toNat ≤ maxFileSize
      rw [sized]
      exact Nat.zero_le _
    · intro _ k small
      change _ ↔ k < need (g.inodeTable.get index).size.toNat
      rw [places k small, sized]
      simp [need, slotCount, blocksOf]
  · -- Blocks did run out.
    have exhausted : g.blocksExhausted = true := back.exhausted.trans stuck.exhausted
    change g.blocksExhausted = false at clear
    rw [exhausted] at clear
    cases clear
  · change (g.inodeTable.get index).linkCount = _
    rw [inodeIs, emptied]
  · change g.infoBlock.inodeBitmap = _
    rw [infoIs]
  · exact back.exhausted.trans stuck.exhausted

/-- Giving back the blocks of some places makes as many blocks free. -/
theorem freeBlocks_given_back (index : Nat) {places : List Nat} (nodup : places.Nodup)
    (marks : ∀ b, f.marked b = true ↔ s.marked b = true ∧
      ∀ k ∈ places, (s.slot index k).toNat ≠ b)
    (inside : ∀ k ∈ places, (s.slot index k).toNat < dataBlocks ∧
      s.marked (s.slot index k).toNat = true)
    (distinct : ∀ k ∈ places, ∀ l ∈ places, s.slot index k = s.slot index l → k = l) :
    f.freeBlocks = s.freeBlocks + places.length := by
  have blocks : (places.map fun k => (s.slot index k).toNat).Nodup :=
    List.Nodup.map_on (fun k heldK l heldL same =>
      distinct k heldK l heldL (UInt32.toNat_inj.mp same)) nodup
  have count : clearCount s.marked dataBlocks +
      (places.map fun k => (s.slot index k).toNat).toFinset.card =
        clearCount f.marked dataBlocks := by
    refine clearCount_add_card _ ?_ ?_
    · -- A block given back is in range and no longer marked.
      intro b member
      obtain ⟨k, held, rfl⟩ := List.mem_map.mp (List.mem_toFinset.mp member)
      exact ⟨(inside k held).1, Bool.eq_false_iff.mpr fun still => ((marks _).mp still).2 k held rfl⟩
    · intro b _
      rw [marks, List.mem_toFinset, List.mem_map]
      constructor
      · intro marked
        by_cases own : ∃ k ∈ places, (s.slot index k).toNat = b
        · exact Or.inr own
        · exact Or.inl ⟨marked, fun k held same => own ⟨k, held, same⟩⟩
      · rintro (⟨marked, -⟩ | ⟨k, held, rfl⟩)
        · exact marked
        · exact (inside k held).2
  rw [List.toFinset_card_of_nodup blocks, List.length_map] at count
  exact count.symm

/-- An inode gives back as many blocks as it has places filled. -/
theorem capacity_eq (sound : s.ata.Sound) (geometry : Geometry s.infoBlock)
    (inside : ∀ k, k < slotLimit → s.slot index k ≠ invalidBlock →
      (s.slot index k).toNat < dataBlocks ∧ s.marked (s.slot index k).toNat = true)
    (distinct : ∀ k l, k < slotLimit → l < slotLimit → s.slot index k ≠ invalidBlock →
      s.slot index k = s.slot index l → k = l) :
    s.capacity index = s.freeBlocks + (s.heldSlots index).length := by
  -- Distinct places hold distinct marked blocks, so as many marks go as places were filled.
  have freed := Freed.of sound geometry fun k small held => (inside k small held).1
  have places : ∀ k, k ∈ s.heldSlots index ↔ k < slotLimit ∧ s.slot index k ≠ invalidBlock := by
    intro k
    simp [SimpleFs.heldSlots]
  refine freeBlocks_given_back index (List.nodup_range.filter _) (fun b => ?_) (fun k held => ?_)
    (fun k heldK l heldL same => ?_)
  · rw [freed.marks]
    simp only [places, and_imp]
  · rw [places] at held
    exact inside k held.1 held.2
  · rw [places] at heldK heldL
    exact distinct k l heldK.1 heldL.1 heldK.2 same

/-- Under the ownership invariant, a rewrite has the free blocks and those of the inode to use. -/
theorem Owned.capacity (owned : Owned s) (sound : s.ata.Sound) (geometry : Geometry s.infoBlock)
    (inTable : index < maxInodes) (used : s.inodeUsed index = true) :
    s.capacity index = s.freeBlocks + (s.heldSlots index).length := by
  -- Ownership provides what the count asks of the places.
  refine capacity_eq sound geometry ?_ ?_
  · intro k small held
    have holds : s.Holds index k := ⟨inTable, used, small, held⟩
    exact ⟨owned.inRange index k holds, owned.isMarked index k holds⟩
  · intro k l smallK smallL held same
    have holdsK : s.Holds index k := ⟨inTable, used, smallK, held⟩
    have holdsL : s.Holds index l := ⟨inTable, used, smallL, same ▸ held⟩
    exact (owned.distinct index k index l holdsK holdsL same).2

/-- A rewrite of an inode that is not there, or beyond the largest size, changes nothing. -/
theorem writeInodeData_refused
    (refused : ¬ (index < maxInodes ∧ s.inodeUsed index = true ∧ size ≤ maxFileSize)) :
    writeInodeData index data size s = (false, s) := by
  -- The three tests of the source, negated.
  unfold writeInodeData
  rw [if_pos]
  simp only [Bool.or_eq_true, decide_eq_true_eq, Bool.not_eq_true']
  by_contra allowed
  simp only [not_or, Bool.not_eq_false] at allowed
  exact refused ⟨by omega, allowed.1.2, by omega⟩

/-- A rewrite that is not refused frees the inode and runs the block loop. -/
theorem writeInodeData_accepted (inTable : index < maxInodes) (used : s.inodeUsed index = true)
    (fits : size ≤ maxFileSize) :
    writeInodeData index data size s =
      match rewriteBlocks index data size (blocksOf size) 0
        { fs := freeInodeBlocks index s, written := 0, indirectTable := .fill invalidBlock,
          needsIndirect := false } with
      | (false, w) => (false, rewriteFailed index w.fs)
      | (true, w) => rewriteCommit index size w := by
  -- The three tests pass.
  unfold writeInodeData
  rw [if_neg]
  · rfl
  · simp only [Bool.or_eq_true, decide_eq_true_eq, Bool.not_eq_true', used]
    simp only [Bool.true_eq_false, or_false]
    omega

/-- `write_inode_data` on a sound disk stores the whole content, or is stranded on the way. -/
theorem writeInodeData_ends (data : Nat → UInt8) (sound : s.ata.Sound)
    (geometry : Geometry s.infoBlock) (inTable : index < maxInodes)
    (used : s.inodeUsed index = true) (fits : size ≤ maxFileSize)
    (freed : Freed s index f) :
    (∃ taken log u, Stored f index data size taken log u ∧
      let v := u.withInode index { u.inodeTable.get index with size := UInt32.ofNat size }
      writeInodeData index data size s =
        (true, v.logged (metadataLog v.infoBlock v.inodeTable))) ∨
    (∃ taken log w, Stranded f index size taken log w ∧
      writeInodeData index data size s = (false, rewriteFailed index w.fs)) := by
  -- The loop ends with every block placed, or gives up, and the rest follows.
  rw [writeInodeData_accepted inTable used fits, ← freed.is]
  have start : Progress f index data size 0 [] [] _ := Progress.start (freed.inode inTable)
  rcases rewriteBlocks_progress (freed.sound sound) (freed.geometry geometry) inTable fits start
      (Nat.zero_add (blocksOf size)) with
    ⟨taken, log, w, loop, done⟩ | ⟨taken, log, w, loop, stranded⟩
  · left
    obtain ⟨log', u, stored, commit⟩ :=
      rewriteCommit_sound (freed.sound sound) (freed.geometry geometry) fits done
    refine ⟨taken, log', u, stored, ?_⟩
    rw [loop]
    simp only [commit]
    exact writeMetadata_sound (s := u.withInode index _)
      (stored.ledger.sound (freed.sound sound)) (stored.ledger.geometry (freed.geometry geometry))
  · right
    refine ⟨taken, log, w, stranded, ?_⟩
    rw [loop]

/--
`write_inode_data` on a sound disk.

It fills the inode exactly when the free blocks and its own suffice, and empties it otherwise.
-/
theorem writeInodeData_sound (data : Nat → UInt8) (sound : s.ata.Sound)
    (geometry : Geometry s.infoBlock) (inTable : index < maxInodes)
    (used : s.inodeUsed index = true) (fits : size ≤ maxFileSize)
    (inside : ∀ k, k < slotLimit → s.slot index k ≠ invalidBlock →
      (s.slot index k).toNat < dataBlocks) :
    (∃ t log, writeInodeData index data size s = (true, t) ∧ Rewritten s index log t ∧
      Filled index data size t ∧ t.blocksExhausted = s.blocksExhausted ∧
      t.freeBlocks + need size = s.capacity index) ∨
    (∃ t log, writeInodeData index data size s = (false, t) ∧ Rewritten s index log t ∧
      t.inodeTable.get index = emptied (s.inodeTable.get index) ∧ t.blocksExhausted = true ∧
      s.capacity index < need size) := by
  -- The count of blocks taken decides between the two ends.
  have freed := Freed.of sound geometry inside
  rcases writeInodeData_ends data sound geometry inTable used fits freed with
    ⟨taken, log, u, stored, result⟩ | ⟨taken, log, w, stranded, result⟩
  · left
    exact ⟨_, log, result, stored.finish freed inTable used fits⟩
  · right
    obtain ⟨rewritten, empty, exhausted⟩ :=
      stranded.toStuck.finish sound geometry freed inTable used
    exact ⟨_, log, result, rewritten, empty, exhausted, stranded.shortage⟩

end Write

end MyOS.Fs
