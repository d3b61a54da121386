import MyOS.Fs.WriteLaws

/-! Allocating and releasing inodes, and changing link counts, as updates of the volume. -/

namespace MyOS.Fs

/-- A mounted volume: what `read_metadata` checks, and every block held in one place only. -/
structure Mounted (s : SimpleFs) : Prop where
  sound : s.ata.Sound
  header : headerOk s.bootBlock s.infoBlock = true
  rootUsed : s.inodeUsed rootInode = true
  rootType : (s.inodeTable.get rootInode).type = typeDirectory
  owned : Owned s

namespace Mounted

variable {s : SimpleFs}

/-- The layout parameters of a mounted volume are the fixed ones. -/
theorem geometry (mounted : Mounted s) : Geometry s.infoBlock := Geometry.of_headerOk mounted.header

/-- The blocks of an allocated inode are data blocks. -/
theorem inside (mounted : Mounted s) {index : Nat} (inTable : index < maxInodes)
    (used : s.inodeUsed index = true) :
    ∀ k, k < slotLimit → s.slot index k ≠ invalidBlock → (s.slot index k).toNat < dataBlocks :=
  -- What an allocated inode holds is in range by ownership.
  fun k small held => mounted.owned.inRange index k ⟨inTable, used, small, held⟩

/-- The blocks free to a rewrite are those nobody holds and those the inode holds. -/
theorem capacity (mounted : Mounted s) {index : Nat} (inTable : index < maxInodes)
    (used : s.inodeUsed index = true) :
    s.capacity index = s.freeBlocks + (s.heldSlots index).length :=
  -- Ownership lets the blocks of the inode be counted once.
  mounted.owned.capacity mounted.sound mounted.geometry inTable used

end Mounted

/-- A volume stays mounted through every update. -/
theorem Effect.mounted {s t : SimpleFs} {index : Nat} {body closing : List (Nat × Sector)}
    (effect : Effect s index body closing t) (mounted : Mounted s) : Mounted t := by
  -- Whether or not the update concerns the root, the root stays allocated and a directory.
  have root : t.inodeUsed rootInode = s.inodeUsed rootInode ∧
      (t.inodeTable.get rootInode).type = (s.inodeTable.get rootInode).type := by
    by_cases this : index = rootInode
    · have := this ▸ effect.root this
      exact this
    · have other : rootInode ≠ index := fun same => this same.symm
      exact ⟨effect.allocation rootInode (by decide) other, by rw [effect.others rootInode other]⟩
  refine ⟨effect.ata.sound mounted.sound, ?_, ?_, ?_, effect.owned mounted.owned⟩
  · -- The checked fields of the header are not among those an update changes.
    rw [effect.info, effect.frame.bootBlock]
    exact mounted.header
  · rw [root.1]
    exact mounted.rootUsed
  · rw [root.2]
    exact mounted.rootType

/-- An inode without pointers holds nothing. -/
theorem slotBlock_clear {inode : Inode} (direct : inode.directBlocks = .fill invalidBlock)
    (indirect : inode.indirectBlock = invalidBlock) (sectors : Nat → Sector) {k : Nat}
    (small : k < slotLimit) : slotBlock sectors inode k = invalidBlock := by
  -- Both the direct pointers and the indirect table are empty.
  simp only [slotLimit] at small
  unfold slotBlock tableOf
  rw [direct, indirect, if_pos rfl]
  split
  · exact FixedArray.get_fill _ (by assumption)
  · split
    · rfl
    · exact FixedArray.get_fill _ (by omega)

/-- The state with one inode and its bit replaced, in memory and then on disk. -/
def SimpleFs.entered (s : SimpleFs) (bitmap : FixedArray 8 UInt8) (index : Nat) (inode : Inode) :
    SimpleFs :=
  let t := (s.withInodeBitmap bitmap).withInode index inode
  t.logged (metadataLog t.infoBlock t.inodeTable)

/-- The inode that the next allocation takes: the first one that is free. -/
def SimpleFs.Fresh (s : SimpleFs) (index : Nat) : Prop :=
  s.inodeUsed index = false ∧ ∀ j, j < index → s.inodeUsed j = true

section Inodes

variable {s : SimpleFs}

/-- An allocated inode is not the next to be taken. -/
theorem SimpleFs.not_fresh {index : Nat} (used : s.inodeUsed index = true) : ¬ s.Fresh index := by
  -- The one that is next is free.
  rintro ⟨free, -⟩
  rw [used] at free
  cases free

/-- The first free inode is taken, unless all are in use. -/
theorem allocateInode_sound (mounted : Mounted s) (type : UInt8) :
    (∃ index, index < maxInodes ∧ s.Fresh index ∧ allocateInode type s =
      (some index, s.entered (bitmapSet s.infoBlock.inodeBitmap index) index (freshInode type))) ∨
    ((∀ index, index < maxInodes → s.inodeUsed index = true) ∧
      allocateInode type s = (none, s)) := by
  unfold allocateInode
  cases found : (List.range maxInodes).find? fun i => !s.inodeUsed i with
  | none =>
    -- The search saw every inode.
    right
    refine ⟨fun index small => ?_, rfl⟩
    simpa using List.find?_eq_none.mp found index (List.mem_range.mpr small)
  | some index =>
    left
    -- The search skipped the inodes before it.
    obtain ⟨free, small, before⟩ := List.find?_range_eq_some.mp found
    refine ⟨index, List.mem_range.mp small, ⟨by simpa using free, by simpa using before⟩, ?_⟩
    -- Writing the metadata back cannot fail.
    have write := writeMetadata_sound
      (s := (s.withInodeBitmap (bitmapSet s.infoBlock.inodeBitmap index)).withInode index
        (freshInode type)) mounted.sound (mounted.geometry.congr rfl rfl rfl)
    simp only [write]
    rfl

/-- Allocating an inode is an update of the volume. -/
theorem allocateInode_effect (mounted : Mounted s) {index : Nat} (type : UInt8)
    (inTable : index < maxInodes) (free : s.inodeUsed index = false) :
    let t := s.entered (bitmapSet s.infoBlock.inodeBitmap index) index (freshInode type)
    Effect s index [] (metadataLog t.infoBlock t.inodeTable) t ∧ t.inodeUsed index = true ∧
      t.inodeTable.get index = freshInode type := by
  intro t
  have inByte : index / 8 < 8 := by simp only [maxInodes] at inTable; omega
  have bits : ∀ j, t.inodeUsed j = (decide (index = j) || s.inodeUsed j) :=
    fun j => bitmapTest_bitmapSet _ _ inByte
  have inodeIs : t.inodeTable.get index = freshInode type := get_set_inode _ _ inTable
  have used : t.inodeUsed index = true := by simp [bits]
  -- A fresh inode holds nothing.
  have empty : ∀ k, k < slotLimit → t.slot index k = invalidBlock := by
    intro k small
    rw [SimpleFs.slot, inodeIs]
    exact slotBlock_clear rfl rfl _ small
  have nothing : ∀ k, ¬ t.Holds index k := fun k holds => holds.2.2.2 (empty k holds.2.2.1)
  refine ⟨⟨Ata.Extends.wrote _ _, Or.inl rfl, ⟨rfl, rfl, rfl, rfl, rfl, rfl, id⟩, rfl, ?_, ?_, ?_, ?_,
    ?_, ?_, ?_, ?_, ?_⟩, used, inodeIs⟩
  · intro j other
    exact FixedArray.get_set_ne _ _ other
  · intro j _ other
    rw [bits, decide_eq_false (Ne.symm other), Bool.false_or]
  · -- The root is in use already, so it is not the inode handed out.
    rintro rfl
    rw [mounted.rootUsed] at free
    cases free
  · intro entry member
    cases member
  · intro b _ marked _
    exact marked
  · intro k holds
    exact absurd holds (nothing k)
  · intro k l holds
    exact absurd holds (nothing k)
  · intro _
    have sized : (t.inodeTable.get index).size = 0 := by rw [inodeIs]; rfl
    constructor
    · intro _
      rw [sized]
      exact Nat.zero_le _
    · intro _ k small
      rw [empty k small, sized]
      simp [need, slotCount, blocksOf]
  · intro _ b _ marked
    refine Or.inr ⟨marked, fun k holds => ?_⟩
    have usedBefore := holds.2.1
    rw [free] at usedBefore
    cases usedBefore

/-- Releasing an inode other than the root frees it and its blocks. -/
theorem releaseInode_sound (mounted : Mounted s) {index : Nat} (inTable : index < maxInodes)
    (used : s.inodeUsed index = true) (notRoot : index ≠ rootInode) :
    ∃ t, releaseInode index s = (true, t) ∧
      Effect s index [] (metadataLog t.infoBlock t.inodeTable) t ∧
      t.inodeUsed index = false ∧ t.blocksExhausted = s.blocksExhausted := by
  -- The blocks are freed first, then the record is cleared and the mark of the inode taken away.
  have freed := Freed.of mounted.sound mounted.geometry (mounted.inside inTable used)
  generalize freeInodeBlocks index s = f at freed
  have inByte : index / 8 < 8 := by simp only [maxInodes] at inTable; omega
  let t := f.entered (bitmapClear f.infoBlock.inodeBitmap index) index Inode.zero
  have result : releaseInode index s = (true, t) := by
    unfold releaseInode
    rw [if_neg (by simp [used, notRoot]; omega)]
    simp only [← freed.is]
    exact writeMetadata_sound (s := (f.withInode index Inode.zero).withInodeBitmap _)
      (freed.sound mounted.sound) ((freed.geometry mounted.geometry).congr rfl rfl rfl)
  have sameBitmap : f.infoBlock.inodeBitmap = s.infoBlock.inodeBitmap := by rw [freed.info]
  have bits : ∀ j, t.inodeUsed j = (!decide (index = j) && s.inodeUsed j) := by
    intro j
    have := bitmapTest_bitmapClear f.infoBlock.inodeBitmap j inByte
    rw [sameBitmap] at this
    exact (congrArg (bitmapTest · j) (by rw [← sameBitmap]; rfl)).trans this
  have free : t.inodeUsed index = false := by simp [bits]
  have nothing : ∀ k, ¬ t.Holds index k := by
    rintro k ⟨-, still, -⟩
    rw [free] at still
    cases still
  refine ⟨t, result, ⟨?_, Or.inl rfl, ?_, ?_, ?_, ?_, ?_, ?_, ?_, ?_, ?_, ?_, ?_⟩, free,
    freed.exhausted⟩
  · exact freed.ata.trans (Ata.Extends.wrote _ _)
  · exact freed.frame.trans ⟨rfl, rfl, rfl, rfl, rfl, rfl, id⟩
  · have infoIs : t.infoBlock = { f.infoBlock with
        inodeBitmap := bitmapClear f.infoBlock.inodeBitmap index } := rfl
    rw [infoIs, freed.info]
  · intro j other
    change (f.inodeTable.set index Inode.zero).get j = _
    rw [freed.table, FixedArray.set_set, FixedArray.get_set_ne _ _ other]
  · intro j _ other
    rw [bits, decide_eq_false (Ne.symm other), Bool.not_false, Bool.true_and]
  · intro root
    exact absurd root notRoot
  · intro entry member
    cases member
  · intro b _ marked foreign
    refine (freed.marks b).mpr ⟨marked, fun k small held => ?_⟩
    exact foreign k ⟨inTable, used, small, held⟩
  · intro k holds
    exact absurd holds (nothing k)
  · intro k l holds
    exact absurd holds (nothing k)
  · intro _
    constructor
    · intro still
      rw [free] at still
      cases still
    · intro still
      rw [free] at still
      cases still
  · intro _ b _ marked
    obtain ⟨before, foreign⟩ := (freed.marks b).mp marked
    exact Or.inr ⟨before, fun k holds => foreign k holds.2.2.1 holds.2.2.2⟩

/-- An inode that is not there, and the root, are never released. -/
theorem releaseInode_refused {index : Nat}
    (refused : ¬ (index < maxInodes ∧ s.inodeUsed index = true ∧ index ≠ rootInode)) :
    releaseInode index s = (false, s) := by
  -- The three tests of the source, negated.
  unfold releaseInode
  rw [if_pos]
  simp only [Bool.or_eq_true, decide_eq_true_eq, Bool.not_eq_true', beq_iff_eq]
  by_contra allowed
  simp only [not_or, Bool.not_eq_false] at allowed
  exact refused ⟨by omega, allowed.1.2, allowed.2⟩

/-- Storing another link count is an update of the volume. -/
theorem linkCount_effect (mounted : Mounted s) {index : Nat} (inTable : index < maxInodes)
    (count : UInt16) :
    let u := s.withInode index { s.inodeTable.get index with linkCount := count }
    let t := u.logged (tableLog u.inodeTable)
    writeInodeTable u = (true, t) ∧ Effect s index [] (tableLog t.inodeTable) t := by
  intro u t
  have inodeIs : t.inodeTable.get index = { s.inodeTable.get index with linkCount := count } :=
    get_set_inode _ _ inTable
  -- The pointers are the same, and the table of further blocks is not where inodes are stored.
  have slots : s.inodeUsed index = true → ∀ k, t.slot index k = s.slot index k := by
    intro used k
    unfold SimpleFs.slot
    rw [inodeIs]
    refine slotBlock_congr (fun held => Ata.applyWrites_other fun entry member same => ?_) k
    have inside := mounted.inside inTable used 6 (by decide) (by rw [slot_six]; exact held)
    have low := metadataLog_lt (List.mem_cons_of_mem (4097, s.infoBlock.encode) member)
    rw [slot_six] at inside
    rw [blockSector_eq inside] at same
    omega
  have holds : ∀ k, t.Holds index k → s.Holds index k := by
    rintro k ⟨_, used, small, held⟩
    rw [slots used] at held
    exact ⟨inTable, used, small, held⟩
  refine ⟨writeInodeTable_sound (s := u) mounted.sound mounted.geometry,
    Effect.of_set (Ata.Extends.wrote _ _) (Or.inr ⟨rfl, rfl⟩) ⟨rfl, rfl, rfl, rfl, rfl, rfl, id⟩ rfl ?_ ?_
      ?_ ?_ ?_ ?_ ?_ ?_⟩
  · rw [inodeIs]
    rfl
  · rw [inodeIs]
  · intro entry member
    cases member
  · intro b _ marked _
    exact marked
  · intro k held
    have before := holds k held
    rw [slots before.2.1]
    exact ⟨⟨mounted.owned.inRange index k before, fun _ => ⟨k, before, rfl⟩⟩,
      mounted.owned.isMarked index k before⟩
  · intro k l heldK heldL same
    have beforeK := holds k heldK
    rw [slots beforeK.2.1, slots beforeK.2.1] at same
    exact (mounted.owned.distinct index k index l beforeK (holds l heldL) same).2
  · intro shaped
    constructor
    · intro used
      rw [inodeIs]
      exact shaped.size used
    · intro used k small
      rw [slots used, inodeIs]
      exact shaped.places used k small
  · intro _ b _ marked
    by_cases own : ∃ k, s.Holds index k ∧ (s.slot index k).toNat = b
    · obtain ⟨k, ⟨inTable, used, small, held⟩, same⟩ := own
      refine Or.inl ⟨k, ⟨inTable, used, small, ?_⟩, ?_⟩
      · rw [slots used]
        exact held
      · rw [slots used, same]
    · exact Or.inr ⟨marked, fun k holds same => own ⟨k, holds, same⟩⟩

end Inodes

end MyOS.Fs
