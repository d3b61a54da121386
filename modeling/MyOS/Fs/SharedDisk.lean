import MyOS.Fs.Refinement
import MyOS.Fs.Sessions

/-!
A volume on a disk that holds other things too: where its calls write, and what they depend on.
-/

namespace MyOS.Fs

/-- Two disks differ at most in the sectors of the volume. -/
abbrev VolumeOnly (a b : Ata) : Prop := Ata.Within 4096 6154 a b

/-- A disk holds what another one holds in the sectors of the volume. -/
structure SameVolume (a b : Ata) : Prop where
  sound : b.Sound
  sectors : ∀ lba, 4096 ≤ lba → lba < 6154 → b.sectors lba = a.sectors lba

section Writes

variable {touched rewritten : Nat → Prop} {s t : SimpleFs} {index : Nat}
  {body closing : List (Nat × Sector)}

/-- The sectors that metadata and data can be in. -/
theorem blockSector_within {block : UInt32} (inside : block.toNat < dataBlocks) :
    4096 ≤ blockSector block ∧ blockSector block < 6154 := by
  -- The block number is below 2048, so the sector lies behind the metadata.
  rw [blockSector_eq inside]
  simp only [dataBlocks] at inside
  omega

/-- An update writes data to blocks that are spare, and metadata in front of them. -/
theorem Effect.volumeOnly (effect : Effect s index body closing t) : VolumeOnly s.ata t.ata := by
  -- Every target is a data block or a sector of the metadata.
  apply Ata.Within.ofExtends effect.ata
  intro entry member
  rcases List.mem_append.mp member with written | written
  · obtain ⟨block, spare, target⟩ := effect.targets entry written
    rw [target]
    exact blockSector_within spare.1
  · have := metadataLog_lt (effect.closing_mem written)
    omega

/-- A whole operation writes nothing but the volume. -/
theorem Moves.volumeOnly (moves : Moves touched rewritten s t) : VolumeOnly s.ata t.ata := by
  -- By induction on the updates it is a chain of.
  induction moves with
  | refl => exact Ata.Within.refl _
  | tail _ move ih =>
    apply ih.trans
    rcases move with quiet | ⟨_, _, _, _, _, effect, _⟩
    · exact Ata.Within.ofExtends quiet.ata (by simp)
    · exact effect.volumeOnly

/-- Formatting leaves the disk as giving the laid-out volume its root directory does. -/
theorem simplefsFormat_ata (sound : s.ata.Sound) :
    (simplefsFormat s).2.ata = (initDirectoryFile rootInode rootInode s.laidOut).2.ata := by
  generalize start : ({ s with
    bootBlock := formatBootBlock
    infoBlock := formatInfoBlock
    inodeTable := formatInodeTable
    blocksExhausted := false } : SimpleFs) = u
  have soundU : u.ata.Sound := by
    rw [← start]
    exact sound
  -- The boot block goes out first, and then the metadata.
  have boot : writeBootBlock u = (true, u.logged [(4096, formatBootBlock.encode)]) := by
    have place : lba28 bootLba = 4096 := by decide
    have bootBlock : u.bootBlock = formatBootBlock := by rw [← start]
    simp [writeBootBlock, Ata.writeSectors, soundU.ready, Ata.writeLoop_sound soundU, place,
      SimpleFs.logged, bootBlock]
  have metadata : writeMetadata (u.logged [(4096, formatBootBlock.encode)]) = (true, s.laidOut) := by
    have geometry : Geometry (u.logged [(4096, formatBootBlock.encode)]).infoBlock := by
      rw [← start]
      exact Geometry.of_headerOk headerOk_format
    rw [writeMetadata_sound (Sound.wrote soundU _) geometry, SimpleFs.logged_logged, ← start]
    rfl
  unfold simplefsFormat
  rw [if_neg (by simp [sound.ready])]
  simp only [start, boot, metadata]
  generalize initDirectoryFile rootInode rootInode s.laidOut = result
  obtain ⟨done, t⟩ := result
  cases done <;> rfl

/-- So formatting writes nothing but the volume. -/
theorem simplefsFormat_volumeOnly (sound : s.ata.Sound) :
    VolumeOnly s.ata (simplefsFormat s).2.ata := by
  have layout : VolumeOnly s.ata s.laidOut.ata := by
    apply Ata.Within.ofExtends (Ata.Extends.wrote s.ata _)
    intro entry member
    rcases List.mem_cons.mp member with rfl | member
    · simp
    · have := metadataLog_lt member
      omega
  -- The entries of the root go to a block of it.
  have scratch : Quiet s.laidOut
      (s.laidOut.scanned s.laidOut.ata.transfers (dotEntries rootInode rootInode)) := .scanned _ _ _
  have fills : Moves (fun _ => True) (fun _ => True) _
      (initDirectoryFile rootInode rootInode s.laidOut).2 :=
    writeInodeData_moves (scratch.mounted (laidOut_healthy sound).mounted) trivial trivial _ _
  rw [simplefsFormat_ata sound]
  exact layout.trans fills.volumeOnly

end Writes

/-- What a call leaves: the rest of the disk as it was, and a volume, if one is mounted. -/
structure Served (s t : SimpleFs) : Prop where
  disk : VolumeOnly s.ata t.ata
  volume : t.fsMounted = true → Healthy t

namespace Served

variable {s t : SimpleFs}

/-- A call that only reads the volume. -/
theorem quiet (healthy : Healthy s) (quiet : Quiet s t) : Served s t := by
  have moves : Moves (fun _ => False) (fun _ => False) s t := Moves.quiet quiet
  exact ⟨moves.volumeOnly, fun _ => moves.healthy healthy⟩

/-- A call on files, for which a volume is needed. -/
theorem call (healthy : Healthy s) (call : FsCall) : Served s (fsStep s call).2 := by
  have moves := fsStep_moves healthy.mounted call
  exact ⟨moves.volumeOnly, fun _ => moves.healthy healthy⟩

/-- A file is closed with or without a volume. -/
theorem close (volume : s.fsMounted = true → Healthy s) (fd : Int) :
    Served s (fsStep s (.close fd)).2 := by
  have quiet : Quiet s (fsStep s (.close fd)).2 := simplefsClose_quiet s fd
  have moves : Moves (fun _ => False) (fun _ => False) s (fsStep s (.close fd)).2 := Moves.quiet quiet
  refine ⟨moves.volumeOnly, fun mounted => moves.healthy (volume ?_)⟩
  -- Closing a file mounts nothing.
  have same : (simplefsClose fd s).2.fsMounted = s.fsMounted := by
    unfold simplefsClose
    split <;> rfl
  exact same.symm.trans mounted

/-- Formatting makes a volume on any sound disk. -/
theorem format (sound : s.ata.Sound) : Served s (simplefsFormat s).2 := by
  -- Formatting writes in the volume only, and its result is healthy.
  obtain ⟨t, format, formatted⟩ := simplefsFormat_sound sound
  refine ⟨simplefsFormat_volumeOnly sound, fun _ => ?_⟩
  rw [format]
  exact formatted.healthy

/-- The names in the working directory are looked up. -/
theorem list (volume : s.fsMounted = true → Healthy s) : Served s (simplefsList s).2 := by
  -- On a volume not mounted the call returns at once.
  cases mounted : s.fsMounted with
  | true => exact .quiet (volume mounted) (simplefsList_alike (volume mounted).mounted).quiet
  | false =>
    have same : simplefsList s = (none, s) := by
      unfold simplefsList
      rw [if_pos (by simp [mounted])]
    rw [same]
    exact ⟨Ata.Within.refl _, volume⟩

/-- The path of the working directory is looked up. -/
theorem printWorkingDirectory (volume : s.fsMounted = true → Healthy s) :
    Served s (((simplefsPrintWorkingDirectory s).map Prod.snd).getD s) := by
  -- On a volume not mounted the call returns at once.
  cases mounted : s.fsMounted with
  | true =>
    exact .quiet (volume mounted) (simplefsPrintWorkingDirectory_alike (volume mounted).mounted).quiet
  | false =>
    have same : simplefsPrintWorkingDirectory s = some ([], s) := by
      unfold simplefsPrintWorkingDirectory
      rw [if_pos (by simp [mounted])]
    rw [same]
    exact ⟨Ata.Within.refl _, volume⟩

end Served

/-- A volume in a state of the file system, on another disk. -/
def SimpleFs.on (s : SimpleFs) (disk : Ata) : SimpleFs := { s with ata := disk }

section Elsewhere

variable {s : SimpleFs} {disk : Ata} {i dir : Nat}

/-- An allocated inode has its blocks in the same places. -/
theorem Owned.slot_on (owned : Owned s) (same : SameVolume s.ata disk) (inTable : i < maxInodes)
    (used : s.inodeUsed i = true) (k : Nat) : (s.on disk).slot i k = s.slot i k := by
  apply slotBlock_congr
  intro held
  -- The table of further blocks lies in a block that the inode holds.
  have holds : s.Holds i 6 := ⟨inTable, used, by decide, by rw [slot_six]; exact held⟩
  have inside := blockSector_within (owned.inRange i 6 holds)
  rw [slot_six] at inside
  exact same.sectors _ inside.1 inside.2

/-- Who holds which place is the same on a disk with the same volume. -/
theorem Owned.holds_on (owned : Owned s) (same : SameVolume s.ata disk) (i k : Nat) :
    (s.on disk).Holds i k ↔ s.Holds i k := by
  -- Allocation and places agree in both directions.
  constructor
  · rintro ⟨inTable, used, small, held⟩
    rw [owned.slot_on same inTable used] at held
    exact ⟨inTable, used, small, held⟩
  · rintro ⟨inTable, used, small, held⟩
    refine ⟨inTable, used, small, ?_⟩
    rw [owned.slot_on same inTable used]
    exact held

/-- Who holds which block is the same. -/
theorem Owned.on (owned : Owned s) (same : SameVolume s.ata disk) : Owned (s.on disk) := by
  -- Each clause is carried over by the places, which are the same.
  have before : ∀ {i k}, (s.on disk).Holds i k → s.Holds i k ∧ (s.on disk).slot i k = s.slot i k := by
    intro i k holds
    have holds' := (owned.holds_on same i k).mp holds
    exact ⟨holds', owned.slot_on same holds'.1 holds'.2.1 k⟩
  constructor
  · intro i k holds
    rw [(before holds).2]
    exact owned.inRange i k (before holds).1
  · intro i k holds
    rw [(before holds).2]
    exact owned.isMarked i k (before holds).1
  · intro i k j l holds holds' alike
    rw [(before holds).2, (before holds').2] at alike
    exact owned.distinct i k j l (before holds).1 (before holds').1 alike

/-- A volume is mounted as it was. -/
theorem Mounted.on (mounted : Mounted s) (same : SameVolume s.ata disk) : Mounted (s.on disk) :=
  ⟨same.sound, mounted.header, mounted.rootUsed, mounted.rootType, mounted.owned.on same⟩

/-- An inode is shaped as it was. -/
theorem ShapedAt.on (shaped : ShapedAt s i) (owned : Owned s) (inTable : i < maxInodes)
    (same : SameVolume s.ata disk) : ShapedAt (s.on disk) i := by
  -- The size is in memory, the places are on the volume.
  refine ⟨shaped.size, fun used k small => ?_⟩
  rw [owned.slot_on same inTable used]
  exact shaped.places used k small

/-- The disk says what the memory says. -/
theorem Synced.on (synced : Synced s) (same : SameVolume s.ata disk) : Synced (s.on disk) := by
  -- The metadata is within the volume, so each sector decodes to the same.
  constructor
  · apply Eq.trans _ synced.boot
    exact congrArg BootBlock.decode (same.sectors 4096 (by omega) (by omega))
  · apply Eq.trans _ synced.info
    exact congrArg InfoBlock.decode (same.sectors 4097 (by omega) (by omega))
  · intro i inTable
    apply Eq.trans _ (synced.inodes i inTable)
    simp only [maxInodes] at inTable
    exact congrArg (decodeInode · i) (same.sectors (4098 + i / 8) (by omega) (by omega))

/-- A volume is as healthy as it was. -/
theorem Healthy.on (healthy : Healthy s) (same : SameVolume s.ata disk) : Healthy (s.on disk) :=
  -- Mounted, shaped and synced, each by itself.
  ⟨healthy.mounted.on same,
    fun i inTable => (healthy.shaped i inTable).on healthy.mounted.owned inTable same,
    healthy.synced.on same⟩

/-- An allocated inode has the same bytes. -/
theorem Owned.bytes_on (owned : Owned s) (same : SameVolume s.ata disk) (inTable : i < maxInodes)
    (used : s.inodeUsed i = true) (offset bufferSize : Nat) :
    (s.on disk).bytes i offset bufferSize = s.bytes i offset bufferSize := by
  -- The blocks of the inode are sectors of the volume.
  refine @bytes_congr s (s.on disk) i rfl (fun k small held => ?_) offset bufferSize
  have inside := blockSector_within (owned.inRange i k ⟨inTable, used, small, held⟩)
  exact same.sectors _ inside.1 inside.2

/-- A directory lists the same entries. -/
theorem Listed.on {entries : List Entry} (listed : Listed s dir entries) (owned : Owned s)
    (same : SameVolume s.ata disk) : Listed (s.on disk) dir entries := by
  -- Its bytes are the same.
  obtain ⟨inTable, used, -⟩ := listed.readable
  exact listed.congr used rfl rfl (owned.bytes_on same inTable used)

/-- The directories store the same tree. -/
theorem Tree.on {parent : Nat → Nat} {children : Nat → List (Nat × CString)}
    (tree : Tree s parent children) (same : SameVolume s.ata disk) :
    Tree (s.on disk) parent children :=
  -- Every listing is the same.
  tree.same (tree.mounted.on same) tree.current (fun _ _ => rfl) (fun _ _ => rfl)
    fun _ _ _ listed => listed.on tree.mounted.owned same

/-- The volume is as flat as it was. -/
theorem Flat.on {parent : Nat → Nat} {children : Nat → List (Nat × CString)}
    (flat : Flat s parent children) (same : SameVolume s.ata disk) :
    Flat (s.on disk) parent children :=
  -- Only the tree and the health look at the disk.
  ⟨flat.tree.on same, flat.healthy.on same, flat.fsMounted, flat.current, flat.only, flat.regular,
    flat.distinct⟩

/-- A volume holds the same store. -/
theorem Mirrors.on {a : Store} (mirrors : Mirrors s a) (same : SameVolume s.ata disk) :
    Mirrors (s.on disk) a := by
  -- Names, contents and descriptors are read from the same volume.
  obtain ⟨parent, children, flat, count⟩ := mirrors.flat
  have named : ∀ name, (s.on disk).fileNamed name = s.fileNamed name :=
    fun name => flat.fileNamed_congr (flat.on same) fun _ => Iff.rfl
  refine ⟨⟨parent, children, flat.on same, count⟩, fun name => ?_, fun fd inside => ?_⟩
  · rw [mirrors.files, named]
    cases found : s.fileNamed name with
    | none => rfl
    | some index =>
      obtain ⟨inTable, used, -⟩ := fileNamed_allocated found
      rw [Option.map_some, Option.map_some,
        mirrors.mounted.owned.bytes_on same inTable used 0 maxFileSize]
  · exact Mirrors.openAs_congr named (mirrors.opened fd inside)

/-- The files of a store, none of them open. -/
def Store.closed (a : Store) : Store := { a with opened := .fill none }

/-- Whatever the kernel held before, mounting the disk of a volume finds its files again. -/
theorem Mirrors.mountedAgain {a : Store} {b : SimpleFs} (mirrors : Mirrors s a)
    (same : SameVolume s.ata b.ata) (clear : s.blocksExhausted = false) :
    ∃ t, simplefsInit b = (true, t) ∧ Mirrors t a.closed ∧ b.ata.Extends [] t.ata ∧
      t.blocksExhausted = b.blocksExhausted := by
  -- What is mounted is what was on the disk, and the disk says all that there is to say.
  have here := mirrors.on same
  have healthy := here.healthy
  obtain ⟨_, _, flat, -⟩ := here.flat
  obtain ⟨t, result, remounted, boot, info, table⟩ :=
    Mounted.remount (b := b) healthy.mounted healthy.synced same.sound rfl
  have quiet : Quiet (s.on b.ata) t :=
    ⟨remounted.ata, boot, info, table, fun full => nomatch clear.symm.trans full⟩
  refine ⟨t, result, here.session quiet ?_ ?_ fun fd inside => ?_, remounted.ata, remounted.exhausted⟩
  · rw [remounted.fsMounted]
    exact flat.fsMounted.symm
  · rw [remounted.currentDirectory]
    exact flat.current.symm
  · rw [remounted.openFiles, FixedArray.get_fill _ (show fd < 8 from inside),
      FixedArray.get_fill _ (show fd < 8 from inside)]
    rfl

end Elsewhere

end MyOS.Fs
