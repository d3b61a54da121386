import MyOS.Fs.Mount

/-! Power loss between two sector writes: what every disk image in between still says. -/

namespace MyOS.Fs

/--
What a disk image still says about the inodes of a state.

An inode that may not be rewritten is either no longer allocated, or has its record, its sectors
and its marks. One that may not even be touched is allocated exactly if it was.
-/
structure Survives (touched rewritten : Nat → Prop) (s : SimpleFs) (image : Nat → Sector) :
    Prop where
  boot : BootBlock.decode (image 4096) = s.bootBlock
  info : imageInfo image = { s.infoBlock with
    inodeBitmap := (imageInfo image).inodeBitmap
    dataBitmap := (imageInfo image).dataBitmap }
  rootUsed : bitmapTest (imageInfo image).inodeBitmap rootInode = true
  rootType : (imageInode image rootInode).type = typeDirectory
  allocation : ∀ j, j < maxInodes → ¬ touched j →
    bitmapTest (imageInfo image).inodeBitmap j = s.inodeUsed j
  unused : ∀ j, j < maxInodes → ¬ rewritten j → s.inodeUsed j = false →
    bitmapTest (imageInfo image).inodeBitmap j = false
  record : ∀ j, j < maxInodes → ¬ rewritten j → s.inodeUsed j = true →
    bitmapTest (imageInfo image).inodeBitmap j = true → imageInode image j = s.inodeTable.get j
  kept : ∀ j k, ¬ rewritten j → s.Holds j k →
    bitmapTest (imageInfo image).inodeBitmap j = true →
    image (blockSector (s.slot j k)) = s.ata.sectors (blockSector (s.slot j k)) ∧
      bitmapTest (imageInfo image).dataBitmap (s.slot j k).toNat = true

section Survival

variable {touched rewritten : Nat → Prop} {s t : SimpleFs}

/-- The disk of a synced volume says what its memory says. -/
theorem Survives.start (mounted : Mounted s) (synced : Synced s) :
    Survives touched rewritten s s.ata.sectors := by
  -- The memory of a synced volume is on its disk, field by field.
  have info : imageInfo s.ata.sectors = s.infoBlock := synced.info
  refine ⟨synced.boot, ?_, ?_, ?_, ?_, ?_, ?_, ?_⟩
  · rw [info]
  · rw [info]; exact mounted.rootUsed
  · rw [imageInode, synced.inodes _ (by decide)]; exact mounted.rootType
  · intro j _ _
    rw [info]
    rfl
  · intro j _ _ free
    rw [info]
    exact free
  · intro j inTable _ _ _
    exact synced.inodes j inTable
  · intro j k _ holds _
    rw [info]
    exact ⟨rfl, mounted.owned.isMarked j k holds⟩

/-- Each sector of a torn update is the old one or the new one. -/
theorem Effect.torn_info {index : Nat} {body closing pre : List (Nat × Sector)}
    (effect : Effect s index body closing t) (synced : Synced s) (torn : pre <+: body ++ closing) :
    imageInfo (Ata.applyWrites s.ata.sectors pre) = s.infoBlock ∨
      imageInfo (Ata.applyWrites s.ata.sectors pre) = t.infoBlock := by
  -- The info sector is either not among the torn writes or written with the new metadata.
  unfold imageInfo
  rcases Ata.applyWrites_cases s.ata.sectors pre 4097 with same | member
  · left
    rw [same, synced.info]
  · right
    have written := effect.closing_of_low (torn.subset member) (by simp only; omega)
    have content : Ata.applyWrites s.ata.sectors pre 4097 = t.infoBlock.encode :=
      metadataLog_info written rfl
    rw [content, InfoBlock.decode_encode]

/-- Each inode of a torn update is the old one or the new one. -/
theorem Effect.torn_inode {index : Nat} {body closing pre : List (Nat × Sector)}
    (effect : Effect s index body closing t) (synced : Synced s) (torn : pre <+: body ++ closing)
    {j : Nat} (inTable : j < maxInodes) :
    imageInode (Ata.applyWrites s.ata.sectors pre) j = s.inodeTable.get j ∨
      imageInode (Ata.applyWrites s.ata.sectors pre) j = t.inodeTable.get j := by
  -- An inode lives in one sector, which is either untouched or written whole.
  unfold imageInode
  rcases Ata.applyWrites_cases s.ata.sectors pre (4098 + j / 8) with same | member
  · left
    rw [same, synced.inodes j inTable]
  · right
    simp only [maxInodes] at inTable
    have written := effect.closing_of_low (torn.subset member) (by simp only; omega)
    have content : Ata.applyWrites s.ata.sectors pre (4098 + j / 8) =
        encodeInodes t.inodeTable (j / 8) := metadataLog_table written rfl
    rw [content, decodeInode_encodeInodes]

/--
A torn release that left the inode allocated wrote nothing yet.

The info block goes first, and with it the inode is gone.
-/
theorem Effect.torn_release {index : Nat} {closing pre : List (Nat × Sector)}
    (effect : Effect s index [] closing t) (torn : pre <+: closing)
    (used : s.inodeUsed index = true) (released : t.inodeUsed index = false)
    (still : bitmapTest (imageInfo (Ata.applyWrites s.ata.sectors pre)).inodeBitmap index = true) :
    pre = [] := by
  rcases effect.metadata with whole | ⟨-, same⟩
  swap
  · -- A change of link counts releases nothing.
    unfold SimpleFs.inodeUsed at used released
    rw [same, used] at released
    cases released
  cases pre with
  | nil => rfl
  | cons entry rest =>
    exfalso
    rw [whole] at torn
    have first : entry = (4097, t.infoBlock.encode) := (List.cons_prefix_cons.mp torn).1
    have stored : Ata.applyWrites s.ata.sectors (entry :: rest) 4097 = t.infoBlock.encode := by
      refine Ata.applyWrites_written (Or.inr ⟨entry, List.mem_cons_self, by rw [first]⟩) ?_
      intro e member place
      exact metadataLog_info (torn.subset member) place
    rw [imageInfo, stored, InfoBlock.decode_encode] at still
    exact absurd still (by rw [show bitmapTest t.infoBlock.inodeBitmap index = false from released]; decide)

/-- A torn update leaves an image that still says what it must. -/
theorem Effect.survives {index : Nat} {body closing pre : List (Nat × Sector)}
    (effect : Effect s index body closing t) (mounted : Mounted s) (synced : Synced s)
    (touches : touched index) (how : rewritten index ∨ body = [] ∧ t.inodeUsed index = false)
    (torn : pre <+: body ++ closing) :
    Survives touched rewritten s (Ata.applyWrites s.ata.sectors pre) := by
  have mountedT := effect.mounted mounted
  have info := effect.torn_info synced torn
  have inode : ∀ {j : Nat}, j < maxInodes →
      imageInode (Ata.applyWrites s.ata.sectors pre) j = s.inodeTable.get j ∨
        imageInode (Ata.applyWrites s.ata.sectors pre) j = t.inodeTable.get j :=
    fun inTable => effect.torn_inode synced torn inTable
  -- Whichever info block the image has, other inodes are allocated as they were.
  have others : ∀ j, j < maxInodes → j ≠ index →
      bitmapTest (imageInfo (Ata.applyWrites s.ata.sectors pre)).inodeBitmap j = s.inodeUsed j := by
    intro j inTable other
    rcases info with old | new
    · rw [old]; rfl
    · rw [new]; exact effect.allocation j inTable other
  refine ⟨?_, ?_, ?_, ?_, ?_, ?_, ?_, ?_⟩
  · -- The boot block is not written.
    rw [← synced.boot]
    congr 1
    refine Ata.applyWrites_other fun entry member same => ?_
    have := metadataLog_lt (effect.closing_of_low (torn.subset member) (by omega))
    omega
  · rcases info with old | new
    · rw [old]
    · rw [new]; exact effect.info
  · rcases info with old | new
    · rw [old]; exact mounted.rootUsed
    · rw [new]; exact mountedT.rootUsed
  · rcases inode (show rootInode < maxInodes by decide) with old | new
    · rw [old]; exact mounted.rootType
    · rw [new]; exact mountedT.rootType
  · intro j inTable untouched
    exact others j inTable fun same => untouched (same ▸ touches)
  · intro j inTable kept free
    by_cases this : j = index
    · -- The inode was free and is not rewritten, so it is free in both info blocks.
      subst this
      rcases how with rewrites | ⟨-, released⟩
      · exact absurd rewrites kept
      · rcases info with old | new
        · rw [old]; exact free
        · rw [new]; exact released
    · rw [others j inTable this]
      exact free
  · intro j inTable kept used still
    by_cases this : j = index
    · subst this
      rcases how with rewrites | ⟨rfl, released⟩
      · exact absurd rewrites kept
      · obtain rfl := effect.torn_release torn used released still
        exact synced.inodes j inTable
    · rcases inode inTable with old | new
      · exact old
      · rw [new]; exact effect.others j this
  · intro j k kept holds still
    by_cases this : j = index
    · subst this
      rcases how with rewrites | ⟨rfl, released⟩
      · exact absurd rewrites kept
      · obtain rfl := effect.torn_release torn holds.2.1 released still
        refine ⟨rfl, ?_⟩
        rw [Ata.applyWrites_nil, show imageInfo s.ata.sectors = s.infoBlock from synced.info]
        exact mounted.owned.isMarked j k holds
    · refine ⟨?_, ?_⟩
      · -- No sector of another inode is written.
        refine Ata.applyWrites_other fun entry member => ?_
        exact effect.untouched mounted.owned holds this entry (torn.subset member)
      · rcases info with old | new
        · rw [old]; exact mounted.owned.isMarked j k holds
        · rw [new, ← effect.slot_other mounted.owned holds.1 holds.2.1 this]
          exact mountedT.owned.isMarked j k ((effect.holds_other mounted.owned this).mpr holds)

/-- What survives an update survives from before it. -/
theorem Survives.before_effect {index : Nat} {body closing : List (Nat × Sector)}
    {image : Nat → Sector} (survives : Survives touched rewritten t image)
    (effect : Effect s index body closing t) (mounted : Mounted s) (touches : touched index)
    (how : rewritten index ∨ body = [] ∧ t.inodeUsed index = false) (inTable : index < maxInodes) :
    Survives touched rewritten s image := by
  -- An inode that is released and not rewritten does not come back.
  have gone : ¬ rewritten index →
      bitmapTest (imageInfo image).inodeBitmap index = false := by
    intro kept
    rcases how with rewrites | ⟨-, released⟩
    · exact absurd rewrites kept
    · exact survives.unused index inTable kept released
  refine ⟨survives.boot.trans effect.frame.bootBlock, ?_, survives.rootUsed, survives.rootType, ?_,
    ?_, ?_, ?_⟩
  · rw [survives.info, effect.info]
  · intro j small untouched
    have other : j ≠ index := fun same => untouched (same ▸ touches)
    rw [survives.allocation j small untouched, effect.allocation j small other]
  · intro j small kept free
    by_cases this : j = index
    · subst this
      exact gone kept
    · exact survives.unused j small kept (by rw [effect.allocation j small this]; exact free)
  · intro j small kept used still
    by_cases this : j = index
    · subst this
      rw [gone kept] at still
      cases still
    · rw [survives.record j small kept (by rw [effect.allocation j small this]; exact used) still,
        effect.others j this]
  · intro j k kept holds still
    by_cases this : j = index
    · subst this
      rw [gone kept] at still
      cases still
    · have after := survives.kept j k kept ((effect.holds_other mounted.owned this).mpr holds) still
      rw [effect.slot_other mounted.owned holds.1 holds.2.1 this,
        effect.sectors_other mounted.owned holds this] at after
      exact after

/-- What survives from one state survives from another of the same volume. -/
theorem Survives.before_quiet {image : Nat → Sector} (survives : Survives touched rewritten t image)
    (quiet : Quiet s t) : Survives touched rewritten s image := by
  -- A quiet step leaves every field the image is compared with as it was.
  refine ⟨survives.boot.trans quiet.bootBlock, ?_, survives.rootUsed, survives.rootType, ?_, ?_, ?_,
    ?_⟩
  · rw [← quiet.infoBlock]
    exact survives.info
  · intro j small untouched
    rw [survives.allocation j small untouched, quiet.inodeUsed]
  · intro j small kept free
    exact survives.unused j small kept (by rw [quiet.inodeUsed]; exact free)
  · intro j small kept used still
    rw [survives.record j small kept (by rw [quiet.inodeUsed]; exact used) still, quiet.inodeTable]
  · intro j k kept holds still
    have after := survives.kept j k kept ((quiet.holds j k).mpr holds) still
    rwa [quiet.slot, quiet.sectors] at after

/--
Every image a chain of updates passes through still says what it must.

The induction peels off the first update: the cut lies in its own writes, or behind them.
-/
theorem Moves.survives (moves : Moves touched rewritten s t) :
    Mounted s → Synced s → ∃ log, s.ata.Extends log t.ata ∧
      ∀ pre, pre <+: log → Survives touched rewritten s (Ata.applyWrites s.ata.sectors pre) := by
  induction moves using Relation.ReflTransGen.head_induction_on with
  | refl =>
    intro mounted synced
    refine ⟨[], Ata.Extends.refl _, fun pre none => ?_⟩
    obtain rfl := List.prefix_nil.mp none
    exact Survives.start mounted synced
  | head move rest ih =>
    rename_i a c
    intro mounted synced
    rcases move with quiet | ⟨index, body, closing, inTable, touches, effect, how⟩
    · obtain ⟨log, extended, cuts⟩ := ih (quiet.mounted mounted) (quiet.synced synced)
      refine ⟨log, quiet.ata.trans extended, fun pre torn => ?_⟩
      have := (cuts pre torn).before_quiet quiet
      rwa [quiet.sectors] at this
    · obtain ⟨log, extended, cuts⟩ := ih (effect.mounted mounted) (effect.synced synced)
      refine ⟨_, effect.ata.trans extended, fun pre torn => ?_⟩
      rcases List.prefix_or_prefix_of_prefix torn (List.prefix_append (body ++ closing) log) with
        inside | ⟨later, rfl⟩
      · exact effect.survives mounted synced touches how inside
      · -- The first update is complete, so the cut lies in what followed.
        have torn' : later <+: log := (List.prefix_append_right_inj _).mp torn
        rw [Ata.applyWrites_append, ← effect.ata.sectors]
        exact (cuts later torn').before_effect effect mounted touches how inTable

/-- An image that says what it must can be mounted. -/
theorem Survives.mount {image : Nat → Sector} (survives : Survives touched rewritten s image)
    (mounted : Mounted s) {b : SimpleFs} (sound : b.ata.Sound) (disk : b.ata.sectors = image) :
    ∃ t, simplefsInit b = (true, t) ∧ Remounted b t := by
  -- An image that passes the checks of the mount is mounted with its own metadata.
  subst disk
  refine simplefsInit_sound sound ?_ survives.rootUsed survives.rootType
  rw [survives.boot, survives.info]
  exact mounted.header

end Survival

/-- The sector writes a call issues, in order. -/
def callWrites (s : SimpleFs) (call : FsCall) : List (Nat × Sector) :=
  (fsStep s call).2.ata.writes.drop s.ata.writes.length

section Calls

variable {s : SimpleFs}

/-- Every cut through the writes of a call leaves an image that still says what it must. -/
theorem callWrites_survives (call : FsCall) (mounted : Mounted s) (synced : Synced s) :
    s.ata.Extends (callWrites s call) (fsStep s call).2.ata ∧
      ∀ pre, pre <+: callWrites s call →
        Survives (call.Touched s) (call.Rewritten s) s (Ata.applyWrites s.ata.sectors pre) := by
  -- The effects of the call follow one another, so a cut falls into exactly one of them.
  obtain ⟨log, extended, cuts⟩ := (fsStep_moves mounted call).survives mounted synced
  have writes : callWrites s call = log := by
    rw [callWrites, extended.writes, List.drop_left]
  rw [writes]
  exact ⟨extended, cuts⟩

end Calls

/--
A crash cannot damage uninvolved files.

Wherever the writes of a call are cut off, the disk can be mounted, and every inode that was
allocated before reads as before, except the working directory and the inode the call refers to.
-/
theorem crash_spares_others (s : SimpleFs) (call : FsCall) (mounted : Mounted s) (synced : Synced s)
    (pre : List (Nat × Sector)) (torn : pre <+: callWrites s call) (b : SimpleFs)
    (sound : b.ata.Sound) (disk : b.ata.sectors = Ata.applyWrites s.ata.sectors pre) :
    ∃ t, simplefsInit b = (true, t) ∧
      ∀ j, j < maxInodes → s.inodeUsed j = true → j ≠ s.currentDirectory → ¬ call.Refers s j →
        ∀ offset bufferSize,
          (readInodeBytes j offset bufferSize t).1 = (readInodeBytes j offset bufferSize s).1 ∧
          (readInodeBytes j offset bufferSize t).2.1 = (readInodeBytes j offset bufferSize s).2.1 := by
  have survives := (callWrites_survives call mounted synced).2 pre torn
  obtain ⟨t, result, remounted⟩ := survives.mount mounted sound disk
  refine ⟨t, result, fun j inTable used notCurrent notReferred offset bufferSize => ?_⟩
  have untouched : ¬ call.Touched s j := by
    rintro (current | free | refers)
    · exact notCurrent current
    · rw [used] at free; cases free
    · exact notReferred refers
  have kept : ¬ call.Rewritten s j := fun rewrites => untouched (rewrites.touched mounted)
  -- The inode is still allocated, with its record and the sectors of its blocks.
  have still := (survives.allocation j inTable untouched).trans used
  have usedT : t.inodeUsed j = true := by
    rw [SimpleFs.inodeUsed, remounted.infoBlock, disk]
    exact still
  have record : t.inodeTable.get j = s.inodeTable.get j := by
    rw [remounted.inodes j inTable, disk]
    exact survives.record j inTable kept used still
  have bytes := bytes_congr record (fun k small held => by
    rw [remounted.ata.sectors, Ata.applyWrites_nil, disk]
    exact (survives.kept j k kept ⟨inTable, used, small, held⟩ still).1) offset bufferSize
  have geometry : Geometry t.infoBlock := by
    rw [remounted.infoBlock, disk, survives.info]
    exact mounted.geometry.congr rfl rfl rfl
  have before := readInodeBytes_mounted mounted.sound mounted.geometry j offset bufferSize
  have after := readInodeBytes_mounted (remounted.ata.sound sound) geometry j offset bufferSize
  rw [usedT, bytes] at after
  rw [used, ← after] at before
  exact Prod.mk.inj before.symm

/-- The file of the one-file volume reads as before when power is lost while another is created. -/
theorem crash_spares_others_soleFile :
    let s := soleFile (bitmapSet (.fill 0) 5) 5
    let call := FsCall.create ⟨[97], by decide⟩
    ∃ t, simplefsInit (SimpleFs.powerOn { s.ata with
        sectors := Ata.applyWrites s.ata.sectors ((callWrites s call).take 12) }) = (true, t) ∧
      (readInodeBytes 1 0 512 t).2.1 = (readInodeBytes 1 0 512 s).2.1 := by
  intro s call
  have mounted : Mounted s := soleFile_mounted (by decide) (by decide)
  obtain ⟨t, result, same⟩ := crash_spares_others s call mounted soleFile_synced
    ((callWrites s call).take 12) (List.take_prefix 12 _)
    (SimpleFs.powerOn { s.ata with
      sectors := Ata.applyWrites s.ata.sectors ((callWrites s call).take 12) })
    ⟨rfl, fun _ => rfl⟩ rfl
  -- The root has no entries, so no name leads anywhere.
  have nowhere : ¬ call.Refers s 1 := by
    rintro ⟨scratch, inode, slot, found, -⟩
    have alike : Quiet s { s with directoryScratch := scratch } :=
      ⟨Ata.Extends.refl _, rfl, rfl, rfl, id⟩
    obtain ⟨transfers, find⟩ :=
      findEntryInDirectory_sound (alike.mounted mounted) s.currentDirectory ⟨[97], by decide⟩
    have empty : s.entryCount s.currentDirectory = 0 := by decide +kernel
    rw [find, SimpleFs.lookup, alike.entryCount, empty] at found
    split at found
    · cases found
    · cases found
  exact ⟨t, result, (same 1 (by decide) (by decide) (by decide) nowhere 0 512).2⟩

/-- Where a call can be cut off so that an inode holds a block without its mark. -/
def Exposes (s : SimpleFs) (call : FsCall) (j : Nat) : Prop :=
  ∃ (pre : List (Nat × Sector)) (b t : SimpleFs) (k : Nat), pre <+: callWrites s call ∧ b.ata.Sound ∧
    b.ata.sectors = Ata.applyWrites s.ata.sectors pre ∧ simplefsInit b = (true, t) ∧
    t.Holds j k ∧ t.marked (t.slot j k).toNat = false

/-- What is mounted after power was lost behind some of the writes of a call. -/
def cutOff (s : SimpleFs) (call : FsCall) (writes : Nat) : Bool × SimpleFs :=
  simplefsInit (SimpleFs.powerOn
    { s.ata with sectors := Ata.applyWrites s.ata.sectors ((callWrites s call).take writes) })

/-- A cut at which the state that is mounted can be computed. -/
theorem Exposes.at_cut {s : SimpleFs} {call : FsCall} {j : Nat} (writes k : Nat)
    (sound : s.ata.Sound) (mounts : (cutOff s call writes).1 = true)
    (holds : (cutOff s call writes).2.Holds j k)
    (free : (cutOff s call writes).2.marked ((cutOff s call writes).2.slot j k).toNat = false) :
    Exposes s call j := by
  -- The cut is a prefix of the writes, and the disk is as sound as it was.
  refine ⟨(callWrites s call).take writes, SimpleFs.powerOn { s.ata with
    sectors := Ata.applyWrites s.ata.sectors ((callWrites s call).take writes) },
    (cutOff s call writes).2, k, List.take_prefix writes _, ⟨sound.ready, sound.reliable⟩, rfl,
    Prod.ext mounts rfl, holds, free⟩

/-- A volume on which a file was made and deleted again, and a directory entered that lies behind it. -/
def usedVolume : SimpleFs :=
  runState fsStep (simplefsFormat SimpleFs.blank).2
    [.writeFile ⟨[97], by decide⟩ [1], .makeDir ⟨[98], by decide⟩, .delete ⟨[97], by decide⟩,
      .changeDir ⟨[98], by decide⟩]

/--
The bitmap is stored before the inode table.

Power is lost in between. A file that moves from block 5 to block 0 still holds block 5, which is no
longer marked, and so does the working directory when it moves for a new entry. An inode that is
being made is allocated already, and holds what its old record says.
-/
theorem crash_unmarks_held_block :
    (∃ s fd data, Mounted s ∧ Synced s ∧ Exposes s (.writeFd fd data) (s.fdInode fd)) ∧
    (∃ s name, Mounted s ∧ Synced s ∧ Exposes s (.create name) s.currentDirectory) ∧
    ∃ s name j, Mounted s ∧ Synced s ∧ s.inodeUsed j = false ∧ Exposes s (.create name) j := by
  -- One cut for each of the three inodes, each between the bitmap and the inode table.
  have healthy : Healthy usedVolume := run_healthy ⟨rfl, fun _ => rfl⟩ _
  refine ⟨⟨soleFile (bitmapSet (.fill 0) 5) 5, 0, [7], soleFile_mounted (by decide) (by decide),
    soleFile_synced, .at_cut 3 0 ⟨rfl, fun _ => rfl⟩ ?_ ?_ ?_⟩, ⟨usedVolume, ⟨[99], by decide⟩,
    healthy.mounted, healthy.synced, .at_cut 12 0 healthy.mounted.sound ?_ ?_ ?_⟩,
    ⟨usedVolume, ⟨[99], by decide⟩, 1, healthy.mounted, healthy.synced, ?_,
    .at_cut 1 8 healthy.mounted.sound ?_ ?_ ?_⟩⟩
  all_goals decide +kernel

/--
A crash leaves marked what a call does not rewrite.

Wherever the writes of a call are cut off, every block is marked that is held by an inode other
than those whose data the call rewrites. Once all writes are on disk, every block held is marked.
-/
theorem crash_keeps_marks (s : SimpleFs) (call : FsCall) (mounted : Mounted s) (synced : Synced s)
    (pre : List (Nat × Sector)) (torn : pre <+: callWrites s call) (b : SimpleFs)
    (sound : b.ata.Sound) (disk : b.ata.sectors = Ata.applyWrites s.ata.sectors pre) :
    ∃ t, simplefsInit b = (true, t) ∧
      (∀ j k, ¬ call.Rewritten s j → t.Holds j k → t.marked (t.slot j k).toNat = true) ∧
      (pre = callWrites s call → ∀ j k, t.Holds j k → t.marked (t.slot j k).toNat = true) := by
  obtain ⟨extended, cuts⟩ := callWrites_survives call mounted synced
  have survives := cuts pre torn
  obtain ⟨t, result, remounted⟩ := survives.mount mounted sound disk
  have sectors : t.ata.sectors = b.ata.sectors := remounted.ata.sectors
  refine ⟨t, result, ?_, ?_⟩
  · rintro j k kept ⟨inTable, usedT, small, held⟩
    have still : bitmapTest (imageInfo (Ata.applyWrites s.ata.sectors pre)).inodeBitmap j = true := by
      rw [SimpleFs.inodeUsed, remounted.infoBlock, disk] at usedT
      exact usedT
    -- An inode that was free and is not rewritten is free in every image.
    have used : s.inodeUsed j = true := by
      by_contra free
      rw [Bool.not_eq_true] at free
      exact absurd still (by rw [survives.unused j inTable kept free]; decide)
    have record : t.inodeTable.get j = s.inodeTable.get j := by
      rw [remounted.inodes j inTable, disk]
      exact survives.record j inTable kept used still
    -- Its places are those it had, because its indirect table was not written.
    have slot : t.slot j k = s.slot j k := by
      unfold SimpleFs.slot
      rw [record, sectors, disk]
      refine slotBlock_congr (fun indirect => ?_) k
      have holds : s.Holds j 6 := ⟨inTable, used, by decide, by rw [slot_six]; exact indirect⟩
      have same := (survives.kept j 6 kept holds still).1
      rwa [slot_six] at same
    rw [slot] at held ⊢
    rw [SimpleFs.marked, remounted.infoBlock, disk]
    exact (survives.kept j k kept ⟨inTable, used, small, held⟩ still).2
  · -- The disk is that of the state after the call, whose metadata it holds.
    rintro rfl
    have moves := fsStep_moves mounted call
    have mountedU := moves.mounted mounted
    have syncedU : Synced (fsStep s call).2 := moves.synced synced
    obtain ⟨u, again, remountedU, boot, info, table⟩ :=
      mountedU.remount syncedU sound (disk.trans extended.sectors.symm)
    obtain rfl : t = u := by
      have := result.symm.trans again
      exact (Prod.mk.inj this).2
    have owned : Owned t := mountedU.owned.congr
      (sectors.trans (disk.trans extended.sectors.symm)) info table
    exact fun j k holds => owned.isMarked j k holds

/--
The block of the one file stays marked while another file is being made.

Power is lost when the info block is stored, and the inode table is not. The file holds its block
then, and keeps the mark.
-/
theorem crash_keeps_marks_soleFile :
    let s := soleFile (bitmapSet (.fill 0) 5) 5
    let call := FsCall.create ⟨[97], by decide⟩
    ∃ t, simplefsInit (SimpleFs.powerOn { s.ata with
        sectors := Ata.applyWrites s.ata.sectors ((callWrites s call).take 1) }) = (true, t) ∧
      t.Holds 1 0 ∧ t.marked (t.slot 1 0).toNat = true := by
  intro s call
  obtain ⟨t, result, marks, -⟩ := crash_keeps_marks s call
    (soleFile_mounted (by decide) (by decide)) soleFile_synced
    ((callWrites s call).take 1) (List.take_prefix 1 _)
    (SimpleFs.powerOn { s.ata with
      sectors := Ata.applyWrites s.ata.sectors ((callWrites s call).take 1) })
    ⟨rfl, fun _ => rfl⟩ rfl
  -- The file is neither the working directory nor free.
  have kept : ¬ call.Rewritten s 1 := by
    rintro ⟨-, current | free⟩
    · exact absurd current (by decide)
    · exact SimpleFs.not_fresh (by decide) free
  have holds : t.Holds 1 0 := by
    have used : (simplefsInit (SimpleFs.powerOn { s.ata with
        sectors := Ata.applyWrites s.ata.sectors ((callWrites s call).take 1) })).2.inodeUsed 1 =
          true := by
      decide +kernel
    have slot : (simplefsInit (SimpleFs.powerOn { s.ata with
        sectors := Ata.applyWrites s.ata.sectors ((callWrites s call).take 1) })).2.slot 1 0 = 5 := by
      decide +kernel
    rw [result] at used slot
    exact ⟨by decide, used, by decide, by rw [slot]; decide⟩
  exact ⟨t, result, holds, marks 1 0 kept holds⟩

end MyOS.Fs
