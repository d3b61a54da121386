import MyOS.Fs.Moves

/-! The building blocks of the public calls, as chains of updates that leave the session alone. -/

namespace MyOS.Fs

/-- Two states with the same session: working directory, open files and mount flag. -/
structure Steady (s t : SimpleFs) : Prop where
  currentDirectory : t.currentDirectory = s.currentDirectory
  openFiles : t.openFiles = s.openFiles
  fsMounted : t.fsMounted = s.fsMounted

/-- A part of a call: a chain of updates that leaves the session alone. -/
structure Runs (touched rewritten : Nat → Prop) (s t : SimpleFs) : Prop where
  moves : Moves touched rewritten s t
  steady : Steady s t

section Kept

variable {touched rewritten : Nat → Prop} {s t : SimpleFs}

/-- An allocated inode an operation does not touch keeps its record and all its bytes. -/
theorem Moves.kept (moves : Moves touched rewritten s t) (mounted : Mounted s) {j : Nat}
    (inTable : j < maxInodes) (used : s.inodeUsed j = true) (untouched : ¬ touched j) :
    t.inodeUsed j = true ∧ t.inodeTable.get j = s.inodeTable.get j ∧
      ∀ offset bufferSize, t.bytes j offset bufferSize = s.bytes j offset bufferSize := by
  induction moves with
  | refl => exact ⟨used, rfl, fun _ _ => rfl⟩
  | tail before move ih =>
    obtain ⟨usedB, record, bytes⟩ := ih
    rcases move with quiet | ⟨index, _, _, _, touches, effect, _⟩
    · -- The volume is the same.
      refine ⟨?_, ?_, fun offset bufferSize => ?_⟩
      · rw [quiet.inodeUsed]; exact usedB
      · rw [quiet.inodeTable]; exact record
      · rw [quiet.bytes]; exact bytes offset bufferSize
    · -- The update concerns another inode.
      have other : j ≠ index := fun same => untouched (same ▸ touches)
      have owned := (Moves.mounted before mounted).owned
      refine ⟨?_, ?_, fun offset bufferSize => ?_⟩
      · rw [effect.allocation j inTable other]; exact usedB
      · rw [effect.others j other]; exact record
      · rw [effect.bytes_other owned inTable usedB other]; exact bytes offset bufferSize

/-- A free inode an operation does not touch stays free. -/
theorem Moves.kept_free (moves : Moves touched rewritten s t) {j : Nat}
    (inTable : j < maxInodes) (free : s.inodeUsed j = false) (untouched : ¬ touched j) :
    t.inodeUsed j = false := by
  -- Induction on the chain: an update allocates only the inode it touches.
  induction moves with
  | refl => exact free
  | tail _ move ih =>
    rcases move with quiet | ⟨index, _, _, _, touches, effect, _⟩
    · rw [quiet.inodeUsed]; exact ih
    · have other : j ≠ index := fun same => untouched (same ▸ touches)
      rw [effect.allocation j inTable other]; exact ih

/-- A chain stays a chain when more inodes may be touched. -/
theorem Moves.mono {touched' rewritten' : Nat → Prop} (moves : Moves touched rewritten s t)
    (more : ∀ i, touched i → touched' i) (more' : ∀ i, rewritten i → rewritten' i) :
    Moves touched' rewritten' s t := by
  -- Link by link.
  refine Relation.ReflTransGen.mono (fun a b move => ?_) _ _ moves
  rcases move with quiet | ⟨index, body, closing, inTable, touches, effect, how⟩
  · exact Or.inl quiet
  · refine Or.inr ⟨index, body, closing, inTable, more index touches, effect, ?_⟩
    rcases how with rewrites | released
    · exact Or.inl (more' index rewrites)
    · exact Or.inr released

end Kept

namespace Steady

variable {s t u : SimpleFs}

/-- Nothing happens to the session of a state left alone. -/
theorem refl (s : SimpleFs) : Steady s s := ⟨rfl, rfl, rfl⟩

/-- Steadiness is transitive. -/
theorem trans (first : Steady s t) (second : Steady t u) : Steady s u :=
  ⟨second.currentDirectory.trans first.currentDirectory,
    second.openFiles.trans first.openFiles, second.fsMounted.trans first.fsMounted⟩

end Steady

/-- What keeps the frame keeps the session. -/
theorem Frame.steady {s t : SimpleFs} (frame : Frame s t) : Steady s t :=
  ⟨frame.currentDirectory, frame.openFiles, frame.fsMounted⟩

namespace Runs

variable {touched rewritten : Nat → Prop} {s t u : SimpleFs}

/-- Doing nothing is a run. -/
theorem refl (s : SimpleFs) : Runs touched rewritten s s := ⟨Moves.refl s, Steady.refl s⟩

/-- Runs are composed. -/
theorem trans (first : Runs touched rewritten s t) (second : Runs touched rewritten t u) :
    Runs touched rewritten s u :=
  ⟨first.moves.trans second.moves, first.steady.trans second.steady⟩

/-- Reading is part of any call. -/
theorem scanned (s : SimpleFs) (transfers : Nat) (scratch : Scratch) :
    Runs touched rewritten s (s.scanned transfers scratch) :=
  ⟨Moves.quiet (Quiet.scanned s transfers scratch), ⟨rfl, rfl, rfl⟩⟩

/-- A run keeps the volume mounted. -/
theorem mounted (runs : Runs touched rewritten s t) (mounted : Mounted s) : Mounted t :=
  runs.moves.mounted mounted

/-- A run stays a run when more inodes may be touched. -/
theorem mono {touched' rewritten' : Nat → Prop} (runs : Runs touched rewritten s t)
    (more : ∀ i, touched i → touched' i) (more' : ∀ i, rewritten i → rewritten' i) :
    Runs touched' rewritten' s t :=
  -- The chain grows, the session has nothing to do with it.
  ⟨runs.moves.mono more more', runs.steady⟩

/-- An update of an inode the call may rewrite. -/
theorem update {index : Nat} {body closing : List (Nat × Sector)} (inTable : index < maxInodes)
    (touches : touched index) (rewrites : rewritten index) (effect : Effect s index body closing t) :
    Runs touched rewritten s t :=
  -- A chain of one link.
  ⟨Moves.update inTable touches rewrites effect, effect.frame.steady⟩

end Runs

/-- A state whose session and volume are those of another, and which wanted no block since. -/
structure Alike (s t : SimpleFs) : Prop where
  quiet : Quiet s t
  steady : Steady s t
  exhausted : t.blocksExhausted = s.blocksExhausted

namespace Alike

variable {s t u : SimpleFs}

/-- Every state is like itself. -/
theorem refl (s : SimpleFs) : Alike s s := ⟨Quiet.refl s, Steady.refl s, rfl⟩

/-- Scanning a directory leaves the state alike. -/
theorem scanned (s : SimpleFs) (transfers : Nat) (scratch : Scratch) :
    Alike s (s.scanned transfers scratch) := ⟨Quiet.scanned s _ _, ⟨rfl, rfl, rfl⟩, rfl⟩

/-- Alikeness is transitive. -/
theorem trans (first : Alike s t) (second : Alike t u) : Alike s u :=
  ⟨first.quiet.trans second.quiet, first.steady.trans second.steady,
    second.exhausted.trans first.exhausted⟩

/-- A state alike is reached by a run that touches nothing. -/
theorem runs {touched rewritten : Nat → Prop} (alike : Alike s t) : Runs touched rewritten s t :=
  ⟨Moves.quiet alike.quiet, alike.steady⟩

end Alike

section Blocks

variable {touched rewritten : Nat → Prop} {s : SimpleFs}

/-- Rewriting an inode leaves the session alone. -/
theorem writeInodeData_runs (mounted : Mounted s) {index : Nat} (touches : touched index)
    (rewrites : rewritten index) (data : Nat → UInt8) (size : Nat) :
    Runs touched rewritten s (writeInodeData index data size s).2 := by
  -- A rewrite that is allowed keeps the frame whichever way it ends, a refused one changes nothing.
  refine ⟨writeInodeData_moves mounted touches rewrites data size, ?_⟩
  by_cases allowed : index < maxInodes ∧ s.inodeUsed index = true ∧ size ≤ maxFileSize
  · obtain ⟨inTable, used, fits⟩ := allowed
    rcases writeInodeData_sound data mounted.sound mounted.geometry inTable used fits
        (mounted.inside inTable used) with ⟨t, log, result, done, -⟩ | ⟨t, log, result, done, -⟩
    · rw [result]; exact done.effect.frame.steady
    · rw [result]; exact done.effect.frame.steady
  · rw [writeInodeData_refused allowed]
    exact Steady.refl s

/-- Releasing an inode leaves the session alone and wants no block. -/
theorem releaseInode_runs (mounted : Mounted s) {index : Nat} (touches : touched index) :
    Runs touched rewritten s (releaseInode index s).2 ∧
      (releaseInode index s).2.blocksExhausted = s.blocksExhausted := by
  -- A release that is allowed is one effect, a refused one changes nothing.
  have moves : Moves touched rewritten s (releaseInode index s).2 :=
    releaseInode_moves mounted touches
  by_cases allowed : index < maxInodes ∧ s.inodeUsed index = true ∧ index ≠ rootInode
  · obtain ⟨inTable, used, notRoot⟩ := allowed
    obtain ⟨t, result, effect, -, exhausted⟩ := releaseInode_sound mounted inTable used notRoot
    rw [result] at moves ⊢
    exact ⟨⟨moves, effect.frame.steady⟩, exhausted⟩
  · rw [releaseInode_refused allowed]
    exact ⟨Runs.refl s, rfl⟩

/-- Appending an entry concerns the directory only. -/
theorem appendEntryToDirectory_runs (mounted : Mounted s) {dir : Nat} (touches : touched dir)
    (rewrites : rewritten dir) (name : CString) (child : Nat) :
    Runs touched rewritten s (appendEntryToDirectory dir name child s).2 := by
  -- The directory is read, and then its inode rewritten.
  obtain ⟨transfers, result⟩ := appendEntryToDirectory_sound mounted dir name child
  rw [result]
  split
  · have read : Runs touched rewritten s (s.scanned transfers (s.appended dir name child)) :=
      Runs.scanned s _ _
    exact read.trans (writeInodeData_runs (read.mounted mounted) touches rewrites _ _)
  · exact Runs.scanned s _ _

/-- Removing an entry concerns the directory only. -/
theorem removeEntryFromDirectory_runs (mounted : Mounted s) {dir : Nat} (touches : touched dir)
    (rewrites : rewritten dir) (name : CString) :
    Runs touched rewritten s (removeEntryFromDirectory dir name s).2 := by
  cases found : s.lookup dir name with
  | none =>
    obtain ⟨transfers, result⟩ := removeEntryFromDirectory_absent mounted found
    rw [result]
    exact Runs.scanned s _ _
  | some entry =>
    obtain ⟨transfers, result⟩ := removeEntryFromDirectory_found mounted found
    have read : Runs touched rewritten s (s.scanned transfers (s.removed dir entry.2)) :=
      Runs.scanned s _ _
    have write := read.trans (writeInodeData_runs (read.mounted mounted) touches rewrites
      (s.removed dir entry.2).get ((s.entryCount dir - 1) * entrySize))
    rw [result]
    -- The result is passed on; the state is that of the write.
    split
    · rename_i t same
      rw [same] at write
      exact write
    · rename_i t same
      rw [same] at write
      exact write

/-- The state after an inode was rewritten with the whole of a content. -/
structure Written (s : SimpleFs) (index : Nat) (data : Nat → UInt8) (size : Nat) (t : SimpleFs) :
    Prop where
  runs : Runs (· = index) (· = index) s t
  filled : Filled index data size t
  type : (t.inodeTable.get index).type = (s.inodeTable.get index).type
  linkCount : (t.inodeTable.get index).linkCount = (s.inodeTable.get index).linkCount
  allocation : ∀ j, t.inodeUsed j = s.inodeUsed j
  others : ∀ j, j ≠ index → t.inodeTable.get j = s.inodeTable.get j
  slots : ∀ j, j < maxInodes → s.inodeUsed j = true → j ≠ index → ∀ k, t.slot j k = s.slot j k
  exhausted : t.blocksExhausted = s.blocksExhausted
  free : t.freeBlocks + need size = s.capacity index

/-- The state after a rewrite of an inode ran out of blocks: its content is gone. -/
structure Lost (s : SimpleFs) (index size : Nat) (t : SimpleFs) : Prop where
  runs : Runs (· = index) (· = index) s t
  record : t.inodeTable.get index = emptied (s.inodeTable.get index)
  allocation : ∀ j, t.inodeUsed j = s.inodeUsed j
  others : ∀ j, j ≠ index → t.inodeTable.get j = s.inodeTable.get j
  exhausted : t.blocksExhausted = true
  shortage : s.capacity index < need size

/-- A rewritten inode reads as the content it was given. -/
theorem Written.bytes {index size : Nat} {data : Nat → UInt8} {t : SimpleFs}
    (written : Written s index data size t) (fits : size ≤ maxFileSize) (offset bufferSize : Nat) :
    t.bytes index offset bufferSize =
      (List.range (min (size - offset) bufferSize)).map fun p => data (offset + p) :=
  -- The blocks were filled with the content.
  written.filled.bytes fits offset bufferSize

/-- Rewriting one inode changes nothing about whether another is a directory. -/
theorem Written.readable_iff {index size : Nat} {data : Nat → UInt8} {t : SimpleFs}
    (written : Written s index data size t) {dir : Nat} (other : dir ≠ index) :
    t.Readable dir ↔ s.Readable dir := by
  -- Readability looks at the record and the mark of the other inode.
  unfold SimpleFs.Readable
  rw [written.others dir other, written.allocation]

/-- Rewriting one inode leaves the bytes of another alone. -/
theorem Written.bytes_other {index size : Nat} {data : Nat → UInt8} {t : SimpleFs}
    (written : Written s index data size t) (mounted : Mounted s) {j : Nat}
    (inTable : j < maxInodes) (used : s.inodeUsed j = true) (other : j ≠ index)
    (offset bufferSize : Nat) : t.bytes j offset bufferSize = s.bytes j offset bufferSize :=
  -- The run touches the rewritten inode alone.
  (written.runs.moves.kept mounted inTable used other).2.2 offset bufferSize

/-- A rewrite of an allocated inode gives it the content, or loses it for want of blocks. -/
theorem writeInodeData_cases (mounted : Mounted s) {index size : Nat} (inTable : index < maxInodes)
    (used : s.inodeUsed index = true) (fits : size ≤ maxFileSize) (data : Nat → UInt8) :
    (∃ t, writeInodeData index data size s = (true, t) ∧ Frame s t ∧
      Written s index data size t) ∨
    (∃ t, writeInodeData index data size s = (false, t) ∧ Lost s index size t) := by
  -- With room for the content it is stored, without it the inode is left empty.
  have allocation : ∀ {t : SimpleFs} {body : List (Nat × Sector)}, Rewritten s index body t →
      ∀ j, t.inodeUsed j = s.inodeUsed j := by
    intro t body done j
    unfold SimpleFs.inodeUsed
    rw [done.inodeBitmap]
  rcases writeInodeData_sound data mounted.sound mounted.geometry inTable used fits
      (mounted.inside inTable used) with
    ⟨t, body, result, done, filled, exhausted, free⟩ |
    ⟨t, body, result, done, record, exhausted, shortage⟩
  · left
    refine ⟨t, result, done.effect.frame, Runs.update inTable rfl rfl done.effect, filled,
      done.type, done.linkCount, allocation done, done.effect.others, ?_, exhausted, free⟩
    intro j small usedJ other k
    exact done.effect.slot_other mounted.owned small usedJ other k
  · right
    exact ⟨t, result, Runs.update inTable rfl rfl done.effect, record, allocation done,
      done.effect.others, exhausted, shortage⟩

/-- Rewriting an inode, whatever comes of it, allocates and frees no inode. -/
theorem writeInodeData_allocation (mounted : Mounted s) (index : Nat) (data : Nat → UInt8)
    (size j : Nat) : (writeInodeData index data size s).2.inodeUsed j = s.inodeUsed j := by
  -- The inode bitmap is in the frame of each of the outcomes.
  by_cases allowed : index < maxInodes ∧ s.inodeUsed index = true ∧ size ≤ maxFileSize
  · obtain ⟨inTable, used, fits⟩ := allowed
    rcases writeInodeData_cases mounted inTable used fits data with
      ⟨t, result, -, written⟩ | ⟨t, result, lost⟩
    · rw [result]
      exact written.allocation j
    · rw [result]
      exact lost.allocation j
  · rw [writeInodeData_refused allowed]

/-- Appending an entry, whatever comes of it, allocates and frees no inode. -/
theorem appendEntryToDirectory_allocation (mounted : Mounted s) (dir : Nat) (name : CString)
    (child j : Nat) :
    (appendEntryToDirectory dir name child s).2.inodeUsed j = s.inodeUsed j := by
  -- The directory is read and rewritten, and neither moves an inode mark.
  obtain ⟨transfers, result⟩ := appendEntryToDirectory_sound mounted dir name child
  rw [result]
  split
  · exact writeInodeData_allocation ((Quiet.scanned s _ _).mounted mounted) _ _ _ j
  · rfl

/-- Reads and changes of the scratch buffers do not change what a rewrite has to spare. -/
theorem Quiet.capacity {t : SimpleFs} (quiet : Quiet s t) (mounted : Mounted s) {index : Nat}
    (inTable : index < maxInodes) (used : s.inodeUsed index = true) :
    t.capacity index = s.capacity index := by
  -- Free blocks and held places are the same.
  have free : t.freeBlocks = s.freeBlocks := clearCount_congr fun b _ => quiet.marked b
  rw [(quiet.mounted mounted).capacity inTable (by rw [quiet.inodeUsed]; exact used),
    mounted.capacity inTable used, free]
  simp only [SimpleFs.heldSlots, quiet.slot]

/-- A rewrite that follows reads and changes of the scratch buffers, seen from before them. -/
theorem Written.after_quiet {t u : SimpleFs} {index size : Nat} {data : Nat → UInt8}
    (quiet : Quiet s t) (steady : Steady s t) (exhausted : t.blocksExhausted = s.blocksExhausted)
    (mounted : Mounted s) (inTable : index < maxInodes) (used : s.inodeUsed index = true)
    (written : Written t index data size u) : Written s index data size u where
  -- The quiet steps come first and concern nothing.
  runs := Runs.trans ⟨Moves.quiet quiet, steady⟩ written.runs
  filled := written.filled
  type := by rw [written.type, quiet.inodeTable]
  linkCount := by rw [written.linkCount, quiet.inodeTable]
  allocation := fun j => (written.allocation j).trans (quiet.inodeUsed j)
  others := fun j other => by rw [written.others j other, quiet.inodeTable]
  slots := fun j small usedJ other k => by
    rw [written.slots j small (by rw [quiet.inodeUsed]; exact usedJ) other, quiet.slot]
  exhausted := written.exhausted.trans exhausted
  free := by rw [written.free, quiet.capacity mounted inTable used]

/-- A lost rewrite that follows reads and changes of the scratch buffers, seen from before them. -/
theorem Lost.after_quiet {t u : SimpleFs} {index size : Nat} (quiet : Quiet s t)
    (steady : Steady s t) (mounted : Mounted s) (inTable : index < maxInodes)
    (used : s.inodeUsed index = true) (lost : Lost t index size u) : Lost s index size u where
  -- The quiet steps come first and concern nothing.
  runs := Runs.trans ⟨Moves.quiet quiet, steady⟩ lost.runs
  record := by rw [lost.record, quiet.inodeTable]
  allocation := fun j => (lost.allocation j).trans (quiet.inodeUsed j)
  others := fun j other => by rw [lost.others j other, quiet.inodeTable]
  exhausted := lost.exhausted
  shortage := by
    have := lost.shortage
    rwa [quiet.capacity mounted inTable used] at this

/-- Writing a directory back from a scratch buffer that was just prepared. -/
theorem writeDirectory_cases (mounted : Mounted s) {dir count : Nat} (inTable : dir < maxInodes)
    (used : s.inodeUsed dir = true) (fits : count ≤ maxDirectoryEntries) (transfers : Nat)
    (scratch : Scratch) :
    (∃ t, writeInodeData dir scratch.get (count * entrySize) (s.scanned transfers scratch) =
        (true, t) ∧ Written s dir scratch.get (count * entrySize) t ∧
        t.directoryScratch = scratch) ∨
    (∃ t, writeInodeData dir scratch.get (count * entrySize) (s.scanned transfers scratch) =
        (false, t) ∧ Lost s dir (count * entrySize) t) := by
  -- Preparing the buffer is quiet, so the rewrite decides.
  have bound : count * entrySize ≤ maxFileSize := by
    simp only [maxDirectoryEntries, maxFileSize, entrySize] at fits ⊢
    omega
  have quiet : Quiet s (s.scanned transfers scratch) := Quiet.scanned s transfers scratch
  have steady : Steady s (s.scanned transfers scratch) := ⟨rfl, rfl, rfl⟩
  rcases writeInodeData_cases (quiet.mounted mounted) inTable
      (by rw [quiet.inodeUsed]; exact used) bound scratch.get with
    ⟨t, result, frame, written⟩ | ⟨t, result, lost⟩
  · exact Or.inl ⟨t, result, written.after_quiet quiet steady rfl mounted inTable used,
      frame.directoryScratch⟩
  · exact Or.inr ⟨t, result, lost.after_quiet quiet steady mounted inTable used⟩

end Blocks

end MyOS.Fs
