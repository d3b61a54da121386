import MyOS.Fs.CreateLaws

/-! Deleting files and removing directories: the calls that take a name and its inode away. -/

namespace MyOS.Fs

/--
Looking a name up in the working directory can lead to an inode.

The scratch buffer is left open: where a stored name lacks its terminator, the comparison runs
on into whatever the buffer held before.
-/
def SimpleFs.Names (s : SimpleFs) (name : CString) (index : Nat) : Prop :=
  ∃ scratch inode slot, (findEntryInDirectory s.currentDirectory name
    { s with directoryScratch := scratch }).1 = some (inode, slot) ∧ inode.toNat = index

/-- The inodes a call that takes a name away may touch. -/
def SimpleFs.Removing (s : SimpleFs) (name : CString) (index : Nat) : Prop :=
  index = s.currentDirectory ∨ s.Names name index

/-- The one inode a call that takes a name away may rewrite. -/
def SimpleFs.IsCurrent (s : SimpleFs) (index : Nat) : Prop := index = s.currentDirectory

section Remove

variable {s : SimpleFs} {name : CString}

/-- Only a directory that can be read is searched. -/
theorem readable_of_lookup {dir : Nat} {entry : UInt32 × Nat}
    (found : s.lookup dir name = some entry) : s.Readable dir := by
  -- An unreadable directory finds nothing.
  by_contra refused
  rw [SimpleFs.lookup, if_neg refused] at found
  cases found

/-- The state after the link count of the working directory was taken down by one, if it could be. -/
def SimpleFs.unlinked (s : SimpleFs) : SimpleFs :=
  let parent := s.inodeTable.get s.currentDirectory
  s.withInode s.currentDirectory
    { parent with linkCount := if parent.linkCount > 0 then parent.linkCount - 1
                  else parent.linkCount }

/-- Taking down a link count that is zero already leaves the inode as it is. -/
theorem unlinked_eq (s : SimpleFs) :
    (if (s.inodeTable.get s.currentDirectory).linkCount > 0 then
        s.withInode s.currentDirectory { s.inodeTable.get s.currentDirectory with
          linkCount := (s.inodeTable.get s.currentDirectory).linkCount - 1 }
      else s) = s.unlinked := by
  -- A link count of zero is not lowered.
  unfold SimpleFs.unlinked
  by_cases positive : (s.inodeTable.get s.currentDirectory).linkCount > 0
  · simp only [if_pos positive]
  · simp only [if_neg positive]
    change s = { s with
      inodeTable := s.inodeTable.set s.currentDirectory (s.inodeTable.get s.currentDirectory) }
    rw [FixedArray.set_get]

/-- Storing the lowered link count is the last update of a deletion. -/
theorem unlinked_effect (mounted : Mounted s) (inTable : s.currentDirectory < maxInodes) :
    writeInodeTable s.unlinked = (true, s.unlinked.logged (tableLog s.unlinked.inodeTable)) ∧
      Effect s s.currentDirectory [] (tableLog s.unlinked.inodeTable)
        (s.unlinked.logged (tableLog s.unlinked.inodeTable)) :=
  -- Only the link count of one record differs.
  linkCount_effect mounted inTable _

/-- What a lookup finds, with any content of the scratch buffer, the name leads to. -/
theorem SimpleFs.Names.of_lookup (mounted : Mounted s) {t : SimpleFs} (quiet : Quiet s t)
    {inode : UInt32} {slot : Nat} (found : t.lookup s.currentDirectory name = some (inode, slot)) :
    s.Names name inode.toNat := by
  have same : Quiet s { s with directoryScratch := t.directoryScratch } :=
    ⟨Ata.Extends.refl _, rfl, rfl, rfl, id⟩
  obtain ⟨transfers, find⟩ :=
    findEntryInDirectory_sound (same.mounted mounted) s.currentDirectory name
  refine ⟨t.directoryScratch, inode, slot, ?_, rfl⟩
  rw [find, ← found]
  -- A lookup reads the scratch buffer and the volume, and both are those of the other state.
  have scratch : SimpleFs.loaded { s with directoryScratch := t.directoryScratch }
      s.currentDirectory = t.loaded s.currentDirectory := by
    simp only [SimpleFs.loaded, quiet.readable, same.readable, quiet.bytes, same.bytes]
  simp only [SimpleFs.lookup, scratch, quiet.readable, same.readable, quiet.entryCount,
    same.entryCount]

/-- A lookup that follows other lookups leads where the name does. -/
theorem SimpleFs.Names.of_find (mounted : Mounted s) {inode : UInt32} {slot : Nat}
    (found : s.lookup s.currentDirectory name = some (inode, slot)) : s.Names name inode.toNat :=
  SimpleFs.Names.of_lookup mounted (Quiet.refl s) found

/-- Taking an entry out of the working directory, whatever comes of it. -/
theorem removeEntry_current (name : CString) (mounted : Mounted s) {t : SimpleFs} (quiet : Quiet s t)
    (steady : Steady s t) :
    Runs (s.Removing name) s.IsCurrent t
        (removeEntryFromDirectory t.currentDirectory name t).2 ∧
      ∀ inode, (removeEntryFromDirectory t.currentDirectory name t).1 = some inode →
        s.Names name inode.toNat := by
  have mountedT := quiet.mounted mounted
  have cwd := steady.currentDirectory
  refine ⟨?_, ?_⟩
  · rw [cwd]
    have touches : s.Removing name s.currentDirectory := Or.inl rfl
    have rewrites : s.IsCurrent s.currentDirectory := rfl
    exact removeEntryFromDirectory_runs mountedT touches rewrites name
  · intro inode removed
    rw [cwd] at removed
    cases found : t.lookup s.currentDirectory name with
    | none =>
      obtain ⟨transfers, result⟩ := removeEntryFromDirectory_absent mountedT found
      rw [result] at removed
      cases removed
    | some entry =>
      obtain ⟨transfers, result⟩ := removeEntryFromDirectory_found mountedT found
      rw [result] at removed
      -- Only a rewrite that succeeds reports the inode, and it is the one looked up.
      split at removed
      · cases removed
      · cases removed
        exact SimpleFs.Names.of_lookup mounted quiet found

/-- Deleting a file concerns the working directory and the file. -/
theorem simplefsDelete_runs (mounted : Mounted s) :
    Runs (s.Removing name) s.IsCurrent s (simplefsDelete name s).2 := by
  unfold simplefsDelete
  split
  · exact Runs.refl s
  obtain ⟨transfers, find⟩ := findEntryInDirectory_sound mounted s.currentDirectory name
  have read : Runs (s.Removing name) s.IsCurrent s (s.scannedDir s.currentDirectory transfers) :=
    Runs.scanned s _ _
  rw [find]
  cases found : s.lookup s.currentDirectory name with
  | none => exact read
  | some entry =>
    simp only
    split
    · exact read
    · have quiet : Quiet s (s.scannedDir s.currentDirectory transfers) := Quiet.scanned s _ _
      obtain ⟨remove, named⟩ := removeEntry_current name mounted quiet read.steady
      cases removed : removeEntryFromDirectory
          (s.scannedDir s.currentDirectory transfers).currentDirectory name
          (s.scannedDir s.currentDirectory transfers) with
      | mk answer t =>
        rw [removed] at remove named
        have soFar := read.trans remove
        have mountedT := soFar.mounted mounted
        cases answer with
        | none => exact soFar
        | some inode =>
          simp only
          have release : Runs (s.Removing name) s.IsCurrent t (releaseInode inode.toNat t).2 ∧ _ :=
            releaseInode_runs mountedT (Or.inr (named inode rfl))
          cases released : releaseInode inode.toNat t with
          | mk ok u =>
            rw [released] at release
            have further := soFar.trans release.1
            cases ok with
            | false => exact further
            | true =>
              -- The link count of the working directory is stored last.
              simp only [unlinked_eq]
              have cwd := further.steady.currentDirectory
              have inTable : u.currentDirectory < maxInodes := by
                rw [cwd]
                exact (readable_of_lookup found).1
              obtain ⟨link, effect⟩ := unlinked_effect (further.mounted mounted) inTable
              rw [link]
              exact further.trans (Runs.update inTable (Or.inl cwd) cwd effect)

/-- Removing a directory concerns the working directory and the directory removed. -/
theorem simplefsRemoveDir_runs (mounted : Mounted s) :
    Runs (s.Removing name) s.IsCurrent s (simplefsRemoveDir name s).2 := by
  unfold simplefsRemoveDir
  split
  · exact Runs.refl s
  obtain ⟨transfers, find⟩ := findEntryInDirectory_sound mounted s.currentDirectory name
  have read : Runs (s.Removing name) s.IsCurrent s (s.scannedDir s.currentDirectory transfers) :=
    Runs.scanned s _ _
  rw [find]
  cases found : s.lookup s.currentDirectory name with
  | none => exact read
  | some entry =>
    simp only
    split
    · exact read
    · -- The emptiness test loads the other directory over the working directory.
      obtain ⟨second, empty, test⟩ : ∃ second empty, directoryIsEmpty entry.1.toNat
          (s.scannedDir s.currentDirectory transfers) =
            (empty, (s.scannedDir s.currentDirectory transfers).scannedDir entry.1.toNat second) := by
        obtain ⟨second, test⟩ := directoryIsEmpty_sound (read.mounted mounted) entry.1.toNat
        exact ⟨second, _, test⟩
      have again : Runs (s.Removing name) s.IsCurrent (s.scannedDir s.currentDirectory transfers)
          ((s.scannedDir s.currentDirectory transfers).scannedDir entry.1.toNat second) :=
        Runs.scanned _ _ _
      have quiet : Quiet s
          ((s.scannedDir s.currentDirectory transfers).scannedDir entry.1.toNat second) :=
        (Quiet.scanned s _ _).trans (Quiet.scanned _ _ _)
      have both := read.trans again
      rw [test]
      cases empty with
      | false => exact both
      | true =>
        obtain ⟨remove, named⟩ := removeEntry_current name mounted quiet both.steady
        simp only
        cases removed : removeEntryFromDirectory
            ((s.scannedDir s.currentDirectory transfers).scannedDir
              entry.1.toNat second).currentDirectory name
            ((s.scannedDir s.currentDirectory transfers).scannedDir entry.1.toNat second) with
        | mk answer t =>
          rw [removed] at remove named
          have soFar := both.trans remove
          cases answer with
          | none => exact soFar
          | some inode =>
            have release : Runs (s.Removing name) s.IsCurrent t (releaseInode inode.toNat t).2 ∧ _ :=
              releaseInode_runs (soFar.mounted mounted) (Or.inr (named inode rfl))
            exact soFar.trans release.1

end Remove

end MyOS.Fs
