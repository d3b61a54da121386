import MyOS.Fs.FileLaws
import MyOS.Fs.Listings

/-! Deleting files and removing directories, where directories are lists of entries. -/

namespace MyOS.Fs

/-- The state after an entry was taken out of a directory and the inode it led to released. -/
structure Unlinked (s : SimpleFs) (dir index : Nat) (entries : List Entry) (t : SimpleFs) :
    Prop where
  runs : Runs (fun i => i = dir ∨ i = index) (fun i => i = dir ∨ i = index) s t
  listed : Listed t dir entries
  free : t.inodeUsed index = false
  exhausted : t.blocksExhausted = s.blocksExhausted

/-- A name leads to a file that no descriptor has open. -/
structure SimpleFs.Deletable (s : SimpleFs) (name : CString) (index : Nat) : Prop where
  fsMounted : s.fsMounted = true
  named : s.fileNamed name = some index
  closed : inodeIsOpen s index = false

/-- A name leads to a directory, not the root, that holds nothing but the two special entries. -/
structure SimpleFs.Removable (s : SimpleFs) (name : CString) (index : Nat) : Prop where
  fsMounted : s.fsMounted = true
  found : ∃ inode slot, s.lookup s.currentDirectory name = some (inode, slot) ∧
    inode.toNat = index
  notRoot : index ≠ rootInode
  empty : ∃ entries, Listed s index entries ∧ ∀ entry ∈ entries, entry.2 = dot ∨ entry.2 = dotDot

section Unlink

variable {s : SimpleFs} {name : CString} {dir : Nat} {entries : List Entry}

/-- An entry that is there is taken out: the directory fits where it was. -/
theorem removeEntryFromDirectory_listed (mounted : Mounted s) (listed : Listed s dir entries)
    {inode : UInt32} {slot : Nat} (found : s.lookup dir name = some (inode, slot)) :
    ∃ t data size, removeEntryFromDirectory dir name s = (some inode, t) ∧
      Written s dir data size t ∧ Listed t dir (entries.eraseIdx slot) := by
  -- The entry was found below the count, and what is left needs no more room.
  obtain ⟨inTable, used, type, -⟩ := listed.readable
  obtain ⟨inside, -⟩ := List.getElem?_eq_some_iff.mp (listed.lookup_some found)
  obtain ⟨transfers, result⟩ := removeEntryFromDirectory_found mounted found
  have fits : s.entryCount dir - 1 ≤ maxDirectoryEntries :=
    Nat.le_trans (Nat.sub_le _ _) (entryCount_le s dir)
  rw [result]
  rcases writeDirectory_cases mounted inTable used fits transfers (s.removed dir slot) with
    ⟨t, write, written, -⟩ | ⟨t, -, lost⟩
  · rw [write]
    refine ⟨t, _, _, rfl, written, listed.remove inside written.filled ?_ ?_⟩
    · rw [written.allocation, used]
    · rw [written.type, type]
  · have := mounted.shrinks listed.readable
    have := lost.shortage
    omega

/-- Releasing an inode after a directory was rewritten spares that directory. -/
theorem Written.release {data : Nat → UInt8} {size index : Nat} {t : SimpleFs}
    {remaining : List Entry} (written : Written s dir data size t) (mounted : Mounted s)
    (listed : Listed t dir remaining) (inTable : index < maxInodes)
    (used : s.inodeUsed index = true) (notRoot : index ≠ rootInode) (other : index ≠ dir) :
    ∃ u, releaseInode index t = (true, u) ∧ Unlinked s dir index remaining u := by
  -- The directory is not the inode released, so its listing is kept.
  have mountedT := written.runs.mounted mounted
  obtain ⟨u, result, effect, free, exhausted⟩ :=
    releaseInode_sound mountedT inTable (by rw [written.allocation, used]) notRoot
  have release : Runs (· = index) (· = index) t u := Runs.update inTable rfl rfl effect
  refine ⟨u, result, ?_, ?_, free, exhausted.trans written.exhausted⟩
  · exact (written.runs.mono (fun i => Or.inl) fun i => Or.inl).trans
      (release.mono (fun i => Or.inr) fun i => Or.inr)
  · exact listed.kept mountedT release.moves (Ne.symm other)

/-- Storing a lower link count of the directory keeps its entries. -/
theorem Unlinked.links {index : Nat} {t : SimpleFs}
    (unlinked : Unlinked s s.currentDirectory index entries t) (mounted : Mounted s) :
    ∃ u, writeInodeTable t.unlinked = (true, u) ∧
      Unlinked s s.currentDirectory index entries u := by
  have cwd : t.currentDirectory = s.currentDirectory := unlinked.runs.steady.currentDirectory
  have mountedT := unlinked.runs.mounted mounted
  obtain ⟨inTable, used, -⟩ := unlinked.listed.readable
  rw [← cwd] at inTable used
  obtain ⟨write, effect⟩ := unlinked_effect mountedT inTable
  refine ⟨_, write, ?_, ?_, ?_, unlinked.exhausted⟩
  · exact unlinked.runs.trans (Runs.update inTable (Or.inl cwd) (Or.inl cwd) effect)
  · -- Only the link count of the directory changed.
    have record : (t.unlinked.logged (tableLog t.unlinked.inodeTable)).inodeTable.get
        t.currentDirectory = { t.inodeTable.get t.currentDirectory with
          linkCount := if (t.inodeTable.get t.currentDirectory).linkCount > 0
            then (t.inodeTable.get t.currentDirectory).linkCount - 1
            else (t.inodeTable.get t.currentDirectory).linkCount } := get_set_inode _ _ inTable
    have listed := unlinked.listed
    rw [← cwd] at listed ⊢
    refine listed.congr used (by rw [record]) (by rw [record]) fun offset bufferSize => ?_
    exact linkCount_bytes mountedT inTable used _ offset bufferSize
  · exact unlinked.free

/-- A file that cannot be deleted stays, and nothing else changes. -/
theorem simplefsDelete_refused (mounted : Mounted s) (refused : ∀ index, ¬ s.Deletable name index) :
    ∃ t, simplefsDelete name s = (false, t) ∧ Alike s t := by
  unfold simplefsDelete
  cases fsMounted : s.fsMounted with
  | false => exact ⟨s, rfl, Alike.refl s⟩
  | true =>
    obtain ⟨transfers, find⟩ := findEntryInDirectory_sound mounted s.currentDirectory name
    have looked := Looked.scanned s transfers
    simp only [Bool.not_true, Bool.false_eq_true, if_false, find]
    cases found : s.lookup s.currentDirectory name with
    | none => exact ⟨_, rfl, looked.alike⟩
    | some entry =>
      refine ⟨_, if_pos ?_, looked.alike⟩
      -- The entry leads to no file, or the file is open.
      rw [Bool.or_eq_true, Bool.not_eq_true', looked.leads]
      by_contra fine
      rw [not_or, Bool.not_eq_false, Bool.not_eq_true] at fine
      refine refused entry.1.toNat ⟨fsMounted, ?_, fine.2⟩
      simp only [SimpleFs.fileNamed, found, fine.1, if_true]

/-- A file that can be deleted is. -/
theorem simplefsDelete_deletable (mounted : Mounted s)
    (listed : Listed s s.currentDirectory entries) {index : Nat}
    (deletable : s.Deletable name index) :
    ∃ t slot, simplefsDelete name s = (true, t) ∧
      entries[slot]? = some (UInt32.ofNat index, name) ∧
      Unlinked s s.currentDirectory index (entries.eraseIdx slot) t := by
  obtain ⟨fsMounted, named, closed⟩ := deletable
  obtain ⟨inode, slot, found, leads, rfl⟩ := fileNamed_some named
  obtain ⟨inTable, used, regular⟩ := fileNamed_allocated named
  -- The root and the working directory are directories, so the file is neither.
  have notRoot : inode.toNat ≠ rootInode := by
    intro same
    rw [same, mounted.rootType] at regular
    cases regular
  have other : inode.toNat ≠ s.currentDirectory := by
    intro same
    rw [same, listed.readable.2.2.1] at regular
    cases regular
  obtain ⟨transfers, find⟩ := findEntryInDirectory_sound mounted s.currentDirectory name
  have looked := Looked.scanned s transfers
  have mountedT := looked.mounted mounted
  have listedT := listed.quiet looked.alike.quiet
  have foundT := (looked.lookup name).trans found
  have isOpen : inodeIsOpen (s.scannedDir s.currentDirectory transfers) inode.toNat = false := closed
  have member := listed.lookup_some found
  have cwd : (s.scannedDir s.currentDirectory transfers).currentDirectory = s.currentDirectory := rfl
  unfold simplefsDelete
  simp only [fsMounted, Bool.not_true, Bool.false_eq_true, if_false, find, found, looked.leads,
    leads, isOpen, Bool.or_false, cwd]
  obtain ⟨v, data, size, remove, written, remains⟩ :=
    removeEntryFromDirectory_listed mountedT listedT foundT
  obtain ⟨u, release, unlinked⟩ := written.release mountedT remains inTable used notRoot other
  -- Seen from before the lookup, the same entry went.
  have fromStart : Unlinked s s.currentDirectory inode.toNat (entries.eraseIdx slot) u :=
    ⟨looked.alike.runs.trans unlinked.runs, unlinked.listed, unlinked.free,
      unlinked.exhausted.trans looked.alike.exhausted⟩
  obtain ⟨t, link, done⟩ := fromStart.links mounted
  refine ⟨t, slot, ?_, by rw [UInt32.ofNat_toNat]; exact member, done⟩
  simp only [remove, release, unlinked_eq, link]

/-- A directory that cannot be removed stays, and nothing else changes. -/
theorem simplefsRemoveDir_refused (mounted : Mounted s)
    (directories : ∀ inode, entryLeadsTo inode typeDirectory s = true →
      ∃ entries, Listed s inode.toNat entries)
    (refused : ∀ index, ¬ s.Removable name index) :
    ∃ t, simplefsRemoveDir name s = (false, t) ∧ Alike s t := by
  unfold simplefsRemoveDir
  cases fsMounted : s.fsMounted with
  | false => exact ⟨s, rfl, Alike.refl s⟩
  | true =>
    obtain ⟨transfers, find⟩ := findEntryInDirectory_sound mounted s.currentDirectory name
    have looked := Looked.scanned s transfers
    have mountedT := looked.mounted mounted
    simp only [Bool.not_true, Bool.false_eq_true, if_false, find]
    cases found : s.lookup s.currentDirectory name with
    | none => exact ⟨_, rfl, looked.alike⟩
    | some entry =>
      simp only [looked.leads]
      by_cases fine : entry.1.toNat ≠ rootInode ∧ entryLeadsTo entry.1 typeDirectory s = true
      swap
      · refine ⟨_, if_pos ?_, looked.alike⟩
        rw [Bool.or_eq_true, Bool.not_eq_true', beq_iff_eq]
        by_contra both
        rw [not_or, Bool.not_eq_false] at both
        exact fine both
      obtain ⟨notRoot, leads⟩ := fine
      obtain ⟨target, listed⟩ := directories entry.1 leads
      have listedT := listed.quiet looked.alike.quiet
      obtain ⟨second, test⟩ := directoryIsEmpty_sound mountedT entry.1.toNat
      -- The directory holds something.
      have full : (List.range ((s.scannedDir s.currentDirectory transfers).entryCount
          entry.1.toNat)).all (entrySpecial
            ((s.scannedDir s.currentDirectory transfers).loaded entry.1.toNat)) = false := by
        rw [Bool.eq_false_iff]
        intro all
        exact refused entry.1.toNat ⟨fsMounted, ⟨entry.1, entry.2, found, rfl⟩, notRoot, target,
          listed, listedT.special_iff.mp all⟩
      rw [full, Bool.and_false] at test
      rw [if_neg (by simp [notRoot, leads]), test]
      exact ⟨_, rfl, looked.alike.trans (Alike.scanned _ _ _)⟩

/-- What removing a directory comes to: an entry is taken out, and the inode it led to released. -/
theorem simplefsRemoveDir_unlinks (mounted : Mounted s)
    (listed : Listed s s.currentDirectory entries) {index : Nat}
    (removable : s.Removable name index) :
    ∃ t u slot data size, simplefsRemoveDir name s = releaseInode index u ∧ Alike s t ∧
      entries[slot]? = some (UInt32.ofNat index, name) ∧
      Written t s.currentDirectory data size u ∧
      Listed u s.currentDirectory (entries.eraseIdx slot) := by
  obtain ⟨fsMounted, ⟨inode, slot, found, rfl⟩, notRoot, target, listedTarget, empty⟩ := removable
  obtain ⟨inTable, used, directory, -⟩ := listedTarget.readable
  have leads : entryLeadsTo inode typeDirectory s = true :=
    entryLeadsTo_iff.mpr ⟨inTable, used, directory⟩
  obtain ⟨transfers, find⟩ := findEntryInDirectory_sound mounted s.currentDirectory name
  have looked := Looked.scanned s transfers
  have mountedT := looked.mounted mounted
  have listedT := listedTarget.quiet looked.alike.quiet
  obtain ⟨second, test⟩ := directoryIsEmpty_sound mountedT inode.toNat
  rw [decide_eq_true listedT.readable, listedT.special_iff.mpr empty, Bool.and_self] at test
  -- The emptiness test leaves the other directory in the scratch buffer.
  have alike : Alike s ((s.scannedDir s.currentDirectory transfers).scannedDir inode.toNat second) :=
    looked.alike.trans (Alike.scanned _ _ _)
  have mountedU := alike.quiet.mounted mounted
  have listedU := listed.quiet alike.quiet
  have foundU := (listed.lookup_congr listedU name).trans found
  have member := listed.lookup_some found
  have cwd : ((s.scannedDir s.currentDirectory transfers).scannedDir inode.toNat
    second).currentDirectory = s.currentDirectory := rfl
  unfold simplefsRemoveDir
  simp only [fsMounted, Bool.not_true, Bool.false_eq_true, if_false, find, found, looked.leads,
    leads, Bool.or_false, beq_iff_eq, notRoot, test, cwd]
  obtain ⟨v, data, size, remove, written, remains⟩ :=
    removeEntryFromDirectory_listed mountedU listedU foundU
  refine ⟨_, v, slot, data, size, ?_, alike, by rw [UInt32.ofNat_toNat]; exact member, written,
    remains⟩
  simp only [remove]

/-- A directory that can be removed is, where it is not the working one. -/
theorem simplefsRemoveDir_removable (mounted : Mounted s)
    (listed : Listed s s.currentDirectory entries) {index : Nat}
    (removable : s.Removable name index) (other : index ≠ s.currentDirectory) :
    ∃ t slot, simplefsRemoveDir name s = (true, t) ∧
      entries[slot]? = some (UInt32.ofNat index, name) ∧
      Unlinked s s.currentDirectory index (entries.eraseIdx slot) t := by
  -- The directory is rewritten first, then the target is released.
  obtain ⟨t, u, slot, data, size, result, alike, member, written, remains⟩ :=
    simplefsRemoveDir_unlinks mounted listed removable
  obtain ⟨-, -, notRoot, target, listedTarget, -⟩ := removable
  obtain ⟨inTable, used, -⟩ := listedTarget.readable
  rw [← alike.quiet.inodeUsed] at used
  obtain ⟨v, release, unlinked⟩ := written.release (alike.quiet.mounted mounted) remains inTable
    used notRoot other
  exact ⟨v, slot, result.trans release, member, alike.runs.trans unlinked.runs, unlinked.listed,
    unlinked.free, unlinked.exhausted.trans alike.exhausted⟩

/-- A working directory that is removed through its own entry is gone, and nothing else is. -/
theorem simplefsRemoveDir_itself (mounted : Mounted s)
    (listed : Listed s s.currentDirectory entries)
    (removable : s.Removable name s.currentDirectory) :
    ∃ t, simplefsRemoveDir name s = (true, t) ∧
      Runs (· = s.currentDirectory) (· = s.currentDirectory) s t ∧
      t.inodeUsed s.currentDirectory = false := by
  -- The same two steps, only that the directory rewritten is the one released.
  obtain ⟨t, u, slot, data, size, result, alike, -, written, -⟩ :=
    simplefsRemoveDir_unlinks mounted listed removable
  have mountedU := written.runs.mounted (alike.quiet.mounted mounted)
  have used : u.inodeUsed s.currentDirectory = true := by
    rw [written.allocation, alike.quiet.inodeUsed]
    exact listed.readable.2.1
  obtain ⟨v, release, effect, free, -⟩ :=
    releaseInode_sound mountedU listed.readable.1 used removable.notRoot
  exact ⟨v, result.trans release, alike.runs.trans (written.runs.trans
    (Runs.update listed.readable.1 rfl rfl effect)), free⟩

end Unlink

end MyOS.Fs
