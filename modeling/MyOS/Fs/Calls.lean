import MyOS.Fs.FileLaws

/-! Every public call as a chain of updates, and formatting as the start of every run. -/

namespace MyOS.Fs

/-- The inodes the name or the descriptor of a call refers to. -/
def FsCall.Refers (s : SimpleFs) : FsCall → Nat → Prop
  | .create name, index => s.Names name index
  | .delete name, index => s.Names name index
  | .makeDir name, index => s.Names name index
  | .removeDir name, index => s.Names name index
  | .writeFile name _, index => s.Names name index
  | .appendFile name _, index => s.Names name index
  | .writeFd fd _, index => fdUsed fd s = true ∧ index = (s.openFiles.get fd.toNat).inodeIndex
  -- The other calls change no inode.
  | _, _ => False

/-- The inodes a call may touch: the working directory, free ones, and the one it refers to. -/
def FsCall.Touched (s : SimpleFs) (call : FsCall) (index : Nat) : Prop :=
  index = s.currentDirectory ∨ s.inodeUsed index = false ∨ call.Refers s index

/-- A name that is not there: entering it makes an inode, and rewrites the working directory. -/
def SimpleFs.Makes (s : SimpleFs) (name : CString) (index : Nat) : Prop :=
  s.lookup s.currentDirectory name = none ∧ s.Entering index

/-- A name that is there: taking it away rewrites the working directory. -/
def SimpleFs.Drops (s : SimpleFs) (name : CString) (index : Nat) : Prop :=
  (∃ entry, s.lookup s.currentDirectory name = some entry) ∧ index = s.currentDirectory

/-- The inodes whose data a call may rewrite: one that it only releases is not among them. -/
def FsCall.Rewritten (s : SimpleFs) : FsCall → Nat → Prop
  | .create name, index => s.Makes name index
  | .makeDir name, index => s.Makes name index
  | .delete name, index => s.Drops name index
  | .removeDir name, index => s.Drops name index
  -- A file that is there is rewritten, and nothing else is.
  | .writeFile name _, index => s.fileNamed name = some index ∨ s.Makes name index
  | .appendFile name _, index => s.fileNamed name = some index ∨ s.Makes name index
  | .writeFd fd _, index => fdUsed fd s = true ∧ index = s.fdInode fd
  -- The other calls only read the volume.
  | _, _ => False

section Calls

variable {s : SimpleFs}

/-- Changing the offset of a descriptor does not concern the volume. -/
theorem withOffset_quiet (s : SimpleFs) (fd offset : Nat) : Quiet s (s.withOffset fd offset) :=
  ⟨Ata.Extends.refl _, rfl, rfl, rfl, id⟩

/-- Writing through a descriptor concerns the file it leads to. -/
theorem simplefsWriteFd_moves (mounted : Mounted s) (fd : Int) (data : Nat → UInt8) (size : Nat)
    {touched : Nat → Prop} (refers : fdUsed fd s = true → touched (s.fdInode fd)) :
    Moves touched touched s (simplefsWriteFd fd data size s).2 := by
  -- The write is carried out, or refused after reads only.
  by_cases patchable : s.Patchable fd size
  · have touches := refers patchable.used
    obtain ⟨transfers, result⟩ := simplefsWriteFd_patchable mounted patchable data
    have alike := Alike.buffered s transfers (s.patched fd data size)
    have write := (Moves.quiet alike.quiet).trans (writeInodeData_moves
      (alike.quiet.mounted mounted) touches touches (s.patched fd data size).get
        (max (s.bytes (s.fdInode fd) 0 maxFileSize).length ((s.fdOffset fd + size) % 2 ^ 32)))
    rw [result]
    split
    · rename_i t same
      rw [same] at write
      exact write
    · -- The offset of the descriptor moves last.
      rename_i t same
      rw [same] at write
      exact write.trans (Moves.quiet (withOffset_quiet t _ _))
  · obtain ⟨t, result, alike⟩ := simplefsWriteFd_refused patchable data
    rw [result]
    exact Moves.quiet alike.quiet

/-- Changing the working directory only reads the volume. -/
theorem simplefsChangeDir_quiet (mounted : Mounted s) (name : CString) :
    Quiet s (simplefsChangeDir name s).2 := by
  -- The root is entered without a look at the disk.
  unfold simplefsChangeDir
  split
  · exact Quiet.refl s
  split
  · exact ⟨Ata.Extends.refl _, rfl, rfl, rfl, id⟩
  -- The name is looked up, and the working directory may change.
  obtain ⟨transfers, find⟩ := findEntryInDirectory_sound mounted s.currentDirectory name
  have read : Quiet s (s.scannedDir s.currentDirectory transfers) := Quiet.scanned s _ _
  rw [find]
  cases s.lookup s.currentDirectory name with
  | none => exact read
  | some entry =>
    simp only
    split
    · exact read
    · exact read.trans ⟨Ata.Extends.refl _, rfl, rfl, rfl, id⟩

/-- Opening a file only reads the volume. -/
theorem simplefsOpen_quiet (mounted : Mounted s) (name : CString) :
    Quiet s (simplefsOpen name s).2 := by
  unfold simplefsOpen
  split
  · exact Quiet.refl s
  -- The name is looked up, and a descriptor may be filled.
  obtain ⟨transfers, find⟩ := findEntryInDirectory_sound mounted s.currentDirectory name
  have read : Quiet s (s.scannedDir s.currentDirectory transfers) := Quiet.scanned s _ _
  rw [find]
  cases s.lookup s.currentDirectory name with
  | none => exact read
  | some entry =>
    simp only
    split
    · exact read
    · split
      · exact read
      · exact read.trans ⟨Ata.Extends.refl _, rfl, rfl, rfl, id⟩

/-- Reading through a descriptor only reads the volume. -/
theorem simplefsReadFd_quiet (mounted : Mounted s) (fd : Int) (bufferSize : Nat) :
    Quiet s (simplefsReadFd fd bufferSize s).2.2 := by
  unfold simplefsReadFd
  split
  · exact Quiet.refl s
  simp only
  -- The read succeeds, or the inode is refused and nothing moves.
  by_cases present : (s.openFiles.get fd.toNat).inodeIndex < maxInodes ∧
      s.inodeUsed (s.openFiles.get fd.toNat).inodeIndex = true
  · obtain ⟨transfers, read⟩ := readInodeBytes_sound mounted.sound mounted.geometry present.1
      present.2 (s.openFiles.get fd.toNat).offset bufferSize
    rw [read]
    exact (Quiet.scanned s _ _).trans (withOffset_quiet _ _ _)
  · rw [readInodeBytes_refused present]
    exact Quiet.refl s

/-- Closing a descriptor does not concern the volume. -/
theorem simplefsClose_quiet (s : SimpleFs) (fd : Int) : Quiet s (simplefsClose fd s).2 := by
  -- A refused descriptor changes nothing, a closed one only its own slot of the table.
  unfold simplefsClose
  split
  · exact Quiet.refl s
  · exact ⟨Ata.Extends.refl _, rfl, rfl, rfl, id⟩

/-- Moving an offset does not concern the volume. -/
theorem simplefsSeek_quiet (s : SimpleFs) (fd : Int) (offset : Nat) :
    Quiet s (simplefsSeek fd offset s).2 := by
  -- Whichever end the offset is clamped to, only the open file is replaced.
  unfold simplefsSeek
  split
  · exact Quiet.refl s
  · simp only
    split
    · exact Quiet.refl s
    · exact withOffset_quiet s _ _

/-- Entering a name concerns the inodes that entering it makes, or none if it is taken. -/
theorem enter_moves {name : CString} {t : SimpleFs}
    (enters : Moves s.Entering s.Entering s t)
    (taken : ∀ entry, s.lookup s.currentDirectory name = some entry → Quiet s t) :
    Moves (s.Makes name) (s.Makes name) s t := by
  -- A taken name is refused before anything is written.
  cases absent : s.lookup s.currentDirectory name with
  | none => exact enters.mono (fun i entering => ⟨absent, entering⟩) fun i entering => ⟨absent, entering⟩
  | some entry => exact Moves.quiet (taken entry absent)

/-- A file is not made under a name that is taken. -/
theorem simplefsCreate_taken (mounted : Mounted s) {name : CString} {entry : UInt32 × Nat}
    (found : s.lookup s.currentDirectory name = some entry) : Quiet s (simplefsCreate name s).2 := by
  -- The call ends with the search for the name.
  unfold simplefsCreate
  split
  · exact Quiet.refl s
  obtain ⟨transfers, find⟩ := findEntryInDirectory_sound mounted s.currentDirectory name
  rw [find, found]
  exact Quiet.scanned s _ _

/-- A directory is not made under a name that is taken. -/
theorem simplefsMakeDir_taken (mounted : Mounted s) {name : CString} {entry : UInt32 × Nat}
    (found : s.lookup s.currentDirectory name = some entry) : Quiet s (simplefsMakeDir name s).2 := by
  -- The call ends with the search for the name.
  unfold simplefsMakeDir
  split
  · exact Quiet.refl s
  obtain ⟨transfers, find⟩ := findEntryInDirectory_sound mounted s.currentDirectory name
  rw [find, found]
  exact Quiet.scanned s _ _

/-- Nothing is deleted under a name that is not there. -/
theorem simplefsDelete_absent (mounted : Mounted s) {name : CString}
    (absent : s.lookup s.currentDirectory name = none) : Quiet s (simplefsDelete name s).2 := by
  -- The call ends with the search for the name.
  unfold simplefsDelete
  split
  · exact Quiet.refl s
  obtain ⟨transfers, find⟩ := findEntryInDirectory_sound mounted s.currentDirectory name
  rw [find, absent]
  exact Quiet.scanned s _ _

/-- Nothing is removed under a name that is not there. -/
theorem simplefsRemoveDir_absent (mounted : Mounted s) {name : CString}
    (absent : s.lookup s.currentDirectory name = none) : Quiet s (simplefsRemoveDir name s).2 := by
  -- The call ends with the search for the name.
  unfold simplefsRemoveDir
  split
  · exact Quiet.refl s
  obtain ⟨transfers, find⟩ := findEntryInDirectory_sound mounted s.currentDirectory name
  rw [find, absent]
  exact Quiet.scanned s _ _

/-- Taking a name away concerns the working directory and what it leads to, or nothing. -/
theorem drop_moves {name : CString} {t : SimpleFs} (drops : Moves (s.Removing name) s.IsCurrent s t)
    (absent : s.lookup s.currentDirectory name = none → Quiet s t) :
    Moves (s.Removing name) (s.Drops name) s t := by
  -- A missing name is refused before anything is written.
  cases found : s.lookup s.currentDirectory name with
  | none => exact Moves.quiet (absent found)
  | some entry => exact drops.mono (fun _ removing => removing) fun i current => ⟨⟨entry, found⟩, current⟩

/-- A file that a name leads to is one that looking the name up can lead to. -/
theorem SimpleFs.Names.of_fileNamed (mounted : Mounted s) {name : CString} {index : Nat}
    (named : s.fileNamed name = some index) : s.Names name index := by
  -- The file was found by looking the name up.
  obtain ⟨inode, slot, found, -, rfl⟩ := fileNamed_some named
  exact SimpleFs.Names.of_find mounted found

/-- Writing under a name concerns the file that it leads to, or what entering it makes. -/
theorem simplefsWriteFile_moves (mounted : Mounted s) (name : CString) (data : Nat → UInt8) (size : Nat) :
    Moves (s.Writing name) (fun i => s.fileNamed name = some i ∨ s.Makes name i) s
      (simplefsWriteFile name data size s).2 := by
  cases found : s.lookup s.currentDirectory name with
  | some entry =>
    exact (simplefsWriteFile_found mounted found data size).moves.mono
      (fun i named => Or.inr (SimpleFs.Names.of_fileNamed mounted named)) fun i named => Or.inl named
  | none =>
    -- Without an entry nothing is there to be rewritten but the working directory.
    refine (simplefsWriteFile_absent mounted found data size).moves.mono
      (fun i entering => Or.inl entering) fun i entering => Or.inr ⟨found, entering⟩

/-- Appending under a name concerns what writing under it does. -/
theorem simplefsAppendFile_moves (mounted : Mounted s) (name : CString) (data : Nat → UInt8) (size : Nat) :
    Moves (s.Writing name) (fun i => s.fileNamed name = some i ∨ s.Makes name i) s
      (simplefsAppendFile name data size s).2 := by
  by_cases appendable : s.Appendable name size
  · obtain ⟨t, buffer, looked, result, -⟩ := simplefsAppendFile_appendable mounted appendable data
    rw [result]
    refine (Moves.quiet looked.alike.quiet).trans
      ((simplefsWriteFile_moves (looked.mounted mounted) name _ _).mono ?_ ?_)
    · rintro i (entering | names)
      · exact Or.inl (looked.entering entering)
      · exact Or.inr (SimpleFs.Names.alike mounted looked.alike names)
    · rintro i (named | ⟨absent, entering⟩)
      · rw [looked.fileNamed] at named
        exact Or.inl named
      · rw [looked.lookup] at absent
        exact Or.inr ⟨absent, looked.entering entering⟩
  · -- Nothing is written.
    obtain ⟨t, result, looked⟩ := simplefsAppendFile_refused mounted appendable data
    rw [result]
    exact Moves.quiet looked.alike.quiet

/-- What a call may rewrite it may touch. -/
theorem FsCall.Rewritten.touched (mounted : Mounted s) {call : FsCall} {index : Nat}
    (rewrites : call.Rewritten s index) : call.Touched s index := by
  -- What a call makes is the working directory or free, and otherwise the call refers to it.
  cases call with
  | create | makeDir =>
    rcases rewrites.2 with current | free
    · exact Or.inl current
    · exact Or.inr (Or.inl free.1)
  | delete | removeDir => exact Or.inl rewrites.2
  | writeFile | appendFile =>
    rcases rewrites with named | ⟨-, current | free⟩
    · exact Or.inr (Or.inr (SimpleFs.Names.of_fileNamed mounted named))
    · exact Or.inl current
    · exact Or.inr (Or.inl free.1)
  | writeFd => exact Or.inr (Or.inr rewrites)
  | _ => exact rewrites.elim

/-- Every call is a chain of updates of inodes it may touch. -/
theorem fsStep_moves (mounted : Mounted s) (call : FsCall) :
    Moves (call.Touched s) (call.Rewritten s) s (fsStep s call).2 := by
  -- What a call that enters a name makes is what it may touch.
  have toTouched : ∀ {call : FsCall} {name : CString} (i : Nat), s.Makes name i → call.Touched s i := by
    rintro call name i ⟨-, current | free⟩
    · exact Or.inl current
    · exact Or.inr (Or.inl free.1)
  -- What a name that is taken away leads to is what the call refers to.
  have removing : ∀ {call : FsCall} {name : CString}, (∀ i, s.Names name i → call.Refers s i) →
      ∀ i, s.Removing name i → call.Touched s i := by
    rintro call name refers i (current | names)
    · exact Or.inl current
    · exact Or.inr (Or.inr (refers i names))
  have writing : ∀ {call : FsCall} {name : CString}, (∀ i, s.Names name i → call.Refers s i) →
      ∀ i, s.Writing name i → call.Touched s i := by
    rintro call name refers i ((current | free) | names)
    · exact Or.inl current
    · exact Or.inr (Or.inl free.1)
    · exact Or.inr (Or.inr (refers i names))
  -- Each call has its updates from the law of its function, and the inodes they concern are named here.
  cases call with
  | create name =>
    exact (enter_moves (simplefsCreate_runs mounted name).moves
      fun _ found => simplefsCreate_taken mounted found).mono toTouched fun _ makes => makes
  | delete name =>
    exact (drop_moves (simplefsDelete_runs mounted).moves (simplefsDelete_absent mounted)).mono
      (removing fun _ names => names) fun _ drops => drops
  | makeDir name =>
    exact (enter_moves (simplefsMakeDir_runs mounted name).moves
      fun _ found => simplefsMakeDir_taken mounted found).mono toTouched fun _ makes => makes
  | removeDir name =>
    exact (drop_moves (simplefsRemoveDir_runs mounted).moves (simplefsRemoveDir_absent mounted)).mono
      (removing fun _ names => names) fun _ drops => drops
  -- The calls that only read have no updates.
  | changeDir name => exact Moves.quiet (simplefsChangeDir_quiet mounted name)
  | readFile name bufferSize =>
    exact Moves.quiet (simplefsReadFile_alike mounted name bufferSize).quiet
  | writeFile name data =>
    exact (simplefsWriteFile_moves mounted name _ _).mono (writing fun _ names => names)
      fun _ rewrites => rewrites
  | appendFile name data =>
    exact (simplefsAppendFile_moves mounted name _ _).mono (writing fun _ names => names)
      fun _ rewrites => rewrites
  | open_ name => exact Moves.quiet (simplefsOpen_quiet mounted name)
  | close fd =>
    exact Moves.quiet (simplefsClose_quiet s fd)
  | readFd fd bufferSize => exact Moves.quiet (simplefsReadFd_quiet mounted fd bufferSize)
  -- The inode of the descriptor is the one the call refers to.
  | writeFd fd data =>
    have moves : Moves (fun i => fdUsed fd s = true ∧ i = s.fdInode fd)
        (fun i => fdUsed fd s = true ∧ i = s.fdInode fd) s
        (simplefsWriteFd fd (data.getD · 0) data.length s).2 :=
      simplefsWriteFd_moves mounted fd _ _ fun used => ⟨used, rfl⟩
    exact moves.mono (fun i refers => Or.inr (Or.inr refers)) fun _ refers => refers
  | seek fd offset =>
    exact Moves.quiet (simplefsSeek_quiet s fd offset)

end Calls

end MyOS.Fs
