import MyOS.Fs.Mount
import MyOS.Fs.Paths
import MyOS.Fs.Shifts

/-! Whole sessions: open files stay files, and names stay unique, in every state reached. -/

namespace MyOS.Fs

/-- What `simplefs_list` prints behind a name. -/
inductive ListedAs where
  | stale
  | directory
  | bytes (size : Nat)
  deriving DecidableEq

/-- How `simplefs_list` describes the inode of an entry. -/
def listedAs (s : SimpleFs) (inode : UInt32) : ListedAs :=
  if inode.toNat ≥ maxInodes || !s.inodeUsed inode.toNat then .stale
  else if (s.inodeTable.get inode.toNat).type == typeDirectory then .directory
  else .bytes (s.inodeTable.get inode.toNat).size.toNat

/-- `simplefs_list`: the names it prints, each with its description; none where it fails. -/
def simplefsList (s : SimpleFs) : Option (List (List UInt8 × ListedAs)) × SimpleFs :=
  if !s.fsMounted then (none, s)
  else
    match readDirectoryEntries s.currentDirectory s with
    | (none, s) => (none, s)
    | (some count, s) =>
      let shown := (List.range count).filter fun slot =>
        !(entryInode s.directoryScratch slot == invalidInode || entrySpecial s.directoryScratch slot)
      (some (shown.map fun slot =>
        (slotName s.directoryScratch.get slot, listedAs s (entryInode s.directoryScratch slot))), s)

/--
`simplefs_print_working_directory`: the path it prints, if it ever ends.

A recursion deeper than there are inodes comes back to one of them, and does not end.
-/
def simplefsPrintWorkingDirectory (s : SimpleFs) : Option (List UInt8 × SimpleFs) :=
  if !s.fsMounted then some ([], s)
  else if s.currentDirectory = rootInode then some (slash.chars, s)
  else printPathToInode maxInodes s.currentDirectory s

/-- A call of the whole interface; those left out only read variables. -/
inductive SessionCall where
  | call (call : FsCall)
  | format
  | init
  | list
  | printWorkingDirectory

/-- Perform one call of the whole interface; what goes to the console is no answer. -/
def sessionStep (s : SimpleFs) : SessionCall → FsAnswer × SimpleFs
  | .call call => fsStep s call
  | .format => answer (simplefsFormat s)
  | .init => answer (simplefsInit s)
  | .list => (⟨0, []⟩, (simplefsList s).2)
  | .printWorkingDirectory =>
    (⟨0, []⟩, ((simplefsPrintWorkingDirectory s).map Prod.snd).getD s)

section Printing

variable {s : SimpleFs}

/-- Loading a directory only reads. -/
theorem readDirectoryEntries_alike (mounted : Mounted s) (dir : Nat) :
    Alike s (readDirectoryEntries dir s).2 := by
  -- A directory that can be read is scanned, another one is refused.
  by_cases readable : s.Readable dir
  · obtain ⟨transfers, read⟩ := readDirectoryEntries_sound mounted readable
    rw [read]
    exact Alike.scanned s _ _
  · rw [readDirectoryEntries_refused readable]
    exact Alike.refl s

/-- Listing the working directory only reads. -/
theorem simplefsList_alike (mounted : Mounted s) : Alike s (simplefsList s).2 := by
  -- Each outcome is the state after loading the directory.
  have read := readDirectoryEntries_alike mounted s.currentDirectory
  unfold simplefsList
  split
  · exact Alike.refl s
  · cases result : readDirectoryEntries s.currentDirectory s with
    | mk count t =>
      rw [result] at read
      cases count with
      | none => exact read
      | some count => exact read

/-- Looking for the parent of a directory only reads. -/
theorem getParentInode_alike (mounted : Mounted s) (dir : Nat) :
    Alike s (getParentInode dir s).2 := by
  -- The lookup scans the directory, the answer does not change the state.
  obtain ⟨transfers, find⟩ := findEntryInDirectory_sound mounted dir dotDot
  unfold getParentInode
  rw [find]
  cases s.lookup dir dotDot with
  | none => exact Alike.scanned s _ _
  | some entry => exact Alike.scanned s _ _

/-- Looking for the name of an inode only reads. -/
theorem findNameForInode_alike (mounted : Mounted s) (dir child : Nat) :
    Alike s (findNameForInode dir child s).2 := by
  -- The search goes over the buffer that was loaded.
  have read := readDirectoryEntries_alike mounted dir
  unfold findNameForInode
  cases result : readDirectoryEntries dir s with
  | mk count t =>
    rw [result] at read
    cases count with
    | none => exact read
    | some count =>
      simp only
      split <;> exact read

/-- Printing a path only reads, however deep it goes. -/
theorem printPathToInode_alike {bound index : Nat} {text : List UInt8} {t : SimpleFs}
    (mounted : Mounted s) (printed : printPathToInode bound index s = some (text, t)) :
    Alike s t := by
  induction bound generalizing s t index text with
  | zero => cases printed
  | succ bound ih =>
    have above := getParentInode_alike mounted index
    unfold printPathToInode at printed
    split at printed
    · cases printed
      exact Alike.refl s
    split at printed
    · rename_i u parent
      rw [parent] at above
      cases printed
      exact above
    rename_i inode u parent
    rw [parent] at above
    split at printed
    · cases printed
      exact above
    split at printed
    · cases printed
    rename_i front v first
    -- The parent prints first, and then the name is looked up.
    have mountedU := above.quiet.mounted mounted
    have soFar := above.trans (ih mountedU first)
    have named := findNameForInode_alike (soFar.quiet.mounted mounted) inode.toNat index
    split at printed
    · rename_i w missing
      rw [missing] at named
      cases printed
      exact soFar.trans named
    · rename_i name w found
      rw [found] at named
      cases printed
      exact soFar.trans named

/-- Printing the working directory only reads. -/
theorem simplefsPrintWorkingDirectory_alike (mounted : Mounted s) :
    Alike s (((simplefsPrintWorkingDirectory s).map Prod.snd).getD s) := by
  -- The recursion reads one directory after another.
  cases printed : simplefsPrintWorkingDirectory s with
  | none => exact Alike.refl s
  | some result =>
    obtain ⟨text, t⟩ := result
    unfold simplefsPrintWorkingDirectory at printed
    split at printed
    · cases printed
      exact Alike.refl s
    split at printed
    · cases printed
      exact Alike.refl s
    · exact printPathToInode_alike mounted printed

end Printing

/-- The invariants of a session. -/
structure Orderly (s : SimpleFs) : Prop where
  healthy : Healthy s
  catalogued : s.Catalogued
  files : ∀ fd, fd < maxOpenFiles → (s.openFiles.get fd).used = true →
    s.IsFile (s.openFiles.get fd).inodeIndex
  offsets : ∀ fd, fd < maxOpenFiles → (s.openFiles.get fd).used = true →
    (s.openFiles.get fd).offset ≤ maxFileSize

/-- A descriptor leads where it led before, at its old offset or one within the largest file. -/
structure Carried (s t : SimpleFs) (fd : Nat) : Prop where
  used : (s.openFiles.get fd).used = true
  inodeIndex : (t.openFiles.get fd).inodeIndex = (s.openFiles.get fd).inodeIndex
  offset : (t.openFiles.get fd).offset = (s.openFiles.get fd).offset ∨
    (t.openFiles.get fd).offset ≤ maxFileSize

/-- Every descriptor in use is carried over. -/
def Carries (s t : SimpleFs) : Prop :=
  ∀ fd, fd < maxOpenFiles → (t.openFiles.get fd).used = true → Carried s t fd

section Descriptors

variable {s t u : SimpleFs}

/-- An inode is open through one of the descriptors in use. -/
theorem inodeIsOpen_iff {index : Nat} : inodeIsOpen s index = true ↔
    ∃ fd, fd < maxOpenFiles ∧ (s.openFiles.get fd).used = true ∧
      (s.openFiles.get fd).inodeIndex = index := by
  -- The loop over the descriptors, as an existential.
  simp only [inodeIsOpen, List.any_eq_true, List.mem_range, Bool.and_eq_true, beq_iff_eq]

namespace Carries

/-- A table left alone is carried over. -/
theorem of_eq (same : t.openFiles = s.openFiles) : Carries s t := by
  -- Every descriptor is its own successor.
  intro fd _ used
  rw [same] at used
  exact ⟨used, by rw [same], Or.inl (by rw [same])⟩

/-- Carrying over is transitive. -/
theorem trans (first : Carries s t) (second : Carries t u) : Carries s u := by
  -- A descriptor in use at the end was in use all along.
  intro fd inside used
  have late := second fd inside used
  have early := first fd inside late.used
  refine ⟨early.used, late.inodeIndex.trans early.inodeIndex, ?_⟩
  rcases late.offset with same | within
  · rw [same]
    exact early.offset
  · exact Or.inr within

/-- Changing one descriptor carries the others over. -/
theorem of_set {fd : Nat} {file : OpenFile} (set : t.openFiles = s.openFiles.set fd file)
    (here : file.used = true → (s.openFiles.get fd).used = true ∧
      file.inodeIndex = (s.openFiles.get fd).inodeIndex ∧ file.offset ≤ maxFileSize) :
    Carries s t := by
  -- The changed descriptor is as the hypothesis says, the others are as they were.
  intro other inside used
  by_cases same : other = fd
  · subst same
    have now : t.openFiles.get other = file := by
      rw [set, FixedArray.get_set _ _ (show other < 8 from inside), if_pos rfl]
    rw [now] at used
    obtain ⟨before, index, within⟩ := here used
    exact ⟨before, by rw [now]; exact index, Or.inr (by rw [now]; exact within)⟩
  · have now : t.openFiles.get other = s.openFiles.get other := by
      rw [set, FixedArray.get_set_ne _ _ same]
    exact ⟨by rw [← now]; exact used, by rw [now], Or.inl (by rw [now])⟩

/-- Moving an offset within the largest file carries every descriptor over. -/
theorem withOffset (s : SimpleFs) (fd : Nat) {offset : Nat} (within : offset ≤ maxFileSize) :
    Carries s (s.withOffset fd offset) :=
  of_set rfl fun used => ⟨used, rfl, within⟩

end Carries

/-- In two states of one volume the same names are listed. -/
theorem SimpleFs.Catalogued.quiet (catalogued : s.Catalogued) (quiet : Quiet s t) :
    t.Catalogued := by
  -- The directories are the same.
  rintro dir ⟨inTable, used, type⟩
  obtain ⟨entries, listed, named⟩ := catalogued dir
    ⟨inTable, by rw [← quiet.inodeUsed]; exact used, by rw [← quiet.inodeTable]; exact type⟩
  exact ⟨entries, listed.quiet quiet, named⟩

namespace Orderly

/-- The part of the invariants that does not know the sizes of files. -/
theorem sane (orderly : Orderly s) : Sane s := by
  -- An open inode is open through some descriptor, whose file is valid.
  refine ⟨orderly.healthy.mounted, orderly.catalogued, fun index opened => ?_⟩
  obtain ⟨fd, inside, used, rfl⟩ := inodeIsOpen_iff.mp opened
  exact orderly.files fd inside used

/-- No file in an orderly session is longer than the largest one. -/
theorem size_le (orderly : Orderly s) {index : Nat} (inTable : index < maxInodes)
    (used : s.inodeUsed index = true) : (s.inodeTable.get index).size.toNat ≤ maxFileSize :=
  (orderly.healthy.shaped index inTable).size used

/-- A call that rewrites inodes leaves a session orderly. -/
theorem shifts (orderly : Orderly s) (shifts : Shifts s t) : Orderly t ∧ Carries s t := by
  -- Induction on the shifts, none of which touches the table of open files.
  have sane := orderly.sane.shifts shifts
  obtain ⟨healthy, same⟩ : Healthy t ∧ t.openFiles = s.openFiles := by
    clear sane
    induction shifts with
    | refl => exact ⟨orderly.healthy, rfl⟩
    | tail _ shift ih =>
      exact ⟨shift.runs.moves.healthy ih.1, shift.runs.steady.openFiles.trans ih.2⟩
  refine ⟨⟨healthy, sane.catalogued, fun fd inside used => ?_, fun fd inside used => ?_⟩,
    .of_eq same⟩
  · exact sane.files _ (inodeIsOpen_iff.mpr ⟨fd, inside, used, rfl⟩)
  · rw [same] at used ⊢
    exact orderly.offsets fd inside used

/-- A call that only reads the volume leaves a session orderly if its descriptors are. -/
theorem quiet (orderly : Orderly s) (quiet : Quiet s t)
    (opened : ∀ fd, fd < maxOpenFiles → (t.openFiles.get fd).used = true →
      Carried s t fd ∨
        s.IsFile (t.openFiles.get fd).inodeIndex ∧ (t.openFiles.get fd).offset ≤ maxFileSize) :
    Orderly t := by
  -- Files stay files, and each descriptor was carried over or newly opened on one.
  have isFile : ∀ {index}, s.IsFile index → t.IsFile index := by
    rintro index ⟨inTable, used, type⟩
    exact ⟨inTable, by rw [quiet.inodeUsed]; exact used, by rw [quiet.inodeTable]; exact type⟩
  have moves : Moves (fun _ => False) (fun _ => False) s t := Moves.quiet quiet
  refine ⟨moves.healthy orderly.healthy, orderly.catalogued.quiet quiet, ?_, ?_⟩
  · intro fd inside used
    rcases opened fd inside used with carried | ⟨file, -⟩
    · rw [carried.inodeIndex]
      exact isFile (orderly.files fd inside carried.used)
    · exact isFile file
  · intro fd inside used
    rcases opened fd inside used with carried | ⟨-, within⟩
    · rcases carried.offset with same | within
      · rw [same]
        exact orderly.offsets fd inside carried.used
      · exact within
    · exact within

/-- A call that only reads the volume and carries its descriptors over. -/
theorem carried (orderly : Orderly s) (quiet : Quiet s t) (carries : Carries s t) :
    Orderly t ∧ Carries s t :=
  ⟨orderly.quiet quiet fun fd inside used => Or.inl (carries fd inside used), carries⟩

end Orderly

/-- Changing the working directory leaves the descriptors alone. -/
theorem simplefsChangeDir_openFiles (mounted : Mounted s) (name : CString) :
    (simplefsChangeDir name s).2.openFiles = s.openFiles := by
  -- No branch of the source writes to the table.
  unfold simplefsChangeDir
  split
  · rfl
  split
  · rfl
  obtain ⟨transfers, find⟩ := findEntryInDirectory_sound mounted s.currentDirectory name
  rw [find]
  cases s.lookup s.currentDirectory name with
  | none => rfl
  | some entry =>
    simp only
    split <;> rfl

/-- Opening a file leaves the descriptors alone, or takes an unused one for a file. -/
theorem simplefsOpen_cases (mounted : Mounted s) (name : CString) :
    (simplefsOpen name s).2.openFiles = s.openFiles ∨
    ∃ fd index, (simplefsOpen name s).1 = (fd : Nat) ∧ fd < maxOpenFiles ∧ s.IsFile index ∧
      (simplefsOpen name s).2.openFiles = s.openFiles.set fd
        { used := true, inodeIndex := index, offset := 0
          name := name.chars.take (nameCapacity - 1) } := by
  -- Each check that fails returns first, after them the first unused slot is taken.
  unfold simplefsOpen
  split
  · exact Or.inl rfl
  obtain ⟨transfers, find⟩ := findEntryInDirectory_sound mounted s.currentDirectory name
  rw [find]
  cases s.lookup s.currentDirectory name with
  | none => exact Or.inl rfl
  | some entry =>
    simp only
    split
    · exact Or.inl rfl
    rename_i leads
    rw [Bool.not_eq_true', Bool.not_eq_false] at leads
    split
    · exact Or.inl rfl
    · rename_i fd search
      have inside := List.mem_range.mp (List.mem_of_find?_eq_some search)
      exact Or.inr ⟨fd, entry.1.toNat, rfl, inside, entryLeadsTo_iff.mp leads, rfl⟩

/-- Reading through a descriptor moves its offset, but not behind the largest file. -/
theorem simplefsReadFd_carries (orderly : Orderly s) (fd : Int) (bufferSize : Nat) :
    Carries s (simplefsReadFd fd bufferSize s).2.2 := by
  have mounted := orderly.healthy.mounted
  unfold simplefsReadFd
  split
  · exact .of_eq rfl
  rename_i guard
  simp only [Bool.or_eq_true, Bool.not_eq_true', not_or, Bool.not_eq_false, fdUsed,
    Bool.and_eq_true, decide_eq_true_eq] at guard
  obtain ⟨-, ⟨low, high⟩, used⟩ := guard
  have inside : fd.toNat < maxOpenFiles := by omega
  obtain ⟨inTable, allocated, -⟩ := orderly.files _ inside used
  obtain ⟨transfers, read⟩ := readInodeBytes_sound mounted.sound mounted.geometry inTable
    allocated (s.openFiles.get fd.toNat).offset bufferSize
  simp only [read]
  -- What is read ends where the file ends, at the latest.
  have within : (s.openFiles.get fd.toNat).offset +
      (s.bytes (s.openFiles.get fd.toNat).inodeIndex (s.openFiles.get fd.toNat).offset
        bufferSize).length ≤ maxFileSize := by
    have start := orderly.offsets _ inside used
    have size := orderly.size_le inTable allocated
    rw [(orderly.healthy.shaped _ inTable).bytes allocated, List.length_map, List.length_range]
    omega
  exact Carries.trans (t := s.scanned transfers s.directoryScratch) (.of_eq rfl)
    (.withOffset _ _ (Nat.le_trans (Nat.mod_le _ _) within))

/-- Closing a descriptor leaves the others alone. -/
theorem simplefsClose_carries (s : SimpleFs) (fd : Int) : Carries s (simplefsClose fd s).2 := by
  -- The slot closed is no longer in use.
  unfold simplefsClose
  split
  · exact .of_eq rfl
  · exact .of_set rfl nofun

/-- Moving an offset keeps it within the file. -/
theorem simplefsSeek_carries (orderly : Orderly s) (fd : Int) (offset : Nat) :
    Carries s (simplefsSeek fd offset s).2 := by
  -- The offset is clamped to the size of the file.
  unfold simplefsSeek
  split
  · exact .of_eq rfl
  simp only
  split
  · exact .of_eq rfl
  · rename_i guard
    simp only [Bool.or_eq_true, not_or, decide_eq_true_eq, Bool.not_eq_true', Bool.not_eq_false,
      ge_iff_le, Nat.not_le, gt_iff_lt, Nat.not_lt] at guard
    obtain ⟨⟨inTable, allocated⟩, within⟩ := guard
    exact .withOffset s _ (within.trans (orderly.size_le inTable allocated))

/-- Every call leaves a session orderly, and only opening a file gives out a descriptor. -/
theorem fsStep_orderly (orderly : Orderly s) (call : FsCall) :
    Orderly (fsStep s call).2 ∧
    ∀ fd, fd < maxOpenFiles → ((fsStep s call).2.openFiles.get fd).used = true →
      Carried s (fsStep s call).2 fd ∨
        (∃ name, call = .open_ name) ∧ (fsStep s call).1.code = fd := by
  have mounted := orderly.healthy.mounted
  have sane := orderly.sane
  -- Calls that open nothing carry every descriptor over.
  have only : ∀ {t : SimpleFs} {opens : Nat → Prop}, Orderly t ∧ Carries s t → Orderly t ∧
      ∀ fd, fd < maxOpenFiles → (t.openFiles.get fd).used = true → Carried s t fd ∨ opens fd :=
    fun ⟨next, carries⟩ => ⟨next, fun fd inside used => Or.inl (carries fd inside used)⟩
  cases call with
  | create name => exact only (orderly.shifts (.single (simplefsCreate_shift sane name)))
  | delete name => exact only (orderly.shifts (.single (simplefsDelete_shift sane name)))
  | makeDir name => exact only (orderly.shifts (.single (simplefsMakeDir_shift sane name)))
  | removeDir name => exact only (orderly.shifts (.single (simplefsRemoveDir_shift sane name)))
  | changeDir name =>
    exact only (orderly.carried (simplefsChangeDir_quiet mounted name)
      (.of_eq (simplefsChangeDir_openFiles mounted name)))
  | readFile name bufferSize =>
    have alike := simplefsReadFile_alike mounted name bufferSize
    exact only (orderly.carried alike.quiet (.of_eq alike.steady.openFiles))
  | writeFile name data => exact only (orderly.shifts (simplefsWriteFile_shifts sane name _ _))
  | appendFile name data => exact only (orderly.shifts (simplefsAppendFile_shifts sane name _ _))
  | open_ name =>
    have quiet := simplefsOpen_quiet mounted name
    rcases simplefsOpen_cases mounted name with same | ⟨fd, index, code, inside, file, set⟩
    · exact only (orderly.carried quiet (.of_eq same))
    · have here : (simplefsOpen name s).2.openFiles.get fd =
          { used := true, inodeIndex := index, offset := 0
            name := name.chars.take (nameCapacity - 1) } := by
        rw [set, FixedArray.get_set _ _ (show fd < 8 from inside), if_pos rfl]
      have others : ∀ other, other ≠ fd → ((simplefsOpen name s).2.openFiles.get other).used = true →
          Carried s (simplefsOpen name s).2 other := by
        intro other different used
        have now : (simplefsOpen name s).2.openFiles.get other = s.openFiles.get other := by
          rw [set, FixedArray.get_set_ne _ _ different]
        exact ⟨by rw [← now]; exact used, by rw [now], Or.inl (by rw [now])⟩
      refine ⟨orderly.quiet quiet fun other _ used => ?_, fun other _ used => ?_⟩
      · by_cases same : other = fd
        · have new : (fsStep s (.open_ name)).2.openFiles.get other = _ := same ▸ here
          rw [new]
          exact Or.inr ⟨file, Nat.zero_le _⟩
        · exact Or.inl (others other same used)
      · by_cases same : other = fd
        · rw [same]
          exact Or.inr ⟨⟨name, rfl⟩, code⟩
        · exact Or.inl (others other same used)
  | close fd => exact only (orderly.carried (simplefsClose_quiet s fd) (simplefsClose_carries s fd))
  | readFd fd bufferSize =>
    exact only (orderly.carried (simplefsReadFd_quiet mounted fd bufferSize)
      (simplefsReadFd_carries orderly fd bufferSize))
  | writeFd fd data =>
    obtain ⟨t, shifts, result⟩ := simplefsWriteFd_shifts sane fd (data.getD · 0) data.length
    have written := orderly.shifts shifts
    rcases result with same | ⟨-, stop, within, same⟩
    · have state : (fsStep s (.writeFd fd data)).2 = t := same
      rw [state]
      exact only written
    · -- The offset moves once the file is written.
      have state : (fsStep s (.writeFd fd data)).2 = t.withOffset fd.toNat stop := same
      rw [state]
      have moved := written.1.carried (withOffset_quiet t fd.toNat stop) (.withOffset t _ within)
      exact only ⟨moved.1, written.2.trans moved.2⟩
  | seek fd offset =>
    exact only (orderly.carried (simplefsSeek_quiet s fd offset)
      (simplefsSeek_carries orderly fd offset))

/-- A session with no file open is orderly if its volume is. -/
theorem Orderly.closed (healthy : Healthy s) (catalogued : s.Catalogued)
    (closed : s.openFiles = .fill closedFile) : Orderly s := by
  -- No descriptor is in use, so nothing is asked of them.
  have unused : ∀ fd, fd < maxOpenFiles → (s.openFiles.get fd).used ≠ true := by
    intro fd inside
    rw [closed, FixedArray.get_fill _ (show fd < 8 from inside)]
    nofun
  exact ⟨healthy, catalogued, fun fd inside used => absurd used (unused fd inside),
    fun fd inside used => absurd used (unused fd inside)⟩

/-- A fresh volume starts an orderly session. -/
theorem Formatted.orderly (formatted : Formatted t) : Orderly t := by
  refine .closed formatted.healthy (fun dir directory => ?_) formatted.openFiles
  exact ⟨_, formatted.tree.listed dir directory, WellNamed.dots _ _⟩

/-- Mounting the volume again starts another orderly session on it. -/
theorem simplefsInit_orderly (orderly : Orderly s) :
    Orderly (simplefsInit s).2 ∧ (simplefsInit s).2.openFiles = .fill closedFile := by
  -- The volume on the disk is the one in memory, and mounting closes every descriptor.
  have healthy := orderly.healthy
  obtain ⟨t, result, remounted, boot, info, table⟩ :=
    healthy.mounted.remount healthy.synced healthy.mounted.sound rfl
  have quiet : Quiet s t :=
    ⟨remounted.ata, boot, info, table, fun before => remounted.exhausted.trans before⟩
  rw [result]
  refine ⟨orderly.quiet quiet fun fd inside used => ?_, remounted.openFiles⟩
  rw [remounted.openFiles, FixedArray.get_fill _ (show fd < 8 from inside)] at used
  cases used

/-- Every call of the whole interface leaves a session orderly, and only opening opens. -/
theorem sessionStep_orderly (orderly : Orderly s) (call : SessionCall) :
    Orderly (sessionStep s call).2 ∧
    ∀ fd, fd < maxOpenFiles → ((sessionStep s call).2.openFiles.get fd).used = true →
      Carried s (sessionStep s call).2 fd ∨
        (∃ name, call = .call (.open_ name)) ∧ (sessionStep s call).1.code = fd := by
  -- One case for each call of the interface.
  have mounted := orderly.healthy.mounted
  have fresh : ∀ {t : SimpleFs}, t.openFiles = .fill closedFile →
      ∀ fd, fd < maxOpenFiles → (t.openFiles.get fd).used ≠ true := by
    intro t closed fd inside
    rw [closed, FixedArray.get_fill _ (show fd < 8 from inside)]
    nofun
  have reads : ∀ {t : SimpleFs}, Alike s t → Orderly t ∧ Carries s t :=
    fun alike => orderly.carried alike.quiet (.of_eq alike.steady.openFiles)
  cases call with
  | call call =>
    obtain ⟨next, opened⟩ := fsStep_orderly orderly call
    refine ⟨next, fun fd inside used => (opened fd inside used).imp_right ?_⟩
    rintro ⟨⟨name, rfl⟩, code⟩
    exact ⟨⟨name, rfl⟩, code⟩
  | format =>
    obtain ⟨t, format, formatted⟩ := simplefsFormat_sound mounted.sound
    have state : (sessionStep s .format).2 = t := congrArg Prod.snd format
    rw [state]
    exact ⟨formatted.orderly, fun fd inside used => absurd used (fresh formatted.openFiles fd inside)⟩
  | init =>
    obtain ⟨next, closed⟩ := simplefsInit_orderly orderly
    exact ⟨next, fun fd inside used => absurd used (fresh closed fd inside)⟩
  | list =>
    obtain ⟨next, carries⟩ := reads (simplefsList_alike mounted)
    exact ⟨next, fun fd inside used => Or.inl (carries fd inside used)⟩
  | printWorkingDirectory =>
    obtain ⟨next, carries⟩ := reads (simplefsPrintWorkingDirectory_alike mounted)
    exact ⟨next, fun fd inside used => Or.inl (carries fd inside used)⟩

end Descriptors

/-- Every session from a fresh volume on is orderly. -/
theorem run_orderly {s : SimpleFs} (sound : s.ata.Sound) (calls : List SessionCall) :
    Orderly (runState sessionStep (simplefsFormat s).2 calls) := by
  -- Orderliness is kept by every call.
  obtain ⟨t, format, formatted⟩ := simplefsFormat_sound sound
  rw [format]
  exact runState_invariant sessionStep Orderly
    (fun s call _ orderly => (sessionStep_orderly orderly call).1) (fun _ _ => trivial)
    formatted.orderly

/--
Open files stay valid.

In every state of a session a descriptor in use leads to an allocated file, at an offset within
the largest file. It was given out by some call that opened a file; in every state since it has
led to the same inode, and that inode was an allocated file. No call allocates an inode after it
released one, so the file was not released in between either.
-/
theorem run_open_files_valid (s : SimpleFs) (calls : List SessionCall) (sound : s.ata.Sound)
    (fd : Nat) (inside : fd < maxOpenFiles)
    (used : ((runState sessionStep (simplefsFormat s).2 calls).openFiles.get fd).used = true) :
    let state := fun front => runState sessionStep (simplefsFormat s).2 front
    let file := (state calls).openFiles.get fd
    (state calls).IsFile file.inodeIndex ∧ file.offset ≤ 68608 ∧
    ∃ before name after, calls = before ++ .call (.open_ name) :: after ∧
      (sessionStep (state before) (.call (.open_ name))).1.code = fd ∧
      ∀ part, part <+: after →
        let later := state (before ++ .call (.open_ name) :: part)
        (later.openFiles.get fd).used = true ∧
        (later.openFiles.get fd).inodeIndex = file.inodeIndex ∧ later.IsFile file.inodeIndex := by
  intro state file
  have orderly : ∀ front, Orderly (state front) := run_orderly sound
  refine ⟨(orderly calls).files fd inside used, (orderly calls).offsets fd inside used, ?_⟩
  obtain ⟨t, format, formatted⟩ := simplefsFormat_sound sound
  have start : state [] = t := congrArg Prod.snd format
  -- What is traced back is that the descriptor leads to this inode.
  let leads : SimpleFs → Prop := fun s => (s.openFiles.get fd).used = true ∧
    (s.openFiles.get fd).inodeIndex = file.inodeIndex
  have traced : ∀ s call, Orderly s → leads (sessionStep s call).2 → leads s ∨
      (∃ name, call = .call (.open_ name)) ∧ (sessionStep s call).1.code = fd := by
    intro s call orderly holds
    rcases (sessionStep_orderly orderly call).2 fd inside holds.1 with carried | opens
    · exact Or.inl ⟨carried.used, carried.inodeIndex.symm.trans holds.2⟩
    · exact Or.inr opens
  have fresh : ¬ leads (state []) := by
    rintro ⟨used, -⟩
    rw [start, formatted.openFiles, FixedArray.get_fill _ (show fd < 8 from inside)] at used
    cases used
  obtain ⟨before, call, after, split, ⟨⟨name, rfl⟩, code⟩, since⟩ :=
    runState_since sessionStep Orderly leads _
      (fun s call orderly => (sessionStep_orderly orderly call).1) traced (orderly []) fresh calls
      ⟨used, rfl⟩
  refine ⟨before, name, after, split, code, fun part within => ?_⟩
  obtain ⟨usedThen, same⟩ := since part within
  have valid := (orderly (before ++ .call (.open_ name) :: part)).files fd inside usedThen
  exact ⟨usedThen, same, same ▸ valid⟩

/-- A file that is created, opened, emptied by its name and survives an attempt to delete it. -/
theorem run_open_files_valid_blank :
    let calls : List SessionCall := [.call (.writeFile ⟨[97], by decide⟩ [1, 2, 3]),
      .call (.open_ ⟨[97], by decide⟩), .call (.readFd 0 2),
      .call (.writeFile ⟨[97], by decide⟩ []), .call (.delete ⟨[97], by decide⟩)]
    ((runState sessionStep (simplefsFormat SimpleFs.blank).2 calls).openFiles.get 0).used = true ∧
    (runState sessionStep (simplefsFormat SimpleFs.blank).2 calls).IsFile
      ((runState sessionStep (simplefsFormat SimpleFs.blank).2 calls).openFiles.get 0).inodeIndex := by
  -- The run of the theorem, evaluated.
  intro calls
  have used : ((runState sessionStep (simplefsFormat SimpleFs.blank).2 calls).openFiles.get 0).used =
      true := by decide +kernel
  exact ⟨used, (run_open_files_valid _ _ ⟨rfl, fun _ => rfl⟩ 0 (by decide) used).1⟩

/--
Names are unique in every directory.

In every state of a session each allocated directory can be listed. No two of its entries have
the same name, and each name is `.`, `..` or a valid one, which leaves room for its terminator.
-/
theorem run_names_unique (s : SimpleFs) (calls : List SessionCall) (sound : s.ata.Sound) :
    let t := runState sessionStep (simplefsFormat s).2 calls
    ∀ dir, t.IsDir dir → ∃ entries, listing dir t = some entries ∧
      (entries.map Prod.snd).Nodup ∧
      ∀ entry ∈ entries, entry.2 = dot.chars ∨ entry.2 = dotDot.chars ∨
        ∃ name : CString, name.chars = entry.2 ∧ validName name = true ∧
          1 ≤ name.chars.length ∧ name.chars.length ≤ 27 := by
  intro t dir directory
  have orderly : Orderly t := run_orderly sound calls
  obtain ⟨entries, listed, named⟩ := orderly.catalogued dir directory
  refine ⟨_, listed.listing orderly.healthy.mounted, ?_, ?_⟩
  · -- The characters tell names apart.
    have chars : (entries.map fun entry => (entry.1, entry.2.chars)).map Prod.snd =
        (entries.map Prod.snd).map CString.chars := by
      rw [List.map_map, List.map_map]
      rfl
    rw [chars]
    exact named.distinct.map fun _ _ => CString.ext_chars
  · intro entry member
    obtain ⟨stored, inside, rfl⟩ := List.mem_map.mp member
    rcases named.lawful stored inside with special | special | valid
    · exact Or.inl (congrArg CString.chars special)
    · exact Or.inr (Or.inl (congrArg CString.chars special))
    · refine Or.inr (Or.inr ⟨stored.2, rfl, valid, ?_, ?_⟩)
      · have nonempty := valid
        simp only [validName, Bool.and_eq_true, Bool.not_eq_true', List.isEmpty_eq_false_iff]
          at nonempty
        exact List.length_pos_iff.mpr nonempty.1.1.1
      · exact Nat.le_of_lt_succ (validName.short valid)

/-- Two names in the root directory, one of them tried twice. -/
theorem run_names_unique_blank :
    SimpleFs.blank.ata.Sound ∧
    ∃ entries, listing rootInode (runState sessionStep (simplefsFormat SimpleFs.blank).2
      [.call (.create ⟨[97], by decide⟩), .call (.makeDir ⟨[97], by decide⟩),
        .call (.makeDir ⟨[98], by decide⟩)]) = some entries ∧ (entries.map Prod.snd).Nodup := by
  -- The names are distinct by the theorem, the entries are evaluated.
  have sound : SimpleFs.blank.ata.Sound := ⟨rfl, fun _ => rfl⟩
  have mounted := (run_orderly sound [.call (.create ⟨[97], by decide⟩),
    .call (.makeDir ⟨[97], by decide⟩), .call (.makeDir ⟨[98], by decide⟩)]).healthy.mounted
  obtain ⟨entries, listed, distinct, -⟩ := run_names_unique _ _ sound rootInode
    ⟨by decide, mounted.rootUsed, mounted.rootType⟩
  exact ⟨sound, entries, listed, distinct⟩

end MyOS.Fs
