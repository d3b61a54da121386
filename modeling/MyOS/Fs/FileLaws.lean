import MyOS.Fs.RemoveLaws

/-! Reading and writing files, by name and through descriptors. -/

namespace MyOS.Fs

/-- The inodes a call that writes a named file may rewrite. -/
def SimpleFs.Writing (s : SimpleFs) (name : CString) (index : Nat) : Prop :=
  s.Entering index ∨ s.Names name index

section Files

variable {s : SimpleFs} {name : CString}

/-- A name leads where it led in a state like another. -/
theorem SimpleFs.Names.alike (mounted : Mounted s) {t : SimpleFs} (alike : Alike s t) {index : Nat}
    (names : t.Names name index) : s.Names name index := by
  -- The same lookup, seen from the earlier of two states that are alike.
  obtain ⟨scratch, inode, slot, found, rfl⟩ := names
  have same : Alike t { t with directoryScratch := scratch } :=
    ⟨⟨Ata.Extends.refl _, rfl, rfl, rfl, id⟩, ⟨rfl, rfl, rfl⟩, rfl⟩
  have both := alike.trans same
  obtain ⟨transfers, find⟩ :=
    findEntryInDirectory_sound (both.quiet.mounted mounted) t.currentDirectory name
  rw [find, alike.steady.currentDirectory] at found
  exact SimpleFs.Names.of_lookup mounted both.quiet found

/-- A state like another, in which the working directory would be loaded as in the other. -/
structure Looked (s t : SimpleFs) : Prop where
  alike : Alike s t
  loaded : t.loaded s.currentDirectory = s.loaded s.currentDirectory

namespace Looked

variable {t u : SimpleFs}

/-- A state was just looked at from itself. -/
theorem refl (s : SimpleFs) : Looked s s := ⟨Alike.refl s, rfl⟩

/-- Looking twice is looking once. -/
theorem trans (first : Looked s t) (second : Looked t u) : Looked s u := by
  -- The second look loads the directory that the first one loaded.
  have cwd := first.alike.steady.currentDirectory
  refine ⟨first.alike.trans second.alike, ?_⟩
  rw [← first.loaded, ← cwd]
  exact second.loaded

/-- Loading the working directory is loading it again. -/
theorem scanned (s : SimpleFs) (transfers : Nat) :
    Looked s (s.scannedDir s.currentDirectory transfers) :=
  ⟨Alike.scanned s _ _, loaded_scannedDir _ _⟩

/-- Looking leaves the volume mounted. -/
theorem mounted (looked : Looked s t) (mounted : Mounted s) : Mounted t :=
  looked.alike.quiet.mounted mounted

/-- Looking stays in the working directory. -/
theorem currentDirectory (looked : Looked s t) : t.currentDirectory = s.currentDirectory :=
  looked.alike.steady.currentDirectory

/-- Names lead where they led. -/
theorem lookup (looked : Looked s t) (name : CString) :
    t.lookup t.currentDirectory name = s.lookup s.currentDirectory name := by
  -- A lookup reads the loaded directory, which both states share.
  have quiet := looked.alike.quiet
  rw [looked.currentDirectory]
  simp only [SimpleFs.lookup, looked.loaded, quiet.readable, quiet.entryCount]

/-- An entry leads where it led. -/
theorem leads (looked : Looked s t) (inode : UInt32) (type : UInt8) :
    entryLeadsTo inode type t = entryLeadsTo inode type s := by
  -- The allocation and the type of the inode are as they were.
  have quiet := looked.alike.quiet
  simp only [entryLeadsTo, quiet.inodeUsed, quiet.inodeTable]

/-- A name can be entered exactly when it could before. -/
theorem enterable (looked : Looked s t) (name : CString) : t.Enterable name ↔ s.Enterable name := by
  -- The conditions are about the volume, which a look leaves alone.
  have quiet := looked.alike.quiet
  have cwd := looked.currentDirectory
  constructor
  · rintro ⟨fsMounted, valid, absent, inodes, readable, room⟩
    rw [cwd, quiet.entryCount] at room
    rw [cwd, quiet.readable] at readable
    simp only [quiet.inodeUsed] at inodes
    exact ⟨looked.alike.steady.fsMounted ▸ fsMounted, valid, looked.lookup name ▸ absent, inodes,
      readable, room⟩
  · rintro ⟨fsMounted, valid, absent, inodes, readable, room⟩
    refine ⟨looked.alike.steady.fsMounted.trans fsMounted, valid, (looked.lookup name).trans absent,
      ?_, ?_, ?_⟩
    · simpa only [quiet.inodeUsed] using inodes
    · rwa [cwd, quiet.readable]
    · rwa [cwd, quiet.entryCount]

/-- The inode that would be taken next is the same seen from either state. -/
theorem fresh (looked : Looked s t) {index : Nat} (fresh : t.Fresh index) : s.Fresh index := by
  -- The look changed no mark of an inode.
  simpa only [SimpleFs.Fresh, looked.alike.quiet.inodeUsed] using fresh

/-- The inodes a call may rewrite are the same seen from either state. -/
theorem entering (looked : Looked s t) {index : Nat} (entering : t.Entering index) :
    s.Entering index := by
  -- The working directory and the first free inode are the same.
  rcases entering with current | fresh
  · exact Or.inl (current.trans looked.currentDirectory)
  · exact Or.inr (looked.fresh fresh)

/-- A directory would grow to the same size. -/
theorem grownSize (looked : Looked s t) : t.grownSize = s.grownSize := by
  rw [SimpleFs.grownSize, looked.currentDirectory, looked.alike.quiet.entryCount]
  rfl

/-- A file created after the working directory was looked at, seen from before. -/
theorem created (looked : Looked s t) (mounted : Mounted s)
    (readable : s.Readable s.currentDirectory) {index : Nat} (created : Created t name index u) :
    Created s name index u := by
  -- Each fact about the created file is carried back over the look.
  have quiet := looked.alike.quiet
  have cwd := looked.currentDirectory
  have appended : t.appended s.currentDirectory name index =
      s.appended s.currentDirectory name index := by
    simp only [SimpleFs.appended, looked.loaded, quiet.entryCount]
  constructor
  case inTable => exact created.inTable
  case fresh => exact looked.fresh created.fresh
  case runs =>
    exact looked.alike.runs.trans (created.runs.mono (fun i => looked.entering)
      fun i => looked.entering)
  case allocation => exact fun j => by rw [created.allocation, quiet.inodeUsed]
  case record => exact created.record
  case others =>
    intro j notIndex notDir
    rw [created.others j notIndex (by rwa [cwd]), quiet.inodeTable]
  case dirType => exact cwd ▸ created.dirType
  case filled =>
    have filled := created.filled
    rwa [cwd, appended, looked.grownSize] at filled
  case scratch => rw [created.scratch, cwd, appended]
  case exhausted => exact created.exhausted.trans looked.alike.exhausted
  case free =>
    rw [← looked.grownSize, created.free, cwd, quiet.capacity mounted readable.1 readable.2.1]

/-- A directory lost after the working directory was looked at, seen from before. -/
theorem entryLost (looked : Looked s t) (lost : EntryLost t u) : EntryLost s u := by
  -- The look concerns nothing, so both steps together concern what the second does.
  have quiet := looked.alike.quiet
  have cwd := looked.currentDirectory
  refine ⟨looked.alike.runs.trans (lost.runs.mono (fun i => looked.entering)
    fun i => looked.entering), ?_, ?_, lost.exhausted⟩
  · rw [← cwd, lost.record, quiet.inodeTable]
  · intro j inTable
    rw [lost.allocation j inTable, quiet.inodeUsed]

end Looked

/-- The regular file a name leads to in the working directory. -/
def SimpleFs.fileNamed (s : SimpleFs) (name : CString) : Option Nat :=
  match s.lookup s.currentDirectory name with
  | none => none
  | some (inode, _) => if entryLeadsTo inode typeRegular s then some inode.toNat else none

/-- A name that leads to a file was found, and the file is allocated. -/
theorem fileNamed_some {index : Nat} (named : s.fileNamed name = some index) :
    ∃ inode slot, s.lookup s.currentDirectory name = some (inode, slot) ∧
      entryLeadsTo inode typeRegular s = true ∧ inode.toNat = index := by
  -- A name that is missing, or leads elsewhere, names no file.
  unfold SimpleFs.fileNamed at named
  cases found : s.lookup s.currentDirectory name with
  | none =>
    rw [found] at named
    cases named
  | some entry =>
    rw [found] at named
    simp only at named
    split at named
    · rename_i leads
      exact ⟨entry.1, entry.2, rfl, leads, Option.some.inj named⟩
    · cases named

/-- What it takes for an entry to lead to a file. -/
theorem entryLeadsTo_iff {inode : UInt32} {type : UInt8} :
    entryLeadsTo inode type s = true ↔ inode.toNat < maxInodes ∧
      s.inodeUsed inode.toNat = true ∧ (s.inodeTable.get inode.toNat).type = type := by
  -- The three tests of the source.
  simp only [entryLeadsTo, Bool.and_eq_true, decide_eq_true_eq, beq_iff_eq, and_assoc]

/-- A file a name leads to is in the table, allocated, and a regular file. -/
theorem fileNamed_allocated {index : Nat} (named : s.fileNamed name = some index) :
    index < maxInodes ∧ s.inodeUsed index = true ∧
      (s.inodeTable.get index).type = typeRegular := by
  -- The entry that was found passes the three tests.
  obtain ⟨inode, slot, -, leads, rfl⟩ := fileNamed_some named
  exact entryLeadsTo_iff.mp leads

/-- A name leads to the same file after a look. -/
theorem Looked.fileNamed {t : SimpleFs} (looked : Looked s t) (name : CString) :
    t.fileNamed name = s.fileNamed name := by
  simp only [SimpleFs.fileNamed, looked.lookup, looked.leads]

/-- A write to a named file gets as far as rewriting the file the name leads to. -/
structure SimpleFs.Replaceable (s : SimpleFs) (name : CString) (size index : Nat) : Prop where
  fsMounted : s.fsMounted = true
  valid : validName name = true
  fits : size ≤ maxFileSize
  named : s.fileNamed name = some index

/-- Writing a file that exists rewrites it, or loses it for want of blocks. -/
theorem simplefsWriteFile_existing (mounted : Mounted s) {size index : Nat}
    (replaceable : s.Replaceable name size index) (data : Nat → UInt8) :
    (∃ t, simplefsWriteFile name data size s = (true, t) ∧ Written s index data size t) ∨
    (∃ t, simplefsWriteFile name data size s = (false, t) ∧ Lost s index size t) := by
  -- The lookup finds the file, and the rewrite has room or it has not.
  obtain ⟨fsMounted, valid, fits, named⟩ := replaceable
  obtain ⟨inode, slot, found, leads, rfl⟩ := fileNamed_some named
  obtain ⟨inTable, used, -⟩ := fileNamed_allocated named
  obtain ⟨transfers, find⟩ := findEntryInDirectory_sound mounted s.currentDirectory name
  have looked := Looked.scanned s transfers
  unfold simplefsWriteFile
  rw [if_neg (by simp [fsMounted, valid]; omega), find, found]
  simp only [looked.leads, leads, Bool.not_true, Bool.false_eq_true, if_false]
  rcases writeInodeData_cases (looked.mounted mounted) inTable used fits data with
    ⟨t, result, -, written⟩ | ⟨t, result, lost⟩
  · exact Or.inl ⟨t, result, written.after_quiet looked.alike.quiet looked.alike.steady rfl mounted
      inTable used⟩
  · exact Or.inr ⟨t, result, lost.after_quiet looked.alike.quiet looked.alike.steady mounted
      inTable used⟩

/-- Writing a file that does not exist creates it and then writes it, as far as the blocks go. -/
theorem simplefsWriteFile_new (mounted : Mounted s) {size : Nat} (enterable : s.Enterable name)
    (fits : size ≤ maxFileSize) (data : Nat → UInt8) :
    (∃ t u index, simplefsWriteFile name data size s = (true, u) ∧ Created s name index t ∧
      Written t index data size u) ∨
    (∃ t u index, simplefsWriteFile name data size s = (false, u) ∧ Created s name index t ∧
      Lost t index size u) ∨
    (∃ t, simplefsWriteFile name data size s = (false, t) ∧ EntryLost s t ∧
      s.capacity s.currentDirectory < need s.grownSize) := by
  have readable := enterable.readable
  obtain ⟨transfers, find⟩ := findEntryInDirectory_sound mounted s.currentDirectory name
  have looked := Looked.scanned s transfers
  have mountedS := looked.mounted mounted
  unfold simplefsWriteFile
  rw [if_neg (by simp [enterable.fsMounted, enterable.valid]; omega), find, enterable.absent]
  simp only
  rcases simplefsCreate_enterable mountedS ((looked.enterable name).mpr enterable) with
    ⟨t, index, create, created⟩ | ⟨t, create, lost, shortage⟩
  swap
  · -- The directory was lost on the way.
    right; right
    rw [create]
    refine ⟨t, rfl, looked.entryLost lost, ?_⟩
    rw [← looked.grownSize, ← looked.alike.quiet.capacity mounted readable.1 readable.2.1]
    exact shortage
  have createdS := looked.created mounted readable created
  have mountedT := createdS.runs.mounted mounted
  have cwd : t.currentDirectory = s.currentDirectory := createdS.runs.steady.currentDirectory
  have used : t.inodeUsed index = true := by simp [createdS.allocation]
  obtain ⟨second, again⟩ := findEntryInDirectory_sound mountedT s.currentDirectory name
  have lookedT : Looked t (t.scannedDir s.currentDirectory second) := by
    rw [← cwd]
    exact Looked.scanned t second
  -- The name now leads to the new inode.
  have lookup := (createdS.lookup enterable).2.2
  rw [create]
  simp only [cwd]
  rw [again, lookup]
  simp only [toNat_ofNat_inode createdS.inTable]
  rcases writeInodeData_cases (lookedT.mounted mountedT) createdS.inTable used fits data with
    ⟨u, result, -, written⟩ | ⟨u, result, lost⟩
  · exact Or.inl ⟨t, u, index, result, createdS, written.after_quiet lookedT.alike.quiet
      lookedT.alike.steady rfl mountedT createdS.inTable used⟩
  · exact Or.inr (Or.inl ⟨t, u, index, result, createdS, lost.after_quiet lookedT.alike.quiet
      lookedT.alike.steady mountedT createdS.inTable used⟩)

/-- A write to a named file that can be neither replaced nor created is refused. -/
theorem simplefsWriteFile_refused (mounted : Mounted s) {size : Nat}
    (irreplaceable : ∀ index, ¬ s.Replaceable name size index)
    (refused : ¬ (s.Enterable name ∧ size ≤ maxFileSize)) (data : Nat → UInt8) :
    ∃ t, simplefsWriteFile name data size s = (false, t) ∧ Runs s.Fresh s.Fresh s t ∧
      t.blocksExhausted = s.blocksExhausted ∧
      ∀ j, j < maxInodes → t.inodeUsed j = s.inodeUsed j := by
  unfold simplefsWriteFile
  by_cases guard : s.fsMounted = true ∧ validName name = true ∧ size ≤ maxFileSize
  swap
  · -- Nothing was looked up yet.
    refine ⟨s, ?_, Runs.refl s, rfl, fun _ _ => rfl⟩
    rw [if_pos]
    simp only [Bool.or_eq_true, Bool.not_eq_true', decide_eq_true_eq]
    by_contra fine
    simp only [not_or, Bool.not_eq_false] at fine
    exact guard ⟨fine.1.1, fine.1.2, by omega⟩
  obtain ⟨fsMounted, valid, fits⟩ := guard
  obtain ⟨transfers, find⟩ := findEntryInDirectory_sound mounted s.currentDirectory name
  have looked := Looked.scanned s transfers
  rw [if_neg (by simp [fsMounted, valid]; omega), find]
  cases found : s.lookup s.currentDirectory name with
  | some entry =>
    -- The name leads to something that is not a regular file.
    have other : entryLeadsTo entry.1 typeRegular s = false := by
      by_contra leads
      rw [Bool.not_eq_false] at leads
      refine irreplaceable entry.1.toNat ⟨fsMounted, valid, fits, ?_⟩
      simp only [SimpleFs.fileNamed, found, leads, if_true]
    simp only [looked.leads, other, Bool.not_false, if_true]
    exact ⟨_, rfl, looked.alike.runs, rfl, fun _ _ => rfl⟩
  | none =>
    have unenterable : ¬ (s.scannedDir s.currentDirectory transfers).Enterable name := by
      rw [looked.enterable]
      exact fun enterable => refused ⟨enterable, fits⟩
    obtain ⟨t, create, runs, exhausted, allocation⟩ :=
      simplefsCreate_refused (looked.mounted mounted) unenterable
    simp only [create]
    exact ⟨t, rfl, looked.alike.runs.trans runs, exhausted, allocation⟩

/-- Writing under a name that is there concerns the file that it leads to. -/
theorem simplefsWriteFile_found (mounted : Mounted s) {entry : UInt32 × Nat}
    (found : s.lookup s.currentDirectory name = some entry) (data : Nat → UInt8) (size : Nat) :
    Runs (fun i => s.fileNamed name = some i) (fun i => s.fileNamed name = some i) s
      (simplefsWriteFile name data size s).2 := by
  by_cases existing : ∃ index, s.Replaceable name size index
  · -- The file is rewritten, or loses its content.
    obtain ⟨index, replaceable⟩ := existing
    have only : ∀ i, i = index → s.fileNamed name = some i := by
      rintro i rfl
      exact replaceable.named
    rcases simplefsWriteFile_existing mounted replaceable data with
      ⟨t, result, written⟩ | ⟨t, result, lost⟩
    · rw [result]
      exact written.runs.mono only only
    · rw [result]
      exact lost.runs.mono only only
  · -- The name leads to something that is not a file, or the call is refused at once.
    unfold simplefsWriteFile
    split
    · exact Runs.refl s
    · next guard =>
      obtain ⟨transfers, find⟩ := findEntryInDirectory_sound mounted s.currentDirectory name
      have looked := Looked.scanned s transfers
      simp only [Bool.or_eq_true, Bool.not_eq_true', decide_eq_true_eq, not_or, Bool.not_eq_false,
        Nat.not_lt] at guard
      have other : entryLeadsTo entry.1 typeRegular s = false := by
        by_contra leads
        rw [Bool.not_eq_false] at leads
        refine existing ⟨entry.1.toNat, guard.1.1, guard.1.2, guard.2, ?_⟩
        simp only [SimpleFs.fileNamed, found, leads, if_true]
      rw [find, found]
      simp only [looked.leads, other, Bool.not_false, if_true]
      exact looked.alike.runs

/-- Writing under a name that is not there concerns the working directory and the inode it takes. -/
theorem simplefsWriteFile_absent (mounted : Mounted s)
    (absent : s.lookup s.currentDirectory name = none) (data : Nat → UInt8) (size : Nat) :
    Runs s.Entering s.Entering s (simplefsWriteFile name data size s).2 := by
  have toFresh : ∀ i, s.Fresh i → s.Entering i := fun i free => Or.inr free
  by_cases new : s.Enterable name ∧ size ≤ maxFileSize
  · -- The inode of a new file was free.
    have toNew : ∀ {index : Nat}, s.Fresh index → ∀ i, i = index → s.Entering i := by
      rintro index fresh i rfl
      exact Or.inr fresh
    rcases simplefsWriteFile_new mounted new.1 new.2 data with
      ⟨t, u, index, result, created, written⟩ | ⟨t, u, index, result, created, lost⟩ |
        ⟨t, result, lost, -⟩
    · rw [result]
      exact created.runs.trans (written.runs.mono (toNew created.fresh) (toNew created.fresh))
    · rw [result]
      exact created.runs.trans (lost.runs.mono (toNew created.fresh) (toNew created.fresh))
    · rw [result]
      exact lost.runs
  · -- No file is there that could be replaced, and none is made.
    have irreplaceable : ∀ index, ¬ s.Replaceable name size index := by
      intro index replaceable
      obtain ⟨inode, slot, found, -⟩ := fileNamed_some replaceable.named
      rw [absent] at found
      cases found
    obtain ⟨t, result, runs, -⟩ := simplefsWriteFile_refused mounted irreplaceable new data
    rw [result]
    exact runs.mono toFresh toFresh

/-- Reading an inode does not load anything over the scratch buffer. -/
theorem Looked.reread (s : SimpleFs) (transfers : Nat) :
    Looked s (s.scanned transfers s.directoryScratch) := ⟨Alike.scanned s _ _, rfl⟩

/-- The file buffer does not matter to directories. -/
theorem Looked.refilled (s : SimpleFs) (buffer : Scratch) :
    Looked s { s with fileScratch := buffer } :=
  ⟨⟨⟨Ata.Extends.refl _, rfl, rfl, rfl, id⟩, ⟨rfl, rfl, rfl⟩, rfl⟩, rfl⟩

/-- Reading a named file only reads, and returns what the file the name leads to holds. -/
theorem simplefsReadFile_sound (mounted : Mounted s) (name : CString) (bufferSize : Nat) :
    ∃ t, Looked s t ∧ simplefsReadFile name bufferSize s =
      match if s.fsMounted then s.fileNamed name else none with
      | none => (false, [], t)
      | some index => (true, s.bytes index 0 bufferSize, t) := by
  -- A volume not mounted reads nothing, otherwise the name is looked up and its file read.
  unfold simplefsReadFile
  cases fsMounted : s.fsMounted with
  | false => exact ⟨s, Looked.refl s, rfl⟩
  | true =>
    obtain ⟨transfers, find⟩ := findEntryInDirectory_sound mounted s.currentDirectory name
    have looked := Looked.scanned s transfers
    simp only [Bool.not_true, Bool.false_eq_true, if_false, if_true, find, SimpleFs.fileNamed]
    cases s.lookup s.currentDirectory name with
    | none => exact ⟨_, looked, rfl⟩
    | some entry =>
      simp only [looked.leads]
      cases leads : entryLeadsTo entry.1 typeRegular s with
      | false => exact ⟨_, looked, rfl⟩
      | true =>
        obtain ⟨inTable, used, -⟩ := entryLeadsTo_iff.mp leads
        have mountedT := looked.mounted mounted
        obtain ⟨second, read⟩ :=
          readInodeBytes_sound mountedT.sound mountedT.geometry inTable used 0 bufferSize
        refine ⟨_, looked.trans (Looked.reread _ second), ?_⟩
        simp only [Bool.not_true, Bool.false_eq_true, if_false, if_true, read,
          looked.alike.quiet.bytes]

/-- Reading a named file only reads. -/
theorem simplefsReadFile_alike (mounted : Mounted s) (name : CString) (bufferSize : Nat) :
    Alike s (simplefsReadFile name bufferSize s).2.2 := by
  -- Each outcome is a look, after which at most the counter of transfers moved.
  obtain ⟨t, looked, result⟩ := simplefsReadFile_sound mounted name bufferSize
  rw [result]
  split
  · exact looked.alike
  · exact looked.alike

/-- The content of the file a name leads to, nothing when it leads to none. -/
def SimpleFs.contentNamed (s : SimpleFs) (name : CString) : List UInt8 :=
  match s.fileNamed name with
  | none => []
  | some index => s.bytes index 0 maxFileSize

/-- An append gets as far as writing the file from the buffer it prepared. -/
structure SimpleFs.Appendable (s : SimpleFs) (name : CString) (size : Nat) : Prop where
  small : size ≤ maxFileSize
  fits : (s.contentNamed name).length + size ≤ maxFileSize
  readable : s.lookup s.currentDirectory name = none ∨
    s.fsMounted = true ∧ ∃ index, s.fileNamed name = some index

/-- The content of a file is no longer than a file may be. -/
theorem contentNamed_length_le (s : SimpleFs) (name : CString) :
    (s.contentNamed name).length ≤ maxFileSize := by
  -- No file is empty, another one is read into a buffer of the greatest size.
  unfold SimpleFs.contentNamed
  split
  · exact Nat.zero_le _
  · exact bytes_length_le s _ 0 maxFileSize

/-- A buffer that had one run of bytes copied behind another holds both. -/
theorem get_blit_append (buffer : Scratch) (old new : List UInt8) {p : Nat}
    (inside : p < old.length + new.length) (fits : old.length + new.length ≤ maxFileSize) :
    ((buffer.blit 0 old).blit old.length new).get p = (old ++ new).getD p 0 := by
  -- A position is under the old bytes or behind them.
  simp only [maxFileSize] at fits
  rw [FixedArray.get_blit _ _ _ (by omega)]
  by_cases first : p < old.length
  · rw [if_neg (by omega), FixedArray.get_blit _ _ _ (by omega), if_pos (by omega), Nat.sub_zero,
      List.getD_append _ _ _ _ first]
    rfl
  · rw [if_pos (by omega), List.getD_append_right _ _ _ _ (by omega)]
    rfl

/-- An append writes the old content followed by the new bytes. -/
theorem simplefsAppendFile_appendable (mounted : Mounted s) {size : Nat}
    (appendable : s.Appendable name size) (data : Nat → UInt8) :
    ∃ (t : SimpleFs) (buffer : Scratch), Looked s t ∧
      simplefsAppendFile name data size s =
        simplefsWriteFile name buffer.get ((s.contentNamed name).length + size) t ∧
      ∀ p, p < (s.contentNamed name).length + size →
        buffer.get p = (s.contentNamed name ++ (List.range size).map data).getD p 0 := by
  obtain ⟨small, fits, readable⟩ := appendable
  have noWrap : ((s.contentNamed name).length + size) % 2 ^ 32 =
      (s.contentNamed name).length + size := by
    simp only [maxFileSize] at fits
    omega
  obtain ⟨transfers, find⟩ := findEntryInDirectory_sound mounted s.currentDirectory name
  have looked := Looked.scanned s transfers
  unfold simplefsAppendFile appendToScratch
  rw [if_neg (by omega), find]
  rcases readable with absent | ⟨fsMounted, index, named⟩
  · -- There is no file yet, so the buffer starts out with the new bytes.
    have content : s.contentNamed name = [] := by
      simp only [SimpleFs.contentNamed, SimpleFs.fileNamed, absent]
    rw [content, List.length_nil, Nat.zero_add] at fits noWrap
    simp only [absent, Nat.zero_add, noWrap, content, List.length_nil, List.nil_append]
    rw [if_neg (by omega)]
    refine ⟨_, (s.scannedDir s.currentDirectory transfers).fileScratch.blit 0
      ((List.range size).map data), looked.trans (Looked.refilled _ _), rfl, fun p inside => ?_⟩
    simp only [maxFileSize] at fits
    rw [FixedArray.get_blit _ _ _ (by omega), if_pos (by simp; omega)]
    rfl
  · -- The file is read into the buffer first.
    obtain ⟨inode, slot, found, -, -⟩ := fileNamed_some named
    obtain ⟨t, again, read⟩ :=
      simplefsReadFile_sound (looked.mounted mounted) name maxFileSize
    have content : s.contentNamed name = s.bytes index 0 maxFileSize := by
      simp only [SimpleFs.contentNamed, named]
    rw [if_pos (show (s.scannedDir s.currentDirectory transfers).fsMounted = true from fsMounted),
      looked.fileNamed, named] at read
    simp only [looked.alike.quiet.bytes, ← content] at read
    simp only [found, read, if_true, noWrap]
    rw [if_neg (by omega)]
    refine ⟨_, (t.fileScratch.blit 0 (s.contentNamed name)).blit (s.contentNamed name).length
      ((List.range size).map data), (looked.trans again).trans (Looked.refilled t _), rfl,
      fun p inside => ?_⟩
    exact get_blit_append _ _ _ (by simpa using inside) (by simpa using fits)

/-- An append that gets nowhere only reads. -/
theorem simplefsAppendFile_refused (mounted : Mounted s) {size : Nat}
    (refused : ¬ s.Appendable name size) (data : Nat → UInt8) :
    ∃ t, simplefsAppendFile name data size s = (false, t) ∧ Looked s t := by
  unfold simplefsAppendFile appendToScratch
  by_cases small : size ≤ maxFileSize
  swap
  · exact ⟨s, by rw [if_pos (by omega)], Looked.refl s⟩
  obtain ⟨transfers, find⟩ := findEntryInDirectory_sound mounted s.currentDirectory name
  have looked := Looked.scanned s transfers
  rw [if_neg (by omega), find]
  cases found : s.lookup s.currentDirectory name with
  | none =>
    -- Without a file, an append is refused only for its length.
    have content : s.contentNamed name = [] := by
      simp only [SimpleFs.contentNamed, SimpleFs.fileNamed, found]
    refine absurd ⟨small, ?_, Or.inl found⟩ refused
    rw [content, List.length_nil, Nat.zero_add]
    exact small
  | some entry =>
    obtain ⟨t, again, read⟩ := simplefsReadFile_sound (looked.mounted mounted) name maxFileSize
    have both := looked.trans again
    have buffered : ∀ buffer : Scratch, Looked s { t with fileScratch := buffer } := fun buffer =>
      both.trans (Looked.refilled t buffer)
    have mountFlag : (s.scannedDir s.currentDirectory transfers).fsMounted = s.fsMounted := rfl
    rw [mountFlag, looked.fileNamed] at read
    simp only [looked.alike.quiet.bytes] at read
    by_cases present : s.fsMounted = true ∧ ∃ index, s.fileNamed name = some index
    · -- The file was read, so the sum is too long.
      obtain ⟨fsMounted, index, named⟩ := present
      have content : s.contentNamed name = s.bytes index 0 maxFileSize := by
        simp only [SimpleFs.contentNamed, named]
      have long : ¬ (s.contentNamed name).length + size ≤ maxFileSize :=
        fun fits => refused ⟨small, fits, Or.inr ⟨fsMounted, index, named⟩⟩
      have bound := contentNamed_length_le s name
      have wrapped : ((s.contentNamed name).length + size) % 2 ^ 32 > maxFileSize := by
        simp only [maxFileSize] at long bound small ⊢
        omega
      simp only [fsMounted, if_true, named, ← content] at read
      simp only [read, if_true, if_pos wrapped]
      exact ⟨_, rfl, buffered _⟩
    · have nothing : (if s.fsMounted = true then s.fileNamed name else none) = none := by
        by_cases fsMounted : s.fsMounted = true
        · rw [if_pos fsMounted]
          cases named : s.fileNamed name with
          | none => rfl
          | some index => exact absurd ⟨fsMounted, index, named⟩ present
        · rw [if_neg fsMounted]
      rw [nothing] at read
      simp only [read, Bool.false_eq_true, if_false]
      exact ⟨_, rfl, buffered _⟩

/-- The inode a descriptor leads to. -/
def SimpleFs.fdInode (s : SimpleFs) (fd : Int) : Nat := (s.openFiles.get fd.toNat).inodeIndex

/-- The offset of a descriptor. -/
def SimpleFs.fdOffset (s : SimpleFs) (fd : Int) : Nat := (s.openFiles.get fd.toNat).offset

/-- The state with reads done and another file buffer. -/
def SimpleFs.buffered (s : SimpleFs) (transfers : Nat) (buffer : Scratch) : SimpleFs :=
  { s with ata := s.ata.afterReads transfers, fileScratch := buffer }

/-- Filling the buffer, and counting transfers, leaves the state alike. -/
theorem Alike.buffered (s : SimpleFs) (transfers : Nat) (buffer : Scratch) :
    Alike s (s.buffered transfers buffer) :=
  ⟨⟨Ata.Extends.afterReads _ _, rfl, rfl, rfl, id⟩, ⟨rfl, rfl, rfl⟩, rfl⟩

/-- The file buffer a write through a descriptor prepares: the file, a gap of zeros, the data. -/
def SimpleFs.patched (s : SimpleFs) (fd : Int) (data : Nat → UInt8) (size : Nat) : Scratch :=
  let bytes := s.bytes (s.fdInode fd) 0 maxFileSize
  ((s.fileScratch.blit 0 bytes).blit bytes.length
    (List.replicate (s.fdOffset fd - bytes.length) 0)).blit (s.fdOffset fd)
      ((List.range size).map data)

/-- A write through a descriptor gets as far as rewriting the file. -/
structure SimpleFs.Patchable (s : SimpleFs) (fd : Int) (size : Nat) : Prop where
  fsMounted : s.fsMounted = true
  used : fdUsed fd s = true
  fits : (s.fdOffset fd + size) % 2 ^ 32 ≤ maxFileSize
  inTable : s.fdInode fd < maxInodes
  allocated : s.inodeUsed (s.fdInode fd) = true

/-- A write through a descriptor rewrites the file from the buffer it prepared. -/
theorem simplefsWriteFd_patchable (mounted : Mounted s) {fd : Int} {size : Nat}
    (patchable : s.Patchable fd size) (data : Nat → UInt8) :
    ∃ transfers, simplefsWriteFd fd data size s =
      match writeInodeData (s.fdInode fd) (s.patched fd data size).get
          (max (s.bytes (s.fdInode fd) 0 maxFileSize).length ((s.fdOffset fd + size) % 2 ^ 32))
          (s.buffered transfers (s.patched fd data size)) with
      | (false, t) => (false, t)
      | (true, t) => (true, t.withOffset fd.toNat ((s.fdOffset fd + size) % 2 ^ 32)) := by
  -- The file is read into the buffer and patched there, then it is written back whole.
  obtain ⟨fsMounted, used, fits, inTable, allocated⟩ := patchable
  obtain ⟨transfers, read⟩ :=
    readInodeBytes_sound mounted.sound mounted.geometry inTable allocated 0 maxFileSize
  refine ⟨transfers, ?_⟩
  unfold simplefsWriteFd
  unfold SimpleFs.fdOffset at fits
  unfold SimpleFs.fdInode at read
  rw [if_neg (by simp [fsMounted, used])]
  simp only [if_neg (Nat.not_lt.mpr fits), read, Bool.not_true, Bool.false_eq_true, if_false]
  rfl

/-- A write through a descriptor that gets nowhere leaves the volume and the session alone. -/
theorem simplefsWriteFd_refused {fd : Int} {size : Nat}
    (refused : ¬ s.Patchable fd size) (data : Nat → UInt8) :
    ∃ t, simplefsWriteFd fd data size s = (false, t) ∧ Alike s t := by
  unfold simplefsWriteFd
  by_cases guard : s.fsMounted = true ∧ fdUsed fd s = true
  swap
  · refine ⟨s, ?_, Alike.refl s⟩
    rw [if_pos]
    simp only [Bool.or_eq_true, Bool.not_eq_true']
    by_contra fine
    simp only [not_or, Bool.not_eq_false] at fine
    exact guard fine
  rw [if_neg (by simp [guard.1, guard.2])]
  by_cases fits : ((s.openFiles.get fd.toNat).offset + size) % 2 ^ 32 ≤ maxFileSize
  swap
  · exact ⟨s, by simp only [if_pos (Nat.not_le.mp fits)], Alike.refl s⟩
  simp only [if_neg (Nat.not_lt.mpr fits)]
  -- The descriptor leads nowhere.
  have nowhere : ¬ ((s.openFiles.get fd.toNat).inodeIndex < maxInodes ∧
      s.inodeUsed (s.openFiles.get fd.toNat).inodeIndex = true) :=
    fun present => refused ⟨guard.1, guard.2, fits, present.1, present.2⟩
  rw [readInodeBytes_refused nowhere]
  exact ⟨_, rfl, Alike.buffered s s.ata.transfers _⟩

end Files

end MyOS.Fs
