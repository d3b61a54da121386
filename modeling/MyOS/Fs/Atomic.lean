import MyOS.Fs.Mount

/-! What a call that fails leaves behind, and exactly when that is what was there before. -/

namespace MyOS.Fs

/-- The entries of a directory, or the content of a regular file, are those of another state. -/
def IntactAt (s t : SimpleFs) (index : Nat) : Prop :=
  -- An inode of any other type has nothing a caller could see.
  ((s.inodeTable.get index).type = typeDirectory → listing index t = listing index s) ∧
  ((s.inodeTable.get index).type = typeRegular → ∀ offset bufferSize,
    (readInodeBytes index offset bufferSize t).1 = (readInodeBytes index offset bufferSize s).1 ∧
    (readInodeBytes index offset bufferSize t).2.1 = (readInodeBytes index offset bufferSize s).2.1)

/-- Every directory and every file of a state is as it was in an earlier one. -/
def Intact (s t : SimpleFs) : Prop :=
  ∀ index, index < maxInodes → s.inodeUsed index = true → IntactAt s t index

/-- An inode has something to lose: a file some bytes, or a directory some entries. -/
def SimpleFs.Loseable (s : SimpleFs) (index : Nat) : Prop :=
  (s.inodeTable.get index).type = typeRegular ∧
      (∃ offset bufferSize, (readInodeBytes index offset bufferSize s).2.1 ≠ []) ∨
    (s.inodeTable.get index).type = typeDirectory ∧ listing index s ≠ some []

section Intact

variable {s t : SimpleFs}

/-- What reading an allocated inode returns. -/
theorem readInodeBytes_used (mounted : Mounted s) {index : Nat} (inTable : index < maxInodes)
    (used : s.inodeUsed index = true) (offset bufferSize : Nat) :
    (readInodeBytes index offset bufferSize s).1 = true ∧
      (readInodeBytes index offset bufferSize s).2.1 = s.bytes index offset bufferSize := by
  -- The read of an inode that is used is not refused.
  have read := readInodeBytes_mounted mounted.sound mounted.geometry index offset bufferSize
  rw [if_pos ⟨inTable, used⟩] at read
  exact Prod.mk.inj read

/-- An inode that keeps its record and its bytes is as it was. -/
theorem IntactAt.of_kept (mounted : Mounted s) (mountedT : Mounted t) {index : Nat}
    (inTable : index < maxInodes) (used : s.inodeUsed index = true)
    (kept : t.inodeUsed index = true ∧ t.inodeTable.get index = s.inodeTable.get index ∧
      ∀ offset bufferSize, t.bytes index offset bufferSize = s.bytes index offset bufferSize) :
    IntactAt s t index := by
  obtain ⟨usedT, record, bytes⟩ := kept
  constructor
  · -- A listing is a function of the record and the bytes.
    intro directory
    rw [listing_eq mountedT, listing_eq mounted]
    simp only [SimpleFs.Readable, SimpleFs.entryCount, record, usedT, used, bytes]
  · intro file offset bufferSize
    obtain ⟨okT, readT⟩ := readInodeBytes_used mountedT inTable usedT offset bufferSize
    obtain ⟨ok, read⟩ := readInodeBytes_used mounted inTable used offset bufferSize
    rw [okT, readT, ok, read, bytes]
    exact ⟨rfl, rfl⟩

/-- What concerns no allocated inode leaves all of them as they were. -/
theorem Intact.of_fresh {rewritten : Nat → Prop} (mounted : Mounted s)
    (moves : Moves s.Fresh rewritten s t) : Intact s t := by
  -- An allocated inode is not fresh, so it is none of those concerned.
  intro index inTable used
  have untouched : ¬ s.Fresh index := SimpleFs.not_fresh used
  exact IntactAt.of_kept mounted (moves.mounted mounted) inTable used
    (moves.kept mounted inTable used untouched)

/--
A call that emptied one inode, and spared the others, did harm exactly if there was something
to lose.
-/
theorem intact_iff_of_emptied (mounted : Mounted s) (mountedT : Mounted t) {index : Nat}
    (inTable : index < maxInodes) (used : s.inodeUsed index = true)
    (usedT : t.inodeUsed index = true)
    (record : t.inodeTable.get index = emptied (s.inodeTable.get index))
    (spared : ∀ j, j < maxInodes → s.inodeUsed j = true → j ≠ index → IntactAt s t j) :
    Intact s t ↔ ¬ s.Loseable index := by
  -- Afterwards the inode reads as nothing, and lists nothing if it is a directory.
  have bytes : ∀ offset bufferSize, t.bytes index offset bufferSize = [] := by
    intro offset bufferSize
    unfold SimpleFs.bytes inodeBytes
    rw [record, if_pos (by simp [emptied])]
  have nothing : (s.inodeTable.get index).type = typeDirectory → listing index t = some [] := by
    intro directory
    have readable : t.Readable index := by
      refine ⟨inTable, usedT, ?_, ?_⟩
      · rw [record]
        exact directory
      · rw [record]
        exact Nat.zero_le _
    rw [listing_eq mountedT, if_pos readable, SimpleFs.entryCount, bytes]
    rfl
  constructor
  · -- What is intact now was empty before.
    intro intact
    obtain ⟨lists, reads⟩ := intact index inTable used
    rintro (⟨file, offset, bufferSize, content⟩ | ⟨directory, entries⟩)
    · have same := (reads file offset bufferSize).2
      rw [(readInodeBytes_used mountedT inTable usedT offset bufferSize).2, bytes] at same
      exact content same.symm
    · have same := lists directory
      rw [nothing directory] at same
      exact entries same.symm
  · intro safe j small usedJ
    by_cases this : j = index
    · subst this
      constructor
      · intro directory
        rw [nothing directory]
        by_contra differs
        exact safe (Or.inr ⟨directory, fun same => differs same.symm⟩)
      · intro file offset bufferSize
        rw [(readInodeBytes_used mountedT inTable usedT offset bufferSize).1,
          (readInodeBytes_used mounted inTable used offset bufferSize).1,
          (readInodeBytes_used mountedT inTable usedT offset bufferSize).2, bytes]
        refine ⟨rfl, ?_⟩
        by_contra differs
        exact safe (Or.inl ⟨file, offset, bufferSize, fun same => differs same.symm⟩)
    · exact spared j small usedJ this

/-- A rewrite that ran out of blocks did harm exactly if the inode had something to lose. -/
theorem Lost.intact_iff (mounted : Mounted s) {index size : Nat} (inTable : index < maxInodes)
    (used : s.inodeUsed index = true) (lost : Lost s index size t) :
    Intact s t ↔ ¬ s.Loseable index := by
  -- The other inodes are kept, and this one reads as nothing.
  have mountedT := lost.runs.mounted mounted
  refine intact_iff_of_emptied mounted mountedT inTable used (by rw [lost.allocation, used])
    lost.record fun j small usedJ other => ?_
  exact IntactAt.of_kept mounted mountedT small usedJ (lost.runs.moves.kept mounted small usedJ other)

/-- A name that could not be entered for want of blocks cost the working directory its entries. -/
theorem EntryLost.intact_iff (mounted : Mounted s) (readable : s.Readable s.currentDirectory)
    (lost : EntryLost s t) : Intact s t ↔ ¬ s.Loseable s.currentDirectory := by
  have mountedT := lost.runs.mounted mounted
  refine intact_iff_of_emptied mounted mountedT readable.1 readable.2.1
    (by rw [lost.allocation _ readable.1]; exact readable.2.1) lost.record
    fun j small usedJ other => ?_
  -- Only the working directory and free inodes were concerned.
  have untouched : ¬ s.Entering j := by
    rintro (current | free)
    · exact other current
    · exact SimpleFs.not_fresh usedJ free
  exact IntactAt.of_kept mounted mountedT small usedJ
    (lost.runs.moves.kept mounted small usedJ untouched)

/-- A new file whose content could not be stored leaves its name in the working directory. -/
theorem Created.not_intact (mounted : Mounted s) {name : CString} (enterable : s.Enterable name)
    {index size : Nat} {u : SimpleFs} (created : Created s name index t)
    (lost : Lost t index size u) : ¬ Intact s u := by
  intro intact
  have readable := enterable.readable
  obtain ⟨readableT, countT, -⟩ := created.lookup enterable
  have mountedT := created.runs.mounted mounted
  have mountedU := lost.runs.mounted mountedT
  have other : s.currentDirectory ≠ index := readable.ne_fresh created.fresh.1
  obtain ⟨usedU, record, bytes⟩ :=
    lost.runs.moves.kept mountedT readableT.1 readableT.2.1 other
  have same := (intact s.currentDirectory readable.1 readable.2.1).1 readable.2.2.1
  -- The listing grew by one entry.
  have readableU : u.Readable s.currentDirectory := by
    unfold SimpleFs.Readable
    rw [record]
    exact ⟨readable.1, usedU, readableT.2.2⟩
  rw [listing_eq mountedU, listing_eq mounted, if_pos readableU, if_pos readable] at same
  have lengths := congrArg List.length (Option.some.inj same)
  have countU : u.entryCount s.currentDirectory = s.entryCount s.currentDirectory + 1 := by
    rw [← countT, SimpleFs.entryCount, bytes]
    rfl
  simp only [entriesOf, List.length_map, List.length_range] at lengths
  omega

/-- What there is to lose is the same seen from a state like it. -/
theorem Quiet.loseable (quiet : Quiet s t) (mounted : Mounted s) (index : Nat) :
    t.Loseable index ↔ s.Loseable index := by
  -- It is told by the record and by what the inode reads as.
  obtain ⟨lists, reads⟩ := quiet.visible mounted index
  simp only [SimpleFs.Loseable, quiet.inodeTable, lists, fun o b => (reads o b).2]

/-- What is intact seen from one state of a volume is intact seen from another. -/
theorem Quiet.intact (quiet : Quiet s t) (mounted : Mounted s) {u : SimpleFs} :
    Intact t u ↔ Intact s u := by
  -- What the inodes read as is the same.
  unfold Intact IntactAt
  simp only [quiet.inodeUsed, quiet.inodeTable, fun i => (quiet.visible mounted i).1,
    fun i o b => ((quiet.visible mounted i).2 o b).1,
    fun i o b => ((quiet.visible mounted i).2 o b).2]

end Intact

/-- The calls that put something into the file system. -/
def FsCall.puts : FsCall → Bool
  | .create _ => true
  | .makeDir _ => true
  | .writeFile _ _ => true
  | .appendFile _ _ => true
  | .writeFd _ _ => true
  | _ => false

/-- A write of some bytes under a name fails with harm done. -/
def SimpleFs.WriteHarms (s : SimpleFs) (name : CString) (size : Nat) : Prop :=
  -- An existing file loses its content.
  (∃ index, s.Replaceable name size index ∧ s.capacity index < need size ∧ s.Loseable index) ∨
  -- A new one leaves its name behind, or costs the directory its entries.
  s.Enterable name ∧ size ≤ maxFileSize ∧
    s.capacity s.currentDirectory < need s.grownSize + need size ∧
    (need s.grownSize ≤ s.capacity s.currentDirectory ∨ s.Loseable s.currentDirectory)

/--
A call fails with harm done: it gets as far as rewriting an inode that has something to lose, and
the free blocks together with those the inode holds are too few for what is to be written.
-/
def FsCall.Harms (s : SimpleFs) : FsCall → Prop
  | .create name => s.Enterable name ∧ s.capacity s.currentDirectory < need s.grownSize ∧
      s.Loseable s.currentDirectory
  | .makeDir name => s.Enterable name ∧ 0 < s.freeBlocks ∧
      s.capacity s.currentDirectory < need s.grownSize + 1 ∧ s.Loseable s.currentDirectory
  | .writeFile name data => s.WriteHarms name data.length
  | .appendFile name data => s.Appendable name data.length ∧
      s.WriteHarms name ((s.contentNamed name).length + data.length)
  | .writeFd fd data => s.Patchable fd data.length ∧
      s.capacity (s.fdInode fd) < need (max (s.bytes (s.fdInode fd) 0 maxFileSize).length
        ((s.fdOffset fd + data.length) % 2 ^ 32)) ∧ s.Loseable (s.fdInode fd)
  | _ => False

/-- A call does no harm: if it fails, everything is as it was. -/
def Harmless (s : SimpleFs) (result : Bool × SimpleFs) : Prop :=
  result.1 = false → Intact s result.2

section Harm

variable {s t : SimpleFs} {name : CString} {result : Bool × SimpleFs} {harm : Prop}

/-- A call that succeeds is harmless, so its condition for harm must be false. -/
theorem harmless_of_success (succeeded : result = (true, t)) (safe : ¬ harm) :
    Harmless s result ↔ ¬ harm := by
  -- A success is harmless whatever became of the inodes.
  subst succeeded
  exact ⟨fun _ => safe, fun _ => nofun⟩

/-- A call that fails is harmless exactly if everything is intact. -/
theorem harmless_of_failure (failed : result = (false, t)) (intact : Intact s t ↔ ¬ harm) :
    Harmless s result ↔ ¬ harm := by
  -- The failure is harmless where the inodes are as before.
  subst failed
  exact ⟨fun harmless => intact.mp (harmless rfl), fun safe _ => intact.mpr safe⟩

/-- A call is harmless seen from one state of a volume if it is seen from another. -/
theorem Quiet.harmless (quiet : Quiet s t) (mounted : Mounted s) :
    Harmless t result ↔ Harmless s result := by
  -- Only the inodes of the state are looked at.
  unfold Harmless
  rw [quiet.intact mounted]

/-- Exactly when creating a file is harmless. -/
theorem simplefsCreate_harmless_iff (mounted : Mounted s) (name : CString) :
    Harmless s (simplefsCreate name s) ↔ ¬ (FsCall.create name).Harms s := by
  by_cases enterable : s.Enterable name
  · rcases simplefsCreate_enterable mounted enterable with
      ⟨t, index, result, created⟩ | ⟨t, result, lost, shortage⟩
    · refine harmless_of_success result ?_
      -- The directory grew, so the blocks sufficed.
      rintro ⟨-, shortage, -⟩
      have := created.free
      omega
    · refine harmless_of_failure result ?_
      rw [lost.intact_iff mounted enterable.readable]
      exact not_congr ⟨fun loss => ⟨enterable, shortage, loss⟩, fun harms => harms.2.2⟩
  · obtain ⟨t, result, runs, -⟩ := simplefsCreate_refused mounted enterable
    refine harmless_of_failure result (iff_of_true (Intact.of_fresh mounted runs.moves) ?_)
    exact fun harms => enterable harms.1

/-- Exactly when making a directory is harmless. -/
theorem simplefsMakeDir_harmless_iff (mounted : Mounted s) (name : CString) :
    Harmless s (simplefsMakeDir name s) ↔ ¬ (FsCall.makeDir name).Harms s := by
  by_cases enterable : s.Enterable name
  · rcases simplefsMakeDir_enterable mounted enterable with
      ⟨t, index, result, created⟩ | ⟨t, result, runs, -, none, -⟩ | ⟨t, result, lost, some, shortage⟩
    · refine harmless_of_success result ?_
      rintro ⟨-, -, shortage, -⟩
      have := created.free
      omega
    · -- The new directory itself found no block, and nothing else was rewritten.
      refine harmless_of_failure result (iff_of_true (Intact.of_fresh mounted runs.moves) ?_)
      rintro ⟨-, some, -⟩
      omega
    · refine harmless_of_failure result ?_
      rw [lost.intact_iff mounted enterable.readable]
      exact not_congr ⟨fun loss => ⟨enterable, some, shortage, loss⟩, fun harms => harms.2.2.2⟩
  · obtain ⟨runs, -⟩ := simplefsMakeDir_refused mounted enterable
    refine iff_of_true (fun _ => Intact.of_fresh mounted runs.moves) ?_
    exact fun harms => enterable harms.1

/-- A name that can be entered leads to no file. -/
theorem SimpleFs.Enterable.fileNamed (enterable : s.Enterable name) : s.fileNamed name = none := by
  simp only [SimpleFs.fileNamed, enterable.absent]

/-- A file just created can use all the blocks that are left. -/
theorem Created.capacity {index : Nat} (mounted : Mounted s) (created : Created s name index t) :
    t.capacity index + need s.grownSize = s.capacity s.currentDirectory := by
  -- The new file holds nothing, and the directory got what it needed.
  have mountedT := created.runs.mounted mounted
  have used : t.inodeUsed index = true := by simp [created.allocation]
  rw [mountedT.capacity created.inTable used, heldSlots_fresh created.record, List.length_nil,
    Nat.add_zero, created.free]

/-- Exactly when writing a named file is harmless. -/
theorem simplefsWriteFile_harmless_iff (mounted : Mounted s) (name : CString)
    (data : Nat → UInt8) (size : Nat) :
    Harmless s (simplefsWriteFile name data size s) ↔ ¬ s.WriteHarms name size := by
  by_cases existing : ∃ index, s.Replaceable name size index
  · -- The file is there; a name that leads to a file cannot be entered.
    obtain ⟨index, replaceable⟩ := existing
    obtain ⟨inTable, used, -⟩ := fileNamed_allocated replaceable.named
    have only : s.WriteHarms name size ↔ s.capacity index < need size ∧ s.Loseable index := by
      constructor
      · rintro (⟨other, again, harms⟩ | ⟨enterable, -⟩)
        · have same := replaceable.named.symm.trans again.named
          rw [Option.some.inj same]
          exact harms
        · have absent := enterable.fileNamed
          rw [replaceable.named] at absent
          cases absent
      · exact fun harms => Or.inl ⟨index, replaceable, harms⟩
    rw [only]
    rcases simplefsWriteFile_existing mounted replaceable data with
      ⟨t, result, written⟩ | ⟨t, result, lost⟩
    · refine harmless_of_success result ?_
      rintro ⟨shortage, -⟩
      have := written.free
      omega
    · refine harmless_of_failure result ?_
      rw [lost.intact_iff mounted inTable used]
      exact not_congr ⟨fun loss => ⟨lost.shortage, loss⟩, fun harms => harms.2⟩
  by_cases new : s.Enterable name ∧ size ≤ maxFileSize
  · obtain ⟨enterable, fits⟩ := new
    have only : s.WriteHarms name size ↔
        s.capacity s.currentDirectory < need s.grownSize + need size ∧
        (need s.grownSize ≤ s.capacity s.currentDirectory ∨ s.Loseable s.currentDirectory) := by
      constructor
      · rintro (⟨index, replaceable, -⟩ | ⟨-, -, harms⟩)
        · exact absurd ⟨index, replaceable⟩ existing
        · exact harms
      · exact fun harms => Or.inr ⟨enterable, fits, harms⟩
    rw [only]
    rcases simplefsWriteFile_new mounted enterable fits data with
      ⟨t, u, index, result, created, written⟩ | ⟨t, u, index, result, created, lost⟩ |
        ⟨t, result, lost, shortage⟩
    · refine harmless_of_success result ?_
      rintro ⟨few, -⟩
      have blocks := created.capacity mounted
      have := written.free
      omega
    · -- The name was entered before the content failed.
      have blocks := created.capacity mounted
      have shortage := lost.shortage
      refine harmless_of_failure result (iff_of_false ?_ ?_)
      · exact created.not_intact mounted enterable lost
      · exact not_not.mpr ⟨by omega, Or.inl (by omega)⟩
    · refine harmless_of_failure result ?_
      rw [lost.intact_iff mounted enterable.readable]
      refine not_congr ⟨fun loss => ⟨by omega, Or.inr loss⟩, ?_⟩
      rintro ⟨-, enough | loss⟩
      · omega
      · exact loss
  · obtain ⟨t, result, runs, -⟩ :=
      simplefsWriteFile_refused mounted (not_exists.mp existing) new data
    refine harmless_of_failure result (iff_of_true (Intact.of_fresh mounted runs.moves) ?_)
    rintro (⟨index, replaceable, -⟩ | ⟨enterable, fits, -⟩)
    · exact existing ⟨index, replaceable⟩
    · exact new ⟨enterable, fits⟩

/-- The calls of a state like another do the same harm. -/
theorem Looked.writeHarms (looked : Looked s t) (mounted : Mounted s) (name : CString)
    (size : Nat) : t.WriteHarms name size ↔ s.WriteHarms name size := by
  -- Each condition is one on names and on what is free, which are the same.
  have quiet := looked.alike.quiet
  have cwd := looked.currentDirectory
  have replaceable : ∀ index, t.Replaceable name size index ↔ s.Replaceable name size index := by
    intro index
    constructor
    · rintro ⟨fsMounted, valid, fits, named⟩
      exact ⟨looked.alike.steady.fsMounted ▸ fsMounted, valid, fits, looked.fileNamed name ▸ named⟩
    · rintro ⟨fsMounted, valid, fits, named⟩
      exact ⟨looked.alike.steady.fsMounted.trans fsMounted, valid, fits,
        (looked.fileNamed name).trans named⟩
  unfold SimpleFs.WriteHarms
  rw [looked.enterable, looked.grownSize, cwd]
  refine or_congr (exists_congr fun index => ?_) (and_congr_right fun enterable => ?_)
  · rw [replaceable]
    refine and_congr_right fun ready => ?_
    obtain ⟨inTable, used, -⟩ := fileNamed_allocated ready.named
    rw [quiet.capacity mounted inTable used, quiet.loseable mounted]
  · rw [quiet.capacity mounted enterable.readable.1 enterable.readable.2.1, quiet.loseable mounted]

/-- Exactly when appending to a named file is harmless. -/
theorem simplefsAppendFile_harmless_iff (mounted : Mounted s) (name : CString)
    (data : Nat → UInt8) (size : Nat) :
    Harmless s (simplefsAppendFile name data size s) ↔ ¬ (s.Appendable name size ∧
      s.WriteHarms name ((s.contentNamed name).length + size)) := by
  by_cases appendable : s.Appendable name size
  · -- The append is a write of the whole new content.
    obtain ⟨t, buffer, looked, result, -⟩ := simplefsAppendFile_appendable mounted appendable data
    have mountedT := looked.mounted mounted
    have write := simplefsWriteFile_harmless_iff mountedT name buffer.get
      ((s.contentNamed name).length + size)
    rw [looked.writeHarms mounted] at write
    rw [result, ← looked.alike.quiet.harmless mounted, write]
    exact not_congr ⟨fun harms => ⟨appendable, harms⟩, fun harms => harms.2⟩
  · obtain ⟨t, result, looked⟩ := simplefsAppendFile_refused mounted appendable data
    refine harmless_of_failure result (iff_of_true ?_ fun harms => appendable harms.1)
    exact Intact.of_fresh mounted (@Moves.quiet _ s.Fresh _ _ looked.alike.quiet)

/-- Exactly when writing through a descriptor is harmless. -/
theorem simplefsWriteFd_harmless_iff (mounted : Mounted s) (fd : Int) (data : List UInt8) :
    Harmless s (simplefsWriteFd fd (data.getD · 0) data.length s) ↔
      ¬ (FsCall.writeFd fd data).Harms s := by
  -- The call is patched in place, refused at the start, or runs out of blocks.
  by_cases patchable : s.Patchable fd data.length
  · obtain ⟨transfers, result⟩ := simplefsWriteFd_patchable mounted patchable (data.getD · 0)
    have inTable := patchable.inTable
    have used := patchable.allocated
    have alike := Alike.buffered s transfers (s.patched fd (data.getD · 0) data.length)
    have fits : max (s.bytes (s.fdInode fd) 0 maxFileSize).length
        ((s.fdOffset fd + data.length) % 2 ^ 32) ≤ maxFileSize :=
      Nat.max_le.mpr ⟨bytes_length_le s _ 0 maxFileSize, patchable.fits⟩
    rw [result]
    rcases writeInodeData_cases (alike.quiet.mounted mounted) inTable used fits
        (s.patched fd (data.getD · 0) data.length).get with
      ⟨t, write, -, written⟩ | ⟨t, write, lost⟩
    · rw [write]
      refine harmless_of_success rfl ?_
      rintro ⟨-, shortage, -⟩
      have := (written.after_quiet alike.quiet alike.steady rfl mounted inTable used).free
      omega
    · rw [write]
      have lostS := lost.after_quiet alike.quiet alike.steady mounted inTable used
      refine harmless_of_failure rfl ?_
      rw [lostS.intact_iff mounted inTable used]
      exact not_congr ⟨fun loss => ⟨patchable, lostS.shortage, loss⟩, fun harms => harms.2.2⟩
  · obtain ⟨t, result, alike⟩ := simplefsWriteFd_refused patchable (data.getD · 0)
    refine harmless_of_failure result (iff_of_true ?_ fun harms => patchable harms.1)
    exact Intact.of_fresh mounted (@Moves.quiet _ s.Fresh _ _ alike.quiet)

end Harm

/--
Exactly when a failed call leaves everything as it was.

A call that puts something into the file system, and fails, leaves the entries of every directory
and the content of every file alone unless it got as far as rewriting an inode with something to
lose, or entering a new name, and then ran out of blocks.
-/
theorem failed_call_intact_iff (s : SimpleFs) (call : FsCall) (mounted : Mounted s)
    (puts : call.puts = true) :
    ((fsStep s call).1.code = 0 → Intact s (fsStep s call).2) ↔ ¬ call.Harms s := by
  -- Each call answers 0 exactly when it fails.
  have failed : ∀ result : Bool × SimpleFs,
      ((answer result).1.code = 0 → Intact s (answer result).2) ↔ Harmless s result := by
    rintro ⟨ok, t⟩
    cases ok with
    | true => exact ⟨fun _ => nofun, fun _ => nofun⟩
    | false => exact ⟨fun intact _ => intact rfl, fun harmless _ => harmless rfl⟩
  cases call with
  | create name => exact (failed _).trans (simplefsCreate_harmless_iff mounted name)
  | makeDir name => exact (failed _).trans (simplefsMakeDir_harmless_iff mounted name)
  | writeFile name data =>
    exact (failed _).trans (simplefsWriteFile_harmless_iff mounted name _ _)
  | appendFile name data =>
    exact (failed _).trans (simplefsAppendFile_harmless_iff mounted name _ _)
  | writeFd fd data => exact (failed _).trans (simplefsWriteFd_harmless_iff mounted fd data)
  | _ => cases puts

/-- Overwriting the first byte of the one file fits in the block the file holds. -/
theorem failed_call_intact_iff_soleFile :
    let s := soleFile (.fill 255) 0
    let call := FsCall.writeFd 0 [7]
    (fsStep s call).1.code = 0 → Intact s (fsStep s call).2 := by
  -- The volume is mounted and the call fits, so the condition for harm is false.
  intro s call
  have mounted : Mounted s := soleFile_mounted (by decide) (by decide)
  refine (failed_call_intact_iff s call mounted rfl).mpr ?_
  rintro ⟨-, shortage, -⟩
  have room : s.capacity (s.fdInode 0) = 1 := by decide +kernel
  have wanted : need (max (s.bytes (s.fdInode 0) 0 maxFileSize).length
      ((s.fdOffset 0 + [(7 : UInt8)].length) % 2 ^ 32)) = 1 := by decide +kernel
  rw [room, wanted] at shortage
  exact absurd shortage (by decide)

/--
A failed write destroys the file.

On a full volume with a file of one byte, a write of 513 bytes through a descriptor is refused
for want of a second block, and the byte is gone.
-/
theorem failed_write_loses_file :
    ∃ (s : SimpleFs) (call : FsCall), Mounted s ∧ call.puts = true ∧
      (fsStep s call).1.code = 0 ∧ ¬ Intact s (fsStep s call).2 := by
  -- The file reads as one byte before the call, and as none after it.
  refine ⟨soleFile (.fill 255) 0, .writeFd 0 (List.replicate 513 7),
    soleFile_mounted (by decide) (by decide), rfl, by decide +kernel, fun intact => ?_⟩
  have file := (intact 1 (by decide) (by decide)).2 (by decide) 0 1
  have before : (readInodeBytes 1 0 1 (soleFile (.fill 255) 0)).2.1 = [0] := by decide +kernel
  have after : (readInodeBytes 1 0 1 (fsStep (soleFile (.fill 255) 0)
      (.writeFd 0 (List.replicate 513 7))).2).2.1 = [] := by decide +kernel
  rw [before, after] at file
  exact absurd file.2 (by decide)

end MyOS.Fs
