import MyOS.Fs.Bounds
import MyOS.Shell.Commands

/-! The shell's test of large files, and which bytes of its buffer the test touches. -/

namespace MyOS.Shell

open MyOS.Fs MyOS.Kernel

/-- The bytes of `fs_command_buffer`. -/
def fsCommandBufferSize : Nat := maxFileSize + 1

/-- `bigfile_test_byte` -/
def bigfileTestByte (index : Nat) : UInt8 :=
  -- The bytes repeat after sixty-two.
  (textBytes "0123456789ABCDEFGHIJKLMNOPQRSTUVWXYZabcdefghijklmnopqrstuvwxyz").getD (index % 62) 0

/-- The name of the file that the test writes. -/
def bigfileTestName : CString := ⟨textBytes "bigfile.test", by decide⟩

/-- What the test says at its end. -/
inductive BigfileOutcome where
  | expectedFailure
  | writeFailed
  | readbackFailed
  | sizeMismatch (bytesRead : Nat)
  | verifyFailed (offset : Nat)
  | ok
  deriving DecidableEq, Repr

/-- Whether the test counts as passed. -/
def BigfileOutcome.passed : BigfileOutcome → Bool
  | .expectedFailure | .ok => true
  | _ => false

section Reads

variable (index : Nat) (data : Nat → UInt8) (size : Nat)

/-- The bytes of the data that one turn of the block loop of `write_inode_data` copies. -/
def blockReads (w : Rewrite) : List Nat :=
  match allocateDataBlock w.fs with
  -- Without a block the loop ends before it copies.
  | (none, _) => []
  | (some _, _) => (List.range (min (size - w.written) sectorSize)).map (w.written + ·)

/-- The bytes of the data that the block loop copies, from one logical block on. -/
def rewriteReads : Nat → Nat → Rewrite → List Nat
  | 0, _, _ => []
  | count + 1, logical, w =>
    -- A turn that fails is the last one.
    blockReads size w ++
      match rewriteBlock index data size logical w with
      | (false, _) => []
      | (true, w) => rewriteReads count (logical + 1) w

/-- The bytes of the data that `write_inode_data` copies. -/
def writeInodeReads (s : SimpleFs) : List Nat :=
  -- What is refused at once copies nothing.
  if index ≥ maxInodes || !s.inodeUsed index || size > maxFileSize then []
  else
    let start : Rewrite :=
      { fs := freeInodeBlocks index s, written := 0, indirectTable := .fill invalidBlock,
        needsIndirect := false }
    rewriteReads index data size ((size + sectorSize - 1) / sectorSize) 0 start

/-- The bytes of the data that `simplefs_write_file` copies. -/
def writeFileReads (name : CString) (s : SimpleFs) : List Nat :=
  -- The name and the size are checked before the data is looked at.
  if !s.fsMounted || !validName name || decide (size > maxFileSize) then []
  else
    match findEntryInDirectory s.currentDirectory name s with
    | (none, s) =>
      -- A new file is made empty, which copies nothing of the data.
      match simplefsCreate name s with
      | (false, _) => []
      | (true, s) =>
        match findEntryInDirectory s.currentDirectory name s with
        | (none, _) => []
        | (some (inode, _), s) => writeInodeReads inode.toNat data size s
    | (some (inode, _), s) =>
      if !entryLeadsTo inode typeRegular s then [] else writeInodeReads inode.toNat data size s

end Reads

/-- What a run of the test says, and the bytes of `fs_command_buffer` that it stores to and loads. -/
structure BigfileRun where
  outcome : BigfileOutcome
  stores : List Nat
  loads : List Nat
  fs : SimpleFs

/-- `run_bigfile_test_case` -/
def runBigfileTestCase (size : UInt32) (s : SimpleFs) : BigfileRun :=
  -- The buffer is filled before the size is checked anywhere.
  let filled := List.range size.toNat
  let written := writeFileReads bigfileTestByte size.toNat bigfileTestName s
  match simplefsWriteFile bigfileTestName bigfileTestByte size.toNat s with
  | (false, s) =>
    -- A size that is too big is expected to fail.
    ⟨if size.toNat > maxFileSize then .expectedFailure else .writeFailed, filled, written, s⟩
  | (true, s) =>
    match simplefsReadFile bigfileTestName maxFileSize s with
    | (ok, bytes, s) =>
      let stores := filled ++ List.range bytes.length
      -- The bytes that were read are in the buffer even when the read failed.
      if !ok then ⟨.readbackFailed, stores, written, s⟩
      else if bytes.length != size.toNat then ⟨.sizeMismatch bytes.length, stores, written, s⟩
      else
        -- The first byte that differs ends the comparison.
        match (List.range size.toNat).find? fun i => bytes.getD i 0 != bigfileTestByte i with
        | some offset =>
          ⟨.verifyFailed offset, stores, written ++ List.range (offset + 1), s⟩
        | none => ⟨.ok, stores, written ++ List.range size.toNat, s⟩

/-- All the bytes that a run of the test touches. -/
def BigfileRun.touched (run : BigfileRun) : List Nat := run.stores ++ run.loads

section Laws

variable {index size : Nat} {data : Nat → UInt8} {w w' : Rewrite}

/-- A turn of the block loop that goes well has written its piece. -/
theorem rewriteBlock_written {logical : Nat} (done : rewriteBlock index data size logical w = (true, w')) :
    w'.written = w.written + min (size - w.written) sectorSize := by
  have entered : ∀ {block : UInt32} {u u' : Rewrite}, enterIndirect index logical block u = (true, u') →
      u'.written = u.written := by
    intro block u u' done
    unfold enterIndirect at done
    simp only at done
    split at done
    · cases done
      rfl
    · split at done
      · cases done
      · split at done
        · cases done
        · cases done
          rfl
  -- The rest of a turn leaves the count alone, and here the piece is added.
  unfold rewriteBlock at done
  simp only at done
  split at done
  · cases done
  · split at done
    · cases done
    · -- Where the block is entered does not matter here.
      split at done
      · cases done
      · next placed =>
        cases done
        split at placed
        · cases placed
          rfl
        · rw [← entered placed]

/-- The block loop copies nothing from behind the data. -/
theorem rewriteReads_lt {count logical : Nat} (inside : w.written ≤ size) :
    ∀ i ∈ rewriteReads index data size count logical w, i < size := by
  -- By induction on the blocks that are left: a piece lies within the data, and so do the later ones.
  induction count generalizing logical w with
  | zero => exact nofun
  | succ count ih =>
    intro i member
    unfold rewriteReads at member
    rcases List.mem_append.mp member with here | later
    · unfold blockReads at here
      split at here
      · cases here
      · obtain ⟨j, below, rfl⟩ := List.mem_map.mp here
        rw [List.mem_range] at below
        omega
    · split at later
      · cases later
      · next done =>
        have written := rewriteBlock_written done
        exact ih (by omega) i later

/-- `write_inode_data` copies nothing from behind the data. -/
theorem writeInodeReads_lt (s : SimpleFs) : ∀ i ∈ writeInodeReads index data size s, i < size := by
  intro i member
  unfold writeInodeReads at member
  -- Either nothing is copied, or what the block loop copies.
  split at member
  · cases member
  · exact rewriteReads_lt (Nat.zero_le _) i member

/-- `simplefs_write_file` copies nothing from behind the data. -/
theorem writeFileReads_lt (name : CString) (s : SimpleFs) :
    ∀ i ∈ writeFileReads data size name s, i < size := by
  -- The file is there or was made just now, and then its content is written.
  intro i member
  unfold writeFileReads at member
  split at member
  · cases member
  · split at member
    · split at member
      · cases member
      · split at member
        · cases member
        · exact writeInodeReads_lt _ i member
    · split at member
      · cases member
      · exact writeInodeReads_lt _ i member

/-- `simplefs_read_file` stores no more than it is asked for. -/
theorem simplefsReadFile_length (name : CString) (bufferSize : Nat) (s : SimpleFs) :
    -- The branches without a read store nothing.
    (simplefsReadFile name bufferSize s).2.1.length ≤ bufferSize := by
  unfold simplefsReadFile
  split
  · exact Nat.zero_le _
  · split
    · exact Nat.zero_le _
    · split
      · exact Nat.zero_le _
      · exact readInodeBytes_length _ _ _ _

/-- The test fills the buffer, reads the file back, and compares as far as the size goes. -/
theorem runBigfileTestCase_touches (size : UInt32) (s : SimpleFs) :
    ∃ back compared, back ≤ maxFileSize ∧ compared ≤ size.toNat ∧
      (runBigfileTestCase size s).stores = List.range size.toNat ++ List.range back ∧
      (runBigfileTestCase size s).loads =
        writeFileReads bigfileTestByte size.toNat bigfileTestName s ++ List.range compared := by
  -- The branches go by how far the test gets.
  have whole : ∀ l : List Nat, l = l ++ List.range 0 := fun l => (List.append_nil l).symm
  unfold runBigfileTestCase
  simp only
  split
  · exact ⟨0, 0, Nat.zero_le _, Nat.zero_le _, whole _, whole _⟩
  · -- The file was written, and is read back.
    next t _ =>
    have bounded := simplefsReadFile_length bigfileTestName maxFileSize t
    generalize simplefsReadFile bigfileTestName maxFileSize t = read at bounded ⊢
    obtain ⟨ok, bytes, u⟩ := read
    simp only
    split
    · exact ⟨bytes.length, 0, bounded, Nat.zero_le _, rfl, whole _⟩
    · split
      · exact ⟨bytes.length, 0, bounded, Nat.zero_le _, rfl, whole _⟩
      · split
        · -- The comparison ends at the first byte that is different.
          next offset different =>
          have below := List.mem_range.mp (List.mem_of_find?_eq_some different)
          exact ⟨bytes.length, offset + 1, bounded, below, rfl, rfl⟩
        · exact ⟨bytes.length, size.toNat, bounded, Nat.le_refl _, rfl, rfl⟩

/-- The test stays in its buffer exactly where the size is no more than the buffer. -/
theorem bigfiletest_inside_iff (size : UInt32) (s : SimpleFs) :
    (∀ i ∈ (runBigfileTestCase size s).touched, i < fsCommandBufferSize) ↔
      size.toNat ≤ fsCommandBufferSize := by
  -- The stores and the loads are those listed, so only the ranges count.
  obtain ⟨back, compared, short, within, stores, loads⟩ := runBigfileTestCase_touches size s
  unfold BigfileRun.touched
  rw [stores, loads]
  constructor
  · intro inside
    by_contra large
    -- The loop that fills the buffer goes beyond its end.
    have filled : fsCommandBufferSize ∈ List.range size.toNat := List.mem_range.mpr (by omega)
    refine Nat.lt_irrefl _ (inside fsCommandBufferSize ?_)
    exact List.mem_append_left _ (List.mem_append_left _ filled)
  · -- The read back and the comparison are no longer than a file or the size.
    intro small i member
    have longest : maxFileSize < fsCommandBufferSize := by decide
    simp only [List.mem_append, List.mem_range] at member
    rcases member with (filled | again) | (copied | same)
    · omega
    · omega
    · have := writeFileReads_lt bigfileTestName s i copied
      omega
    · omega

example : (runBigfileTestCase 3 (simplefsFormat SimpleFs.blank).2).outcome = .ok := by
  decide +kernel

/-- A size of one more than the buffer has bytes makes the test write behind it. -/
theorem bigfiletest_outside :
    ¬ ∀ (size : UInt32) (s : SimpleFs),
      ∀ i ∈ (runBigfileTestCase size s).touched, i < fsCommandBufferSize := by
  intro inside
  -- The first byte behind the buffer is one that the test fills.
  obtain ⟨back, compared, -, -, stores, -⟩ := runBigfileTestCase_touches 68610
    (simplefsFormat SimpleFs.blank).2
  refine absurd (inside 68610 (simplefsFormat SimpleFs.blank).2 fsCommandBufferSize ?_) (Nat.lt_irrefl _)
  unfold BigfileRun.touched
  rw [stores]
  exact List.mem_append_left _ (List.mem_append_left _ (List.mem_range.mpr (by decide)))

end Laws

end MyOS.Shell
