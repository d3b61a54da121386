import MyOS.Fs.Volume

/-! Where the write calls store into `file_scratch`, and what their size checks let through. -/

namespace MyOS.Fs

/--
`simplefs_append_file` up to its copy loop: the size of the old content, if it gets that far.

The rest of the call is `appendToScratch` past its check.
-/
def appendStart (name : CString) (size : Nat) (s : SimpleFs) : Option Nat × SimpleFs :=
  -- The checks are those of the call, in its order.
  if size > maxFileSize then (none, s)
  else
    match findEntryInDirectory s.currentDirectory name s with
    | (none, s) => (if (0 + size) % 2 ^ 32 > maxFileSize then none else some 0, s)
    | (some _, s) =>
      match simplefsReadFile name maxFileSize s with
      | (ok, bytes, s) =>
        let s := { s with fileScratch := s.fileScratch.blit 0 bytes }
        if ok then
          (if (bytes.length + size) % 2 ^ 32 > maxFileSize then none else some bytes.length, s)
        else (none, s)

/-- `simplefs_write_fd` up to its copy loop: the open file and its content, if it gets that far. -/
def writeFdStart (fd : Int) (size : Nat) (s : SimpleFs) :
    Option (OpenFile × List UInt8) × SimpleFs :=
  -- The checks are those of the call, in its order.
  if !s.fsMounted || !fdUsed fd s then (none, s)
  else
    let file := s.openFiles.get fd.toNat
    if (file.offset + size) % 2 ^ 32 > maxFileSize then (none, s)
    else
      match readInodeBytes file.inodeIndex 0 maxFileSize s with
      | (ok, bytes, s) =>
        let s := { s with fileScratch := s.fileScratch.blit 0 bytes }
        if !ok then (none, s) else (some (file, bytes), s)

/-- The copy of an append and the write that follows it. -/
def appendRest (name : CString) (data : Nat → UInt8) (size old : Nat) (s : SimpleFs) :
    Bool × SimpleFs :=
  -- The copy goes behind the old content, and the whole is written back.
  let scratch := s.fileScratch.blit old ((List.range size).map data)
  simplefsWriteFile name scratch.get ((old + size) % 2 ^ 32) { s with fileScratch := scratch }

/-- The copy of a write through a descriptor and the rewrite that follows it. -/
def writeFdRest (fd : Int) (data : Nat → UInt8) (size : Nat) (file : OpenFile)
    (bytes : List UInt8) (s : SimpleFs) : Bool × SimpleFs :=
  -- The gap is filled, and the data is copied over what is there.
  let scratch := s.fileScratch.blit bytes.length (List.replicate (file.offset - bytes.length) 0)
  let scratch := scratch.blit file.offset ((List.range size).map data)
  let stop := (file.offset + size) % 2 ^ 32
  match writeInodeData file.inodeIndex scratch.get (max bytes.length stop)
      { s with fileScratch := scratch } with
  | (false, s) => (false, s)
  | (true, s) => (true, s.withOffset fd.toNat stop)

/--
A position of `file_scratch` that is stored to, in the wrapping arithmetic of `uint32_t`.

The old content comes first, then zeros up to the start of the copy, then the copied bytes.
-/
def StoresTo (old start size p : Nat) : Prop :=
  p < max old start ∨ ∃ i, i < size ∧ p = (start + i) % 2 ^ 32

/-- The sum a write through a descriptor checks wraps, and the check lets it through. -/
structure SimpleFs.Wraps (s : SimpleFs) (fd : Int) (size : Nat) : Prop where
  fsMounted : s.fsMounted = true
  used : fdUsed fd s = true
  wraps : 2 ^ 32 ≤ (s.openFiles.get fd.toNat).offset + size
  passes : ((s.openFiles.get fd.toNat).offset + size) % 2 ^ 32 ≤ maxFileSize
  readable : (readInodeBytes (s.openFiles.get fd.toNat).inodeIndex 0 maxFileSize s).1 = true

/-- The copy loop of a read fills no more than was asked for, whatever the disk does. -/
theorem readLoop_length (inode : Inode) (remaining fuel logical sectorOffset : Nat)
    (loaded : Option IndirectTable) {buffer : List UInt8} (bounded : buffer.length ≤ remaining)
    (s : SimpleFs) :
    (readLoop inode remaining fuel logical sectorOffset loaded buffer s).2.1.length ≤
      remaining := by
  -- By induction on the turns, each of which copies no more than what is missing.
  induction fuel generalizing s logical sectorOffset loaded buffer with
  | zero => exact bounded
  | succ fuel ih =>
    unfold readLoop
    by_cases more : buffer.length < remaining
    · rw [if_pos more]
      generalize getFileBlock inode logical loaded s = result
      obtain ⟨located, t⟩ := result
      cases located with
      | none => exact bounded
      | some located =>
        obtain ⟨block, loaded⟩ := located
        simp only
        split
        · exact bounded
        · generalize readBlock block t = result
          obtain ⟨sector, u⟩ := result
          cases sector with
          | none => exact bounded
          | some sector =>
            refine ih (logical + 1) 0 loaded ?_ u
            rw [List.length_append, List.length_map, List.length_range]
            omega
    · rw [if_neg more]
      exact bounded

/-- A read of an inode fills no more than the buffer, whatever the disk does. -/
theorem readInodeBytes_length (index offset bufferSize : Nat) (s : SimpleFs) :
    (readInodeBytes index offset bufferSize s).2.1.length ≤ bufferSize := by
  -- The copy loop is asked for no more than the buffer holds.
  unfold readInodeBytes
  split
  · exact Nat.zero_le _
  · simp only
    split
    · exact Nat.zero_le _
    · refine Nat.le_trans (readLoop_length _ _ _ _ _ _ ?_ s) (Nat.min_le_right _ _)
      exact Nat.zero_le _

/-- With both operands below the limit the checked sum does not wrap. -/
theorem fits_of_checked {start size old : Nat} (low : start ≤ maxFileSize)
    (small : ¬ size > maxFileSize)
    (checked : (if (start + size) % 2 ^ 32 > maxFileSize then none else some start) = some old) :
    old + size ≤ maxFileSize := by
  -- The sum that passed is below the limit, and too small to have wrapped.
  by_cases full : (start + size) % 2 ^ 32 > maxFileSize
  · rw [if_pos full] at checked
    cases checked
  · rw [if_neg full] at checked
    cases checked
    simp only [maxFileSize] at low small full ⊢
    omega

/-- An append copies at the end of the old content, and only what still fits. -/
theorem appendStart_fits {name : CString} {size old : Nat} {s : SimpleFs}
    (started : (appendStart name size s).1 = some old) : old + size ≤ maxFileSize := by
  -- Either there is no old content, or it was read into the buffer.
  unfold appendStart at started
  by_cases large : size > maxFileSize
  · rw [if_pos large] at started
    cases started
  · rw [if_neg large] at started
    generalize findEntryInDirectory s.currentDirectory name s = found at started
    obtain ⟨entry, t⟩ := found
    cases entry with
    | none => exact fits_of_checked (Nat.zero_le _) large started
    | some entry =>
      -- The old content fits into the scratch buffer, so the sum does not wrap.
      have short : (simplefsReadFile name maxFileSize t).2.1.length ≤ maxFileSize := by
        unfold simplefsReadFile
        split
        · exact Nat.zero_le _
        · generalize findEntryInDirectory t.currentDirectory name t = found
          obtain ⟨entry, u⟩ := found
          cases entry with
          | none => exact Nat.zero_le _
          | some entry =>
            simp only
            split
            · exact Nat.zero_le _
            · exact readInodeBytes_length _ _ _ _
      simp only at started
      generalize simplefsReadFile name maxFileSize t = read at started short
      obtain ⟨ok, bytes, u⟩ := read
      cases ok with
      | false => cases started
      | true => exact fits_of_checked short large started

/-- A write through a descriptor gets as far as its copy exactly when its three checks pass. -/
theorem writeFdStart_iff {fd : Int} {size : Nat} {s : SimpleFs} {file : OpenFile} :
    (∃ bytes, (writeFdStart fd size s).1 = some (file, bytes)) ↔
      s.fsMounted = true ∧ fdUsed fd s = true ∧ file = s.openFiles.get fd.toNat ∧
      (file.offset + size) % 2 ^ 32 ≤ maxFileSize ∧
      (readInodeBytes file.inodeIndex 0 maxFileSize s).1 = true := by
  -- The checks are taken one by one, and each of them ends the call or not.
  unfold writeFdStart
  cases mounted : s.fsMounted with
  | false => simp
  | true =>
    cases used : fdUsed fd s with
    | false => simp
    | true =>
      simp only [Bool.not_true, Bool.or_self, Bool.false_eq_true, if_false, true_and]
      by_cases full : ((s.openFiles.get fd.toNat).offset + size) % 2 ^ 32 > maxFileSize
      · rw [if_pos full]
        refine iff_of_false (fun ⟨bytes, started⟩ => nomatch started) ?_
        rintro ⟨rfl, fits, -⟩
        omega
      · rw [if_neg full]
        generalize readIs :
          readInodeBytes (s.openFiles.get fd.toNat).inodeIndex 0 maxFileSize s = read
        obtain ⟨ok, bytes, t⟩ := read
        cases ok with
        | false =>
          refine iff_of_false (fun ⟨bytes, started⟩ => nomatch started) ?_
          rintro ⟨rfl, -, ok⟩
          rw [readIs] at ok
          cases ok
        | true =>
          constructor
          · rintro ⟨found, started⟩
            cases started
            exact ⟨rfl, by omega, by rw [readIs]⟩
          · rintro ⟨rfl, -, -⟩
            exact ⟨bytes, rfl⟩

/-- The old content is what the read of the inode returned. -/
theorem writeFdStart_bytes {fd : Int} {size : Nat} {s : SimpleFs} {file : OpenFile}
    {bytes : List UInt8} (started : (writeFdStart fd size s).1 = some (file, bytes)) :
    bytes = (readInodeBytes (s.openFiles.get fd.toNat).inodeIndex 0 maxFileSize s).2.1 := by
  -- The branch that succeeds gives back what it read.
  unfold writeFdStart at started
  split at started
  · cases started
  · simp only at started
    split at started
    · cases started
    · generalize readInodeBytes (s.openFiles.get fd.toNat).inodeIndex 0 maxFileSize s = read
        at started ⊢
      obtain ⟨ok, found, t⟩ := read
      cases ok with
      | false => cases started
      | true =>
        cases started
        rfl

/-- Stores that start and end below the limit stay below it. -/
theorem StoresTo.lt {old start size p : Nat} (stores : StoresTo old start size p)
    (oldFits : old ≤ maxFileSize) (fits : start + size ≤ maxFileSize) : p < maxFileSize := by
  simp only [maxFileSize] at oldFits fits ⊢
  -- A position of the old content, or of the gap behind it.
  rcases stores with low | ⟨i, small, rfl⟩
  · omega
  · -- A position of the copy, which does not wrap here.
    omega

/--
Exactly when the size checks keep the write calls inside `file_scratch`, in any state.

An append bounds its size before it adds, so its sum never wraps. A write through a descriptor
adds first: it goes on to copy past the limit exactly when its sum wraps to a value below it.
-/
theorem write_checks_exact (s : SimpleFs) (size : Nat) :
    (∀ name old, (appendStart name size s).1 = some old → old + size ≤ maxFileSize ∧
      ∀ p, StoresTo old old size p → p < maxFileSize) ∧
    ∀ fd, (∀ file bytes, (writeFdStart fd size s).1 = some (file, bytes) →
      file.offset + size ≤ maxFileSize ∧
        ∀ p, StoresTo bytes.length file.offset size p → p < maxFileSize) ↔
      ¬ s.Wraps fd size := by
  constructor
  · -- The sum of an append does not wrap, and its positions follow each other.
    intro name old started
    have fits := appendStart_fits started
    exact ⟨fits, fun p stores => stores.lt (by omega) fits⟩
  · intro fd
    constructor
    · -- A wrapped sum lets a write through whose end is beyond the limit.
      rintro checked ⟨mounted, used, wraps, passes, readable⟩
      obtain ⟨bytes, started⟩ := writeFdStart_iff.mpr ⟨mounted, used, rfl, passes, readable⟩
      have := (checked _ bytes started).1
      simp only [maxFileSize] at this
      omega
    · intro fine file bytes started
      obtain ⟨mounted, used, rfl, passes, readable⟩ := writeFdStart_iff.mp ⟨bytes, started⟩
      -- Without a wrap the sum checked is the sum itself.
      have small : (s.openFiles.get fd.toNat).offset + size < 2 ^ 32 := by
        by_contra wraps
        exact fine ⟨mounted, used, by omega, passes, readable⟩
      rw [Nat.mod_eq_of_lt small] at passes
      have short : bytes.length ≤ maxFileSize := by
        have := readInodeBytes_length (s.openFiles.get fd.toNat).inodeIndex 0 maxFileSize s
        rwa [← writeFdStart_bytes started] at this
      exact ⟨passes, fun p stores => stores.lt short passes⟩

/--
A write through a descriptor runs past `file_scratch`.

After one byte was written and read back the offset is 1. A write of 4294967295 bytes makes the
sum 0, which passes the check, and the copy stores to every position from 1 on.
-/
theorem write_past_scratch :
    ∃ (calls : List FsCall) (fd : Int) (size : Nat) (file : OpenFile) (bytes : List UInt8) (p : Nat),
      let t := runState fsStep (simplefsFormat SimpleFs.blank).2 calls
      size < 2 ^ 32 ∧ fdUsed fd t = true ∧ (writeFdStart fd size t).1 = some (file, bytes) ∧
      maxFileSize < file.offset + size ∧ StoresTo bytes.length file.offset size p ∧
      maxFileSize ≤ p := by
  -- The file is written, opened and read through the descriptor, which moves the offset to one.
  let calls : List FsCall :=
    [.writeFile ⟨[97], by decide⟩ [7], .open_ ⟨[97], by decide⟩, .readFd 0 1]
  let t := runState fsStep (simplefsFormat SimpleFs.blank).2 calls
  have used : fdUsed 0 t = true := by decide +kernel
  have offset : (t.openFiles.get (0 : Int).toNat).offset = 1 := by decide +kernel
  have readable : (readInodeBytes (t.openFiles.get (0 : Int).toNat).inodeIndex 0 maxFileSize
      t).1 = true := by decide +kernel
  have mounted : t.fsMounted = true := by decide +kernel
  have passes : ((t.openFiles.get (0 : Int).toNat).offset + 4294967295) % 2 ^ 32 ≤ maxFileSize := by
    rw [offset]
    norm_num
  obtain ⟨bytes, started⟩ := writeFdStart_iff.mpr ⟨mounted, used, rfl, passes, readable⟩
  have beyond : maxFileSize < (t.openFiles.get (0 : Int).toNat).offset + 4294967295 := by
    rw [offset, maxFileSize]
    norm_num
  have stored : StoresTo bytes.length (t.openFiles.get (0 : Int).toNat).offset 4294967295 68608 := by
    rw [offset]
    -- The copy passes the end of the buffer on its way.
    exact Or.inr ⟨68607, by norm_num, by norm_num⟩
  exact ⟨calls, 0, 4294967295, _, bytes, 68608, by norm_num, used, started, beyond, stored,
    Nat.le_refl _⟩

end MyOS.Fs
