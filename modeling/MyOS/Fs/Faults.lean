import MyOS.Fs.Mount

/-! Rewriting an inode on a disk any transfer of which may fail: whose blocks are given back. -/

namespace MyOS.Fs

/-- The transfers of the block loop before one of its turns. -/
def loggedBy (n : Nat) : Nat := if n ≤ 6 then 2 * n else 2 * n + 2

/-- The disk and the space let the block loop get as far as the blank table, which is refused. -/
structure Cut (f : SimpleFs) (size : Nat) : Prop where
  long : 6 < blocksOf size
  room : 8 ≤ f.freeBlocks
  served : f.ata.Serves 15
  refused : f.ata.fails (f.ata.transfers + 15) = true

section Loop

variable {f : SimpleFs} {index : Nat} {data : Nat → UInt8} {size n : Nat} {taken : List UInt32}
  {log : List (Nat × Sector)} {w : Rewrite}

/-- A loop that got past its seventh turn stored the blank table. -/
theorem not_cut_of_served (served : f.ata.Serves log.length) (past : 16 ≤ log.length) :
    ¬ Cut f size := by
  -- At transfer 15 the disk both served and refused.
  intro cut
  have := (served 15 (by omega)).2
  rw [cut.refused] at this
  cases this

/--
What the block loop comes to, whatever the disk does.

It reaches its end, or is given up with all its inode names handed out since it began, or it is
cut off right where the table of further blocks is stored for the first time.
-/
theorem rewriteBlocks_turns (geometry : Geometry f.infoBlock) (inTable : index < maxInodes)
    (fits : size ≤ maxFileSize) {count : Nat}
    (before : Progress f index data size n taken log w) (served : f.ata.Serves log.length)
    (length : log.length = loggedBy n) (turns : n + count = blocksOf size) :
    (∃ taken' log' w', rewriteBlocks index data size count n w = (true, w') ∧
      Progress f index data size (blocksOf size) taken' log' w' ∧ ¬ Cut f size) ∨
    (∃ w', rewriteBlocks index data size count n w = (false, w') ∧ Interrupted f index w'.fs ∧
      ¬ Cut f size) ∨
    (∃ w', rewriteBlocks index data size count n w = (false, w') ∧ Zeroed f index 12 w'.fs ∧
      Cut f size) := by
  -- Past the seventh turn the table is on disk.
  have past : 6 < n → ¬ Cut f size := by
    intro many
    refine not_cut_of_served served ?_
    rw [length, loggedBy, if_neg (by omega)]
    omega
  induction count generalizing n taken log w with
  | zero =>
    obtain rfl : n = blocksOf size := by omega
    exact Or.inl ⟨taken, log, w, rfl, before, fun cut => past cut.long cut⟩
  | succ count ih =>
    unfold rewriteBlocks
    rcases rewriteBlock_turn geometry inTable before served (by omega) fits with
      ⟨taken', log', w', turn, after, served', length'⟩ |
      ⟨taken', log', w', turn, stranded, few⟩ | ⟨w', turn, interrupted, failed⟩ |
      ⟨rfl, w', turn, zeroed⟩
    · rw [turn]
      have next : log'.length = loggedBy (n + 1) := by
        rw [length', length]
        unfold loggedBy turnTransfers
        split <;> split <;> split <;> omega
      refine ih after served' next (by omega) fun many => not_cut_of_served served' ?_
      rw [next, loggedBy, if_neg (by omega)]
      omega
    · right; left
      rw [turn]
      refine ⟨w', rfl, stranded.interrupted geometry, fun cut => ?_⟩
      by_cases early : n ≤ 6
      · have := few early
        have := cut.room
        omega
      · exact past (by omega) cut
    · right; left
      rw [turn]
      refine ⟨w', rfl, interrupted, fun cut => ?_⟩
      by_cases early : n ≤ 6
      · -- The transfer that failed is one of those the cut has succeed.
        refine failed fun m small => cut.served m ?_
        rw [length, loggedBy, if_pos early] at small
        unfold turnTransfers at small
        split at small <;> omega
      · exact past (by omega) cut
    · right; right
      have twelve : log.length = 12 := length
      rw [twelve] at zeroed
      rw [turn]
      exact ⟨w', rfl, zeroed, by omega, zeroed.room, zeroed.served, zeroed.refused⟩

/-- A loop given up with all its inode names its own gives back no marked block. -/
theorem Interrupted.spares {t : SimpleFs} (interrupted : Interrupted f index t) {b : Nat}
    (inside : b < dataBlocks) (marked : f.marked b = true) :
    (rewriteFailed index t).marked b = true := by
  -- Only blocks the inode names were freed, and after the interrupted loop these were its own.
  obtain ⟨bitmap, result, marks⟩ := freeInodeBlocks_eq interrupted.geometry
    fun k named => (interrupted.places k named.1 named.2.2).1
  change (freeInodeBlocks index t).marked b = true
  rw [result]
  refine (marks b).mpr ⟨interrupted.marks b inside marked, fun k named same => ?_⟩
  have fresh := (interrupted.places k named.1 named.2.2).2
  rw [same, marked] at fresh
  cases fresh

/-- A loop cut off at its table gives back block 0, if the cleared sector can be read back. -/
theorem Zeroed.spares_iff {t : SimpleFs} {start : Nat} (zeroed : Zeroed f index start t) {b : Nat}
    (inside : b < dataBlocks) (marked : f.marked b = true) :
    (rewriteFailed index t).marked b = true ↔ b ≠ 0 ∨ t.ata.answers = false := by
  have zero : (0 : UInt32).toNat = 0 := rfl
  have named : ∀ k, t.Named index k → (t.slot index k).toNat < dataBlocks := by
    rintro k ⟨small, -, held⟩
    by_cases low : k ≤ 6
    · exact (zeroed.low k low held).1
    · rw [zeroed.zeros k (by omega) small]
      decide
  obtain ⟨bitmap, result, marks⟩ := freeInodeBlocks_eq zeroed.geometry named
  change (freeInodeBlocks index t).marked b = true ↔ _
  rw [result]
  refine (marks b).trans ⟨fun ⟨_, kept⟩ => ?_, fun spared => ?_⟩
  · -- The first entry of the table names block 0.
    by_contra both
    simp only [not_or, not_not, Bool.not_eq_false] at both
    have seven := zeroed.zeros 7 (by decide) (by decide)
    refine kept 7 ⟨by decide, Or.inr both.2, ?_⟩ ?_
    · rw [seven]
      decide
    · rw [seven, both.1, zero]
  · refine ⟨zeroed.marks b inside marked, fun k named same => ?_⟩
    obtain ⟨small, reach, held⟩ := named
    by_cases low : k ≤ 6
    · have fresh := (zeroed.low k low held).2
      rw [same, marked] at fresh
      cases fresh
    · rw [zeroed.zeros k (by omega) small, zero] at same
      have answers := reach.resolve_left low
      rcases spared with other | refused
      · exact other same.symm
      · rw [answers] at refused
        cases refused

/-- Writing the metadata, whatever comes of it, leaves the marks in memory alone. -/
theorem writeMetadata_marked (s : SimpleFs) (b : Nat) :
    (writeMetadata s).2.marked b = s.marked b := by
  -- Each of the writes leaves the bitmap in memory as it is, whether it succeeds or not.
  unfold writeMetadata
  split
  · rename_i result
    have : (writeInfoBlock s).2.marked b = s.marked b := rfl
    rwa [result] at this
  · rename_i result
    have : (writeInfoBlock s).2.marked b = s.marked b := rfl
    rwa [result] at this

/-- The end of a rewrite, whatever comes of it, gives back no marked block. -/
theorem Progress.commit_spares (done : Progress f index data size n taken log w)
    (geometry : Geometry f.infoBlock) {b : Nat} (inside : b < dataBlocks)
    (marked : f.marked b = true) : (rewriteCommit index size w).2.marked b = true := by
  have still : w.fs.marked b = true := (done.ledger.marks b inside).mpr (Or.inl marked)
  unfold rewriteCommit writeIndirectBlock
  by_cases stored : w.needsIndirect = true
  swap
  · simp only [if_neg stored, writeMetadata_marked]
    exact still
  have same : Interrupted f index w.fs := done.interrupted geometry rfl rfl (fun _ _ => rfl)
    fun c small before => (done.ledger.marks c small).mpr (Or.inl before)
  simp only [if_pos stored]
  by_cases none : (w.fs.inodeTable.get index).indirectBlock = invalidBlock
  · rw [if_pos none]
    exact same.spares inside marked
  · rw [if_neg none, writeBlock_eq same.geometry]
    cases w.fs.ata.answers with
    | true =>
      simp only [if_true, writeMetadata_marked]
      exact still
    | false =>
      -- The table on disk is still the blank one.
      have interrupted : Interrupted f index
          (w.fs.scanned w.fs.ata.tried w.fs.directoryScratch) :=
        done.interrupted geometry rfl rfl (fun _ _ => rfl) same.marks
      exact interrupted.spares inside marked

end Loop

section Faults

variable {s : SimpleFs} {index size : Nat}

/-- Whether an inode names a block at a place is decidable. -/
instance (s : SimpleFs) (index k : Nat) : Decidable (s.Named index k) :=
  inferInstanceAs (Decidable (_ ∧ _ ∧ _))

/-- The places whose blocks freeing an inode finds, as a list. -/
def SimpleFs.namedSlots (s : SimpleFs) (index : Nat) : List Nat :=
  (List.range slotLimit).filter fun k => s.Named index k

/--
The disk fails in the one way that costs another inode a block.

The new content needs a table, and there is room for it. The sectors of seven data blocks are
cleared and written and that of the indirect block is cleared, the blank table is then refused,
and the cleared sector is read back, while another inode holds block 0.
-/
structure SimpleFs.FreesBlockZero (s : SimpleFs) (index size : Nat) : Prop where
  long : 6 < blocksOf size
  room : 8 ≤ s.freeBlocks + (s.namedSlots index).length
  served : ∀ m, m < 15 → s.ata.ready = true ∧ s.ata.fails (s.freeTransfers index + m) = false
  refused : s.ata.fails (s.freeTransfers index + 15) = true
  readBack : s.ata.fails (s.freeTransfers index + 16) = false
  foreign : ∃ j k, j ≠ index ∧ s.Holds j k ∧ s.slot j k = 0

/-- The state after an inode was given back, as far as its table could be read. -/
structure Reclaimed (s : SimpleFs) (index : Nat) (f : SimpleFs) : Prop where
  geometry : Geometry f.infoBlock
  inode : f.inodeTable.get index = emptied (s.inodeTable.get index)
  transfers : f.ata.transfers = s.freeTransfers index
  fails : f.ata.fails = s.ata.fails
  ready : f.ata.ready = s.ata.ready
  spared : ∀ j k, j ≠ index → s.Holds j k → f.marked (s.slot j k).toNat = true
  room : f.freeBlocks = s.freeBlocks + (s.namedSlots index).length

/-- Giving an inode back takes no block from another, whatever the disk does. -/
theorem Reclaimed.of (geometry : Geometry s.infoBlock) (owned : Owned s)
    (inTable : index < maxInodes) (used : s.inodeUsed index = true) :
    Reclaimed s index (freeInodeBlocks index s) := by
  have holds : ∀ k, s.Named index k → s.Holds index k :=
    fun k named => ⟨inTable, used, named.1, named.2.2⟩
  obtain ⟨bitmap, result, marks⟩ := freeInodeBlocks_eq geometry
    fun k named => owned.inRange index k (holds k named)
  rw [result]
  refine ⟨geometry.congr rfl rfl rfl, get_set_inode _ _ inTable, rfl, rfl, rfl,
    fun j k other held => ?_, ?_⟩
  · -- A block of this inode is not that of another.
    refine (marks _).mpr ⟨owned.isMarked j k held, fun l named same => ?_⟩
    exact other (owned.distinct j k index l held (holds l named) (UInt32.toNat_inj.mp same.symm)).1
  · have places : ∀ k, k ∈ s.namedSlots index ↔ s.Named index k := by
      intro k
      simp only [SimpleFs.namedSlots, List.mem_filter, List.mem_range, decide_eq_true_eq]
      exact ⟨fun both => both.2, fun named => ⟨named.1, named⟩⟩
    refine freeBlocks_given_back index (List.nodup_range.filter _) (fun b => ?_) (fun k named => ?_)
      (fun k namedK l namedL same => ?_)
    · simp only [places]
      exact marks b
    · have held := holds k ((places k).mp named)
      exact ⟨owned.inRange index k held, owned.isMarked index k held⟩
    · exact (owned.distinct index k index l (holds k ((places k).mp namedK))
        (holds l ((places l).mp namedL)) same).2

/-- The loop is cut off as the state before the rewrite says. -/
theorem Reclaimed.cut_iff {f : SimpleFs} (reclaimed : Reclaimed s index f) :
    Cut f size ↔ 6 < blocksOf size ∧ 8 ≤ s.freeBlocks + (s.namedSlots index).length ∧
      (∀ m, m < 15 → s.ata.ready = true ∧ s.ata.fails (s.freeTransfers index + m) = false) ∧
      s.ata.fails (s.freeTransfers index + 15) = true := by
  -- The reclaimed state and the one before agree on all that decides the cut.
  rw [← reclaimed.room, ← reclaimed.transfers, ← reclaimed.fails, ← reclaimed.ready]
  exact ⟨fun cut => ⟨cut.long, cut.room, cut.served, cut.refused⟩,
    fun ⟨long, room, served, refused⟩ => ⟨long, room, served, refused⟩⟩

/--
Exactly when a rewrite spares the blocks of every other inode, whatever the disk does.

The way out trusts the table it reads back. A sector that was cleared and never written since
reads as a table of block 0, which is a block like any other.
-/
theorem writeInodeData_spares_iff (data : Nat → UInt8) (geometry : Geometry s.infoBlock)
    (owned : Owned s) (inTable : index < maxInodes) (used : s.inodeUsed index = true)
    (fits : size ≤ maxFileSize) :
    (∀ j k, j ≠ index → s.Holds j k →
      (writeInodeData index data size s).2.marked (s.slot j k).toNat = true) ↔
    ¬ s.FreesBlockZero index size := by
  -- A loop that is not cut spares everything, and a cut one spares block 0 unless another inode
  -- holds it.
  have reclaimed := Reclaimed.of geometry owned inTable used
  rw [writeInodeData_accepted inTable used fits]
  generalize freeInodeBlocks index s = f at reclaimed
  have uncut : ¬ Cut f size → ¬ s.FreesBlockZero index size := fun notCut bad =>
    notCut (reclaimed.cut_iff.mpr ⟨bad.long, bad.room, bad.served, bad.refused⟩)
  have start : Progress f index data size 0 [] [] _ := Progress.start reclaimed.inode
  rcases rewriteBlocks_turns reclaimed.geometry inTable fits start nofun rfl
      (Nat.zero_add (blocksOf size)) with
    ⟨taken, log, w, loop, done, notCut⟩ | ⟨w, loop, interrupted, notCut⟩ | ⟨w, loop, zeroed, cut⟩
  · rw [loop]
    refine iff_of_true (fun j k other held => ?_) (uncut notCut)
    exact done.commit_spares reclaimed.geometry (owned.inRange j k held)
      (reclaimed.spared j k other held)
  · rw [loop]
    refine iff_of_true (fun j k other held => ?_) (uncut notCut)
    exact interrupted.spares (owned.inRange j k held) (reclaimed.spared j k other held)
  · rw [loop]
    obtain ⟨long, enough, served, refused⟩ := reclaimed.cut_iff.mp cut
    have answers : w.fs.ata.answers = !s.ata.fails (s.freeTransfers index + 16) := by
      rw [Ata.answers, zeroed.ready, zeroed.fails, zeroed.transfers, reclaimed.transfers,
        reclaimed.fails, Bool.true_and]
    have each := fun j k (other : j ≠ index) (held : s.Holds j k) =>
      zeroed.spares_iff (owned.inRange j k held) (reclaimed.spared j k other held)
    constructor
    · rintro kept ⟨-, -, -, -, readBack, j, k, other, held, zero⟩
      rcases (each j k other held).mp (kept j k other held) with apart | silent
      · exact apart (by rw [zero]; rfl)
      · rw [answers, readBack] at silent
        cases silent
    · intro fine j k other held
      refine (each j k other held).mpr ?_
      by_contra both
      rw [not_or, not_not, Bool.not_eq_false, answers, Bool.not_eq_true'] at both
      exact fine ⟨long, enough, served, refused, both.2, j, k, other, held,
        UInt32.toNat_inj.mp both.1⟩

/-- The volume with one file, on a disk that fails one transfer. -/
def flakyFile (transfer : Nat) : SimpleFs :=
  let s := soleFile (.fill 1) 0
  { s with ata := { s.ata with fails := (· == transfer) } }

/-- The file still owns its block. -/
theorem flakyFile_owned (transfer : Nat) : Owned (flakyFile transfer) :=
  have mounted : Mounted (soleFile (.fill 1) 0) := soleFile_mounted (by decide) (by decide)
  mounted.owned.congr rfl rfl rfl

/-- A failure elsewhere while the root is rewritten spares the block of the file. -/
theorem writeInodeData_spares_flakyFile :
    (flakyFile 3).Holds 1 0 ∧
      (writeInodeData 0 (fun _ => 7) 3073 (flakyFile 3)).2.marked 0 = true := by
  -- The failing transfer comes too early for a cut.
  have held : (flakyFile 3).Holds 1 0 := by decide +kernel
  have block : (flakyFile 3).slot 1 0 = 0 := by decide +kernel
  have long : 3073 ≤ maxFileSize := by decide
  have spared := (writeInodeData_spares_iff (fun _ => 7) ⟨rfl, rfl, rfl⟩ (flakyFile_owned 3)
    (show 0 < maxInodes by decide) (by decide) long).mpr fun bad => nomatch bad.refused
  have := spared 1 0 (by decide) held
  rw [block] at this
  exact ⟨held, this⟩

/--
A disk error while one inode is rewritten frees the block of another.

The root grows to seven blocks while the file holds block 0. The sector of its indirect block is
cleared, the table is refused, and the cleared sector is read back as a table of block 0.
-/
theorem disk_error_frees_foreign_block :
    ∃ (s : SimpleFs) (index j k size : Nat) (data : Nat → UInt8), Geometry s.infoBlock ∧ Owned s ∧
      index < maxInodes ∧ s.inodeUsed index = true ∧ size ≤ maxFileSize ∧ j ≠ index ∧ s.Holds j k ∧
      (writeInodeData index data size s).2.marked (s.slot j k).toNat = false :=
  -- The root is given up at its seventh block, the one transfer that fails.
  ⟨flakyFile 15, 0, 1, 0, 3073, fun _ => 7, ⟨rfl, rfl, rfl⟩, flakyFile_owned 15, by decide,
    by decide, by decide, by decide, by decide +kernel, by decide +kernel⟩

end Faults

end MyOS.Fs
