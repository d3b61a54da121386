import MyOS.Fs.InodeLaws

/-! Reading an inode on a sound disk: a function of its record and of the sectors it holds. -/

namespace MyOS.Fs

/-- The copy loop of a read, as a function of the disk image. -/
def gather (sectors : Nat → Sector) (inode : Inode) (remaining : Nat) :
    Nat → Nat → Nat → List UInt8 → List UInt8
  | 0, _, _, buffer => buffer
  | fuel + 1, logical, sectorOffset, buffer =>
    if buffer.length < remaining then
      let block := pointer sectors inode logical
      if block = invalidBlock then buffer
      else
        let toCopy := min (remaining - buffer.length) (sectorSize - sectorOffset)
        let piece := (List.range toCopy).map fun j =>
          (sectors (blockSector block)).get (sectorOffset + j)
        gather sectors inode remaining fuel (logical + 1) 0 (buffer ++ piece)
    else buffer

/-- The bytes a read of an inode returns, as a function of the disk image. -/
def inodeBytes (sectors : Nat → Sector) (inode : Inode) (offset bufferSize : Nat) : List UInt8 :=
  if offset ≥ inode.size.toNat then []
  else
    let remaining := min (inode.size.toNat - offset) bufferSize
    gather sectors inode remaining remaining (offset / sectorSize) (offset % sectorSize) []

/-- The bytes a read of an inode of the mounted file system returns. -/
def SimpleFs.bytes (s : SimpleFs) (index offset bufferSize : Nat) : List UInt8 :=
  inodeBytes s.ata.sectors (s.inodeTable.get index) offset bufferSize

section Read

variable {s : SimpleFs}

/-- On a sound disk the block of a logical block is the one its inode points to. -/
theorem getFileBlock_sound (sound : s.ata.Sound) (geometry : Geometry s.infoBlock) (inode : Inode)
    (logical : Nat) {loaded : Option IndirectTable}
    (known : loaded = none ∨ loaded = some (tableOf s.ata.sectors inode)) :
    ∃ loaded' transfers, getFileBlock inode logical loaded s =
        (some (pointer s.ata.sectors inode logical, loaded'),
          s.scanned transfers s.directoryScratch) ∧
      (loaded' = none ∨ loaded' = some (tableOf s.ata.sectors inode)) := by
  unfold getFileBlock pointer
  by_cases direct : logical < 6
  · -- Direct blocks need no table.
    refine ⟨loaded, s.ata.transfers, ?_, known⟩
    rw [if_pos (by simpa [directCount] using direct), if_pos direct]
    rfl
  · rw [if_neg (by simpa [directCount] using direct), if_neg direct]
    by_cases beyond : logical - 6 < 128
    · rw [if_neg (by simp only [directCount, indirectEntries]; omega), if_pos beyond]
      rcases known with rfl | rfl
      · -- The table is read now and kept.
        obtain ⟨transfers, read⟩ := readIndirectBlock_sound sound geometry inode
        refine ⟨_, transfers, ?_, Or.inr rfl⟩
        rw [read]
        rfl
      · exact ⟨_, s.ata.transfers, rfl, Or.inr rfl⟩
    · -- No table has room for such a block.
      refine ⟨loaded, s.ata.transfers, ?_, known⟩
      rw [if_pos (by simp only [directCount, indirectEntries]; omega), if_neg beyond]
      rfl

/-- On a sound disk the copy loop gathers what the disk image holds. -/
theorem readLoop_sound (sound : s.ata.Sound) (geometry : Geometry s.infoBlock) (inode : Inode)
    (remaining fuel logical sectorOffset : Nat) {loaded : Option IndirectTable}
    (known : loaded = none ∨ loaded = some (tableOf s.ata.sectors inode)) (buffer : List UInt8) :
    ∃ transfers, readLoop inode remaining fuel logical sectorOffset loaded buffer s =
      (true, gather s.ata.sectors inode remaining fuel logical sectorOffset buffer,
        s.scanned transfers s.directoryScratch) := by
  induction fuel generalizing s logical sectorOffset loaded buffer with
  | zero => exact ⟨s.ata.transfers, rfl⟩
  | succ fuel ih =>
    unfold readLoop gather
    by_cases more : buffer.length < remaining
    · rw [if_pos more, if_pos more]
      obtain ⟨loaded', transfers, block, known'⟩ :=
        getFileBlock_sound sound geometry inode logical known
      simp only [block]
      by_cases hole : pointer s.ata.sectors inode logical = invalidBlock
      · -- A hole ends both loops.
        rw [if_pos hole, if_pos hole]
        exact ⟨transfers, rfl⟩
      · rw [if_neg hole, if_neg hole]
        -- Reads move nothing the rest of the loop depends on.
        have next : (s.scanned transfers s.directoryScratch).ata.Sound :=
          Sound.afterReads sound transfers
        rw [readBlock_sound next geometry]
        have last : ((s.scanned transfers s.directoryScratch).scanned
            (transfers + 1) s.directoryScratch).ata.Sound := Sound.afterReads sound (transfers + 1)
        obtain ⟨final, rest⟩ := ih (s := s.scanned (transfers + 1) s.directoryScratch) last geometry
          (logical + 1) 0 known' (buffer ++ (List.range (min (remaining - buffer.length)
            (sectorSize - sectorOffset))).map fun j =>
              (s.ata.sectors (blockSector (pointer s.ata.sectors inode logical))).get
                (sectorOffset + j))
        exact ⟨final, rest⟩
    · rw [if_neg more, if_neg more]
      exact ⟨s.ata.transfers, rfl⟩

/-- On a sound disk an allocated inode reads as its bytes. -/
theorem readInodeBytes_sound (sound : s.ata.Sound) (geometry : Geometry s.infoBlock) {index : Nat}
    (inTable : index < maxInodes) (used : s.inodeUsed index = true) (offset bufferSize : Nat) :
    ∃ transfers, readInodeBytes index offset bufferSize s =
      (true, s.bytes index offset bufferSize, s.scanned transfers s.directoryScratch) := by
  unfold readInodeBytes SimpleFs.bytes inodeBytes
  rw [if_neg (by simp [used]; omega)]
  by_cases past : offset ≥ (s.inodeTable.get index).size.toNat
  · -- Behind the end there is nothing to read.
    simp only [past, if_true]
    exact ⟨s.ata.transfers, rfl⟩
  · simp only [past, if_false]
    exact readLoop_sound sound geometry _ _ _ _ _ (Or.inl rfl) []

/-- An inode that is not there cannot be read. -/
theorem readInodeBytes_refused {index : Nat}
    (refused : ¬ (index < maxInodes ∧ s.inodeUsed index = true)) (offset bufferSize : Nat) :
    readInodeBytes index offset bufferSize s = (false, [], s) := by
  -- The two tests of the source, negated.
  unfold readInodeBytes
  rw [if_pos]
  simp only [Bool.or_eq_true, decide_eq_true_eq, Bool.not_eq_true']
  by_contra allowed
  simp only [not_or, Bool.not_eq_false] at allowed
  exact refused ⟨by omega, allowed.2⟩

end Read

/-- A read depends on the pointers of the inode and on the sectors they lead to. -/
theorem gather_congr {sectors sectors' : Nat → Sector} {inode : Inode}
    (pointers : ∀ l, pointer sectors' inode l = pointer sectors inode l)
    (same : ∀ l, pointer sectors inode l ≠ invalidBlock →
      sectors' (blockSector (pointer sectors inode l)) =
        sectors (blockSector (pointer sectors inode l)))
    (remaining fuel logical sectorOffset : Nat) (buffer : List UInt8) :
    gather sectors' inode remaining fuel logical sectorOffset buffer =
      gather sectors inode remaining fuel logical sectorOffset buffer := by
  -- Induction on the fuel: each round reads one pointer and one sector.
  induction fuel generalizing logical sectorOffset buffer with
  | zero => rfl
  | succ fuel ih =>
    unfold gather
    rw [pointers logical]
    split
    · by_cases hole : pointer sectors inode logical = invalidBlock
      · simp only [hole, if_true]
      · simp only [hole, if_false, same logical hole]
        exact ih _ _ _
    · rfl

/-- Two states in which an inode has one record and the same sectors read alike. -/
theorem bytes_congr {s t : SimpleFs} {index : Nat}
    (record : t.inodeTable.get index = s.inodeTable.get index)
    (same : ∀ k, k < slotLimit → s.slot index k ≠ invalidBlock →
      t.ata.sectors (blockSector (s.slot index k)) = s.ata.sectors (blockSector (s.slot index k)))
    (offset bufferSize : Nat) : t.bytes index offset bufferSize = s.bytes index offset bufferSize := by
  have slots : ∀ k, slotBlock t.ata.sectors (s.inodeTable.get index) k = s.slot index k := by
    intro k
    refine slotBlock_congr (fun held => ?_) k
    have := same 6 (by decide) (by rw [slot_six]; exact held)
    rwa [slot_six] at this
  -- Inside the pointers' range a logical block has a place; outside both are invalid.
  have outside : ∀ sectors l, ¬ l < 134 →
      pointer sectors (s.inodeTable.get index) l = invalidBlock := by
    intro sectors l past
    unfold pointer
    rw [if_neg (by omega), if_neg (by omega)]
  unfold SimpleFs.bytes inodeBytes
  rw [record]
  split
  · rfl
  · refine gather_congr (fun l => ?_) (fun l held => ?_) _ _ _ _ _
    · by_cases inside : l < 134
      · rw [pointer_eq_slotBlock _ _ inside, pointer_eq_slotBlock _ _ inside, slots]
        rfl
      · rw [outside _ l inside, outside _ l inside]
    · by_cases inside : l < 134
      · rw [pointer_eq_slotBlock _ _ inside] at held ⊢
        refine same _ ?_ held
        unfold dataSlot slotLimit
        split <;> omega
      · exact absurd (outside _ l inside) held

/-- The link count of an inode does not matter to reading it. -/
theorem inodeBytes_withLinks (sectors : Nat → Sector) (inode : Inode) (count : UInt16)
    (offset bufferSize : Nat) :
    inodeBytes sectors { inode with linkCount := count } offset bufferSize =
      inodeBytes sectors inode offset bufferSize := by
  -- The copy loop uses the pointers only, which are the same.
  have loop : ∀ remaining fuel logical sectorOffset buffer,
      gather sectors { inode with linkCount := count } remaining fuel logical sectorOffset buffer =
        gather sectors inode remaining fuel logical sectorOffset buffer := by
    intro remaining fuel
    induction fuel with
    | zero => exact fun _ _ _ => rfl
    | succ fuel ih =>
      intro logical sectorOffset buffer
      have pointers : pointer sectors { inode with linkCount := count } logical =
          pointer sectors inode logical := rfl
      unfold gather
      simp only [pointers, ih]
  simp only [inodeBytes, loop]

/-- Storing another link count leaves the bytes of the inode alone. -/
theorem linkCount_bytes {s : SimpleFs} (mounted : Mounted s) {index : Nat}
    (inTable : index < maxInodes) (used : s.inodeUsed index = true) (count : UInt16)
    (offset bufferSize : Nat) :
    let u := s.withInode index { s.inodeTable.get index with linkCount := count }
    (u.logged (tableLog u.inodeTable)).bytes index offset bufferSize =
      s.bytes index offset bufferSize := by
  intro u
  have inodeIs : (u.logged (tableLog u.inodeTable)).inodeTable.get index =
      { s.inodeTable.get index with linkCount := count } := get_set_inode _ _ inTable
  rw [SimpleFs.bytes, inodeIs, inodeBytes_withLinks]
  -- The inode table is not stored where data is.
  refine @bytes_congr s { s with ata := (u.logged (tableLog u.inodeTable)).ata } index rfl
    (fun k small held => Ata.applyWrites_other fun entry member same => ?_) offset bufferSize
  have inside := mounted.inside inTable used k small held
  have low := metadataLog_lt (List.mem_cons_of_mem (4097, s.infoBlock.encode) member)
  rw [blockSector_eq inside] at same
  omega

/-- An update of one inode leaves the bytes of every other allocated inode alone. -/
theorem Effect.bytes_other {s t : SimpleFs} {index : Nat} {body closing : List (Nat × Sector)}
    (effect : Effect s index body closing t) (owned : Owned s) {j : Nat} (inTable : j < maxInodes)
    (used : s.inodeUsed j = true) (other : j ≠ index) (offset bufferSize : Nat) :
    t.bytes j offset bufferSize = s.bytes j offset bufferSize :=
  -- The record of the other inode and the sectors of its blocks are as they were.
  bytes_congr (effect.others j other)
    (fun _ small held => effect.sectors_other owned ⟨inTable, used, small, held⟩ other) _ _

section Content

variable {sectors : Nat → Sector} {inode : Inode}

/--
Where the inode has no hole, a read returns one byte of the disk per position.

The position reached is the offset plus what is in the buffer, unless the read is complete.
-/
theorem gather_eq_map {offset remaining : Nat} {byteAt : Nat → UInt8}
    (solid : ∀ l, 512 * l < offset + remaining → pointer sectors inode l ≠ invalidBlock)
    (holds : ∀ l j, j < 512 → 512 * l + j < offset + remaining →
      (sectors (blockSector (pointer sectors inode l))).get j = byteAt (512 * l + j))
    {fuel logical sectorOffset done : Nat} (enough : remaining ≤ done + fuel)
    (sectorEnd : sectorOffset < 512)
    (position : done < remaining → offset + done = 512 * logical + sectorOffset)
    (bounded : done ≤ remaining) :
    gather sectors inode remaining fuel logical sectorOffset
        ((List.range done).map fun p => byteAt (offset + p)) =
      (List.range remaining).map fun p => byteAt (offset + p) := by
  induction fuel generalizing logical sectorOffset done with
  | zero =>
    obtain rfl : done = remaining := by omega
    rfl
  | succ fuel ih =>
    unfold gather
    rw [List.length_map, List.length_range]
    by_cases more : done < remaining
    · have here := position more
      rw [if_pos more, if_neg (solid logical (by omega))]
      -- One turn copies up to the end of the sector or of the read.
      have piece : (List.range (min (remaining - done) (sectorSize - sectorOffset))).map (fun j =>
          (sectors (blockSector (pointer sectors inode logical))).get (sectorOffset + j)) =
            (List.range (min (remaining - done) (sectorSize - sectorOffset))).map
              fun j => byteAt (offset + (done + j)) := by
        refine List.map_congr_left fun j member => ?_
        have small := List.mem_range.mp member
        simp only [sectorSize] at small
        rw [holds logical (sectorOffset + j) (by omega) (by omega)]
        congr 1
        omega
      simp only [sectorSize] at piece ⊢
      have joined : ((List.range done).map fun p => byteAt (offset + p)) ++
          ((List.range (min (remaining - done) (512 - sectorOffset))).map fun j =>
            byteAt (offset + (done + j))) =
          (List.range (done + min (remaining - done) (512 - sectorOffset))).map
            fun p => byteAt (offset + p) := by
        rw [List.range_add, List.map_append, List.map_map]
        rfl
      rw [piece, joined]
      exact ih (by omega) (by omega) (by omega) (by omega)
    · rw [if_neg more]
      obtain rfl : done = remaining := by omega
      rfl

/-- An inode whose sectors hold a content reads as that content. -/
theorem inodeBytes_eq {data : Nat → UInt8} {size : Nat} (sizeIs : inode.size.toNat = size)
    (solid : ∀ l, l < blocksOf size → pointer sectors inode l ≠ invalidBlock)
    (holds : ∀ l j, j < 512 → 512 * l + j < size →
      (sectors (blockSector (pointer sectors inode l))).get j = data (512 * l + j))
    (offset bufferSize : Nat) :
    inodeBytes sectors inode offset bufferSize =
      (List.range (min (size - offset) bufferSize)).map fun p => data (offset + p) := by
  unfold inodeBytes
  rw [sizeIs]
  by_cases past : offset ≥ size
  · rw [if_pos past, show size - offset = 0 by omega]
    simp
  · rw [if_neg past]
    -- The loop starts with an empty buffer, in the middle of a sector.
    have whole : gather sectors inode (min (size - offset) bufferSize)
        (min (size - offset) bufferSize) (offset / sectorSize) (offset % sectorSize)
        ((List.range 0).map fun p => data (offset + p)) =
          (List.range (min (size - offset) bufferSize)).map fun p => data (offset + p) := by
      refine gather_eq_map ?_ ?_ (by omega) (by simp only [sectorSize]; omega)
        (by simp only [sectorSize]; omega) (by omega)
      · intro l reached
        exact solid l (by simp only [blocksOf]; omega)
      · intro l j small reached
        exact holds l j small (by omega)
    exact whole

end Content

/-- A filled inode reads as the content it was filled with. -/
theorem Filled.bytes {index : Nat} {data : Nat → UInt8} {size : Nat} {t : SimpleFs}
    (filled : Filled index data size t) (fits : size ≤ maxFileSize) (offset bufferSize : Nat) :
    t.bytes index offset bufferSize =
      (List.range (min (size - offset) bufferSize)).map fun p => data (offset + p) := by
  simp only [maxFileSize] at fits
  have small : ∀ l, l < blocksOf size → l < 134 := by
    intro l
    simp only [blocksOf]
    omega
  refine inodeBytes_eq ?_ (fun l inside => ?_) (fun l j byte inside => ?_) offset bufferSize
  · rw [filled.sized, UInt32.toNat_ofNat']
    omega
  · rw [pointer_eq_slotBlock _ _ (small l inside)]
    exact filled.held _ (Progress.dataSlot_lt inside)
  · -- The sector is padded with zeros only behind the content.
    have block : l < blocksOf size := by simp only [blocksOf]; omega
    have content : t.ata.sectors (blockSector (slotBlock t.ata.sectors (t.inodeTable.get index)
        (dataSlot l))) = contentSector data size l := filled.content l block
    rw [pointer_eq_slotBlock _ _ (small l block), content]
    unfold contentSector dataSector
    rw [FixedArray.get_ofFn _ byte, if_pos (by omega)]

end MyOS.Fs
