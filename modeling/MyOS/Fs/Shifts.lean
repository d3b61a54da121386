import MyOS.Fs.Tree

/-! What any call may do to the inodes and the directories of a volume, in whatever state. -/

namespace MyOS.Fs

/-- An inode is an allocated file. -/
def SimpleFs.IsFile (s : SimpleFs) (index : Nat) : Prop :=
  index < maxInodes ∧ s.inodeUsed index = true ∧ (s.inodeTable.get index).type = typeRegular

/-- An inode is a directory, other than the root, that holds nothing but the two special entries. -/
def SimpleFs.Bare (s : SimpleFs) (index : Nat) : Prop :=
  index ≠ rootInode ∧
    ∃ entries, Listed s index entries ∧ ∀ entry ∈ entries, entry.2 = dot ∨ entry.2 = dotDot

/-- A directory that can be removed is bare. -/
theorem SimpleFs.Removable.bare {s : SimpleFs} {name : CString} {index : Nat}
    (removable : s.Removable name index) : s.Bare index :=
  ⟨removable.notRoot, removable.empty⟩

/-- A bare directory is one. -/
theorem SimpleFs.Bare.isDir {s : SimpleFs} {index : Nat} (bare : s.Bare index) : s.IsDir index := by
  obtain ⟨-, entries, listed, -⟩ := bare
  exact ⟨listed.readable.1, listed.readable.2.1, listed.readable.2.2.1⟩

/-- The state after a directory was made in a working directory that is no longer allocated. -/
structure Reborn (s : SimpleFs) (name : CString) (t : SimpleFs) : Prop where
  valid : validName name = true
  fresh : s.inodeUsed s.currentDirectory = false
  runs : Runs s.Fresh s.Fresh s t
  allocation : ∀ j, t.inodeUsed j = (decide (s.currentDirectory = j) || s.inodeUsed j)
  listed : Listed t s.currentDirectory
    (dirEntries s.currentDirectory s.currentDirectory [(s.currentDirectory, name)])

/-- One step of what a call does to the volume. -/
inductive Shift (s t : SimpleFs) : Prop
  | spared (runs : Runs s.Fresh s.Fresh s t)
      (allocation : ∀ j, j < maxInodes → t.inodeUsed j = s.inodeUsed j)
  | created {name : CString} {index : Nat} (enterable : s.Enterable name)
      (created : Created s name index t)
  | dirCreated {name : CString} {index : Nat} (enterable : s.Enterable name)
      (created : DirCreated s name index t)
  | reborn {name : CString} (reborn : Reborn s name t)
  | entryLost (readable : s.Readable s.currentDirectory) (lost : EntryLost s t)
  | unlinked {index slot : Nat} {name : CString} {entries : List Entry}
      (listed : Listed s s.currentDirectory entries) (closed : inodeIsOpen s index = false)
      (found : entries[slot]? = some (UInt32.ofNat index, name))
      (spare : s.IsFile index ∨ s.Bare index)
      (unlinked : Unlinked s s.currentDirectory index (entries.eraseIdx slot) t)
  | itself (bare : s.Bare s.currentDirectory)
      (runs : Runs (· = s.currentDirectory) (· = s.currentDirectory) s t)
      (free : t.inodeUsed s.currentDirectory = false)
  | written {index size : Nat} {data : Nat → UInt8} (file : s.IsFile index)
      (written : Written s index data size t)
  | lost {index size : Nat} (file : s.IsFile index) (lost : Lost s index size t)

section Reborn

variable {s : SimpleFs} {name : CString}

/-- A directory made where its name cannot be entered is its own parent, and lists itself. -/
theorem simplefsMakeDir_reborn (mounted : Mounted s) (refused : ¬ s.Enterable name)
    (success : (simplefsMakeDir name s).1 = true) : Reborn s name (simplefsMakeDir name s).2 := by
  have fresh := (simplefsMakeDir_refused mounted refused).2.1 success
  have unreadable : ¬ s.Readable s.currentDirectory := by
    rintro ⟨-, used, -⟩
    rw [fresh] at used
    cases used
  unfold simplefsMakeDir at success ⊢
  by_cases guard : (!s.fsMounted || !validName name) = true
  · rw [if_pos guard] at success
    cases success
  have valid : validName name = true := by
    simp only [Bool.or_eq_true, Bool.not_eq_true', not_or, Bool.not_eq_false] at guard
    exact guard.2
  obtain ⟨transfers, find⟩ := findEntryInDirectory_sound mounted s.currentDirectory name
  rw [if_neg guard, find, SimpleFs.lookup, if_neg unreadable] at success ⊢
  simp only at success ⊢
  rcases allocateInode_cases mounted transfers typeDirectory with
    ⟨index, u, result, taken⟩ | ⟨_, full⟩
  swap
  · rw [full] at success
    cases success
  rw [result] at success ⊢
  simp only at success ⊢
  have mountedU := taken.mounted mounted
  have cwd : u.currentDirectory = s.currentDirectory := taken.runs.steady.currentDirectory
  have toFresh : ∀ i, i = index → s.Fresh i := by
    rintro i rfl
    exact taken.fresh
  rw [cwd] at success ⊢
  rcases initDirectoryFile_cases mounted taken s.currentDirectory with
    ⟨v, init, written⟩ | ⟨v, init, lost⟩
  swap
  · rw [init] at success
    cases success
  rw [init] at success ⊢
  simp only at success ⊢
  have soFar := taken.runs.trans (written.runs.mono toFresh toFresh)
  have mountedV := written.runs.mounted mountedU
  have cwdV : v.currentDirectory = s.currentDirectory :=
    written.runs.steady.currentDirectory.trans cwd
  have allocationV : ∀ j, v.inodeUsed j = (decide (index = j) || s.inodeUsed j) :=
    fun j => (written.allocation j).trans (taken.allocation j)
  obtain ⟨second, append⟩ := appendEntryToDirectory_sound mountedV s.currentDirectory name index
  rw [cwdV, append] at success ⊢
  -- The working directory can be read only if its inode was the one taken.
  have self : index = s.currentDirectory := by
    by_contra other
    rw [if_neg] at success
    · cases success
    · rintro ⟨⟨-, used, -⟩, -⟩
      rw [allocationV, decide_eq_false other, fresh] at used
      cases used
  subst self
  have usedV : v.inodeUsed s.currentDirectory = true := by simp [allocationV]
  have typeV : (v.inodeTable.get s.currentDirectory).type = typeDirectory := by
    rw [written.type, taken.record]
    rfl
  have listed : Listed v s.currentDirectory (dirEntries s.currentDirectory s.currentDirectory []) :=
    Tree.listed_dotEntries taken.inTable usedV typeV (by rw [written.filled.sized]; decide)
      taken.inTable (written.bytes (by decide))
  have two : (dirEntries s.currentDirectory s.currentDirectory []).length = 2 := rfl
  have room : v.entryCount s.currentDirectory < maxDirectoryEntries := by
    rw [listed.count, two]
    decide
  rw [if_pos ⟨listed.readable, room⟩] at success ⊢
  rcases writeDirectory_cases mountedV taken.inTable usedV room second
      (v.appended s.currentDirectory name s.currentDirectory) with
    ⟨w, write, entered, -⟩ | ⟨w, write, lost⟩
  swap
  · rw [write] at success
    cases success
  rw [write]
  have filled := entered.filled
  rw [SimpleFs.appended, SimpleFs.loaded, if_pos listed.readable, listed.count] at filled
  have grown := listed.append (by rw [← listed.count]; exact room)
    (ofNat_ne_invalidInode taken.inTable) (validName.short valid) filled
    ((entered.allocation _).trans usedV) (entered.type.trans typeV)
  exact ⟨valid, fresh, soFar.trans (entered.runs.mono toFresh toFresh),
    fun j => (entered.allocation j).trans (allocationV j), grown⟩

end Reborn

/-- The names of some entries are all different, and each is a special or a valid one. -/
structure WellNamed (entries : List Entry) : Prop where
  distinct : (entries.map Prod.snd).Nodup
  lawful : ∀ entry ∈ entries, entry.2 = dot ∨ entry.2 = dotDot ∨ validName entry.2 = true

namespace WellNamed

/-- No names are well chosen. -/
theorem nil : WellNamed [] := ⟨List.nodup_nil, nofun⟩

/-- The two entries every directory starts with. -/
theorem dots (dir parent : Nat) : WellNamed (dirEntries dir parent []) := by
  -- `.` and `..` are different, and both are special.
  refine ⟨by simp [dirEntries, dot, dotDot], fun entry member => ?_⟩
  rcases List.mem_cons.mp member with rfl | rest
  · exact Or.inl rfl
  · rw [List.mem_singleton.mp rest]
    exact Or.inr (Or.inl rfl)

/-- A valid name that was not there can be added. -/
theorem append {entries : List Entry} (named : WellNamed entries) {inode : UInt32} {name : CString}
    (valid : validName name = true) (absent : ∀ entry ∈ entries, entry.2 ≠ name) :
    WellNamed (entries ++ [(inode, name)]) := by
  -- The names were distinct, and the new one is not among them.
  constructor
  · rw [List.map_append, List.map_singleton]
    refine List.nodup_append.mpr ⟨named.distinct, List.nodup_singleton _, ?_⟩
    intro old member new added same
    obtain ⟨entry, listed, rfl⟩ := List.mem_map.mp member
    exact absent entry listed (same.trans (List.mem_singleton.mp added))
  · intro entry member
    rcases List.mem_append.mp member with old | added
    · exact named.lawful entry old
    · rw [List.mem_singleton.mp added]
      exact Or.inr (Or.inr valid)

/-- Taking an entry out leaves the names of the others. -/
theorem eraseIdx {entries : List Entry} (named : WellNamed entries) (slot : Nat) :
    WellNamed (entries.eraseIdx slot) := by
  -- A list without one of its members has still no two alike.
  refine ⟨?_, fun entry member => named.lawful entry (List.mem_of_mem_eraseIdx member)⟩
  rw [← List.eraseIdx_map]
  exact named.distinct.eraseIdx slot

end WellNamed

/-- Every allocated directory lists entries with different lawful names. -/
def SimpleFs.Catalogued (s : SimpleFs) : Prop :=
  ∀ dir, s.IsDir dir → ∃ entries, Listed s dir entries ∧ WellNamed entries

section Preserved

variable {s t : SimpleFs} {touched rewritten : Nat → Prop}

/-- A directory without content lists nothing. -/
theorem listed_emptied {dir : Nat} {inode : Inode} (inTable : dir < maxInodes)
    (used : t.inodeUsed dir = true) (record : t.inodeTable.get dir = emptied inode)
    (type : inode.type = typeDirectory) : Listed t dir [] := by
  -- Its bytes are none, so it counts no entry.
  have none : t.bytes dir 0 maxFileSize = [] := by
    unfold SimpleFs.bytes inodeBytes
    rw [record, if_pos (by simp [emptied])]
  refine ⟨⟨inTable, used, ?_, ?_⟩, ?_, ?_, ?_⟩
  · rw [record]
    exact type
  · rw [record]
    exact Nat.zero_le _
  · rw [SimpleFs.entryCount, none]
    rfl
  · intro slot inside
    cases inside
  · intro entry member
    cases member

/-- An inode an operation does not touch was allocated before if it is after. -/
theorem Moves.used_before (moves : Moves touched rewritten s t) {index : Nat}
    (inTable : index < maxInodes) (used : t.inodeUsed index = true) (untouched : ¬ touched index) :
    s.inodeUsed index = true := by
  -- A free inode left alone stays free.
  by_contra free
  rw [Bool.not_eq_true] at free
  have still := moves.kept_free inTable free untouched
  rw [used] at still
  cases still

/-- A directory an operation does not touch lists what it listed. -/
theorem SimpleFs.Catalogued.kept (catalogued : s.Catalogued) (mounted : Mounted s)
    (runs : Runs touched rewritten s t) {dir : Nat} (directory : t.IsDir dir)
    (untouched : ¬ touched dir) : ∃ entries, Listed t dir entries ∧ WellNamed entries := by
  -- Its record and its bytes are as they were, so its listing is.
  have used := runs.moves.used_before directory.1 directory.2.1 untouched
  have record := (runs.moves.kept mounted directory.1 used untouched).2.1
  have before : s.IsDir dir := ⟨directory.1, used, by rw [← record]; exact directory.2.2⟩
  obtain ⟨entries, listed, named⟩ := catalogued dir before
  exact ⟨entries, listed.kept mounted runs.moves untouched, named⟩

namespace Shift

/-- A step of a call leaves the session alone and goes through lawful updates. -/
theorem runs (shift : Shift s t) : Runs (fun _ => True) (fun _ => True) s t := by
  -- Each kind of step is a run of its own, with more inodes allowed.
  have wide : ∀ {touched rewritten : Nat → Prop}, Runs touched rewritten s t →
      Runs (fun _ => True) (fun _ => True) s t :=
    fun runs => runs.mono (fun _ _ => trivial) fun _ _ => trivial
  cases shift with
  | spared runs => exact wide runs
  | created _ created => exact wide created.runs
  | dirCreated _ created => exact wide created.runs
  | reborn reborn => exact wide reborn.runs
  | entryLost _ lost => exact wide lost.runs
  | unlinked _ _ _ _ unlinked => exact wide unlinked.runs
  | itself _ runs => exact wide runs
  | written _ written => exact wide written.runs
  | lost _ lost => exact wide lost.runs

/-- A file that is open stays an allocated file. -/
theorem keeps_open (shift : Shift s t) (mounted : Mounted s) {index : Nat} (file : s.IsFile index)
    (opened : inodeIsOpen s index = true) : t.IsFile index := by
  have notFresh : ¬ s.Fresh index := SimpleFs.not_fresh file.2.1
  -- What is not touched stays as it is.
  have kept : ∀ {touched rewritten : Nat → Prop}, Runs touched rewritten s t → ¬ touched index →
      t.IsFile index := by
    intro touched rewritten runs untouched
    obtain ⟨used, record, -⟩ := runs.moves.kept mounted file.1 file.2.1 untouched
    exact ⟨file.1, used, by rw [record]; exact file.2.2⟩
  -- The working directory, where it can be read, is no file.
  have other : s.Readable s.currentDirectory → index ≠ s.currentDirectory := by
    rintro ⟨-, -, type, -⟩ rfl
    rw [file.2.2] at type
    cases type
  cases shift with
  | spared runs => exact kept runs notFresh
  | created enterable created =>
    exact kept created.runs fun touches => touches.elim (other enterable.readable) notFresh
  | dirCreated enterable created =>
    exact kept created.runs fun touches => touches.elim (other enterable.readable) notFresh
  | reborn reborn => exact kept reborn.runs notFresh
  | entryLost readable lost =>
    exact kept lost.runs fun touches => touches.elim (other readable) notFresh
  | unlinked listed closed _ _ unlinked =>
    refine kept unlinked.runs fun touches => touches.elim (other listed.readable) ?_
    rintro rfl
    rw [closed] at opened
    cases opened
  | itself bare runs =>
    obtain ⟨-, entries, listed, -⟩ := bare
    exact kept runs (other listed.readable)
  | @written target _ _ _ written =>
    refine ⟨file.1, by rw [written.allocation]; exact file.2.1, ?_⟩
    by_cases this : index = target
    · rw [this, written.type, ← this]
      exact file.2.2
    · rw [written.others index this]
      exact file.2.2
  | @lost target _ _ lost =>
    refine ⟨file.1, by rw [lost.allocation]; exact file.2.1, ?_⟩
    by_cases this : index = target
    · rw [this, lost.record, ← this]
      exact file.2.2
    · rw [lost.others index this]
      exact file.2.2

/-- A name that was not there goes well with the others. -/
theorem named_entered {name : CString} (enterable : s.Enterable name) {entries : List Entry}
    (listed : Listed s s.currentDirectory entries) (named : WellNamed entries) (inode : UInt32) :
    WellNamed (entries ++ [(inode, name)]) :=
  -- Valid and absent is what the list asks for.
  named.append enterable.valid ((listed.lookup_none name).mp enterable.absent)

/-- Every step of a call keeps the names of every directory different and lawful. -/
theorem catalogued (shift : Shift s t) (mounted : Mounted s) (catalogued : s.Catalogued) :
    t.Catalogued := by
  intro dir directory
  cases shift with
  | spared runs allocation =>
    refine catalogued.kept mounted runs directory fun free => ?_
    have used := directory.2.1
    rw [allocation dir directory.1, free.1] at used
    cases used
  | @created name index enterable created =>
    obtain ⟨inDir, usedDir, typeDir, -⟩ := enterable.readable
    obtain ⟨entries, listed, named⟩ := catalogued _ ⟨inDir, usedDir, typeDir⟩
    by_cases here : dir = s.currentDirectory
    · subst here
      exact ⟨_, created.listed enterable listed, named_entered enterable listed named _⟩
    · refine catalogued.kept mounted created.runs directory fun touches => touches.elim here ?_
      intro free
      -- The only inode that became allocated is a file.
      have used := directory.2.1
      rw [created.allocation, free.1, Bool.or_false, decide_eq_true_eq] at used
      have type := directory.2.2
      rw [← used, created.record] at type
      cases type
  | @dirCreated name index enterable created =>
    obtain ⟨inDir, usedDir, typeDir, -⟩ := enterable.readable
    obtain ⟨entries, listed, named⟩ := catalogued _ ⟨inDir, usedDir, typeDir⟩
    by_cases here : dir = s.currentDirectory
    · subst here
      exact ⟨_, created.listed enterable listed, named_entered enterable listed named _⟩
    · by_cases new : dir = index
      · subst new
        exact ⟨_, Tree.listed_dotEntries created.inTable directory.2.1 created.type
          (by rw [created.newSize]; decide) enterable.readable.1 created.newBytes,
          WellNamed.dots _ _⟩
      · refine catalogued.kept mounted created.runs directory fun touches => touches.elim here ?_
        intro free
        have used := directory.2.1
        rw [created.allocation, free.1, Bool.or_false, decide_eq_true_eq] at used
        exact new used.symm
  | @reborn name reborn =>
    by_cases here : dir = s.currentDirectory
    · subst here
      refine ⟨_, reborn.listed, ?_⟩
      exact (WellNamed.dots _ _).append reborn.valid fun entry member same => by
        obtain ⟨notDot, notDotDot⟩ := validName.ordinary reborn.valid
        rcases List.mem_cons.mp member with rfl | rest
        · exact notDot same.symm
        · rw [List.mem_singleton.mp rest] at same
          exact notDotDot same.symm
    · refine catalogued.kept mounted reborn.runs directory fun free => ?_
      have used := directory.2.1
      rw [reborn.allocation, decide_eq_false (Ne.symm here), free.1] at used
      cases used
  | entryLost readable lost =>
    by_cases here : dir = s.currentDirectory
    · subst here
      exact ⟨[], listed_emptied directory.1 directory.2.1 lost.record readable.2.2.1, .nil⟩
    · refine catalogued.kept mounted lost.runs directory fun touches => touches.elim here ?_
      intro free
      have used := directory.2.1
      rw [lost.allocation dir directory.1, free.1] at used
      cases used
  | @unlinked index slot name entries listed closed found spare unlinked =>
    by_cases here : dir = s.currentDirectory
    · subst here
      obtain ⟨inDir, usedDir, typeDir, -⟩ := listed.readable
      obtain ⟨entries', listed', named⟩ := catalogued _ ⟨inDir, usedDir, typeDir⟩
      obtain rfl := listed.unique listed'
      exact ⟨_, unlinked.listed, named.eraseIdx slot⟩
    · refine catalogued.kept mounted unlinked.runs directory fun touches => touches.elim here ?_
      rintro rfl
      have free := unlinked.free
      rw [directory.2.1] at free
      cases free
  | itself bare runs free =>
    refine catalogued.kept mounted runs directory ?_
    rintro rfl
    rw [directory.2.1] at free
    cases free
  | @written index size data file written =>
    refine catalogued.kept mounted written.runs directory ?_
    rintro rfl
    have type := directory.2.2
    rw [written.type, file.2.2] at type
    cases type
  | @lost index size file lost =>
    refine catalogued.kept mounted lost.runs directory ?_
    rintro rfl
    have type := directory.2.2
    rw [lost.record] at type
    exact absurd (file.2.2.symm.trans type) (by decide)

end Shift

end Preserved

/-- What holds of a volume and its open files in every state, however blocks ran out. -/
structure Sane (s : SimpleFs) : Prop where
  mounted : Mounted s
  catalogued : s.Catalogued
  files : ∀ index, inodeIsOpen s index = true → s.IsFile index

/-- What a call does to the volume, as a chain of steps. -/
abbrev Shifts : SimpleFs → SimpleFs → Prop := Relation.ReflTransGen Shift

section Calls

variable {s t : SimpleFs} {name : CString}

namespace Sane

/-- A step of a call keeps a volume sane. -/
theorem shift (sane : Sane s) (shift : Shift s t) : Sane t := by
  -- Every inode open after the step was open before, and its file is kept.
  refine ⟨shift.runs.mounted sane.mounted, shift.catalogued sane.mounted sane.catalogued, ?_⟩
  intro index opened
  have same : inodeIsOpen s index = inodeIsOpen t index := by
    unfold inodeIsOpen
    rw [shift.runs.steady.openFiles]
  rw [← same] at opened
  exact shift.keeps_open sane.mounted (sane.files index opened) opened

/-- A whole call keeps a volume sane. -/
theorem shifts (sane : Sane s) (shifts : Shifts s t) : Sane t := by
  -- Induction on the steps.
  induction shifts with
  | refl => exact sane
  | tail _ shift ih => exact ih.shift shift

/-- A directory that can be read lists its entries. -/
theorem listed (sane : Sane s) {dir : Nat} (readable : s.Readable dir) :
    ∃ entries, Listed s dir entries ∧ WellNamed entries :=
  sane.catalogued dir ⟨readable.1, readable.2.1, readable.2.2.1⟩

/-- A directory is never open. -/
theorem closed (sane : Sane s) {dir : Nat} (directory : s.IsDir dir) :
    inodeIsOpen s dir = false := by
  -- An open inode is a regular file.
  rw [Bool.eq_false_iff]
  intro opened
  have file := (sane.files dir opened).2.2
  rw [directory.2.2] at file
  cases file

end Sane

/-- A call that only read is a step that spares everything. -/
theorem Alike.shift (alike : Alike s t) : Shift s t :=
  .spared alike.runs fun index _ => alike.quiet.inodeUsed index

/-- Creating a file is one step. -/
theorem simplefsCreate_shift (sane : Sane s) (name : CString) :
    Shift s (simplefsCreate name s).2 := by
  -- Created, lost, or nothing but looked at.
  by_cases enterable : s.Enterable name
  · rcases simplefsCreate_enterable sane.mounted enterable with
      ⟨t, index, result, created⟩ | ⟨t, result, lost, -⟩
    · rw [result]
      exact .created enterable created
    · rw [result]
      exact .entryLost enterable.readable lost
  · obtain ⟨t, result, runs, -, allocation⟩ := simplefsCreate_refused sane.mounted enterable
    rw [result]
    exact .spared runs allocation

/-- Making a directory is one step. -/
theorem simplefsMakeDir_shift (sane : Sane s) (name : CString) :
    Shift s (simplefsMakeDir name s).2 := by
  -- Made, given up, lost, or nothing but looked at.
  by_cases enterable : s.Enterable name
  · rcases simplefsMakeDir_enterable sane.mounted enterable with
      ⟨t, index, result, created⟩ | ⟨t, result, runs, -, -, allocation⟩ | ⟨t, result, lost, -⟩
    · rw [result]
      exact .dirCreated enterable created
    · rw [result]
      exact .spared runs allocation
    · rw [result]
      exact .entryLost enterable.readable lost
  · cases success : (simplefsMakeDir name s).1 with
    | true => exact .reborn (simplefsMakeDir_reborn sane.mounted enterable success)
    | false =>
      obtain ⟨runs, -, allocation⟩ := simplefsMakeDir_refused sane.mounted enterable
      exact .spared runs (allocation success)

/-- Deleting a file is one step. -/
theorem simplefsDelete_shift (sane : Sane s) (name : CString) :
    Shift s (simplefsDelete name s).2 := by
  -- Unlinked, or nothing but looked at.
  by_cases deletable : ∃ index, s.Deletable name index
  · obtain ⟨index, deletable⟩ := deletable
    obtain ⟨inode, slot, found, -⟩ := fileNamed_some deletable.named
    obtain ⟨entries, listed, -⟩ := sane.listed (readable_of_lookup found)
    obtain ⟨t, slot, result, member, unlinked⟩ :=
      simplefsDelete_deletable sane.mounted listed deletable
    rw [result]
    exact .unlinked listed deletable.closed member (Or.inl (fileNamed_allocated deletable.named))
      unlinked
  · obtain ⟨t, result, alike⟩ := simplefsDelete_refused sane.mounted (not_exists.mp deletable)
    rw [result]
    exact alike.shift

/-- Removing a directory is one step, even where it is the working one. -/
theorem simplefsRemoveDir_shift (sane : Sane s) (name : CString) :
    Shift s (simplefsRemoveDir name s).2 := by
  by_cases removable : ∃ index, s.Removable name index
  · obtain ⟨index, removable⟩ := removable
    obtain ⟨inode, slot, found, -⟩ := removable.found
    have readable := readable_of_lookup found
    obtain ⟨entries, listed, -⟩ := sane.listed readable
    by_cases itself : index = s.currentDirectory
    · -- The working directory goes, through its own entry.
      subst itself
      obtain ⟨t, result, runs, free⟩ := simplefsRemoveDir_itself sane.mounted listed removable
      rw [result]
      exact .itself removable.bare runs free
    · obtain ⟨t, slot, result, member, unlinked⟩ :=
        simplefsRemoveDir_removable sane.mounted listed removable itself
      rw [result]
      exact .unlinked listed (sane.closed removable.bare.isDir) member (Or.inr removable.bare)
        unlinked
  · obtain ⟨t, result, alike⟩ := simplefsRemoveDir_refused sane.mounted
      (fun inode leads => by
        obtain ⟨entries, listed, -⟩ := sane.catalogued _ (entryLeadsTo_iff.mp leads)
        exact ⟨entries, listed⟩) (not_exists.mp removable)
    rw [result]
    exact alike.shift

/-- Writing a file is one step or two. -/
theorem simplefsWriteFile_shifts (sane : Sane s) (name : CString) (data : Nat → UInt8)
    (size : Nat) : Shifts s (simplefsWriteFile name data size s).2 := by
  by_cases existing : ∃ index, s.Replaceable name size index
  · obtain ⟨index, replaceable⟩ := existing
    have file : s.IsFile index := fileNamed_allocated replaceable.named
    rcases simplefsWriteFile_existing sane.mounted replaceable data with
      ⟨t, result, written⟩ | ⟨t, result, lost⟩
    · rw [result]
      exact .single (.written file written)
    · rw [result]
      exact .single (.lost file lost)
  by_cases new : s.Enterable name ∧ size ≤ maxFileSize
  · -- The file is created first, and empty.
    have isFile : ∀ {t : SimpleFs} {index : Nat}, Created s name index t → t.IsFile index := by
      intro t index created
      refine ⟨created.inTable, by simp [created.allocation], ?_⟩
      rw [created.record]
      rfl
    rcases simplefsWriteFile_new sane.mounted new.1 new.2 data with
      ⟨t, u, index, result, created, written⟩ | ⟨t, u, index, result, created, lost⟩ |
        ⟨t, result, lost, -⟩
    · rw [result]
      exact .tail (.single (.created new.1 created)) (.written (isFile created) written)
    · rw [result]
      exact .tail (.single (.created new.1 created)) (.lost (isFile created) lost)
    · rw [result]
      exact .single (.entryLost new.1.readable lost)
  · obtain ⟨t, result, runs, -, allocation⟩ :=
      simplefsWriteFile_refused sane.mounted (not_exists.mp existing) new data
    rw [result]
    exact .single (.spared runs allocation)

/-- Appending to a file is one step or none. -/
theorem simplefsAppendFile_shifts (sane : Sane s) (name : CString) (data : Nat → UInt8)
    (size : Nat) : Shifts s (simplefsAppendFile name data size s).2 := by
  -- The file is rewritten from the buffer, or the call is refused.
  by_cases appendable : s.Appendable name size
  · obtain ⟨t, buffer, looked, result, -⟩ :=
      simplefsAppendFile_appendable sane.mounted appendable data
    rw [result]
    have read : Shift s t := looked.alike.shift
    exact .trans (.single read) (simplefsWriteFile_shifts (sane.shift read) name _ _)
  · obtain ⟨t, result, looked⟩ := simplefsAppendFile_refused sane.mounted appendable data
    rw [result]
    exact .single looked.alike.shift

/-- Writing through a descriptor rewrites the file it leads to, and moves its offset last. -/
theorem simplefsWriteFd_shifts (sane : Sane s) (fd : Int) (data : Nat → UInt8) (size : Nat) :
    ∃ t, Shifts s t ∧ ((simplefsWriteFd fd data size s).2 = t ∨
      fdUsed fd s = true ∧ ∃ stop, stop ≤ maxFileSize ∧
        (simplefsWriteFd fd data size s).2 = t.withOffset fd.toNat stop) := by
  by_cases patchable : s.Patchable fd size
  · obtain ⟨transfers, result⟩ := simplefsWriteFd_patchable sane.mounted patchable data
    have alike := Alike.buffered s transfers (s.patched fd data size)
    have mounted := alike.quiet.mounted sane.mounted
    have used := patchable.used
    simp only [fdUsed, Bool.and_eq_true, decide_eq_true_eq] at used
    -- The descriptor is in use, so the inode it leads to is a file.
    have opened : inodeIsOpen s (s.fdInode fd) = true := by
      unfold inodeIsOpen
      rw [List.any_eq_true]
      refine ⟨fd.toNat, List.mem_range.mpr (by omega), ?_⟩
      rw [used.2, Bool.true_and, beq_iff_eq]
      rfl
    have file := sane.files _ opened
    have fits : max (s.bytes (s.fdInode fd) 0 maxFileSize).length ((s.fdOffset fd + size) % 2 ^ 32) ≤
        maxFileSize := Nat.max_le.mpr ⟨bytes_length_le s _ 0 maxFileSize, patchable.fits⟩
    rw [result]
    rcases writeInodeData_cases mounted file.1 file.2.1 fits (s.patched fd data size).get with
      ⟨t, write, -, written⟩ | ⟨t, write, lost⟩
    · rw [write]
      refine ⟨t, .tail (.single alike.shift) (.written file written), Or.inr ⟨patchable.used, _,
        patchable.fits, rfl⟩⟩
    · rw [write]
      exact ⟨t, .tail (.single alike.shift) (.lost file lost), Or.inl rfl⟩
  · obtain ⟨t, result, alike⟩ := simplefsWriteFd_refused patchable data
    rw [result]
    exact ⟨t, .single alike.shift, Or.inl rfl⟩

end Calls

end MyOS.Fs
