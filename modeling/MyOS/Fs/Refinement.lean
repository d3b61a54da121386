import MyOS.Fs.Flat
import MyOS.Fs.Store

/-! SimpleFS in its root directory answers every call as a store of named files does. -/

namespace MyOS.Fs

/-- A slot of the open-file table is what a store says about the descriptor. -/
def OpenAs (s : SimpleFs) (file : OpenFile) : Option (CString × Nat) → Prop
  | none => file.used = false
  | some (name, offset) =>
    -- The offset may lie behind the end of the file, but never behind that of a full one.
    file.used = true ∧ file.offset = offset ∧ offset ≤ maxFileSize ∧
      s.fileNamed name = some file.inodeIndex

/-- A volume holds what a store says. -/
structure Mirrors (s : SimpleFs) (a : Store) : Prop where
  flat : ∃ parent children, Flat s parent children ∧
    a.files.keys.length = (children rootInode).length
  files : ∀ name, a.files.lookup name =
    (s.fileNamed name).map fun index => s.bytes index 0 maxFileSize
  opened : ∀ fd, fd < maxOpenFiles → OpenAs s (s.openFiles.get fd) (a.opened.get fd)

section Mirrors

variable {s t : SimpleFs} {a : Store} {name : CString}

namespace Mirrors

/-- A volume that mirrors a store is healthy. -/
theorem healthy (mirrors : Mirrors s a) : Healthy s := by
  obtain ⟨_, _, flat, -⟩ := mirrors.flat
  exact flat.healthy

/-- A volume that mirrors a store is mounted as it should be. -/
theorem mounted (mirrors : Mirrors s a) : Mounted s := mirrors.healthy.mounted

/-- A volume that mirrors a store is in use. -/
theorem fsMounted (mirrors : Mirrors s a) : s.fsMounted = true := by
  obtain ⟨_, _, flat, -⟩ := mirrors.flat
  exact flat.fsMounted

/-- A name the store knows leads to a file with the content the store gives. -/
theorem named (mirrors : Mirrors s a) {index : Nat} (named : s.fileNamed name = some index) :
    a.files.lookup name = some (s.bytes index 0 maxFileSize) := by
  rw [mirrors.files, named, Option.map_some]

/-- The content the store gives for a name is what its file holds. -/
theorem content (mirrors : Mirrors s a) {index : Nat} (named : s.fileNamed name = some index) :
    a.content name = s.bytes index 0 maxFileSize := by
  rw [Store.content, mirrors.named named, Option.getD_some]

/-- The store knows exactly the names that lead somewhere. -/
theorem lookup_isSome (mirrors : Mirrors s a) (name : CString) :
    (a.files.lookup name).isSome = (s.fileNamed name).isSome := by
  rw [mirrors.files, Option.isSome_map]

/-- A name is unknown to the store exactly if it leads to no file. -/
theorem lookup_none (mirrors : Mirrors s a) :
    a.files.lookup name = none ↔ s.fileNamed name = none := by
  rw [mirrors.files, Option.map_eq_none_iff]

/-- Reading a file at an offset is taking a piece of its content. -/
theorem slice (mirrors : Mirrors s a) {index : Nat} (named : s.fileNamed name = some index)
    (offset bufferSize : Nat) :
    s.bytes index offset bufferSize =
      ((s.bytes index 0 maxFileSize).drop offset).take bufferSize ∧
    (s.bytes index 0 maxFileSize).length = (s.inodeTable.get index).size.toNat := by
  -- The bytes at an offset are those of the whole, with the ones before left out.
  obtain ⟨inTable, used, -⟩ := fileNamed_allocated named
  have shaped := mirrors.healthy.shaped index inTable
  have bound := shaped.size used
  have whole : min ((s.inodeTable.get index).size.toNat - 0) maxFileSize =
      (s.inodeTable.get index).size.toNat := by
    omega
  rw [shaped.bytes used offset, shaped.bytes used 0, whole]
  constructor
  · refine List.ext_getElem ?_ fun k _ _ => ?_
    · simp only [List.length_map, List.length_range, List.length_take, List.length_drop]
      omega
    · simp
  · simp

/-- Two names that lead to one file are the same. -/
theorem injective (mirrors : Mirrors s a) {other : CString} {index : Nat}
    (first : s.fileNamed name = some index) (second : s.fileNamed other = some index) :
    other = name := by
  -- The volume is flat, and there a file has one name.
  obtain ⟨_, _, flat, -⟩ := mirrors.flat
  exact flat.name_unique ((flat.fileNamed_iff other index).mp second)
    ((flat.fileNamed_iff name index).mp first)

/-- A descriptor is open in a state exactly as it is in one whose names lead to the same files. -/
theorem openAs_congr (same : ∀ name, t.fileNamed name = s.fileNamed name) {file : OpenFile}
    {slot : Option (CString × Nat)} (open_ : OpenAs s file slot) : OpenAs t file slot := by
  -- A closed slot asks nothing, an open one only where its name leads.
  cases slot with
  | none => exact open_
  | some entry => exact ⟨open_.1, open_.2.1, open_.2.2.1, (same entry.1).trans open_.2.2.2⟩

/-- Another session on the same volume mirrors a store with the same files. -/
theorem session (mirrors : Mirrors s a) (quiet : Quiet s t)
    (fsMounted : t.fsMounted = s.fsMounted) (current : t.currentDirectory = s.currentDirectory)
    {opened : FixedArray 8 (Option (CString × Nat))}
    (opens : ∀ fd, fd < maxOpenFiles → OpenAs s (t.openFiles.get fd) (opened.get fd)) :
    Mirrors t { a with opened := opened } := by
  -- Names and contents come from the volume, only the descriptors are given anew.
  obtain ⟨parent, children, flat, count⟩ := mirrors.flat
  obtain ⟨flatT, same⟩ := flat.quiet quiet fsMounted current
  refine ⟨⟨parent, children, flatT, count⟩, fun name => ?_, fun fd inside => ?_⟩
  · rw [same]
    simp only [quiet.bytes]
    exact mirrors.files name
  · exact openAs_congr same (opens fd inside)

/-- What concerns free inodes only leaves the store as it is. -/
theorem spared (mirrors : Mirrors s a) (runs : Runs s.Fresh s.Fresh s t)
    (allocation : ∀ index, index < maxInodes → t.inodeUsed index = s.inodeUsed index) :
    Mirrors t a := by
  obtain ⟨parent, children, flat, count⟩ := mirrors.flat
  obtain ⟨flatT, same⟩ := flat.spared runs allocation
  refine ⟨⟨parent, children, flatT, count⟩, fun name => ?_, fun fd inside => ?_⟩
  · rw [same, mirrors.files]
    cases named : s.fileNamed name with
    | none => rfl
    | some index =>
      -- The file was not touched, since it is allocated.
      obtain ⟨inTable, used, -⟩ := fileNamed_allocated named
      have kept := runs.moves.kept mirrors.mounted inTable used (SimpleFs.not_fresh used)
      rw [Option.map_some, Option.map_some, kept.2.2]
  · rw [runs.steady.openFiles]
    exact openAs_congr same (mirrors.opened fd inside)

/-- A state alike mirrors the same store. -/
theorem alike (mirrors : Mirrors s a) (alike : Alike s t) : Mirrors t a :=
  mirrors.spared alike.runs fun index _ => alike.quiet.inodeUsed index

/-- A file that was rewritten is replaced in the store. -/
theorem written (mirrors : Mirrors s a) {index size : Nat} {data : Nat → UInt8}
    (named : s.fileNamed name = some index) (fits : size ≤ maxFileSize)
    (written : Written s index data size t) :
    Mirrors t (a.put name ((List.range size).map data)) := by
  obtain ⟨parent, children, flat, count⟩ := mirrors.flat
  obtain ⟨flatT, same⟩ := flat.written (fileNamed_allocated named).2.2 written
  have present : name ∈ a.files.keys := by
    rw [← AList.mem_keys, ← AList.lookup_isSome, mirrors.named named]
    rfl
  refine ⟨⟨parent, children, flatT, ?_⟩, fun other => ?_, fun fd inside => ?_⟩
  · -- The name was there already, so the number of files is the same.
    have some : a.files.keys.length ≠ 0 := by
      rw [Ne, List.length_eq_zero_iff]
      exact List.ne_nil_of_mem present
    rw [Store.put, AList.keys_insert, List.length_cons, List.length_erase_of_mem present, ← count]
    omega
  · rw [same]
    by_cases this : other = name
    · subst this
      rw [Store.put, AList.lookup_insert, named, Option.map_some, written.bytes fits, Nat.sub_zero,
        Nat.min_eq_left fits]
      simp only [Nat.zero_add]
    · rw [Store.put, AList.lookup_insert_ne this, mirrors.files]
      cases elsewhere : s.fileNamed other with
      | none => rfl
      | some j =>
        -- The other name leads to another file, which was not rewritten.
        obtain ⟨inTable, used, -⟩ := fileNamed_allocated elsewhere
        have differs : j ≠ index := by
          rintro rfl
          exact this (mirrors.injective named elsewhere)
        rw [Option.map_some, Option.map_some,
          written.bytes_other mirrors.mounted inTable used differs]
  · rw [written.runs.steady.openFiles]
    exact openAs_congr same (mirrors.opened fd inside)

/-- A file that was created is a new and empty one in the store. -/
theorem created (mirrors : Mirrors s a) {index : Nat} (enterable : s.Enterable name)
    (created : Created s name index t) : Mirrors t (a.put name []) := by
  obtain ⟨parent, children, flat, count⟩ := mirrors.flat
  have absent := ((flat.enterable_iff name).mp enterable).2.1
  obtain ⟨parent', children', flatT, grown, names⟩ := flat.created enterable created
  have missing : name ∉ a.files.keys := by
    rw [← AList.mem_keys, ← AList.lookup_eq_none]
    exact mirrors.lookup_none.mpr absent
  refine ⟨⟨parent', children', flatT, ?_⟩, fun other => ?_, fun fd inside => ?_⟩
  · rw [Store.put, AList.keys_insert, List.length_cons, List.erase_of_not_mem missing, count, grown]
  · rw [names]
    by_cases this : other = name
    · subst this
      have empty : t.bytes index 0 maxFileSize = [] := by
        unfold SimpleFs.bytes inodeBytes
        rw [created.record]
        rfl
      rw [if_pos rfl, Store.put, AList.lookup_insert, Option.map_some, empty]
    · rw [if_neg this, Store.put, AList.lookup_insert_ne this, mirrors.files]
      cases elsewhere : s.fileNamed other with
      | none => rfl
      | some j =>
        -- The other file is neither the directory nor free.
        obtain ⟨inTable, used, regular⟩ := fileNamed_allocated elsewhere
        have untouched : ¬ s.Entering j := by
          rintro (current | free)
          · rw [current, flat.tree.current.2.2] at regular
            cases regular
          · exact SimpleFs.not_fresh used free
        rw [Option.map_some, Option.map_some,
          (created.runs.moves.kept mirrors.mounted inTable used untouched).2.2]
  · rw [created.runs.steady.openFiles]
    -- Open files bear names that were there before.
    have before := mirrors.opened fd inside
    cases slot : a.opened.get fd with
    | none =>
      rw [slot] at before
      rw [Store.put]
      simp only [slot]
      exact before
    | some entry =>
      rw [slot] at before
      rw [Store.put]
      simp only [slot]
      refine ⟨before.1, before.2.1, before.2.2.1, ?_⟩
      rw [names, if_neg]
      · exact before.2.2.2
      · rintro rfl
        have leads := before.2.2.2
        rw [absent] at leads
        cases leads

/-- A file that was deleted is gone from the store. -/
theorem unlinked (mirrors : Mirrors s a) {index slot : Nat} {parent : Nat → Nat}
    {children : Nat → List (Nat × CString)} (flat : Flat s parent children)
    (count : a.files.keys.length = (children rootInode).length)
    (named : s.fileNamed name = some index) (closed : a.isOpen name = false)
    (found : (dirEntries rootInode rootInode (children rootInode))[slot]? =
      some (UInt32.ofNat index, name))
    (unlinked : Unlinked s s.currentDirectory index
      ((dirEntries rootInode rootInode (children rootInode)).eraseIdx slot) t) :
    Mirrors t { a with files := a.files.erase name } := by
  obtain ⟨parent', children', flatT, shrunk, names⟩ := flat.unlinked named found unlinked
  have present : name ∈ a.files.keys := by
    rw [← AList.mem_keys, ← AList.lookup_isSome, mirrors.named named]
    rfl
  refine ⟨⟨parent', children', flatT, ?_⟩, fun other => ?_, fun fd inside => ?_⟩
  · simp only [AList.keys_erase, List.length_erase_of_mem present, count]
    omega
  · rw [names]
    by_cases this : other = name
    · subst this
      rw [if_pos rfl, AList.lookup_erase]
      rfl
    · rw [if_neg this, AList.lookup_erase_ne this, mirrors.files]
      cases elsewhere : s.fileNamed other with
      | none => rfl
      | some j =>
        obtain ⟨inTable, used, regular⟩ := fileNamed_allocated elsewhere
        -- The other file is neither the directory nor the one deleted.
        have untouched : ¬ (j = s.currentDirectory ∨ j = index) := by
          rintro (rfl | rfl)
          · rw [flat.tree.current.2.2] at regular
            cases regular
          · exact this (mirrors.injective named elsewhere)
        rw [Option.map_some, Option.map_some,
          (unlinked.runs.moves.kept mirrors.mounted inTable used untouched).2.2]
  · rw [unlinked.runs.steady.openFiles]
    have before := mirrors.opened fd inside
    cases slot : a.opened.get fd with
    | none =>
      rw [slot] at before
      exact before
    | some entry =>
      rw [slot] at before
      refine ⟨before.1, before.2.1, before.2.2.1, ?_⟩
      rw [names, if_neg]
      · exact before.2.2.2
      · -- An open file was not deleted.
        rintro rfl
        rw [Store.isOpen, List.any_eq_false] at closed
        have differs := closed fd (List.mem_range.mpr inside)
        rw [slot] at differs
        simp at differs

/-- A file is open under a descriptor exactly if the store says so. -/
theorem inodeIsOpen_eq (mirrors : Mirrors s a) {index : Nat}
    (named : s.fileNamed name = some index) : inodeIsOpen s index = a.isOpen name := by
  unfold inodeIsOpen Store.isOpen
  rw [Bool.eq_iff_iff, List.any_eq_true, List.any_eq_true]
  refine exists_congr fun fd => and_congr_right fun member => ?_
  have open_ := mirrors.opened fd (List.mem_range.mp member)
  cases slot : a.opened.get fd with
  | none =>
    rw [slot] at open_
    have unused : (s.openFiles.get fd).used = false := open_
    simp [unused]
  | some entry =>
    rw [slot] at open_
    obtain ⟨used, -, -, leads⟩ := open_
    -- The descriptor leads to the file exactly if it bears its name.
    simp only [used, Bool.true_and, beq_iff_eq]
    constructor
    · intro same
      rw [same] at leads
      exact mirrors.injective named leads
    · intro same
      rw [same, named] at leads
      exact (Option.some.inj leads).symm

/-- There is room for a new file exactly if the store has room. -/
theorem enterable_iff (mirrors : Mirrors s a) (name : CString) :
    s.Enterable name ↔ (validName name && (a.files.lookup name).isNone && a.hasRoom) = true := by
  -- Absence is the same on both sides, and the root has room as long as the store has.
  obtain ⟨parent, children, flat, count⟩ := mirrors.flat
  rw [flat.enterable_iff, Bool.and_eq_true, Bool.and_eq_true, Option.isNone_iff_eq_none,
    mirrors.lookup_none, Store.hasRoom, decide_eq_true_eq, count, and_assoc]
  rfl

end Mirrors

end Mirrors

/-- A call answers as the store does, and what it leaves is what the store is left as. -/
def Agrees (result : Bool × SimpleFs) (expected : Bool × Store) : Prop :=
  -- Once blocks ran out, nothing is promised.
  result.2.blocksExhausted = false → result.1 = expected.1 ∧ Mirrors result.2 expected.2

section Calls

variable {s t : SimpleFs} {a b : Store} {result : Bool × SimpleFs} {name : CString}

/-- Both sides answer the same, and the states after them agree. -/
theorem Agrees.of {ok : Bool} {expected : Bool × Store} (resultIs : result = (ok, t))
    (expectedIs : expected = (ok, b)) (mirrors : Mirrors t b) : Agrees result expected := by
  -- The answers are the same by assumption.
  subst resultIs expectedIs
  exact fun _ => ⟨rfl, mirrors⟩

/-- A step that ran out of blocks need not agree. -/
theorem Agrees.exhausted {ok : Bool} {expected : Bool × Store} (resultIs : result = (ok, t))
    (exhausted : t.blocksExhausted = true) : Agrees result expected := by
  -- The premise that no block was wanted contradicts the assumption.
  subst resultIs
  intro clear
  rw [show t.blocksExhausted = false from clear] at exhausted
  cases exhausted

/-- Creating a file does what the store does. -/
theorem simplefsCreate_agrees (mirrors : Mirrors s a) (name : CString) :
    Agrees (simplefsCreate name s) (a.create name) := by
  -- Either the name can be entered on both sides, or on neither.
  have condition := mirrors.enterable_iff name
  unfold Store.create
  by_cases enterable : s.Enterable name
  · rw [if_pos (condition.mp enterable)]
    rcases simplefsCreate_enterable mirrors.mounted enterable with
      ⟨t, index, result, created⟩ | ⟨t, result, lost, -⟩
    · exact Agrees.of result rfl (mirrors.created enterable created)
    · exact Agrees.exhausted result lost.exhausted
  · rw [if_neg (fun met => enterable (condition.mpr met))]
    obtain ⟨t, result, runs, -, allocation⟩ := simplefsCreate_refused mirrors.mounted enterable
    exact Agrees.of result rfl (mirrors.spared runs allocation)

/-- Deleting a file does what the store does. -/
theorem simplefsDelete_agrees (mirrors : Mirrors s a) (name : CString) :
    Agrees (simplefsDelete name s) (a.delete name) := by
  unfold Store.delete
  rw [mirrors.lookup_isSome]
  cases named : s.fileNamed name with
  | none =>
    have refused : ∀ index, ¬ s.Deletable name index := by
      rintro index ⟨-, leads, -⟩
      rw [named] at leads
      cases leads
    obtain ⟨t, result, alike⟩ := simplefsDelete_refused mirrors.mounted refused
    exact Agrees.of result rfl (mirrors.alike alike)
  | some index =>
    simp only [Option.isSome_some, Bool.true_and]
    have isOpen := mirrors.inodeIsOpen_eq named
    cases open_ : a.isOpen name with
    | true =>
      -- The file is open, so both refuse.
      have refused : ∀ other, ¬ s.Deletable name other := by
        rintro other ⟨-, leads, closed⟩
        rw [named, Option.some.injEq] at leads
        rw [← leads, isOpen, open_] at closed
        cases closed
      obtain ⟨t, result, alike⟩ := simplefsDelete_refused mirrors.mounted refused
      exact Agrees.of result rfl (mirrors.alike alike)
    | false =>
      obtain ⟨parent, children, flat, count⟩ := mirrors.flat
      have deletable : s.Deletable name index := ⟨flat.fsMounted, named, isOpen.trans open_⟩
      obtain ⟨t, slot, result, found, unlinked⟩ :=
        simplefsDelete_deletable mirrors.mounted flat.listed deletable
      exact Agrees.of result rfl (mirrors.unlinked flat count named open_ found unlinked)

/-- Writing a file does what the store does. -/
theorem simplefsWriteFile_agrees (mirrors : Mirrors s a) (name : CString) (data : Nat → UInt8)
    (size : Nat) : Agrees (simplefsWriteFile name data size s)
      (a.write name ((List.range size).map data)) := by
  have condition := mirrors.enterable_iff name
  unfold Store.write
  rw [List.length_map, List.length_range]
  by_cases guard : validName name = true ∧ size ≤ maxFileSize
  swap
  · -- Both refuse before anything is looked up.
    rw [if_neg (by
      simp only [Bool.and_eq_true, decide_eq_true_eq]
      exact fun met => guard met.1)]
    obtain ⟨t, result, runs, -, allocation⟩ := @simplefsWriteFile_refused s name mirrors.mounted size
      (fun index replaceable => guard ⟨replaceable.valid, replaceable.fits⟩)
      (fun new => guard ⟨new.1.valid, new.2⟩) data
    exact Agrees.of result rfl (mirrors.spared runs allocation)
  obtain ⟨valid, fits⟩ := guard
  rw [valid, decide_eq_true fits, Bool.true_and, Bool.true_and, mirrors.lookup_isSome]
  cases named : s.fileNamed name with
  | some index =>
    have replaceable : s.Replaceable name size index := ⟨mirrors.fsMounted, valid, fits, named⟩
    rw [Option.isSome_some, Bool.true_or, if_pos rfl]
    rcases simplefsWriteFile_existing mirrors.mounted replaceable data with
      ⟨t, result, written⟩ | ⟨t, result, lost⟩
    · exact Agrees.of result rfl (mirrors.written named fits written)
    · exact Agrees.exhausted result lost.exhausted
  | none =>
    rw [Option.isSome_none, Bool.false_or]
    rw [valid, mirrors.lookup_none.mpr named, Option.isNone_none, Bool.true_and,
      Bool.true_and] at condition
    by_cases enterable : s.Enterable name
    · rw [if_pos (condition.mp enterable)]
      rcases simplefsWriteFile_new mirrors.mounted enterable fits data with
        ⟨t, u, index, result, created, written⟩ | ⟨t, u, index, result, created, lost⟩ |
          ⟨t, result, lost, -⟩
      · -- The file is made first and then given its content.
        have made := mirrors.created enterable created
        have leads : t.fileNamed name = some index := by
          obtain ⟨parent, children, flat, -⟩ := mirrors.flat
          obtain ⟨-, -, -, -, names⟩ := flat.created enterable created
          rw [names, if_pos rfl]
        have both := made.written leads fits written
        have twice : (a.put name []).put name ((List.range size).map data) =
            a.put name ((List.range size).map data) := by
          simp only [Store.put, AList.insert_insert]
        rw [twice] at both
        exact Agrees.of result rfl both
      · exact Agrees.exhausted result lost.exhausted
      · exact Agrees.exhausted result lost.exhausted
    · rw [if_neg (fun met => enterable (condition.mpr met))]
      obtain ⟨t, result, runs, -, allocation⟩ := @simplefsWriteFile_refused s name mirrors.mounted
        size (fun index replaceable => by
          have leads := replaceable.named
          rw [named] at leads
          cases leads) (fun new => enterable new.1) data
      exact Agrees.of result rfl (mirrors.spared runs allocation)

/-- The content a name leads to is the one the store gives. -/
theorem Mirrors.contentNamed (mirrors : Mirrors s a) (name : CString) :
    s.contentNamed name = a.content name := by
  -- A name leads nowhere on both sides, or to a file with that content.
  unfold SimpleFs.contentNamed Store.content
  rw [mirrors.files]
  cases s.fileNamed name <;> rfl

/-- A list is what its positions hold, in order. -/
theorem map_getD_range (data : List UInt8) :
    (List.range data.length).map (data.getD · 0) = data := by
  -- Position by position.
  refine List.ext_getElem (by simp) fun k _ inside => ?_
  simp only [List.getElem_map, List.getElem_range]
  exact List.getD_eq_getElem _ _ inside

/-- Appending to a file does what the store does. -/
theorem simplefsAppendFile_agrees (mirrors : Mirrors s a) (name : CString) (data : List UInt8) :
    Agrees (simplefsAppendFile name (data.getD · 0) data.length s) (a.append name data) := by
  have listed : (List.range data.length).map (data.getD · 0) = data := map_getD_range data
  have content := mirrors.contentNamed name
  by_cases appendable : s.Appendable name data.length
  · obtain ⟨t, buffer, looked, result, holds⟩ :=
      simplefsAppendFile_appendable mirrors.mounted appendable (data.getD · 0)
    rw [listed] at holds
    have write := simplefsWriteFile_agrees (mirrors.alike looked.alike) name buffer.get
      ((s.contentNamed name).length + data.length)
    -- The buffer holds the old content and the new bytes behind it.
    have whole : (List.range ((s.contentNamed name).length + data.length)).map buffer.get =
        a.content name ++ data := by
      refine List.ext_getElem (by simp [content]) fun k inside inside' => ?_
      simp only [List.length_map, List.length_range] at inside
      simp only [List.getElem_map, List.getElem_range]
      rw [holds k inside, List.getD_eq_getElem _ _ (by rw [content]; exact inside')]
      simp only [content]
    rw [whole] at write
    rw [result]
    exact write
  · obtain ⟨t, result, looked⟩ := simplefsAppendFile_refused mirrors.mounted appendable
      (data.getD · 0)
    refine Agrees.of result ?_ (mirrors.alike looked.alike)
    -- Only a name that is not valid, or a sum that is too long, is refused here.
    unfold Store.append Store.write
    rw [if_neg]
    intro met
    simp only [Bool.and_eq_true, decide_eq_true_eq, List.length_append] at met
    obtain ⟨⟨valid, fits⟩, -⟩ := met
    rw [← content] at fits
    refine appendable ⟨by omega, fits, ?_⟩
    obtain ⟨parent, children, flat, -⟩ := mirrors.flat
    cases named : s.fileNamed name with
    | none => exact Or.inl ((flat.lookup_none_iff valid).mpr named)
    | some index => exact Or.inr ⟨flat.fsMounted, index, rfl⟩

/-- Reading by name returns what the store holds. -/
theorem simplefsReadFile_agrees (mirrors : Mirrors s a) (name : CString) (bufferSize : Nat) :
    (answerBytes (simplefsReadFile name bufferSize s)).1 = a.read name bufferSize ∧
      Mirrors (answerBytes (simplefsReadFile name bufferSize s)).2 a := by
  -- Reading only looks, and the file the name leads to holds what the store says.
  obtain ⟨t, looked, result⟩ := simplefsReadFile_sound mirrors.mounted name bufferSize
  rw [result, if_pos mirrors.fsMounted]
  unfold Store.read
  cases named : s.fileNamed name with
  | none =>
    rw [mirrors.lookup_none.mpr named]
    exact ⟨rfl, mirrors.alike looked.alike⟩
  | some index =>
    rw [mirrors.named named]
    have slice := (mirrors.slice named 0 bufferSize).1
    rw [List.drop_zero] at slice
    simp only [answerBytes, if_true, slice]
    exact ⟨trivial, mirrors.alike looked.alike⟩

/-- A descriptor the store does not know is not in use. -/
theorem Mirrors.descriptor_none (mirrors : Mirrors s a) {fd : Int}
    (unknown : a.descriptor fd = none) : fdUsed fd s = false := by
  -- A descriptor in range has an empty slot, another one is refused.
  unfold fdUsed
  by_cases range : 0 ≤ fd ∧ fd < maxOpenFiles
  · rw [Store.descriptor, if_pos range] at unknown
    have inside : fd.toNat < maxOpenFiles := by omega
    have open_ := mirrors.opened fd.toNat inside
    rw [unknown] at open_
    have unused : (s.openFiles.get fd.toNat).used = false := open_
    rw [unused, Bool.and_false]
  · rw [Bool.and_eq_false_iff, Bool.and_eq_false_iff, decide_eq_false_iff_not,
      decide_eq_false_iff_not]
    exact Or.inl (not_and_or.mp range)

/-- A descriptor the store knows leads to the file the store says. -/
theorem Mirrors.descriptor_some (mirrors : Mirrors s a) {fd : Int} {offset : Nat}
    (known : a.descriptor fd = some (name, offset)) :
    fd.toNat < maxOpenFiles ∧ fdUsed fd s = true ∧ s.fdOffset fd = offset ∧ offset ≤ maxFileSize ∧
      s.fileNamed name = some (s.fdInode fd) := by
  -- The slot in the store says that the open file is in use.
  unfold Store.descriptor at known
  split at known
  · rename_i range
    have inside : fd.toNat < maxOpenFiles := by omega
    have open_ := mirrors.opened fd.toNat inside
    rw [known] at open_
    refine ⟨inside, ?_, open_.2.1, open_.2.2.1, open_.2.2.2⟩
    unfold fdUsed
    rw [open_.1, decide_eq_true range.1, decide_eq_true range.2]
    rfl
  · cases known

/-- One slot of the open-file table changes as the store says it does. -/
theorem Mirrors.slot (mirrors : Mirrors s a) (quiet : Quiet s t)
    (fsMounted : t.fsMounted = s.fsMounted) (current : t.currentDirectory = s.currentDirectory)
    {fd : Nat} (inside : fd < maxOpenFiles) {file : OpenFile} {slot : Option (CString × Nat)}
    (table : t.openFiles = s.openFiles.set fd file) (open_ : OpenAs s file slot) :
    Mirrors t { a with opened := a.opened.set fd slot } := by
  -- The slot changed is the given one, every other is as it was.
  refine mirrors.session quiet fsMounted current fun other small => ?_
  rw [table]
  by_cases this : other = fd
  · subst this
    have inTable : other < 8 := inside
    rw [FixedArray.get_set_same _ _ inTable, FixedArray.get_set_same _ _ inTable]
    exact open_
  · rw [FixedArray.get_set_ne _ _ this, FixedArray.get_set_ne _ _ this]
    exact mirrors.opened other small

/-- Moving the offset of a descriptor moves it in the store. -/
theorem Mirrors.moved (mirrors : Mirrors s a) {fd : Int} {old offset : Nat}
    (known : a.descriptor fd = some (name, old)) (fits : offset ≤ maxFileSize) :
    Mirrors (s.withOffset fd.toNat offset) (a.move fd name offset) := by
  obtain ⟨inside, -, -, -, leads⟩ := mirrors.descriptor_some known
  have used : (s.openFiles.get fd.toNat).used = true := by
    have open_ := mirrors.opened fd.toNat inside
    unfold Store.descriptor at known
    split at known
    · rw [known] at open_
      exact open_.1
    · cases known
  exact mirrors.slot (withOffset_quiet s _ _) rfl rfl inside rfl ⟨used, rfl, fits, leads⟩

theorem simplefsOpen_agrees (mirrors : Mirrors s a) (name : CString) :
    (simplefsOpen name s).1 = (a.open_ name).1 ∧
      Mirrors (simplefsOpen name s).2 (a.open_ name).2 := by
  obtain ⟨transfers, find⟩ := findEntryInDirectory_sound mirrors.mounted s.currentDirectory name
  have looked := Looked.scanned s transfers
  have mirrorsT := mirrors.alike looked.alike
  -- Both look for the first descriptor that is not in use.
  have search : ((List.range maxOpenFiles).find? fun fd => !(s.openFiles.get fd).used) =
      (List.range maxOpenFiles).find? fun fd => (a.opened.get fd).isNone := by
    refine List.find?_congr fun fd member => ?_
    have open_ := mirrors.opened fd (List.mem_range.mp member)
    cases slot : a.opened.get fd with
    | none =>
      rw [slot] at open_
      rw [show (s.openFiles.get fd).used = false from open_]
      rfl
    | some entry =>
      rw [slot] at open_
      rw [open_.1]
      rfl
  unfold simplefsOpen Store.open_
  rw [if_neg (by simp [mirrors.fsMounted]), find, mirrors.files]
  unfold SimpleFs.fileNamed
  cases found : s.lookup s.currentDirectory name with
  | none => exact ⟨rfl, mirrorsT⟩
  | some entry =>
    simp only [looked.leads]
    cases leads : entryLeadsTo entry.1 typeRegular s with
    | false => exact ⟨rfl, mirrorsT⟩
    | true =>
      have named : s.fileNamed name = some entry.1.toNat := by
        simp only [SimpleFs.fileNamed, found, leads, if_true]
      have table : (s.scannedDir s.currentDirectory transfers).openFiles = s.openFiles := rfl
      simp only [Bool.not_true, Bool.false_eq_true, if_false, if_true, Option.map_some, table,
        search]
      cases free : (List.range maxOpenFiles).find? fun fd => (a.opened.get fd).isNone with
      | none => exact ⟨rfl, mirrorsT⟩
      | some fd =>
        have inside := List.mem_range.mp (List.mem_of_find?_eq_some free)
        have quiet : Quiet s { s.scannedDir s.currentDirectory transfers with
            openFiles := s.openFiles.set fd
              { used := true, inodeIndex := entry.1.toNat, offset := 0
                name := name.chars.take (nameCapacity - 1) } } :=
          looked.alike.quiet.trans ⟨Ata.Extends.refl _, rfl, rfl, rfl, id⟩
        exact ⟨rfl, mirrors.slot quiet rfl rfl inside rfl ⟨rfl, rfl, Nat.zero_le _, named⟩⟩

theorem simplefsClose_agrees (mirrors : Mirrors s a) (fd : Int) :
    Agrees (simplefsClose fd s) (a.close fd) := by
  unfold simplefsClose Store.close
  cases known : a.descriptor fd with
  | none =>
    rw [mirrors.descriptor_none known]
    exact Agrees.of rfl rfl mirrors
  | some entry =>
    obtain ⟨inside, used, -⟩ := mirrors.descriptor_some known
    rw [used]
    have quiet : Quiet s { s with openFiles := s.openFiles.set fd.toNat closedFile } :=
      ⟨Ata.Extends.refl _, rfl, rfl, rfl, id⟩
    exact Agrees.of rfl rfl (mirrors.slot quiet rfl rfl inside rfl rfl)

theorem simplefsReadFd_agrees (mirrors : Mirrors s a) (fd : Int) (bufferSize : Nat) :
    (answerBytes (simplefsReadFd fd bufferSize s)).1 = (a.readFd fd bufferSize).1 ∧
      Mirrors (answerBytes (simplefsReadFd fd bufferSize s)).2 (a.readFd fd bufferSize).2 := by
  unfold simplefsReadFd Store.readFd
  cases known : a.descriptor fd with
  | none =>
    rw [mirrors.descriptor_none known, if_pos (by simp)]
    exact ⟨rfl, mirrors⟩
  | some entry =>
    obtain ⟨name, offset⟩ := entry
    obtain ⟨inside, used, offsetIs, fits, leads⟩ := mirrors.descriptor_some known
    obtain ⟨inTable, allocated, -⟩ := fileNamed_allocated leads
    obtain ⟨slice, length⟩ := mirrors.slice leads offset bufferSize
    obtain ⟨transfers, read⟩ := readInodeBytes_sound mirrors.mounted.sound
      mirrors.mounted.geometry inTable allocated offset bufferSize
    unfold SimpleFs.fdOffset at offsetIs
    unfold SimpleFs.fdInode at read slice length
    have alike : Alike s (s.scanned transfers s.directoryScratch) := Alike.scanned s _ _
    -- The offset stays inside the file, so the sum does not wrap.
    have bound := bytes_length_le s (s.openFiles.get fd.toNat).inodeIndex 0 maxFileSize
    have within : offset + (((s.bytes (s.openFiles.get fd.toNat).inodeIndex 0 maxFileSize).drop
        offset).take bufferSize).length ≤ maxFileSize := by
      rw [List.length_take, List.length_drop]
      omega
    have noWrap := Nat.mod_eq_of_lt (Nat.lt_of_le_of_lt within (show maxFileSize < 2 ^ 32 by decide))
    rw [if_neg (by simp [mirrors.fsMounted, used])]
    simp only [offsetIs, read, slice, noWrap]
    rw [show a.content name = _ from mirrors.content leads]
    exact ⟨rfl, (mirrors.alike alike).moved known within⟩

theorem simplefsSeek_agrees (mirrors : Mirrors s a) (fd : Int) (offset : Nat) :
    Agrees (simplefsSeek fd offset s) (a.seek fd offset) := by
  unfold simplefsSeek Store.seek
  cases known : a.descriptor fd with
  | none =>
    rw [mirrors.descriptor_none known, if_pos (by simp)]
    exact Agrees.of rfl rfl mirrors
  | some entry =>
    obtain ⟨name, old⟩ := entry
    obtain ⟨-, used, -, -, leads⟩ := mirrors.descriptor_some known
    obtain ⟨inTable, allocated, -⟩ := fileNamed_allocated leads
    have length := (mirrors.slice leads 0 0).2
    have content := mirrors.content leads
    have bound := bytes_length_le s (s.fdInode fd) 0 maxFileSize
    unfold SimpleFs.fdInode at inTable allocated length content bound
    rw [if_neg (by simp [mirrors.fsMounted, used])]
    simp only [content, length]
    by_cases behind : offset > (s.inodeTable.get (s.openFiles.get fd.toNat).inodeIndex).size.toNat
    · rw [if_pos (by simp [behind]), if_pos behind]
      exact Agrees.of rfl rfl mirrors
    · rw [if_neg (by simp [allocated, behind]; omega), if_neg behind]
      exact Agrees.of rfl rfl (mirrors.moved known (by omega))

/-- What the file buffer holds before a write through a descriptor is the new content. -/
theorem patched_eq (s : SimpleFs) (fd : Int) (data : List UInt8)
    (fits : s.fdOffset fd + data.length ≤ maxFileSize) :
    (List.range (max (s.bytes (s.fdInode fd) 0 maxFileSize).length
        (s.fdOffset fd + data.length))).map (s.patched fd (data.getD · 0) data.length).get =
      Store.overwrite (s.bytes (s.fdInode fd) 0 maxFileSize) (s.fdOffset fd) data := by
  have bound := bytes_length_le s (s.fdInode fd) 0 maxFileSize
  unfold SimpleFs.patched Store.overwrite
  generalize s.bytes (s.fdInode fd) 0 maxFileSize = content at bound ⊢
  generalize s.fdOffset fd = offset at fits ⊢
  simp only [maxFileSize] at fits bound
  -- Up to the offset there are the old bytes and then zeros.
  have first : ((content ++ List.replicate (offset - content.length) 0).take offset).length =
      offset := by
    rw [List.length_take, List.length_append, List.length_replicate]
    omega
  refine List.ext_getElem ?_ fun p inside inside' => ?_
  · simp only [List.length_map, List.length_range, List.length_append, first, List.length_drop]
    omega
  simp only [List.length_map, List.length_range] at inside
  simp only [List.getElem_map, List.getElem_range]
  rw [FixedArray.get_blit _ _ _ (by omega)]
  simp only [List.length_map, List.length_range]
  by_cases early : p < offset
  · rw [if_neg (by omega), FixedArray.get_blit _ _ _ (by omega), List.length_replicate,
      List.getElem_append_left (by rw [List.length_append, first]; omega),
      List.getElem_append_left (by omega), List.getElem_take]
    by_cases old : p < content.length
    · rw [if_neg (by omega), FixedArray.get_blit _ _ _ (by omega), if_pos (by omega), Nat.sub_zero,
        List.getElem_append_left old, List.getD_eq_getElem _ _ old]
    · rw [if_pos (by omega), List.getElem_append_right (by omega), List.getElem_replicate,
        List.getD_eq_getElem _ _ (by rw [List.length_replicate]; omega), List.getElem_replicate]
  · by_cases new : p < offset + data.length
    · rw [if_pos (by omega), List.getElem_append_left (by rw [List.length_append, first]; omega),
        List.getElem_append_right (by omega),
        List.getD_eq_getElem _ _ (by simp only [List.length_map, List.length_range]; omega)]
      simp only [List.getElem_map, List.getElem_range, first]
      exact List.getD_eq_getElem _ _ (by omega)
    · -- Behind what was written the file is as it was.
      rw [if_neg (by omega), FixedArray.get_blit _ _ _ (by omega), List.length_replicate,
        if_neg (by omega), FixedArray.get_blit _ _ _ (by omega), if_pos (by omega), Nat.sub_zero,
        List.getElem_append_right (by rw [List.length_append, first]; omega), List.getElem_drop,
        List.getD_eq_getElem _ _ (by omega)]
      congr 1
      rw [List.length_append, first]
      omega

theorem simplefsWriteFd_agrees (mirrors : Mirrors s a) (fd : Int) {data : List UInt8}
    (small : data.length ≤ 68608) :
    Agrees (simplefsWriteFd fd (data.getD · 0) data.length s) (a.writeFd fd data) := by
  unfold Store.writeFd
  cases known : a.descriptor fd with
  | none =>
    have refused : ¬ s.Patchable fd data.length := by
      rintro ⟨-, used, -⟩
      rw [mirrors.descriptor_none known] at used
      cases used
    obtain ⟨t, result, alike⟩ := simplefsWriteFd_refused refused (data.getD · 0)
    exact Agrees.of result rfl (mirrors.alike alike)
  | some entry =>
    obtain ⟨name, offset⟩ := entry
    obtain ⟨inside, used, rfl, fits, leads⟩ := mirrors.descriptor_some known
    obtain ⟨inTable, allocated, -⟩ := fileNamed_allocated leads
    -- Neither the offset nor the length is large enough for the sum to wrap.
    have noWrap : (s.fdOffset fd + data.length) % 2 ^ 32 = s.fdOffset fd + data.length := by
      simp only [maxFileSize] at fits
      omega
    simp only
    by_cases long : s.fdOffset fd + data.length > maxFileSize
    · rw [if_pos long]
      have refused : ¬ s.Patchable fd data.length := by
        rintro ⟨-, -, stop, -⟩
        rw [noWrap] at stop
        omega
      obtain ⟨t, result, alike⟩ := simplefsWriteFd_refused refused (data.getD · 0)
      exact Agrees.of result rfl (mirrors.alike alike)
    · rw [if_neg long]
      have patchable : s.Patchable fd data.length :=
        ⟨mirrors.fsMounted, used, by rw [noWrap]; omega, inTable, allocated⟩
      obtain ⟨transfers, result⟩ :=
        simplefsWriteFd_patchable mirrors.mounted patchable (data.getD · 0)
      rw [noWrap] at result
      have alike := Alike.buffered s transfers (s.patched fd (data.getD · 0) data.length)
      have bound : max (s.bytes (s.fdInode fd) 0 maxFileSize).length
          (s.fdOffset fd + data.length) ≤ maxFileSize :=
        Nat.max_le.mpr ⟨bytes_length_le s _ 0 maxFileSize, by omega⟩
      rw [result]
      rcases writeInodeData_cases (alike.quiet.mounted mirrors.mounted) inTable allocated bound
          (s.patched fd (data.getD · 0) data.length).get with
        ⟨t, write, -, written⟩ | ⟨t, write, lost⟩
      · rw [write]
        have writtenS := written.after_quiet alike.quiet alike.steady rfl mirrors.mounted inTable
          allocated
        have mirrorsT := mirrors.written leads bound writtenS
        rw [patched_eq s fd data (by omega), ← mirrors.content leads] at mirrorsT
        exact Agrees.of rfl rfl (mirrorsT.moved known (by omega))
      · rw [write]
        exact Agrees.exhausted rfl lost.exhausted

/-- Every call on files answers as the store does. -/
theorem fsStep_agrees (mirrors : Mirrors s a) {call : FsCall} (onFiles : call.onFiles = true)
    (clear : (fsStep s call).2.blocksExhausted = false) :
    (fsStep s call).1 = (a.step call).1 ∧ Mirrors (fsStep s call).2 (a.step call).2 := by
  -- The calls that only succeed or fail translate their answer in one way.
  have plain : ∀ {result : Bool × SimpleFs} {expected : Bool × Store}, Agrees result expected →
      (answer result).2.blocksExhausted = false →
      (answer result).1 = (Store.answer expected).1 ∧
        Mirrors (answer result).2 (Store.answer expected).2 := by
    intro result expected agrees clear
    obtain ⟨same, mirrorsT⟩ := agrees clear
    exact ⟨by simp only [answer, Store.answer, same], mirrorsT⟩
  cases call with
  | create name => exact plain (simplefsCreate_agrees mirrors name) clear
  | delete name => exact plain (simplefsDelete_agrees mirrors name) clear
  | readFile name bufferSize => exact simplefsReadFile_agrees mirrors name bufferSize
  | writeFile name data =>
    have listed : (List.range data.length).map (data.getD · 0) = data := map_getD_range data
    have agrees := simplefsWriteFile_agrees mirrors name (data.getD · 0) data.length
    rw [listed] at agrees
    exact plain agrees clear
  | appendFile name data => exact plain (simplefsAppendFile_agrees mirrors name data) clear
  | open_ name =>
    obtain ⟨same, mirrorsT⟩ := simplefsOpen_agrees mirrors name
    exact ⟨congrArg (FsAnswer.mk · []) same, mirrorsT⟩
  | close fd => exact plain (simplefsClose_agrees mirrors fd) clear
  | readFd fd bufferSize => exact simplefsReadFd_agrees mirrors fd bufferSize
  | writeFd fd data =>
    exact plain (simplefsWriteFd_agrees mirrors fd (of_decide_eq_true onFiles)) clear
  | seek fd offset => exact plain (simplefsSeek_agrees mirrors fd offset) clear
  | _ => cases onFiles

end Calls

/-- A fresh volume holds the empty store. -/
theorem Formatted.mirrors {t : SimpleFs} (formatted : Formatted t) : Mirrors t Store.empty := by
  have tree := formatted.tree
  have flat : Flat t id fun _ => [] := by
    refine ⟨tree, formatted.healthy, formatted.fsMounted, formatted.currentDirectory, ?_, nofun,
      List.nodup_nil⟩
    rintro dir ⟨inTable, used, -⟩
    rw [formatted.allocation dir inTable, decide_eq_true_eq] at used
    exact used
  refine ⟨⟨_, _, flat, rfl⟩, fun name => ?_, fun fd inside => ?_⟩
  · cases named : t.fileNamed name with
    | none => rfl
    | some index => cases (flat.fileNamed_iff name index).mp named
  · have inTable : fd < 8 := inside
    rw [formatted.openFiles, Store.empty, FixedArray.get_fill _ inTable,
      FixedArray.get_fill _ inTable]
    rfl

/--
SimpleFS refines a store of named files.

A run of any calls on files, from a fresh volume and in its root directory, gives the answers
the store gives, unless blocks ran out on the way.
-/
theorem run_refines_store (s : SimpleFs) (calls : List FsCall) (sound : s.ata.Sound)
    (onFiles : ∀ call ∈ calls, call.onFiles = true)
    (enough : (runState fsStep (simplefsFormat s).2 calls).blocksExhausted = false) :
    (simplefsFormat s).1 = true ∧
      (runAll fsStep (simplefsFormat s).2 calls).1 = (runAll Store.step Store.empty calls).1 := by
  obtain ⟨t, format, formatted⟩ := simplefsFormat_sound sound
  rw [format] at enough ⊢
  refine ⟨rfl, runAll_simulates fsStep fsStep_mounted fsStep_exhausted ?_ onFiles
    formatted.healthy.mounted formatted.mirrors enough⟩
  exact fun s a call permitted mirrors clear => fsStep_agrees mirrors permitted clear

/-- On a blank drive a file is written, opened, moved in, patched past its end and read back. -/
theorem run_refines_store_blank :
    let name : CString := ⟨[97], by decide⟩
    let calls : List FsCall := [.writeFile name [1, 2, 3], .open_ name, .seek 0 2,
      .writeFd 0 [7, 8], .delete name, .seek 0 1, .readFd 0 8]
    (runAll fsStep (simplefsFormat SimpleFs.blank).2 calls).1 =
      (runAll Store.step Store.empty calls).1 :=
  (run_refines_store SimpleFs.blank _ ⟨rfl, fun _ => rfl⟩ (by decide) (by decide +kernel)).2

/-- The answers the store gives there. -/
example :
    let name : CString := ⟨[97], by decide⟩
    (runAll Store.step Store.empty [.writeFile name [1, 2, 3], .open_ name, .seek 0 2,
      .writeFd 0 [7, 8], .delete name, .seek 0 1, .readFd 0 8]).1 =
    [⟨1, []⟩, ⟨0, []⟩, ⟨1, []⟩, ⟨1, []⟩, ⟨0, []⟩, ⟨1, []⟩, ⟨1, [2, 7, 8]⟩] := by
  decide +kernel

end MyOS.Fs
