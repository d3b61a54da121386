import MyOS.Lib.Forest
import MyOS.Fs.UnlinkLaws
import MyOS.Fs.Volume

/-! The directories of a volume as one tree, kept by every call but one. -/

namespace MyOS.Fs

namespace SimpleFs

/-- An inode is allocated. -/
def IsUsed (s : SimpleFs) (index : Nat) : Prop := index < maxInodes ∧ s.inodeUsed index = true

/-- An inode is an allocated directory. -/
def IsDir (s : SimpleFs) (index : Nat) : Prop :=
  index < maxInodes ∧ s.inodeUsed index = true ∧ (s.inodeTable.get index).type = typeDirectory

/-- A slot of a directory, as loading it gives it, holds an inode number and a name. -/
def HasEntry (s : SimpleFs) (dir slot : Nat) (inode : UInt32) (name : List UInt8) : Prop :=
  s.IsDir dir ∧ ∃ entries, listing dir s = some entries ∧ entries[slot]? = some (inode, name)

end SimpleFs

/-- The directory tree of a volume is well formed. -/
structure WellFormed (s : SimpleFs) : Prop where
  /-- The working directory is an allocated directory. -/
  current : s.IsDir s.currentDirectory
  /-- Every allocated directory can be listed. -/
  listed : ∀ dir, s.IsDir dir → ∃ entries, listing dir s = some entries
  /-- Every entry names an allocated inode. -/
  allocated : ∀ dir slot inode name, s.HasEntry dir slot inode name → s.IsUsed inode.toNat
  /-- Every directory has `.`, and it names the directory itself. -/
  dot : ∀ dir, s.IsDir dir → (∃ slot inode, s.HasEntry dir slot inode dot.chars) ∧
    ∀ slot inode, s.HasEntry dir slot inode dot.chars → inode.toNat = dir
  /-- Every directory has `..`, and it names the directory that holds its entry. -/
  dotDot : ∀ dir, s.IsDir dir → (∃ slot inode, s.HasEntry dir slot inode dotDot.chars) ∧
    ∀ slot inode, s.HasEntry dir slot inode dotDot.chars →
      if dir = rootInode then inode.toNat = rootInode
      else ∃ place child name, s.HasEntry inode.toNat place child name ∧ child.toNat = dir ∧
        name ≠ Fs.dot.chars ∧ name ≠ Fs.dotDot.chars
  /-- Every allocated inode but the root is named by exactly one entry of an ordinary name. -/
  unique : ∀ index, s.IsUsed index → index ≠ rootInode → ∃! place : Nat × Nat, ∃ inode name,
    s.HasEntry place.1 place.2 inode name ∧ inode.toNat = index ∧
      name ≠ Fs.dot.chars ∧ name ≠ Fs.dotDot.chars

/-- The stored form of a child of a directory. -/
def childEntry (child : Nat × CString) : Entry := (UInt32.ofNat child.1, child.2)

/-- The stored form of a directory: itself, its parent, and its children in order. -/
def dirEntries (dir parent : Nat) (children : List (Nat × CString)) : List Entry :=
  (UInt32.ofNat dir, dot) :: (UInt32.ofNat parent, dotDot) :: children.map childEntry

/-- A stored entry of a directory is one of the special ones, or a child. -/
theorem dirEntries_cases {dir parent slot : Nat} {children : List (Nat × CString)} {entry : Entry}
    (found : (dirEntries dir parent children)[slot]? = some entry) :
    (slot = 0 ∧ entry = (UInt32.ofNat dir, dot)) ∨
    (slot = 1 ∧ entry = (UInt32.ofNat parent, dotDot)) ∨
    ∃ place child, slot = place + 2 ∧ children[place]? = some child ∧ entry = childEntry child := by
  -- By the slot: the first two are special, from the third on they are children.
  match slot with
  | 0 => exact Or.inl ⟨rfl, (Option.some.inj found).symm⟩
  | 1 => exact Or.inr (Or.inl ⟨rfl, (Option.some.inj found).symm⟩)
  | place + 2 =>
    simp only [dirEntries, List.getElem?_cons_succ, List.getElem?_map,
      Option.map_eq_some_iff] at found
    obtain ⟨child, at_, same⟩ := found
    exact Or.inr (Or.inr ⟨place, child, rfl, at_, same.symm⟩)

/-- The directories of a volume store a tree. -/
structure Tree (s : SimpleFs) (parent : Nat → Nat) (children : Nat → List (Nat × CString)) :
    Prop where
  mounted : Mounted s
  current : s.IsDir s.currentDirectory
  listed : ∀ dir, s.IsDir dir → Listed s dir (dirEntries dir (parent dir) (children dir))
  forest : Forest rootInode s.IsUsed s.IsDir parent children
  names : ∀ dir, s.IsDir dir → ∀ child ∈ children dir, validName child.2 = true

/-- A valid name is neither of the two special ones. -/
theorem validName.ordinary {name : CString} (valid : validName name = true) :
    name ≠ dot ∧ name ≠ dotDot := by
  -- The source refuses both names.
  constructor
  · rintro rfl
    exact absurd valid (by decide)
  · rintro rfl
    exact absurd valid (by decide)

section Entered

variable {s t : SimpleFs} {name : CString} {index : Nat} {entries : List Entry}

/-- A directory that a name was entered into lists it behind its other entries. -/
theorem Listed.entered (listed : Listed s s.currentDirectory entries)
    (enterable : s.Enterable name) (inTable : index < maxInodes) {base : Scratch}
    (filled : Filled s.currentDirectory
      (setEntry (base.blit 0 (s.bytes s.currentDirectory 0 maxFileSize))
        (s.entryCount s.currentDirectory) (UInt32.ofNat index) name).get s.grownSize t)
    (allocation : ∀ j, t.inodeUsed j = (decide (index = j) || s.inodeUsed j))
    (type : (t.inodeTable.get s.currentDirectory).type = typeDirectory) :
    Listed t s.currentDirectory (entries ++ [(UInt32.ofNat index, name)]) := by
  -- The entry was put behind as many as the directory lists.
  rw [SimpleFs.grownSize, listed.count] at filled
  refine listed.append (by rw [← listed.count]; exact enterable.room) (ofNat_ne_invalidInode inTable)
    (validName.short enterable.valid) filled ?_ type
  rw [allocation, enterable.readable.2.1, Bool.or_true]

/-- The working directory lists a file that was created in it. -/
theorem Created.listed (created : Created s name index t) (enterable : s.Enterable name)
    (listed : Listed s s.currentDirectory entries) :
    Listed t s.currentDirectory (entries ++ [(UInt32.ofNat index, name)]) := by
  -- What was written to it is the old buffer with the entry appended.
  have filled := created.filled
  rw [SimpleFs.appended, SimpleFs.loaded, if_pos enterable.readable] at filled
  exact listed.entered enterable created.inTable filled created.allocation created.dirType

/-- The working directory lists a directory that was made in it. -/
theorem DirCreated.listed (created : DirCreated s name index t) (enterable : s.Enterable name)
    (listed : Listed s s.currentDirectory entries) :
    Listed t s.currentDirectory (entries ++ [(UInt32.ofNat index, name)]) := by
  -- What was written to it is some buffer with the entry appended.
  obtain ⟨base, filled⟩ := created.filled
  exact listed.entered enterable created.inTable filled created.allocation created.dirType

/-- A file that was created is no directory, and the directories are those there were. -/
theorem Created.isDir_iff (created : Created s name index t) (enterable : s.Enterable name) (x : Nat) :
    t.IsDir x ↔ s.IsDir x := by
  by_cases new : x = index
  · -- The new inode was free before, and is a file now.
    subst new
    refine iff_of_false (fun directory => ?_) fun directory => ?_
    · have type := directory.2.2
      rw [created.record] at type
      cases type
    · have used := directory.2.1
      rw [created.fresh.1] at used
      cases used
  · unfold SimpleFs.IsDir
    rw [created.allocation, decide_eq_false (Ne.symm new), Bool.false_or]
    by_cases here : x = s.currentDirectory
    · rw [here, created.dirType, enterable.readable.2.2.1]
    · rw [created.others x new here]

/-- A directory that was made is one more. -/
theorem DirCreated.isDir_iff (created : DirCreated s name index t) (enterable : s.Enterable name)
    (x : Nat) : t.IsDir x ↔ s.IsDir x ∨ x = index := by
  by_cases new : x = index
  · subst new
    refine iff_of_true ⟨created.inTable, ?_, created.type⟩ (Or.inr rfl)
    simp [created.allocation]
  · -- The other inodes are of the type they were of.
    rw [or_iff_left new]
    unfold SimpleFs.IsDir
    rw [created.allocation, decide_eq_false (Ne.symm new), Bool.false_or]
    by_cases here : x = s.currentDirectory
    · rw [here, created.dirType, enterable.readable.2.2.1]
    · rw [created.others x new here]

/-- A directory that an operation neither rewrote nor released keeps its type. -/
theorem isDir_kept {touched rewritten : Nat → Prop} (mounted : Mounted s)
    (moves : Moves touched rewritten s t) {dir : Nat} (directory : s.IsDir dir)
    (untouched : ¬ touched dir) : t.IsDir dir := by
  -- Its record is the one it had.
  obtain ⟨used, record, -⟩ := moves.kept mounted directory.1 directory.2.1 untouched
  exact ⟨directory.1, used, by rw [record]; exact directory.2.2⟩

/-- After an inode was unlinked the directories are the others. -/
theorem Unlinked.isDir_iff (unlinked : Unlinked s s.currentDirectory index entries t)
    (mounted : Mounted s) (current : s.IsDir s.currentDirectory) (x : Nat) :
    t.IsDir x ↔ s.IsDir x ∧ x ≠ index := by
  by_cases gone : x = index
  · subst gone
    refine iff_of_false (fun directory => ?_) fun both => both.2 rfl
    have used := directory.2.1
    rw [unlinked.free] at used
    cases used
  rw [and_iff_left gone]
  by_cases here : x = s.currentDirectory
  · rw [here]
    exact iff_of_true ⟨current.1, unlinked.listed.readable.2.1, unlinked.listed.readable.2.2.1⟩ current
  · -- What was not touched is what it was.
    have untouched : ¬ (x = s.currentDirectory ∨ x = index) := not_or.mpr ⟨here, gone⟩
    have moves := unlinked.runs.moves
    refine ⟨fun directory => ?_, fun directory => isDir_kept mounted moves directory untouched⟩
    cases used : s.inodeUsed x with
    | true =>
      have record := (moves.kept mounted directory.1 used untouched).2.1
      exact ⟨directory.1, used, by rw [← record]; exact directory.2.2⟩
    | false =>
      have still := moves.kept_free directory.1 used untouched
      rw [directory.2.1] at still
      cases still

end Entered

section Tree

variable {s t : SimpleFs} {parent : Nat → Nat} {children : Nat → List (Nat × CString)}

namespace Tree

/-- The parent of a directory is a directory. -/
theorem climbs (tree : Tree s parent children) (dir : Nat) (directory : s.IsDir dir) :
    s.IsDir (parent dir) :=
  tree.forest.parent_branch directory

/-- The entries of a directory of the tree, as loading it gives them. -/
theorem listing (tree : Tree s parent children) {dir : Nat} (directory : s.IsDir dir) :
    Fs.listing dir s = some ((dirEntries dir (parent dir) (children dir)).map
      fun entry => (entry.1, entry.2.chars)) :=
  -- The bytes of the directory are its entries.
  (tree.listed dir directory).listing tree.mounted

/-- Where an entry of a directory comes from: it is one of the special ones, or a child. -/
theorem hasEntry_cases (tree : Tree s parent children) {dir slot : Nat} {inode : UInt32}
    {name : List UInt8} (entry : s.HasEntry dir slot inode name) :
    (slot = 0 ∧ inode = UInt32.ofNat dir ∧ name = dot.chars) ∨
    (slot = 1 ∧ inode = UInt32.ofNat (parent dir) ∧ name = dotDot.chars) ∨
    ∃ place child, slot = place + 2 ∧ (children dir)[place]? = some child ∧
      inode = UInt32.ofNat child.1 ∧ name = child.2.chars := by
  -- The listing is known, so the entry is one of its members.
  obtain ⟨directory, entries, lists, at_⟩ := entry
  rw [tree.listing directory] at lists
  obtain rfl := Option.some.inj lists
  rw [List.getElem?_map, Option.map_eq_some_iff] at at_
  obtain ⟨stored, found, same⟩ := at_
  obtain ⟨rfl, rfl⟩ := Prod.mk.inj same
  rcases dirEntries_cases found with ⟨rfl, rfl⟩ | ⟨rfl, rfl⟩ | ⟨place, child, rfl, at_, rfl⟩
  · exact Or.inl ⟨rfl, rfl, rfl⟩
  · exact Or.inr (Or.inl ⟨rfl, rfl, rfl⟩)
  · exact Or.inr (Or.inr ⟨place, child, rfl, at_, rfl, rfl⟩)

/-- Every place of the tree is an entry. -/
theorem hasEntry_child (tree : Tree s parent children) {dir place : Nat} {child : Nat × CString}
    (directory : s.IsDir dir) (found : (children dir)[place]? = some child) :
    s.HasEntry dir (place + 2) (UInt32.ofNat child.1) child.2.chars := by
  -- The children follow the two special entries.
  refine ⟨directory, _, tree.listing directory, ?_⟩
  simp only [dirEntries, List.map_cons, List.getElem?_cons_succ, List.map_map, List.getElem?_map,
    found, Option.map_some, Function.comp_apply, childEntry]

/-- The first entry of a directory is itself. -/
theorem hasEntry_dot (tree : Tree s parent children) {dir : Nat} (directory : s.IsDir dir) :
    s.HasEntry dir 0 (UInt32.ofNat dir) dot.chars :=
  ⟨directory, _, tree.listing directory, rfl⟩

/-- The second entry of a directory is its parent. -/
theorem hasEntry_dotDot (tree : Tree s parent children) {dir : Nat} (directory : s.IsDir dir) :
    s.HasEntry dir 1 (UInt32.ofNat (parent dir)) dotDot.chars :=
  ⟨directory, _, tree.listing directory, rfl⟩

/-- The name of a child is neither of the special ones. -/
theorem child_ordinary (tree : Tree s parent children) {dir : Nat} {child : Nat × CString}
    (directory : s.IsDir dir) (member : child ∈ children dir) :
    child.2.chars ≠ dot.chars ∧ child.2.chars ≠ dotDot.chars := by
  -- Valid names differ from both, and names with the same characters are equal.
  obtain ⟨notDot, notDotDot⟩ := validName.ordinary (tree.names dir directory child member)
  exact ⟨fun same => notDot (CString.ext_chars same),
    fun same => notDotDot (CString.ext_chars same)⟩

/-- The number of an inode in use survives its storage. -/
theorem toNat_child (tree : Tree s parent children) {dir : Nat} {child : Nat × CString}
    (directory : s.IsDir dir) (member : child ∈ children dir) :
    (UInt32.ofNat child.1).toNat = child.1 :=
  -- A child is below the size of the table.
  toNat_ofNat_inode (tree.forest.childUsed dir directory child member).1

/-- A volume whose directories store a tree is well formed. -/
theorem wellFormed (tree : Tree s parent children) : WellFormed s := by
  have forest := tree.forest
  constructor
  case current => exact tree.current
  case listed => exact fun dir directory => ⟨_, tree.listing directory⟩
  case allocated =>
    intro dir slot inode name entry
    have directory := entry.1
    rcases tree.hasEntry_cases entry with ⟨-, rfl, -⟩ | ⟨-, rfl, -⟩ | ⟨place, child, -, found, rfl, -⟩
    · rw [toNat_ofNat_inode directory.1]
      exact forest.branchUsed dir directory
    · have up := forest.parent_branch directory
      rw [toNat_ofNat_inode up.1]
      exact forest.branchUsed _ up
    · have member := List.mem_of_getElem? found
      rw [tree.toNat_child directory member]
      exact forest.childUsed dir directory child member
  case dot =>
    intro dir directory
    refine ⟨⟨0, _, tree.hasEntry_dot directory⟩, fun slot inode entry => ?_⟩
    rcases tree.hasEntry_cases entry with ⟨-, rfl, -⟩ | ⟨-, -, same⟩ | ⟨place, child, -, found, -, same⟩
    · exact toNat_ofNat_inode directory.1
    · cases same
    · exact absurd same.symm (tree.child_ordinary directory (List.mem_of_getElem? found)).1
  case dotDot =>
    intro dir directory
    refine ⟨⟨1, _, tree.hasEntry_dotDot directory⟩, fun slot inode entry => ?_⟩
    rcases tree.hasEntry_cases entry with ⟨-, -, same⟩ | ⟨-, rfl, -⟩ | ⟨place, child, -, found, -, same⟩
    · cases same
    · rw [toNat_ofNat_inode (forest.parent_branch directory).1]
      split
      · rename_i isRoot
        rw [isRoot]
        exact forest.rootParent
      · -- The parent lists the directory among its children.
        rename_i notRoot
        obtain ⟨up, child, member, same⟩ := forest.parent_lists directory notRoot
        obtain ⟨place, inside, at_⟩ := List.getElem_of_mem member
        have found : (children (parent dir))[place]? = some child :=
          (List.getElem?_eq_getElem inside).trans (congrArg some at_)
        refine ⟨place + 2, _, _, tree.hasEntry_child up found, ?_, tree.child_ordinary up member⟩
        rw [tree.toNat_child up member, same]
    · exact absurd same.symm (tree.child_ordinary directory (List.mem_of_getElem? found)).2
  case unique =>
    intro index used notRoot
    obtain ⟨dir, directory, child, member, rfl⟩ := forest.covered index used notRoot
    obtain ⟨place, inside, at_⟩ := List.getElem_of_mem member
    have found : (children dir)[place]? = some child :=
      (List.getElem?_eq_getElem inside).trans (congrArg some at_)
    refine ⟨(dir, place + 2), ⟨_, _, tree.hasEntry_child directory found,
      tree.toNat_child directory member, tree.child_ordinary directory member⟩, ?_⟩
    rintro ⟨other, slot⟩ ⟨inode, name, entry, same, notDot, notDotDot⟩
    have directory' := entry.1
    rcases tree.hasEntry_cases entry with ⟨-, -, isDot⟩ | ⟨-, -, isDotDot⟩ |
      ⟨place', child', rfl, found', rfl, -⟩
    · exact absurd isDot notDot
    · exact absurd isDotDot notDotDot
    · have member' := List.mem_of_getElem? found'
      rw [tree.toNat_child directory' member'] at same
      obtain ⟨rfl, rfl⟩ := forest.once directory' directory found' found same
      rfl

/-- A state with the same allocation, the same types and the same listings stores the same tree. -/
theorem same (tree : Tree s parent children) (mounted : Mounted t)
    (current : t.IsDir t.currentDirectory)
    (allocation : ∀ index, index < maxInodes → t.inodeUsed index = s.inodeUsed index)
    (types : ∀ index, s.IsUsed index →
      (t.inodeTable.get index).type = (s.inodeTable.get index).type)
    (listed : ∀ dir entries, s.IsDir dir → Listed s dir entries → Listed t dir entries) :
    Tree t parent children := by
  -- Use, type and listing of every inode are those of before.
  have sameUsed : ∀ index, t.IsUsed index ↔ s.IsUsed index := fun index =>
    and_congr_right fun inTable => by rw [allocation index inTable]
  have sameDir : ∀ index, t.IsDir index ↔ s.IsDir index := by
    intro index
    refine and_congr_right fun inTable => ?_
    rw [allocation index inTable]
    refine and_congr_right fun used => ?_
    rw [types index ⟨inTable, used⟩]
  refine ⟨mounted, current, fun dir directory => ?_, tree.forest.congr sameUsed sameDir,
    fun dir directory => tree.names dir ((sameDir dir).mp directory)⟩
  have before := (sameDir dir).mp directory
  exact listed dir _ before (tree.listed dir before)

/-- What concerns free inodes only, and leaves them free, leaves the tree alone. -/
theorem spared (tree : Tree s parent children) (runs : Runs s.Fresh s.Fresh s t)
    (allocation : ∀ index, index < maxInodes → t.inodeUsed index = s.inodeUsed index) :
    Tree t parent children := by
  -- Only an inode that was free is concerned, and none in use was.
  have cwd := runs.steady.currentDirectory
  refine tree.same (runs.mounted tree.mounted) ?_ allocation ?_ ?_
  · rw [cwd]
    exact isDir_kept tree.mounted runs.moves tree.current (SimpleFs.not_fresh tree.current.2.1)
  · intro index used
    rw [(runs.moves.kept tree.mounted used.1 used.2 (SimpleFs.not_fresh used.2)).2.1]
  · intro dir entries directory listed
    exact listed.kept tree.mounted runs.moves (SimpleFs.not_fresh directory.2.1)

/-- A call that only read leaves the tree alone. -/
theorem alike (tree : Tree s parent children) (alike : Alike s t) : Tree t parent children :=
  tree.spared alike.runs fun index _ => alike.quiet.inodeUsed index

/-- Another state of the same volume, with its own working directory, stores the same tree. -/
theorem quiet (tree : Tree s parent children) (quiet : Quiet s t)
    (current : t.IsDir t.currentDirectory) : Tree t parent children :=
  -- A quiet step changes none of these.
  tree.same (quiet.mounted tree.mounted) current (fun index _ => quiet.inodeUsed index)
    (fun index _ => by rw [quiet.inodeTable]) fun _ _ _ listed => listed.quiet quiet

/-- Rewriting a file leaves the tree alone. -/
theorem written (tree : Tree s parent children) {index size : Nat} {data : Nat → UInt8}
    (file : (s.inodeTable.get index).type = typeRegular)
    (written : Written s index data size t) : Tree t parent children := by
  -- A file is not a directory.
  have other : ∀ {dir}, s.IsDir dir → dir ≠ index := by
    rintro dir directory rfl
    rw [directory.2.2] at file
    cases file
  have cwd := written.runs.steady.currentDirectory
  refine tree.same (written.runs.mounted tree.mounted) ?_ (fun i _ => written.allocation i) ?_ ?_
  · rw [cwd]
    exact isDir_kept tree.mounted written.runs.moves tree.current (other tree.current)
  · intro i _
    by_cases this : i = index
    · rw [this, written.type]
    · rw [written.others i this]
  · intro dir entries directory listed
    exact listed.kept tree.mounted written.runs.moves (other directory)

/-- The entries of the holder once a child was listed behind the others. -/
theorem dirEntries_inserted {holder node : Nat} {name : CString} (apart : holder ≠ node) :
    dirEntries holder (Function.update parent node holder holder)
        (Forest.inserted children holder node name holder) =
      dirEntries holder (parent holder) (children holder) ++ [(UInt32.ofNat node, name)] := by
  -- The holder is not the new node, so its parent is what it was.
  rw [Function.update_of_ne apart, Forest.inserted, Function.update_self]
  simp [dirEntries, childEntry]

/-- The entries of any other directory are as they were. -/
theorem dirEntries_elsewhere {holder node dir : Nat} {name : CString} (notHolder : dir ≠ holder)
    (notNode : dir ≠ node) :
    dirEntries dir (Function.update parent node holder dir)
        (Forest.inserted children holder node name dir) =
      dirEntries dir (parent dir) (children dir) := by
  -- Neither the holder's children nor the new node's parent concern it.
  rw [Function.update_of_ne notNode, Forest.inserted, Function.update_of_ne notHolder,
    Function.update_of_ne notNode]

/-- The children of every directory still have valid names once one was added. -/
theorem names_inserted (tree : Tree s parent children) {node : Nat} {name : CString}
    (valid : validName name = true) {dir : Nat} (directory : s.IsDir dir ∨ dir = node)
    {child : Nat × CString}
    (member : child ∈ Forest.inserted children s.currentDirectory node name dir) :
    validName child.2 = true := by
  -- The new name is valid, the others were.
  by_cases here : dir = s.currentDirectory
  · subst here
    rw [Forest.inserted, Function.update_self, List.mem_append, List.mem_singleton] at member
    rcases member with old | rfl
    · exact tree.names _ tree.current child old
    · exact valid
  · rw [Forest.inserted, Function.update_of_ne here] at member
    by_cases new : dir = node
    · rw [new, Function.update_self] at member
      cases member
    · rw [Function.update_of_ne new] at member
      exact tree.names dir (directory.resolve_right new) child member

/-- A free inode is not in use. -/
theorem not_isUsed {index : Nat} (fresh : s.inodeUsed index = false) : ¬ s.IsUsed index := by
  -- The bit cannot be both.
  rintro ⟨-, used⟩
  rw [fresh] at used
  cases used

/-- Taking one inode adds it to those in use. -/
theorem isUsed_taken {index : Nat} (inTable : index < maxInodes)
    (allocation : ∀ j, t.inodeUsed j = (decide (index = j) || s.inodeUsed j)) (x : Nat) :
    t.IsUsed x ↔ s.IsUsed x ∨ x = index := by
  -- An inode is in use if its bit was set before or is the one set now.
  unfold SimpleFs.IsUsed
  rw [allocation, Bool.or_eq_true, decide_eq_true_eq]
  constructor
  · rintro ⟨inTable, rfl | used⟩
    · exact Or.inr rfl
    · exact Or.inl ⟨inTable, used⟩
  · rintro (⟨inTable, used⟩ | rfl)
    · exact ⟨inTable, Or.inr used⟩
    · exact ⟨inTable, Or.inl rfl⟩

/-- A file that was created is a new child of the working directory. -/
theorem created (tree : Tree s parent children) {name : CString} {index : Nat}
    (enterable : s.Enterable name) (created : Created s name index t) :
    Tree t (Function.update parent index s.currentDirectory)
      (Forest.inserted children s.currentDirectory index name) := by
  -- The new inode is a leaf below the working directory, which alone lists one more.
  have current := tree.current
  have cwd := created.runs.steady.currentDirectory
  have apart : s.currentDirectory ≠ index := enterable.readable.ne_fresh created.fresh.1
  have freshUsed : ¬ s.IsUsed index := not_isUsed created.fresh.1
  have usedIff := isUsed_taken created.inTable created.allocation
  have dirIff := created.isDir_iff enterable
  refine ⟨created.runs.mounted tree.mounted, ?_, ?_, ?_, ?_⟩
  · rw [cwd]
    exact (dirIff _).mpr current
  · intro dir directory
    have before := (dirIff dir).mp directory
    by_cases here : dir = s.currentDirectory
    · subst here
      rw [dirEntries_inserted apart]
      exact created.listed enterable (tree.listed _ before)
    · have notNew : dir ≠ index := fun same => freshUsed (same ▸ ⟨before.1, before.2.1⟩)
      rw [dirEntries_elsewhere here notNew]
      refine (tree.listed dir before).kept tree.mounted created.runs.moves ?_
      rintro (same | free)
      · exact here same
      · exact SimpleFs.not_fresh before.2.1 free
  · exact tree.forest.insert current freshUsed usedIff (fun x => (dirIff x).mpr)
      fun x directory => Or.inl ((dirIff x).mp directory)
  · intro dir directory child member
    exact tree.names_inserted enterable.valid (Or.inl ((dirIff dir).mp directory)) member

/-- The two entries a new directory starts with. -/
theorem entryAt_dotEntries (dir parent : Nat) :
    EntryAt (dotEntries dir parent).get 0 (UInt32.ofNat dir, dot) ∧
      EntryAt (dotEntries dir parent).get 1 (UInt32.ofNat parent, dotDot) := by
  constructor
  · -- The second entry is stored behind the first.
    have first : EntryAt (setEntry (.fill 0) 0 (UInt32.ofNat dir) dot).get 0
        (UInt32.ofNat dir, dot) := entryAt_setEntry (UInt32.ofNat dir) (by decide) (by decide)
    refine first.congr fun k small => ?_
    exact get_setEntry_outside _ (by omega) (Or.inl (by omega))
  · exact entryAt_setEntry (UInt32.ofNat parent) (by decide) (by decide)

/-- A directory that holds the two entries it starts with lists itself and its parent. -/
theorem listed_dotEntries {index up : Nat} (inTable : index < maxInodes)
    (used : t.inodeUsed index = true) (type : (t.inodeTable.get index).type = typeDirectory)
    (size : (t.inodeTable.get index).size.toNat ≤ maxFileSize) (upIn : up < maxInodes)
    (bytes : ∀ offset bufferSize, t.bytes index offset bufferSize =
      (List.range (min (64 - offset) bufferSize)).map fun p =>
        (dotEntries index up).get (offset + p)) : Listed t index (dirEntries index up []) := by
  have whole : t.bytes index 0 maxFileSize = (List.range 64).map (dotEntries index up).get := by
    rw [bytes]
    simp only [Nat.zero_add]
    rfl
  obtain ⟨first, second⟩ := entryAt_dotEntries index up
  -- Both slots lie inside the 64 bytes.
  have image : ∀ p, p < 64 → t.image index p = (dotEntries index up).get p := by
    intro p inside
    rw [SimpleFs.image, whole, List.getD_eq_getElem _ _ (by simpa using inside)]
    simp
  refine ⟨⟨inTable, used, type, size⟩, ?_, ?_, ?_⟩
  · rw [SimpleFs.entryCount, whole, List.length_map, List.length_range]
    simp [dirEntries, entrySize]
  · intro slot inside
    rcases slot with _ | _ | slot
    · exact first.congr fun k small => image _ (by omega)
    · exact second.congr fun k small => image _ (by omega)
    · simp only [dirEntries, List.map_nil, List.length_cons, List.length_nil] at inside
      omega
  · intro entry member
    simp only [dirEntries, List.map_nil, List.mem_cons, List.not_mem_nil, or_false] at member
    rcases member with rfl | rfl
    · exact ofNat_ne_invalidInode inTable
    · exact ofNat_ne_invalidInode upIn

/-- A directory that was made is a new branch below the working directory. -/
theorem dirCreated (tree : Tree s parent children) {name : CString} {index : Nat}
    (enterable : s.Enterable name) (created : DirCreated s name index t) :
    Tree t (Function.update parent index s.currentDirectory)
      (Forest.inserted children s.currentDirectory index name) := by
  have current := tree.current
  have cwd := created.runs.steady.currentDirectory
  have apart : s.currentDirectory ≠ index := enterable.readable.ne_fresh created.fresh.1
  have freshUsed : ¬ s.IsUsed index := not_isUsed created.fresh.1
  have usedIff := isUsed_taken created.inTable created.allocation
  have dirIff := created.isDir_iff enterable
  refine ⟨created.runs.mounted tree.mounted, ?_, ?_, ?_, ?_⟩
  · rw [cwd]
    exact (dirIff _).mpr (Or.inl current)
  · intro dir directory
    by_cases new : dir = index
    · -- The new directory has no children yet.
      subst new
      rw [Function.update_self, Forest.inserted, Function.update_of_ne (Ne.symm apart),
        Function.update_self]
      exact listed_dotEntries created.inTable directory.2.1 created.type
        (by rw [created.newSize]; decide) current.1 created.newBytes
    have before := ((dirIff dir).mp directory).resolve_right new
    by_cases here : dir = s.currentDirectory
    · subst here
      rw [dirEntries_inserted apart]
      exact created.listed enterable (tree.listed _ before)
    · rw [dirEntries_elsewhere here new]
      refine (tree.listed dir before).kept tree.mounted created.runs.moves ?_
      rintro (same | free)
      · exact here same
      · exact SimpleFs.not_fresh before.2.1 free
  · exact tree.forest.insert current freshUsed usedIff (fun x directory => (dirIff x).mpr
      (Or.inl directory)) fun x => (dirIff x).mp
  · intro dir directory child member
    exact tree.names_inserted enterable.valid ((dirIff dir).mp directory) member

/-- An inode that was unlinked from the working directory is gone from the tree. -/
theorem unlinked (tree : Tree s parent children) {index place : Nat} {name : CString}
    (found : (children s.currentDirectory)[place]? = some (index, name))
    (childless : s.IsDir index → children index = [])
    (unlinked : Unlinked s s.currentDirectory index
      ((dirEntries s.currentDirectory (parent s.currentDirectory)
        (children s.currentDirectory)).eraseIdx (place + 2)) t) :
    Tree t parent (Forest.erased children s.currentDirectory place) := by
  have current := tree.current
  have cwd := unlinked.runs.steady.currentDirectory
  have moves := unlinked.runs.moves
  -- The working directory has a child, so it is not the inode that went.
  have apart : s.currentDirectory ≠ index := by
    intro same
    have none : children s.currentDirectory = [] := by
      rw [same]
      exact childless (same ▸ current)
    rw [none] at found
    cases found
  have usedIff : ∀ x, t.IsUsed x ↔ s.IsUsed x ∧ x ≠ index := by
    intro x
    by_cases gone : x = index
    · subst gone
      refine iff_of_false (not_isUsed unlinked.free) fun both => both.2 rfl
    rw [and_iff_left gone]
    by_cases here : x = s.currentDirectory
    · rw [here]
      exact iff_of_true ⟨current.1, unlinked.listed.readable.2.1⟩ ⟨current.1, current.2.1⟩
    · have untouched : ¬ (x = s.currentDirectory ∨ x = index) := not_or.mpr ⟨here, gone⟩
      refine and_congr_right fun small => ?_
      cases used : s.inodeUsed x with
      | true => exact iff_of_true (moves.kept tree.mounted small used untouched).1 rfl
      | false =>
        rw [moves.kept_free small used untouched]
  have dirIff := unlinked.isDir_iff tree.mounted current
  refine ⟨unlinked.runs.mounted tree.mounted, ?_, ?_, ?_, ?_⟩
  · rw [cwd]
    exact (dirIff _).mpr ⟨current, apart⟩
  · intro dir directory
    obtain ⟨before, notGone⟩ := (dirIff dir).mp directory
    by_cases here : dir = s.currentDirectory
    · subst here
      have listed := unlinked.listed
      rw [Forest.erased, Function.update_self]
      simp only [dirEntries, List.eraseIdx_cons_succ, List.eraseIdx_map] at listed ⊢
      exact listed
    · rw [Forest.erased, Function.update_of_ne here]
      exact (tree.listed dir before).kept tree.mounted moves (not_or.mpr ⟨here, notGone⟩)
  · exact tree.forest.erase current found childless usedIff dirIff
  · intro dir directory child member
    obtain ⟨before, -⟩ := (dirIff dir).mp directory
    by_cases here : dir = s.currentDirectory
    · subst here
      rw [Forest.erased, Function.update_self] at member
      exact tree.names _ before child (List.mem_of_mem_eraseIdx member)
    · rw [Forest.erased, Function.update_of_ne here] at member
      exact tree.names dir before child member

/-- A directory that holds nothing but the two special entries has no children. -/
theorem childless (tree : Tree s parent children) {dir : Nat} (directory : s.IsDir dir)
    {entries : List Entry} (listed : Listed s dir entries)
    (special : ∀ entry ∈ entries, entry.2 = dot ∨ entry.2 = dotDot) : children dir = [] := by
  obtain rfl := listed.unique (tree.listed dir directory)
  rw [List.eq_nil_iff_forall_not_mem]
  intro child member
  -- The name of a child is an ordinary one.
  obtain ⟨notDot, notDotDot⟩ := validName.ordinary (tree.names dir directory child member)
  have stored : childEntry child ∈ dirEntries dir (parent dir) (children dir) :=
    List.mem_cons_of_mem _ (List.mem_cons_of_mem _ (List.mem_map_of_mem member))
  rcases special _ stored with isDot | isDotDot
  · exact notDot isDot
  · exact notDotDot isDotDot

/-- Numbers of inodes are told apart by their stored form. -/
theorem ofNat_inj_inode {i j : Nat} (inTable : i < maxInodes) (inTable' : j < maxInodes)
    (same : UInt32.ofNat i = UInt32.ofNat j) : i = j := by
  rw [← toNat_ofNat_inode inTable, same, toNat_ofNat_inode inTable']

/-- An entry that leads to a file is that of a child. -/
theorem file_place (tree : Tree s parent children) {index slot : Nat} {name : CString}
    (used : s.IsUsed index) (file : ¬ s.IsDir index)
    (found : (dirEntries s.currentDirectory (parent s.currentDirectory)
      (children s.currentDirectory))[slot]? = some (UInt32.ofNat index, name)) :
    ∃ place, slot = place + 2 ∧ (children s.currentDirectory)[place]? = some (index, name) := by
  -- The special entries lead to directories.
  have current := tree.current
  have up := tree.forest.parent_branch current
  rcases dirEntries_cases found with ⟨-, same⟩ | ⟨-, same⟩ | ⟨place, child, rfl, at_, same⟩
  · obtain rfl := ofNat_inj_inode used.1 current.1 (Prod.mk.inj same).1
    exact absurd current file
  · obtain rfl := ofNat_inj_inode used.1 up.1 (Prod.mk.inj same).1
    exact absurd up file
  · have childUsed := tree.forest.childUsed _ current child (List.mem_of_getElem? at_)
    obtain ⟨inodes, rfl⟩ := Prod.mk.inj same
    obtain rfl := ofNat_inj_inode used.1 childUsed.1 inodes
    exact ⟨place, rfl, at_⟩

/-- An entry that leads to a childless directory, not the root or the working one, is a child's. -/
theorem childless_place (tree : Tree s parent children) {index slot : Nat} {name : CString}
    (directory : s.IsDir index) (none : children index = []) (notRoot : index ≠ rootInode)
    (other : index ≠ s.currentDirectory)
    (found : (dirEntries s.currentDirectory (parent s.currentDirectory)
      (children s.currentDirectory))[slot]? = some (UInt32.ofNat index, name)) :
    ∃ place, slot = place + 2 ∧ (children s.currentDirectory)[place]? = some (index, name) := by
  have current := tree.current
  have up := tree.forest.parent_branch current
  rcases dirEntries_cases found with ⟨-, same⟩ | ⟨-, same⟩ | ⟨place, child, rfl, at_, same⟩
  · exact absurd (ofNat_inj_inode directory.1 current.1 (Prod.mk.inj same).1) other
  · -- The parent of the working directory has the working directory as a child.
    obtain rfl := ofNat_inj_inode directory.1 up.1 (Prod.mk.inj same).1
    by_cases isRoot : s.currentDirectory = rootInode
    · rw [isRoot, tree.forest.rootParent] at notRoot
      exact absurd rfl notRoot
    · obtain ⟨-, child, member, -⟩ := tree.forest.parent_lists current isRoot
      rw [none] at member
      cases member
  · have childUsed := tree.forest.childUsed _ current child (List.mem_of_getElem? at_)
    obtain ⟨inodes, rfl⟩ := Prod.mk.inj same
    obtain rfl := ofNat_inj_inode directory.1 childUsed.1 inodes
    exact ⟨place, rfl, at_⟩

end Tree

end Tree

/-- The calls that edit the directory tree, and writing files by name. -/
def FsCall.editsTree : FsCall → Bool
  | .create _ => true
  | .delete _ => true
  | .makeDir _ => true
  | .removeDir _ => true
  | .changeDir _ => true
  | .writeFile _ _ => true
  | _ => false

/-- A call removes the working directory through its own entry `.`, which nothing checks for. -/
def FsCall.RemovesItself (s : SimpleFs) : FsCall → Prop
  | .removeDir name => name = dot ∧ s.currentDirectory ≠ rootInode ∧
      (directoryIsEmpty s.currentDirectory s).1 = true
  | _ => False

section Steps

variable {s : SimpleFs} {parent : Nat → Nat} {children : Nat → List (Nat × CString)}

/-- The state after a call stores a tree, unless blocks ran out. -/
def StoresTree (t : SimpleFs) : Prop :=
  t.blocksExhausted = false → ∃ parent children, Tree t parent children

/-- The name a call enters into the working directory. -/
def FsCall.enters : FsCall → Option CString
  | .create name => some name
  | .makeDir name => some name
  | .writeFile name _ => some name
  | _ => none

/--
What one call may do to a tree.

It leaves the tree alone, lists a free inode behind the children of the working directory, or
strikes one of these children.
-/
inductive Regrown (s : SimpleFs) (entered : Option CString) (parent : Nat → Nat)
    (children : Nat → List (Nat × CString)) :
    (Nat → Nat) → (Nat → List (Nat × CString)) → Prop
  | kept : Regrown s entered parent children parent children
  | grown {node : Nat} {name : CString} (fresh : ¬ s.IsUsed node) (enterable : s.Enterable name)
      (named : entered = some name) :
      Regrown s entered parent children (Function.update parent node s.currentDirectory)
        (Forest.inserted children s.currentDirectory node name)
  | pruned (place : Nat) :
      Regrown s entered parent children parent
        (Forest.erased children s.currentDirectory place)

/-- Unless blocks ran out, a call made one of the lawful changes to the tree. -/
def Regrows (s : SimpleFs) (parent : Nat → Nat) (children : Nat → List (Nat × CString))
    (entered : Option CString) (t : SimpleFs) : Prop :=
  t.blocksExhausted = false → ∃ parent' children',
    Regrown s entered parent children parent' children' ∧ Tree t parent' children'

namespace Regrows

variable {t : SimpleFs} {entered : Option CString}

/-- Once blocks ran out nothing is promised. -/
theorem exhausted (exhausted : t.blocksExhausted = true) :
    Regrows s parent children entered t := by
  -- The flag is what the statement excludes.
  intro clear
  rw [exhausted] at clear
  cases clear

/-- The tree was left alone. -/
theorem kept (tree : Tree t parent children) : Regrows s parent children entered t :=
  fun _ => ⟨parent, children, .kept, tree⟩

/-- A call that regrows a tree leaves a tree. -/
theorem storesTree (regrows : Regrows s parent children entered t) : StoresTree t := by
  -- Forget how the tree came about.
  intro clear
  obtain ⟨parent', children', -, tree⟩ := regrows clear
  exact ⟨parent', children', tree⟩

end Regrows

/-- Creating a file enters its name in the tree. -/
theorem simplefsCreate_tree (tree : Tree s parent children) (name : CString) :
    Regrows s parent children (some name) (simplefsCreate name s).2 := by
  -- Created, lost for want of blocks, or refused.
  by_cases enterable : s.Enterable name
  · rcases simplefsCreate_enterable tree.mounted enterable with
      ⟨t, index, result, created⟩ | ⟨t, result, lost, -⟩
    · rw [result]
      exact fun _ => ⟨_, _, .grown (Tree.not_isUsed created.fresh.1) enterable rfl,
        tree.created enterable created⟩
    · rw [result]
      exact Regrows.exhausted lost.exhausted
  · obtain ⟨t, result, runs, -, allocation⟩ := simplefsCreate_refused tree.mounted enterable
    rw [result]
    exact Regrows.kept (tree.spared runs allocation)

/-- Making a directory enters its name in the tree. -/
theorem simplefsMakeDir_tree (tree : Tree s parent children) (name : CString) :
    Regrows s parent children (some name) (simplefsMakeDir name s).2 := by
  by_cases enterable : s.Enterable name
  · rcases simplefsMakeDir_enterable tree.mounted enterable with
      ⟨t, index, result, created⟩ | ⟨t, result, -, exhausted, -⟩ | ⟨t, result, lost, -⟩
    · rw [result]
      exact fun _ => ⟨_, _, .grown (Tree.not_isUsed created.fresh.1) enterable rfl,
        tree.dirCreated enterable created⟩
    · rw [result]
      exact Regrows.exhausted exhausted
    · rw [result]
      exact Regrows.exhausted lost.exhausted
  · obtain ⟨runs, succeeded, allocation⟩ := simplefsMakeDir_refused tree.mounted enterable
    -- The working directory is allocated, so the call failed.
    have failed : (simplefsMakeDir name s).1 = false := by
      rw [Bool.eq_false_iff]
      intro success
      have free := succeeded success
      rw [tree.current.2.1] at free
      cases free
    exact Regrows.kept (tree.spared runs (allocation failed))

/-- Deleting a file takes it out of the tree. -/
theorem simplefsDelete_tree (tree : Tree s parent children) (name : CString) :
    Regrows s parent children none (simplefsDelete name s).2 := by
  -- A file that can be deleted was a child of the working directory.
  by_cases deletable : ∃ index, s.Deletable name index
  · obtain ⟨index, deletable⟩ := deletable
    obtain ⟨inTable, used, regular⟩ := fileNamed_allocated deletable.named
    have file : ¬ s.IsDir index := by
      rintro ⟨-, -, directory⟩
      rw [directory] at regular
      cases regular
    obtain ⟨t, slot, result, found, unlinked⟩ :=
      simplefsDelete_deletable tree.mounted (tree.listed _ tree.current) deletable
    obtain ⟨place, rfl, at_⟩ := tree.file_place ⟨inTable, used⟩ file found
    rw [result]
    exact fun _ => ⟨_, _, .pruned place,
      tree.unlinked at_ (fun directory => absurd directory file) unlinked⟩
  · obtain ⟨t, result, alike⟩ := simplefsDelete_refused tree.mounted (not_exists.mp deletable)
    rw [result]
    exact Regrows.kept (tree.alike alike)

/-- Only the entry `.` leads back to an empty working directory. -/
theorem Tree.removable_other (tree : Tree s parent children) {name : CString} {index : Nat}
    (removable : s.Removable name index) (allowed : ¬ (FsCall.removeDir name).RemovesItself s) :
    index ≠ s.currentDirectory := by
  rintro rfl
  have current := tree.current
  have notRoot := removable.notRoot
  obtain ⟨inode, slot, lookup, inodeIs⟩ := removable.found
  obtain ⟨target, listed, special⟩ := removable.empty
  have none := tree.childless current listed special
  have stored := (tree.listed _ current).lookup_some lookup
  rcases dirEntries_cases stored with ⟨-, same⟩ | ⟨-, same⟩ | ⟨place, child, -, at_, -⟩
  · refine allowed ⟨(Prod.mk.inj same).2, notRoot, ?_⟩
    obtain ⟨transfers, test⟩ := directoryIsEmpty_sound tree.mounted s.currentDirectory
    rw [test]
    simp only [decide_eq_true listed.readable, listed.special_iff.mpr special, Bool.and_self]
  · -- The parent of the working directory has it as a child, so it is another one.
    obtain ⟨up, child, member, -⟩ := tree.forest.parent_lists current notRoot
    have self : s.currentDirectory = parent s.currentDirectory := by
      have numbers := congrArg UInt32.toNat (Prod.mk.inj same).1
      rwa [toNat_ofNat_inode up.1, inodeIs] at numbers
    rw [← self, none] at member
    cases member
  · rw [none] at at_
    cases at_

/-- Removing a directory takes it out of the tree, unless it is the working directory. -/
theorem simplefsRemoveDir_tree (tree : Tree s parent children) (name : CString)
    (allowed : ¬ (FsCall.removeDir name).RemovesItself s) :
    Regrows s parent children none (simplefsRemoveDir name s).2 := by
  -- A directory that can be removed is empty and a child of the working directory.
  have current := tree.current
  by_cases removable : ∃ index, s.Removable name index
  swap
  · obtain ⟨t, result, alike⟩ := simplefsRemoveDir_refused tree.mounted
      (fun inode leads => ⟨_, tree.listed _ (entryLeadsTo_iff.mp leads)⟩) (not_exists.mp removable)
    rw [result]
    exact Regrows.kept (tree.alike alike)
  obtain ⟨index, removable⟩ := removable
  obtain ⟨target, listed, special⟩ := removable.empty
  have directory : s.IsDir index :=
    ⟨listed.readable.1, listed.readable.2.1, listed.readable.2.2.1⟩
  have none := tree.childless directory listed special
  have other := tree.removable_other removable allowed
  obtain ⟨t, slot, result, found, unlinked⟩ :=
    simplefsRemoveDir_removable tree.mounted (tree.listed _ current) removable other
  obtain ⟨place, rfl, at_⟩ := tree.childless_place directory none removable.notRoot other found
  rw [result]
  exact fun _ => ⟨_, _, .pruned place, tree.unlinked at_ (fun _ => none) unlinked⟩

/-- Changing the working directory leaves the tree alone. -/
theorem simplefsChangeDir_tree (tree : Tree s parent children) (name : CString) :
    Regrows s parent children none (simplefsChangeDir name s).2 := by
  unfold simplefsChangeDir
  split
  · exact Regrows.kept tree
  split
  · -- The root is a directory, whatever the working directory was.
    have quiet : Quiet s { s with currentDirectory := rootInode } :=
      ⟨Ata.Extends.refl _, rfl, rfl, rfl, id⟩
    exact Regrows.kept (tree.quiet quiet tree.forest.rootBranch)
  obtain ⟨transfers, find⟩ := findEntryInDirectory_sound tree.mounted s.currentDirectory name
  have looked := Looked.scanned s transfers
  rw [find]
  cases s.lookup s.currentDirectory name with
  | none => exact Regrows.kept (tree.alike looked.alike)
  | some entry =>
    simp only [looked.leads]
    cases leads : entryLeadsTo entry.1 typeDirectory s with
    | false => exact Regrows.kept (tree.alike looked.alike)
    | true =>
      have quiet : Quiet s { s.scannedDir s.currentDirectory transfers with
          currentDirectory := entry.1.toNat } :=
        looked.alike.quiet.trans ⟨Ata.Extends.refl _, rfl, rfl, rfl, id⟩
      exact Regrows.kept (tree.quiet quiet (entryLeadsTo_iff.mp leads))

/-- Writing a file enters its name if it is new. -/
theorem simplefsWriteFile_tree (tree : Tree s parent children) (name : CString)
    (data : Nat → UInt8) (size : Nat) :
    Regrows s parent children (some name) (simplefsWriteFile name data size s).2 := by
  by_cases existing : ∃ index, s.Replaceable name size index
  · obtain ⟨index, replaceable⟩ := existing
    obtain ⟨-, -, regular⟩ := fileNamed_allocated replaceable.named
    rcases simplefsWriteFile_existing tree.mounted replaceable data with
      ⟨t, result, written⟩ | ⟨t, result, lost⟩
    · rw [result]
      exact Regrows.kept (tree.written regular written)
    · rw [result]
      exact Regrows.exhausted lost.exhausted
  by_cases new : s.Enterable name ∧ size ≤ maxFileSize
  · rcases simplefsWriteFile_new tree.mounted new.1 new.2 data with
      ⟨t, u, index, result, created, written⟩ | ⟨t, u, index, result, created, lost⟩ |
        ⟨t, result, lost, -⟩
    · -- The file is a new child, and then gets its content.
      rw [result]
      refine fun _ => ⟨_, _, .grown (Tree.not_isUsed created.fresh.1) new.1 rfl,
        (tree.created new.1 created).written ?_ written⟩
      rw [created.record]
      rfl
    · rw [result]
      exact Regrows.exhausted lost.exhausted
    · rw [result]
      exact Regrows.exhausted lost.exhausted
  · obtain ⟨t, result, runs, -, allocation⟩ :=
      simplefsWriteFile_refused tree.mounted (not_exists.mp existing) new data
    rw [result]
    exact Regrows.kept (tree.spared runs allocation)

/-- A call that edits the tree, and does not remove the working directory, regrows the tree. -/
theorem fsStep_regrows (tree : Tree s parent children) {call : FsCall}
    (edits : call.editsTree = true) (allowed : ¬ call.RemovesItself s) :
    Regrows s parent children call.enters (fsStep s call).2 := by
  -- One case for each call that edits the tree.
  cases call with
  | create name => exact simplefsCreate_tree tree name
  | delete name => exact simplefsDelete_tree tree name
  | makeDir name => exact simplefsMakeDir_tree tree name
  | removeDir name => exact simplefsRemoveDir_tree tree name allowed
  | changeDir name => exact simplefsChangeDir_tree tree name
  | writeFile name data => exact simplefsWriteFile_tree tree name _ _
  | _ => cases edits

end Steps

/-- A fresh volume stores the tree that is only a root. -/
theorem Formatted.tree {t : SimpleFs} (formatted : Formatted t) : Tree t id fun _ => [] := by
  -- The root is the only inode, and its two entries are its own.
  have mounted := formatted.healthy.mounted
  have rootIn : rootInode < maxInodes := by decide
  have usedIff : ∀ x, t.IsUsed x ↔ x = rootInode := by
    intro x
    constructor
    · rintro ⟨inTable, used⟩
      rw [formatted.allocation x inTable, decide_eq_true_eq] at used
      exact used
    · rintro rfl
      exact ⟨rootIn, mounted.rootUsed⟩
  have root : t.IsDir rootInode := ⟨rootIn, mounted.rootUsed, mounted.rootType⟩
  have only : ∀ {x}, t.IsDir x → x = rootInode := fun directory =>
    (usedIff _).mp ⟨directory.1, directory.2.1⟩
  refine ⟨mounted, by rw [formatted.currentDirectory]; exact root, ?_, ?_, nofun⟩
  · intro dir directory
    obtain rfl := only directory
    exact Tree.listed_dotEntries rootIn mounted.rootUsed mounted.rootType
      ((formatted.healthy.shaped _ rootIn).size mounted.rootUsed) rootIn formatted.bytes
  · constructor
    case rootBranch => exact root
    case branchUsed => exact fun b directory => ⟨directory.1, directory.2.1⟩
    case rootParent => rfl
    case childUsed => exact nofun
    case childNotRoot => exact nofun
    case linked => exact nofun
    case covered => exact fun node used notRoot => absurd ((usedIff node).mp used) notRoot
    case once => exact nofun

/--
The directory tree stays well formed.

In a run of calls that edit the tree, none of which removes the working directory through its own
entry, and in which blocks never ran out, the tree is well formed in every state reached.
-/
theorem run_wellFormed (s : SimpleFs) (calls : List FsCall) (sound : s.ata.Sound)
    (edits : ∀ call ∈ calls, call.editsTree = true)
    (allowed : ∀ before call after, calls = before ++ call :: after →
      ¬ call.RemovesItself (runState fsStep (simplefsFormat s).2 before))
    (enough : (runState fsStep (simplefsFormat s).2 calls).blocksExhausted = false) :
    ∀ before, before <+: calls → WellFormed (runState fsStep (simplefsFormat s).2 before) := by
  obtain ⟨t, format, formatted⟩ := simplefsFormat_sound sound
  rw [format] at allowed enough ⊢
  have mounted := formatted.healthy.mounted
  rintro before ⟨after, rfl⟩
  -- The flag was lowered when the state was reached, since nothing lowers it later.
  have clear : (runState fsStep t before).blocksExhausted = false := by
    rw [runState_append] at enough
    exact runState_flag fsStep fsStep_mounted fsStep_exhausted (runState_invariant fsStep Mounted
      (fun s call _ => fsStep_mounted s call) (fun _ _ => trivial) mounted) enough
  have stored : ∃ parent children, Tree (runState fsStep t before) parent children :=
    runState_invariant_flag fsStep fsStep_mounted fsStep_exhausted
      (fun s => ∃ parent children, Tree s parent children)
      (fun s call => call.editsTree = true ∧ ¬ call.RemovesItself s)
      (fun s call permitted tree clear => by
        obtain ⟨parent, children, tree⟩ := tree
        exact (fsStep_regrows tree permitted.1 permitted.2).storesTree clear)
      (fun front call back split => by
        refine ⟨edits call ?_, allowed front call (back ++ after) ?_⟩
        · rw [split]
          simp
        · rw [split, List.append_assoc, List.cons_append])
      mounted ⟨id, fun _ => [], formatted.tree⟩ clear
  obtain ⟨parent, children, tree⟩ := stored
  exact tree.wellFormed

/-- A run that makes a directory, enters it and creates a file in it. -/
theorem run_wellFormed_blank :
    WellFormed (runState fsStep (simplefsFormat SimpleFs.blank).2
      [.makeDir ⟨[100], by decide⟩, .changeDir ⟨[100], by decide⟩, .create ⟨[102], by decide⟩]) := by
  refine run_wellFormed _ _ ⟨rfl, fun _ => rfl⟩ (by decide) ?_ (by decide +kernel) _
    (List.prefix_refl _)
  -- No call of the run removes a directory.
  intro before call after split removes
  have member : call ∈ before ++ call :: after := by simp
  rw [← split] at member
  cases call with
  | removeDir name => simp at member
  | _ => exact removes

/--
A working directory can remove itself.

On a fresh volume a directory is made and entered, and then removed under the name `.`: the
working directory is no longer allocated.
-/
theorem remove_dot_frees_current :
    ∃ (s : SimpleFs) (calls : List FsCall), s.ata.Sound ∧
      (∀ call ∈ calls, call.editsTree = true) ∧
      (runState fsStep (simplefsFormat s).2 calls).blocksExhausted = false ∧
      ¬ WellFormed (runState fsStep (simplefsFormat s).2 calls) := by
  -- Evaluated: the working directory is inode 1, and inode 1 is free.
  let calls : List FsCall :=
    [.makeDir ⟨[100], by decide⟩, .changeDir ⟨[100], by decide⟩, .removeDir dot]
  have current : (runState fsStep (simplefsFormat SimpleFs.blank).2 calls).currentDirectory = 1 := by
    decide +kernel
  have free : (runState fsStep (simplefsFormat SimpleFs.blank).2 calls).inodeUsed 1 = false := by
    decide +kernel
  refine ⟨SimpleFs.blank, calls, ⟨rfl, fun _ => rfl⟩, by decide, by decide +kernel, ?_⟩
  intro wellFormed
  have used := wellFormed.current.2.1
  rw [current, free] at used
  cases used

end MyOS.Fs
