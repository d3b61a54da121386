import Mathlib.Data.Finset.Prod
import MyOS.Fs.Space
import MyOS.Fs.Tree

/-! Directories and empty files alone: a volume nothing is written to never runs out of blocks. -/

namespace MyOS.Fs

/-- Every file is empty. -/
def SimpleFs.Light (s : SimpleFs) : Prop :=
  ∀ index, s.IsUsed index → ¬ s.IsDir index → (s.inodeTable.get index).size = 0

/-- A volume of directories and empty files, none of whose blocks is lost. -/
structure Grown (s : SimpleFs) (parent : Nat → Nat) (children : Nat → List (Nat × CString)) :
    Prop where
  tree : Tree s parent children
  healthy : Healthy s
  thrifty : s.Thrifty
  light : s.Light
  clear : s.blocksExhausted = false

section Bounds

variable {s : SimpleFs} {parent : Nat → Nat} {children : Nat → List (Nat × CString)}

/-- A directory has no more children than there are inodes. -/
theorem Tree.children_length (tree : Tree s parent children) {dir : Nat} (directory : s.IsDir dir) :
    (children dir).length ≤ maxInodes := by
  -- The children of a directory are different inodes.
  have nodup : ((children dir).map Prod.fst).Nodup := by
    rw [List.nodup_iff_getElem?_ne_getElem?]
    intro k l before inside same
    rw [List.length_map] at inside
    rw [List.getElem?_map, List.getElem?_map, List.getElem?_eq_getElem (by omega),
      List.getElem?_eq_getElem inside, Option.map_some, Option.map_some, Option.some.injEq] at same
    have := (tree.forest.once directory directory (List.getElem?_eq_getElem (by omega))
      (List.getElem?_eq_getElem inside) same).2
    omega
  have inside : (children dir).map Prod.fst ⊆ List.range maxInodes := by
    intro index member
    obtain ⟨child, listed, rfl⟩ := List.mem_map.mp member
    exact List.mem_range.mpr (tree.forest.childUsed dir directory child listed).1
  have := (List.subperm_of_subset nodup inside).length_le
  rwa [List.length_map, List.length_range] at this

/-- A directory has no more entries than there are inodes, and the two special ones. -/
theorem Tree.entryCount_le (tree : Tree s parent children) {dir : Nat} (directory : s.IsDir dir) :
    s.entryCount dir ≤ 66 := by
  -- 64 inodes at most, and the two entries for itself and its parent
  have few := tree.children_length directory
  simp only [maxInodes] at few
  rw [(tree.listed dir directory).count]
  simp only [dirEntries, List.length_cons, List.length_map]
  omega

namespace Grown

/-- What an inode holds fits in five blocks. -/
theorem need_le (grown : Grown s parent children) {index : Nat} (used : s.IsUsed index) :
    need (s.inodeTable.get index).size.toNat ≤ 5 := by
  -- A directory is bounded by its entries, and files are empty.
  by_cases directory : s.IsDir index
  · have few := grown.tree.entryCount_le directory
    have shaped := grown.healthy.shaped index used.1
    have bound := shaped.size used.2
    simp only [SimpleFs.entryCount, shaped.bytes used.2, List.length_map, List.length_range,
      Nat.sub_zero, Nat.min_eq_left bound, entrySize] at few
    unfold need slotCount blocksOf
    split <;> omega
  · rw [grown.light index used directory]
    decide

/-- Most blocks of the volume are free. -/
theorem freeBlocks (grown : Grown s parent children) : 1728 ≤ s.freeBlocks := by
  -- A marked block is one of the first five of some inode.
  obtain ⟨held, few, covered⟩ : ∃ held : Finset Nat, held.card ≤ 320 ∧
      ∀ b, b < dataBlocks → s.marked b = true → b ∈ held := by
    refine ⟨(Finset.range maxInodes ×ˢ Finset.range 5).image fun place =>
      (s.slot place.1 place.2).toNat, ?_, ?_⟩
    · refine Nat.le_trans Finset.card_image_le ?_
      rw [Finset.card_product, Finset.card_range, Finset.card_range]
      decide
    · intro b inside marked
      rw [Finset.mem_image]
      obtain ⟨i, k, holds, same⟩ := grown.thrifty b inside marked
      have inTable := holds.1
      have used := holds.2.1
      have low := ((grown.healthy.shaped i inTable).places used k holds.2.2.1).mp holds.2.2.2
      have few := grown.need_le ⟨inTable, used⟩
      refine ⟨(i, k), ?_, same⟩
      rw [Finset.mem_product, Finset.mem_range, Finset.mem_range]
      exact ⟨inTable, Nat.lt_of_lt_of_le low few⟩
  have count := le_clearCount_add_card held covered
  have blocks : dataBlocks = 2048 := rfl
  unfold SimpleFs.freeBlocks
  omega

/-- There is room for another entry, and for another directory. -/
theorem roomy (grown : Grown s parent children) :
    need s.grownSize + 1 ≤ s.capacity s.currentDirectory := by
  -- Five blocks for the directory and one for the new inode leave room on 2048.
  have current := grown.tree.current
  have free := grown.freeBlocks
  have few := grown.tree.entryCount_le current
  have small : need s.grownSize ≤ need 2144 := by
    refine need_mono ?_
    simp only [SimpleFs.grownSize, entrySize]
    omega
  have five : need 2144 = 5 := by decide
  rw [grown.tree.mounted.capacity current.1 current.2.1]
  omega

end Grown

end Bounds

section Steps

variable {s t : SimpleFs} {name : CString} {parent : Nat → Nat}
  {children : Nat → List (Nat × CString)}

/-- A directory that has room refuses a new one before anything is taken for it. -/
theorem simplefsMakeDir_declined (mounted : Mounted s) (refused : ¬ s.Enterable name)
    (readable : s.Readable s.currentDirectory)
    (room : s.entryCount s.currentDirectory < maxDirectoryEntries) :
    ∃ t, simplefsMakeDir name s = (false, t) ∧ Alike s t := by
  unfold simplefsMakeDir
  by_cases guard : s.fsMounted = true ∧ validName name = true
  swap
  · refine ⟨s, ?_, Alike.refl s⟩
    rw [if_pos]
    simp only [Bool.or_eq_true, Bool.not_eq_true']
    by_contra fine
    simp only [not_or, Bool.not_eq_false] at fine
    exact guard fine
  obtain ⟨transfers, find⟩ := findEntryInDirectory_sound mounted s.currentDirectory name
  have read : Alike s (s.scannedDir s.currentDirectory transfers) := Alike.scanned s _ _
  rw [if_neg (by simp [guard.1, guard.2]), find]
  cases found : s.lookup s.currentDirectory name with
  | some entry => exact ⟨_, rfl, read⟩
  | none =>
    simp only
    rcases allocateInode_cases mounted transfers typeDirectory with
      ⟨index, u, -, taken⟩ | ⟨_, full⟩
    · -- With a free inode nothing would be in the way.
      exact absurd ⟨guard.1, guard.2, found, ⟨index, taken.inTable, taken.fresh.1⟩, readable, room⟩
        refused
    · rw [full]
      exact ⟨_, rfl, read⟩

/-- Files stay empty where what is still a file is an old one left alone, or a new empty one. -/
theorem SimpleFs.Light.step (light : s.Light)
    (files : ∀ index, t.IsUsed index → ¬ t.IsDir index →
      (s.IsUsed index ∧ t.inodeTable.get index = s.inodeTable.get index) ∨
        (t.inodeTable.get index).size = 0) : t.Light := by
  -- The old files were empty, the new one is.
  intro index used file
  rcases files index used file with ⟨before, same⟩ | empty
  · rw [same]
    refine light index before fun directory => file ⟨used.1, used.2, ?_⟩
    rw [same]
    exact directory.2.2
  · exact empty

/-- What concerns free inodes only, and leaves them free, leaves files empty. -/
theorem SimpleFs.Light.spared (light : s.Light) (mounted : Mounted s)
    (runs : Runs s.Fresh s.Fresh s t)
    (allocation : ∀ index, index < maxInodes → t.inodeUsed index = s.inodeUsed index) :
    t.Light := by
  -- The allocated inodes are those of before, with the records of before.
  refine light.step fun index used _ => Or.inl ?_
  have before : s.inodeUsed index = true := by rw [← allocation index used.1, used.2]
  have kept := runs.moves.kept mounted used.1 before (SimpleFs.not_fresh before)
  exact ⟨⟨used.1, before⟩, kept.2.1⟩

/-- A call that only read leaves files empty. -/
theorem SimpleFs.Light.alike (light : s.Light) (mounted : Mounted s) (alike : Alike s t) :
    t.Light :=
  light.spared mounted alike.runs fun index _ => alike.quiet.inodeUsed index

/-- A new name, of a file or of a directory, leaves files empty. -/
theorem SimpleFs.Light.entered (light : s.Light) {index : Nat} (current : t.IsDir s.currentDirectory)
    (allocation : ∀ j, t.inodeUsed j = (decide (index = j) || s.inodeUsed j))
    (others : ∀ j, j ≠ index → j ≠ s.currentDirectory → t.inodeTable.get j = s.inodeTable.get j)
    (new : t.IsDir index ∨ (t.inodeTable.get index).size = 0) : t.Light := by
  -- The inode entered is a directory or an empty file, the working directory is no file.
  refine light.step fun j used file => ?_
  have notCurrent : j ≠ s.currentDirectory := by
    rintro rfl
    exact file current
  by_cases this : j = index
  · subst this
    exact Or.inr (new.resolve_left file)
  · have before := used.2
    rw [allocation, decide_eq_false (Ne.symm this), Bool.false_or] at before
    exact Or.inl ⟨⟨used.1, before⟩, others j this notCurrent⟩

/-- Unlinking leaves the other files empty. -/
theorem SimpleFs.Light.unlinked (light : s.Light) (mounted : Mounted s) {index : Nat}
    {entries : List Entry} (unlinked : Unlinked s s.currentDirectory index entries t) :
    t.Light := by
  -- A file that is left is neither the working directory nor the inode removed.
  refine light.step fun j used file => Or.inl ?_
  have untouched : ¬ (j = s.currentDirectory ∨ j = index) := by
    rintro (rfl | rfl)
    · obtain ⟨inTable, usedT, type, -⟩ := unlinked.listed.readable
      exact file ⟨inTable, usedT, type⟩
    · have gone := unlinked.free
      rw [used.2] at gone
      cases gone
  have moves := unlinked.runs.moves
  have before : s.inodeUsed j = true := by
    by_contra free
    rw [Bool.not_eq_true] at free
    have still := moves.kept_free used.1 free untouched
    rw [used.2] at still
    cases still
  exact ⟨⟨used.1, before⟩, (moves.kept mounted used.1 before untouched).2.1⟩

/-- The state after a call has empty files only, and blocks did not run out. -/
def Spares (t : SimpleFs) : Prop := t.Light ∧ t.blocksExhausted = false

namespace Grown

/-- A call that only read spares the volume. -/
theorem alike (grown : Grown s parent children) (alike : Alike s t) : Spares t :=
  ⟨grown.light.alike grown.tree.mounted alike, alike.exhausted.trans grown.clear⟩

/-- Creating a file leaves it empty, and takes no more than there is. -/
theorem create (grown : Grown s parent children) (name : CString) :
    Spares (simplefsCreate name s).2 := by
  -- There is room for the entry, so the call goes through or is refused.
  have mounted := grown.tree.mounted
  have current := grown.tree.current
  by_cases enterable : s.Enterable name
  · rcases simplefsCreate_enterable mounted enterable with
      ⟨t, index, result, created⟩ | ⟨t, -, -, shortage⟩
    · rw [result]
      refine ⟨grown.light.entered ⟨current.1, ?_, created.dirType⟩ created.allocation
        created.others (Or.inr ?_), created.exhausted.trans grown.clear⟩
      · rw [created.allocation, current.2.1, Bool.or_true]
      · rw [created.record]
        rfl
    · have := grown.roomy
      omega
  · obtain ⟨t, result, runs, exhausted, allocation⟩ := simplefsCreate_refused mounted enterable
    rw [result]
    exact ⟨grown.light.spared mounted runs allocation, exhausted.trans grown.clear⟩

/-- Making a directory takes no more than there is. -/
theorem makeDir (grown : Grown s parent children) (name : CString) :
    Spares (simplefsMakeDir name s).2 := by
  -- There is room for the entry and for the new block.
  have mounted := grown.tree.mounted
  have current := grown.tree.current
  by_cases enterable : s.Enterable name
  · rcases simplefsMakeDir_enterable mounted enterable with
      ⟨t, index, result, created⟩ | ⟨t, -, -, -, none, -⟩ | ⟨t, -, -, -, shortage⟩
    · rw [result]
      refine ⟨grown.light.entered ⟨current.1, ?_, created.dirType⟩ created.allocation
        created.others (Or.inl ⟨created.inTable, ?_, created.type⟩),
        created.exhausted.trans grown.clear⟩
      · rw [created.allocation, current.2.1, Bool.or_true]
      · simp [created.allocation]
    · have := grown.freeBlocks
      omega
    · have := grown.roomy
      omega
  · have few := grown.tree.entryCount_le current
    have room : s.entryCount s.currentDirectory < maxDirectoryEntries := by
      simp only [maxDirectoryEntries, maxFileSize, entrySize]
      omega
    obtain ⟨t, result, alike⟩ := simplefsMakeDir_declined mounted enterable
      (grown.tree.listed _ current).readable room
    rw [result]
    exact grown.alike alike

/-- Deleting a file spares the others. -/
theorem delete (grown : Grown s parent children) (name : CString) :
    Spares (simplefsDelete name s).2 := by
  -- A delete that is refused only looks, one that goes through frees blocks.
  have mounted := grown.tree.mounted
  refine ⟨?_, (simplefsDelete_exhausted mounted name).trans grown.clear⟩
  by_cases deletable : ∃ index, s.Deletable name index
  · obtain ⟨index, deletable⟩ := deletable
    obtain ⟨t, slot, result, -, unlinked⟩ :=
      simplefsDelete_deletable mounted (grown.tree.listed _ grown.tree.current) deletable
    rw [result]
    exact grown.light.unlinked mounted unlinked
  · obtain ⟨t, result, alike⟩ := simplefsDelete_refused mounted (not_exists.mp deletable)
    rw [result]
    exact (grown.alike alike).1

/-- Removing a directory other than the working one spares the files. -/
theorem removeDir (grown : Grown s parent children) (name : CString)
    (allowed : ¬ (FsCall.removeDir name).RemovesItself s) :
    Spares (simplefsRemoveDir name s).2 := by
  -- A removal that is refused only looks, one that goes through frees blocks.
  have mounted := grown.tree.mounted
  refine ⟨?_, (simplefsRemoveDir_exhausted mounted name).trans grown.clear⟩
  by_cases removable : ∃ index, s.Removable name index
  · obtain ⟨index, removable⟩ := removable
    have other := grown.tree.removable_other removable allowed
    obtain ⟨t, slot, result, -, unlinked⟩ := simplefsRemoveDir_removable mounted
      (grown.tree.listed _ grown.tree.current) removable other
    rw [result]
    exact grown.light.unlinked mounted unlinked
  · obtain ⟨t, result, alike⟩ := simplefsRemoveDir_refused mounted
      (fun inode leads => ⟨_, grown.tree.listed _ (entryLeadsTo_iff.mp leads)⟩)
      (not_exists.mp removable)
    rw [result]
    exact (grown.alike alike).1

/-- Changing the working directory spares everything. -/
theorem changeDir (grown : Grown s parent children) (name : CString) :
    Spares (simplefsChangeDir name s).2 := by
  -- Only the working directory may move, whichever branch is taken.
  have moved : ∀ (t : SimpleFs) (dir : Nat), Spares t →
      Spares { t with currentDirectory := dir } := fun t dir spares => spares
  unfold simplefsChangeDir
  split
  · exact ⟨grown.light, grown.clear⟩
  split
  · exact moved s _ ⟨grown.light, grown.clear⟩
  obtain ⟨transfers, find⟩ := findEntryInDirectory_sound grown.tree.mounted s.currentDirectory name
  have read := grown.alike (Alike.scanned s transfers (s.loaded s.currentDirectory))
  rw [find]
  cases s.lookup s.currentDirectory name with
  | none => exact read
  | some entry =>
    simp only
    split
    · exact read
    · exact moved _ _ read

end Grown

/-- The calls that shape the directory tree without writing to files. -/
def FsCall.reshapes : FsCall → Bool
  | .create _ => true
  | .delete _ => true
  | .makeDir _ => true
  | .removeDir _ => true
  | .changeDir _ => true
  | _ => false

/-- A call that shapes the tree, and does not remove the working directory, never wants blocks. -/
theorem fsStep_grown (grown : Grown s parent children) {call : FsCall}
    (reshapes : call.reshapes = true) (allowed : ¬ call.RemovesItself s) :
    ∃ parent' children', Regrown s call.enters parent children parent' children' ∧
      Grown (fsStep s call).2 parent' children' := by
  -- One case for each call that shapes the tree.
  have spares : Spares (fsStep s call).2 ∧ call.editsTree = true := by
    cases call with
    | create name => exact ⟨grown.create name, rfl⟩
    | delete name => exact ⟨grown.delete name, rfl⟩
    | makeDir name => exact ⟨grown.makeDir name, rfl⟩
    | removeDir name => exact ⟨grown.removeDir name allowed, rfl⟩
    | changeDir name => exact ⟨grown.changeDir name, rfl⟩
    | _ => cases reshapes
  obtain ⟨⟨light, clear⟩, edits⟩ := spares
  obtain ⟨parent', children', regrown, tree⟩ := fsStep_regrows grown.tree edits allowed clear
  have moves := fsStep_moves grown.tree.mounted call
  exact ⟨parent', children', regrown, tree, moves.healthy grown.healthy,
    moves.thrifty grown.tree.mounted grown.thrifty clear, light, clear⟩

end Steps

/-- A fresh volume holds nothing but its root. -/
theorem Formatted.grown {t : SimpleFs} (formatted : Formatted t) :
    Grown t (fun _ => rootInode) fun _ => [] := by
  -- The root is the only inode, and its two entries are in its one block.
  have only : ∀ {index}, t.IsUsed index → index = rootInode := by
    intro index used
    have root := formatted.allocation index used.1
    rw [used.2] at root
    exact of_decide_eq_true root.symm
  have mounted := formatted.healthy.mounted
  have tree := formatted.tree
  refine ⟨⟨tree.mounted, tree.current, ?_, ?_, tree.names⟩, formatted.healthy, formatted.thrifty, ?_,
    formatted.clear⟩
  · intro dir directory
    obtain rfl := only ⟨directory.1, directory.2.1⟩
    exact tree.listed _ directory
  · obtain ⟨rootBranch, branchUsed, -, childUsed, childNotRoot, -, covered, once⟩ := tree.forest
    exact ⟨rootBranch, branchUsed, rfl, childUsed, childNotRoot, nofun, covered, once⟩
  · intro index used file
    obtain rfl := only used
    exact absurd ⟨used.1, used.2, mounted.rootType⟩ file

end MyOS.Fs
