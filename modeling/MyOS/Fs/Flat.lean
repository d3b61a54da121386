import Mathlib.Data.Finset.Card
import MyOS.Fs.Tree

/-! A volume without subdirectories: what its names lead to, and how many files it has room for. -/

namespace MyOS.Fs

/-- A volume whose only directory is the root, with distinct names in it. -/
structure Flat (s : SimpleFs) (parent : Nat → Nat) (children : Nat → List (Nat × CString)) :
    Prop where
  tree : Tree s parent children
  healthy : Healthy s
  fsMounted : s.fsMounted = true
  current : s.currentDirectory = rootInode
  only : ∀ dir, s.IsDir dir → dir = rootInode
  regular : ∀ child ∈ children rootInode, (s.inodeTable.get child.1).type = typeRegular
  distinct : ((children rootInode).map Prod.snd).Nodup

namespace Flat

variable {s t : SimpleFs} {parent : Nat → Nat} {children : Nat → List (Nat × CString)}

/-- The root is a directory. -/
theorem root (flat : Flat s parent children) : s.IsDir rootInode := by
  have current := flat.tree.current
  rwa [flat.current] at current

/-- The root lists itself twice, and then its files. -/
theorem listed (flat : Flat s parent children) :
    Listed s s.currentDirectory
      (dirEntries rootInode rootInode (children rootInode)) := by
  -- The working directory is the root, which is its own parent.
  have listed := flat.tree.listed rootInode flat.root
  rw [flat.tree.forest.rootParent] at listed
  rwa [flat.current]

/-- A file of the root is allocated. -/
theorem used (flat : Flat s parent children) {child : Nat × CString}
    (member : child ∈ children rootInode) : s.IsUsed child.1 :=
  flat.tree.forest.childUsed rootInode flat.root child member

/-- The name of a file is valid. -/
theorem valid (flat : Flat s parent children) {child : Nat × CString}
    (member : child ∈ children rootInode) : validName child.2 = true :=
  flat.tree.names rootInode flat.root child member

/-- A file is found under one name only. -/
theorem name_unique (flat : Flat s parent children) {index : Nat} {name name' : CString}
    (first : (index, name) ∈ children rootInode) (second : (index, name') ∈ children rootInode) :
    name = name' := by
  -- An inode occurs once among all children.
  obtain ⟨k, insideK, atK⟩ := List.getElem_of_mem first
  obtain ⟨l, insideL, atL⟩ := List.getElem_of_mem second
  obtain ⟨-, rfl⟩ := flat.tree.forest.once flat.root flat.root
    ((List.getElem?_eq_getElem insideK).trans (congrArg some atK))
    ((List.getElem?_eq_getElem insideL).trans (congrArg some atL)) rfl
  exact (Prod.mk.inj (atK.symm.trans atL)).2

/-- A name belongs to one file only. -/
theorem index_unique (flat : Flat s parent children) {index index' : Nat} {name : CString}
    (first : (index, name) ∈ children rootInode) (second : (index', name) ∈ children rootInode) :
    index = index' := by
  -- The names of the root are distinct.
  have same := List.inj_on_of_nodup_map flat.distinct first second rfl
  exact (Prod.mk.inj same).1

/-- A name leads to a file exactly if the root lists the file under it. -/
theorem fileNamed_iff (flat : Flat s parent children) (name : CString) (index : Nat) :
    s.fileNamed name = some index ↔ (index, name) ∈ children rootInode := by
  constructor
  · intro named
    obtain ⟨inode, slot, found, -, rfl⟩ := fileNamed_some named
    obtain ⟨inTable, used, type⟩ := fileNamed_allocated named
    have file : ¬ s.IsDir inode.toNat := by
      rintro ⟨-, -, directory⟩
      rw [type] at directory
      cases directory
    have stored := (flat.tree.listed _ flat.tree.current).lookup_some found
    rw [← @UInt32.ofNat_toNat inode] at stored
    obtain ⟨place, -, at_⟩ := flat.tree.file_place ⟨inTable, used⟩ file stored
    rw [flat.current] at at_
    exact List.mem_of_getElem? at_
  · intro member
    -- The name is found, and what is found under it can only be this file.
    have ordinary := validName.ordinary (flat.valid member)
    cases found : s.lookup s.currentDirectory name with
    | none =>
      refine absurd rfl ((flat.listed.lookup_none name).mp found (childEntry (index, name)) ?_)
      exact List.mem_cons_of_mem _ (List.mem_cons_of_mem _ (List.mem_map_of_mem member))
    | some entry =>
      have stored := flat.listed.lookup_some found
      rcases dirEntries_cases stored with ⟨-, same⟩ | ⟨-, same⟩ | ⟨place, child, -, at_, same⟩
      · exact absurd (Prod.mk.inj same).2 ordinary.1
      · exact absurd (Prod.mk.inj same).2 ordinary.2
      · obtain ⟨inode, rfl⟩ := Prod.mk.inj same
        have memberC := List.mem_of_getElem? at_
        obtain rfl := flat.index_unique memberC member
        have used := flat.used memberC
        have inodeIs : entry.1.toNat = child.1 := by rw [inode, toNat_ofNat_inode used.1]
        have leads : entryLeadsTo entry.1 typeRegular s = true := by
          rw [entryLeadsTo_iff, inodeIs]
          exact ⟨used.1, used.2, flat.regular child memberC⟩
        rw [SimpleFs.fileNamed, found]
        simp only [leads, if_true, inodeIs]

/-- A valid name is absent exactly if it leads to no file. -/
theorem lookup_none_iff (flat : Flat s parent children) {name : CString}
    (valid : validName name = true) :
    s.lookup s.currentDirectory name = none ↔ s.fileNamed name = none := by
  -- An entry under the name is a child of the root, and those are files.
  constructor
  · intro absent
    simp only [SimpleFs.fileNamed, absent]
  · intro none
    obtain ⟨notDot, notDotDot⟩ := validName.ordinary valid
    rw [flat.listed.lookup_none]
    intro entry member same
    rcases List.mem_cons.mp member with rfl | member
    · exact notDot same.symm
    rcases List.mem_cons.mp member with rfl | member
    · exact notDotDot same.symm
    · obtain ⟨child, memberC, rfl⟩ := List.mem_map.mp member
      obtain ⟨index, name'⟩ := child
      obtain rfl : name' = name := same
      rw [(flat.fileNamed_iff name' index).mpr memberC] at none
      cases none

/-- The inodes of the files and the root are all that is allocated, each once. -/
theorem allocated (flat : Flat s parent children) :
    (rootInode :: (children rootInode).map Prod.fst).Nodup ∧
      ∀ index, index ∈ rootInode :: (children rootInode).map Prod.fst ↔ s.IsUsed index := by
  have forest := flat.tree.forest
  refine ⟨List.nodup_cons.mpr ⟨?_, ?_⟩, fun index => ?_⟩
  · intro member
    obtain ⟨child, memberC, same⟩ := List.mem_map.mp member
    exact forest.childNotRoot rootInode flat.root child memberC same
  · -- An inode listed in two places is listed in one.
    rw [List.nodup_iff_getElem?_ne_getElem?]
    intro i j less inside same
    rw [List.length_map] at inside
    rw [List.getElem?_map, List.getElem?_map, List.getElem?_eq_getElem inside,
      List.getElem?_eq_getElem (Nat.lt_trans less inside), Option.map_some, Option.map_some,
      Option.some.injEq] at same
    have := (forest.once flat.root flat.root
      (List.getElem?_eq_getElem (Nat.lt_trans less inside)) (List.getElem?_eq_getElem inside)
      same).2
    omega
  · rw [List.mem_cons]
    constructor
    · rintro (rfl | member)
      · exact forest.branchUsed _ flat.root
      · obtain ⟨child, memberC, rfl⟩ := List.mem_map.mp member
        exact flat.used memberC
    · intro used
      by_cases isRoot : index = rootInode
      · exact Or.inl isRoot
      · obtain ⟨dir, directory, child, member, rfl⟩ := forest.covered index used isRoot
        rw [flat.only dir directory] at member
        exact Or.inr (List.mem_map_of_mem member)

/-- There is a free inode exactly if there are fewer than 63 files. -/
theorem free_iff (flat : Flat s parent children) :
    (∃ index, index < maxInodes ∧ s.inodeUsed index = false) ↔
      (children rootInode).length < 63 := by
  obtain ⟨distinct, members⟩ := flat.allocated
  -- Count the allocated inodes among the 64 there are.
  let taken := (rootInode :: (children rootInode).map Prod.fst).toFinset
  have card : taken.card = (children rootInode).length + 1 := by
    rw [List.toFinset_card_of_nodup distinct, List.length_cons, List.length_map]
  have within : taken ⊆ Finset.range 64 := by
    intro index member
    exact Finset.mem_range.mpr ((members index).mp (List.mem_toFinset.mp member)).1
  have most := Finset.card_le_card within
  rw [card, Finset.card_range] at most
  constructor
  · rintro ⟨index, inTable, free⟩
    -- The free inode is missing from the count.
    have missing : index ∉ taken := fun member => by
      have used := ((members index).mp (List.mem_toFinset.mp member)).2
      rw [free] at used
      cases used
    have fewer : taken ⊂ Finset.range 64 :=
      Finset.ssubset_iff_subset_ne.mpr ⟨within, fun same =>
        missing (same ▸ Finset.mem_range.mpr inTable)⟩
    have less := Finset.card_lt_card fewer
    rw [card, Finset.card_range] at less
    omega
  · intro room
    by_contra full
    -- Were all allocated, the count would be 64.
    have all : Finset.range 64 ⊆ taken := by
      intro index member
      have inTable : index < maxInodes := Finset.mem_range.mp member
      refine List.mem_toFinset.mpr ((members index).mpr ⟨inTable, ?_⟩)
      by_contra free
      exact full ⟨index, inTable, by simpa using free⟩
    have count := Finset.card_le_card all
    rw [card, Finset.card_range] at count
    omega

/-- A new name can be entered exactly if it is valid, leads nowhere, and there is room. -/
theorem enterable_iff (flat : Flat s parent children) (name : CString) :
    s.Enterable name ↔ validName name = true ∧ s.fileNamed name = none ∧
      (children rootInode).length < 63 := by
  -- Readability and the length of the root's list are what remains to be checked.
  constructor
  · intro enterable
    exact ⟨enterable.valid, (flat.lookup_none_iff enterable.valid).mp enterable.absent,
      flat.free_iff.mp enterable.inodes⟩
  · rintro ⟨valid, absent, room⟩
    refine ⟨flat.fsMounted, valid, (flat.lookup_none_iff valid).mpr absent, flat.free_iff.mpr room,
      flat.listed.readable, ?_⟩
    rw [flat.listed.count]
    simp only [dirEntries, List.length_cons, List.length_map, maxDirectoryEntries, maxFileSize,
      entrySize]
    omega

/-- Names lead to the same files wherever the root lists the same children. -/
theorem fileNamed_congr {parent' : Nat → Nat} {children' : Nat → List (Nat × CString)}
    (flat : Flat s parent children) (flatT : Flat t parent' children') {name : CString}
    (same : ∀ index, (index, name) ∈ children' rootInode ↔ (index, name) ∈ children rootInode) :
    t.fileNamed name = s.fileNamed name := by
  -- Both sides say the same of every inode.
  apply Option.ext
  intro index
  rw [flatT.fileNamed_iff, flat.fileNamed_iff, same]

/-- Another state of the same volume, still in the root, is as flat. -/
theorem quiet (flat : Flat s parent children) (quiet : Quiet s t)
    (fsMounted : t.fsMounted = s.fsMounted) (current : t.currentDirectory = s.currentDirectory) :
    Flat t parent children ∧ ∀ name, t.fileNamed name = s.fileNamed name := by
  -- A quiet step changes none of the facts a flat volume is about.
  have dirIff : ∀ dir, t.IsDir dir ↔ s.IsDir dir := fun dir => by
    simp only [SimpleFs.IsDir, quiet.inodeUsed, quiet.inodeTable]
  have flatT : Flat t parent children := by
    refine ⟨flat.tree.quiet quiet ?_, (Moves.healthy (@Moves.quiet s.Fresh s.Fresh _ _ quiet))
      flat.healthy, fsMounted.trans flat.fsMounted, current.trans flat.current, ?_, ?_,
      flat.distinct⟩
    · rw [current, dirIff]
      exact flat.tree.current
    · exact fun dir directory => flat.only dir ((dirIff dir).mp directory)
    · intro child member
      rw [quiet.inodeTable]
      exact flat.regular child member
  exact ⟨flatT, fun name => flat.fileNamed_congr flatT fun _ => Iff.rfl⟩

/-- What concerns free inodes only, and leaves them free, leaves the volume flat. -/
theorem spared (flat : Flat s parent children) (runs : Runs s.Fresh s.Fresh s t)
    (allocation : ∀ index, index < maxInodes → t.inodeUsed index = s.inodeUsed index) :
    Flat t parent children ∧ ∀ name, t.fileNamed name = s.fileNamed name := by
  -- Every allocated inode kept its record and its bytes.
  have record : ∀ index, s.IsUsed index → t.inodeTable.get index = s.inodeTable.get index := by
    intro index used
    exact (runs.moves.kept flat.tree.mounted used.1 used.2 (SimpleFs.not_fresh used.2)).2.1
  have flatT : Flat t parent children := by
    refine ⟨flat.tree.spared runs allocation, runs.moves.healthy flat.healthy,
      runs.steady.fsMounted.trans flat.fsMounted,
      runs.steady.currentDirectory.trans flat.current, ?_, ?_, flat.distinct⟩
    · rintro dir ⟨inTable, used, directory⟩
      rw [allocation dir inTable] at used
      rw [record dir ⟨inTable, used⟩] at directory
      exact flat.only dir ⟨inTable, used, directory⟩
    · intro child member
      rw [record child.1 (flat.used member)]
      exact flat.regular child member
  exact ⟨flatT, fun name => flat.fileNamed_congr flatT fun _ => Iff.rfl⟩

/-- Rewriting a file leaves the volume flat. -/
theorem written (flat : Flat s parent children) {index size : Nat} {data : Nat → UInt8}
    (file : (s.inodeTable.get index).type = typeRegular)
    (written : Written s index data size t) :
    Flat t parent children ∧ ∀ name, t.fileNamed name = s.fileNamed name := by
  -- The types are as before, and of the bytes only the file's have changed.
  have types : ∀ j, (t.inodeTable.get j).type = (s.inodeTable.get j).type := by
    intro j
    by_cases this : j = index
    · rw [this, written.type]
    · rw [written.others j this]
  have steady := written.runs.steady
  have flatT : Flat t parent children := by
    refine ⟨flat.tree.written file written, written.runs.moves.healthy flat.healthy,
      steady.fsMounted.trans flat.fsMounted, steady.currentDirectory.trans flat.current, ?_, ?_,
      flat.distinct⟩
    · rintro dir ⟨inTable, used, directory⟩
      rw [written.allocation] at used
      rw [types] at directory
      exact flat.only dir ⟨inTable, used, directory⟩
    · intro child member
      rw [types]
      exact flat.regular child member
  exact ⟨flatT, fun name => flat.fileNamed_congr flatT fun _ => Iff.rfl⟩

/-- A file that was created is one more that a name leads to. -/
theorem created (flat : Flat s parent children) {name : CString} {index : Nat}
    (enterable : s.Enterable name) (created : Created s name index t) :
    ∃ parent' children', Flat t parent' children' ∧
      (children' rootInode).length = (children rootInode).length + 1 ∧
      ∀ other, t.fileNamed other = if other = name then some index else s.fileNamed other := by
  have steady := created.runs.steady
  have absent := ((flat.enterable_iff name).mp enterable).2.1
  have tree := flat.tree.created enterable created
  have listed : Forest.inserted children s.currentDirectory index name rootInode =
      children rootInode ++ [(index, name)] := by
    rw [flat.current, Forest.inserted, Function.update_self]
  -- The name was not in the list, or it would have led somewhere.
  have fresh : ∀ other, (other, name) ∉ children rootInode := by
    intro other member
    rw [(flat.fileNamed_iff name other).mpr member] at absent
    cases absent
  have old : ∀ child ∈ children rootInode, t.inodeTable.get child.1 = s.inodeTable.get child.1 := by
    intro child member
    have used := (flat.used member).2
    refine created.others child.1 (fun same => ?_) fun same => ?_
    · rw [same, created.fresh.1] at used
      cases used
    · exact flat.tree.forest.childNotRoot rootInode flat.root child member (same.trans flat.current)
  have flatT : Flat t (Function.update parent index s.currentDirectory)
      (Forest.inserted children s.currentDirectory index name) := by
    refine ⟨tree, created.runs.moves.healthy flat.healthy, steady.fsMounted.trans flat.fsMounted,
      steady.currentDirectory.trans flat.current, ?_, ?_, ?_⟩
    · rintro dir ⟨inTable, used, directory⟩
      by_cases here : dir = s.currentDirectory
      · exact here.trans flat.current
      by_cases new : dir = index
      · -- The new inode is a file.
        rw [new, created.record] at directory
        cases directory
      · rw [created.allocation, decide_eq_false (Ne.symm new), Bool.false_or] at used
        rw [created.others dir new here] at directory
        exact flat.only dir ⟨inTable, used, directory⟩
    · rw [listed]
      intro child member
      rcases List.mem_append.mp member with before | last
      · rw [old child before]
        exact flat.regular child before
      · rw [List.mem_singleton.mp last, created.record]
        rfl
    · rw [listed, List.map_append, List.map_singleton, List.nodup_append]
      refine ⟨flat.distinct, List.nodup_singleton _, ?_⟩
      intro first memberFirst second memberSecond same
      obtain ⟨⟨other, taken⟩, member, rfl⟩ := List.mem_map.mp memberFirst
      obtain rfl : taken = name := same.trans (List.mem_singleton.mp memberSecond)
      exact fresh other member
  refine ⟨_, _, flatT, by rw [listed, List.length_append, List.length_singleton], fun other => ?_⟩
  split
  · rename_i same
    subst same
    rw [flatT.fileNamed_iff, listed]
    exact List.mem_append_right _ List.mem_cons_self
  · rename_i differs
    refine flat.fileNamed_congr flatT fun i => ?_
    rw [listed, List.mem_append, List.mem_singleton, Prod.mk.injEq]
    exact or_iff_left fun both => differs both.2

/-- A file that was deleted is one less that a name leads to. -/
theorem unlinked (flat : Flat s parent children) {name : CString} {index slot : Nat}
    (named : s.fileNamed name = some index)
    (found : (dirEntries rootInode rootInode (children rootInode))[slot]? =
      some (UInt32.ofNat index, name))
    (unlinked : Unlinked s s.currentDirectory index
      ((dirEntries rootInode rootInode (children rootInode)).eraseIdx slot) t) :
    ∃ parent' children', Flat t parent' children' ∧
      (children' rootInode).length + 1 = (children rootInode).length ∧
      ∀ other, t.fileNamed other = if other = name then none else s.fileNamed other := by
  have steady := unlinked.runs.steady
  have moves := unlinked.runs.moves
  obtain ⟨inTable, used, regular⟩ := fileNamed_allocated named
  have file : ¬ s.IsDir index := by
    rintro ⟨-, -, directory⟩
    rw [regular] at directory
    cases directory
  have rootParent := flat.tree.forest.rootParent
  have shape : dirEntries s.currentDirectory (parent s.currentDirectory)
      (children s.currentDirectory) = dirEntries rootInode rootInode (children rootInode) := by
    rw [flat.current, rootParent]
  rw [← shape] at found unlinked
  obtain ⟨place, rfl, at_⟩ := flat.tree.file_place ⟨inTable, used⟩ file found
  have tree := flat.tree.unlinked at_ (fun directory => absurd directory file) unlinked
  rw [flat.current] at at_
  obtain ⟨inside, atPlace⟩ := List.getElem?_eq_some_iff.mp at_
  have listed : Forest.erased children s.currentDirectory place rootInode =
      (children rootInode).eraseIdx place := by
    rw [flat.current, Forest.erased, Function.update_self]
  -- What is left are the files of other names.
  have left : ∀ i other, (i, other) ∈ (children rootInode).eraseIdx place ↔
      (i, other) ∈ children rootInode ∧ other ≠ name := by
    intro i other
    rw [List.mem_eraseIdx_iff_getElem?]
    constructor
    · rintro ⟨k, differs, atK⟩
      refine ⟨List.mem_of_getElem? atK, fun same => differs ?_⟩
      subst same
      obtain rfl := flat.index_unique (List.mem_of_getElem? atK) (List.mem_of_getElem? at_)
      exact (flat.tree.forest.once flat.root flat.root atK at_ rfl).2
    · rintro ⟨member, differs⟩
      obtain ⟨k, insideK, atK⟩ := List.getElem_of_mem member
      refine ⟨k, ?_, (List.getElem?_eq_getElem insideK).trans (congrArg some atK)⟩
      rintro rfl
      rw [atPlace] at atK
      exact differs (Prod.mk.inj atK).2.symm
  have kept : ∀ j, s.IsUsed j → j ≠ index → j ≠ rootInode →
      t.inodeTable.get j = s.inodeTable.get j := by
    intro j usedJ notIndex notRoot
    refine (moves.kept flat.tree.mounted usedJ.1 usedJ.2 ?_).2.1
    rw [flat.current]
    exact not_or.mpr ⟨notRoot, notIndex⟩
  have flatT : Flat t parent (Forest.erased children s.currentDirectory place) := by
    refine ⟨tree, moves.healthy flat.healthy, steady.fsMounted.trans flat.fsMounted,
      steady.currentDirectory.trans flat.current, ?_, ?_, ?_⟩
    · intro dir directory
      by_contra notRoot
      -- A directory afterwards was one before.
      have notIndex : dir ≠ index := by
        rintro rfl
        have free := unlinked.free
        rw [directory.2.1] at free
        cases free
      have usedDir : s.inodeUsed dir = true := by
        by_contra free
        have stays := moves.kept_free directory.1 (by simpa using free) (by
          rw [flat.current]
          exact not_or.mpr ⟨notRoot, notIndex⟩)
        rw [directory.2.1] at stays
        cases stays
      have record := kept dir ⟨directory.1, usedDir⟩ notIndex notRoot
      exact notRoot (flat.only dir ⟨directory.1, usedDir, record ▸ directory.2.2⟩)
    · rw [listed]
      rintro ⟨i, other⟩ member
      obtain ⟨before, differs⟩ := (left i other).mp member
      have notIndex : i ≠ index := by
        rintro rfl
        exact differs (flat.name_unique before (List.mem_of_getElem? at_))
      rw [kept i (flat.used before) notIndex
        (flat.tree.forest.childNotRoot rootInode flat.root _ before)]
      exact flat.regular _ before
    · rw [listed]
      exact flat.distinct.sublist ((List.eraseIdx_sublist _ _).map _)
  refine ⟨_, _, flatT, ?_, fun other => ?_⟩
  · rw [listed, List.length_eraseIdx, if_pos inside]
    omega
  · split
    · rename_i same
      subst same
      cases gone : t.fileNamed other with
      | none => rfl
      | some i =>
        rw [flatT.fileNamed_iff, listed, left] at gone
        exact absurd rfl gone.2
    · rename_i differs
      refine flat.fileNamed_congr flatT fun i => ?_
      rw [listed, left]
      exact and_iff_left differs

end Flat

end MyOS.Fs
