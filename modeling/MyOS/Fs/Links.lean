import MyOS.Fs.Sessions

/-!
Links from directories to their parents, in a volume that may have stale entries.

Printing the working directory follows them, and ends as long as no removed directory is made again
while it is still the working one.
-/

namespace MyOS.Fs

/-- A directory lists an entry. -/
def SimpleFs.Lists (s : SimpleFs) (dir : Nat) (entry : Entry) : Prop :=
  ∃ entries, Listed s dir entries ∧ entry ∈ entries

/-- A directory lists an inode under an ordinary name. -/
def SimpleFs.Shows (s : SimpleFs) (dir child : Nat) : Prop :=
  ∃ name, s.Lists dir (UInt32.ofNat child, name) ∧ name ≠ dot ∧ name ≠ dotDot

/-- The links of all directories lead to the root, whatever else is listed. -/
structure Linked (s : SimpleFs) (parent : Nat → Nat) : Prop where
  rootParent : parent rootInode = rootInode
  /-- The entry `..` of a directory names its parent. -/
  up : ∀ dir, s.IsDir dir → s.Lists dir (UInt32.ofNat (parent dir), dotDot)
  /-- The parent is a directory that shows it, and so cannot be removed. -/
  shown : ∀ dir, s.IsDir dir → dir ≠ rootInode → s.IsDir (parent dir) ∧ s.Shows (parent dir) dir
  grounded : Grounded rootInode parent

/-- A call makes a directory where the working directory was removed, and takes its inode. -/
def FsCall.Resurrects (s : SimpleFs) : FsCall → Prop
  | .makeDir name => s.inodeUsed s.currentDirectory = false ∧ (simplefsMakeDir name s).1 = true
  | _ => False

section Listing

variable {s t : SimpleFs} {dir index : Nat} {entry : Entry} {name : CString}

/-- A file is no directory. -/
theorem SimpleFs.IsFile.not_isDir (file : s.IsFile index) : ¬ s.IsDir index := by
  intro directory
  -- An inode has one type.
  have type := directory.2.2
  rw [file.2.2] at type
  cases type

/-- A directory that is not touched lists what it listed. -/
theorem SimpleFs.Lists.kept {touched rewritten : Nat → Prop} (lists : s.Lists dir entry)
    (mounted : Mounted s) (moves : Moves touched rewritten s t) (untouched : ¬ touched dir) :
    t.Lists dir entry := by
  -- It holds the same list of entries.
  obtain ⟨entries, listed, member⟩ := lists
  exact ⟨entries, listed.kept mounted moves untouched, member⟩

/-- In two states of one volume the same entries are listed. -/
theorem SimpleFs.Lists.quiet (lists : s.Lists dir entry) (quiet : Quiet s t) : t.Lists dir entry := by
  obtain ⟨entries, listed, member⟩ := lists
  exact ⟨entries, listed.quiet quiet, member⟩

/-- A bare directory shows nothing. -/
theorem SimpleFs.Bare.shows_nothing {child : Nat} (bare : s.Bare dir) : ¬ s.Shows dir child := by
  rintro ⟨name, ⟨entries, listed, member⟩, notDot, notDotDot⟩
  -- All its entries are special ones.
  obtain ⟨-, entries', listed', special⟩ := bare
  obtain rfl := listed.unique listed'
  exact (special _ member).elim notDot notDotDot

/-- Where an allocated directory stays untouched by what concerns other inodes. -/
theorem not_entering (directory : s.IsDir dir) (other : dir ≠ s.currentDirectory) :
    ¬ s.Entering dir := by
  -- It is neither the working directory nor free.
  rintro (same | free)
  · exact other same
  · exact SimpleFs.not_fresh directory.2.1 free

/-- A file that was created takes no entry away. -/
theorem Created.lists (created : Created s name index t) (enterable : s.Enterable name)
    (mounted : Mounted s) (directory : s.IsDir dir) (lists : s.Lists dir entry) :
    t.Lists dir entry := by
  by_cases here : dir = s.currentDirectory
  · -- The new entry stands behind those there were.
    subst here
    obtain ⟨entries, listed, member⟩ := lists
    exact ⟨_, created.listed enterable listed, List.mem_append_left _ member⟩
  · exact lists.kept mounted created.runs.moves (not_entering directory here)

/-- A directory that was made takes no entry away. -/
theorem DirCreated.lists (created : DirCreated s name index t) (enterable : s.Enterable name)
    (mounted : Mounted s) (directory : s.IsDir dir) (lists : s.Lists dir entry) :
    t.Lists dir entry := by
  by_cases here : dir = s.currentDirectory
  · -- The new entry stands behind those there were.
    subst here
    obtain ⟨entries, listed, member⟩ := lists
    exact ⟨_, created.listed enterable listed, List.mem_append_left _ member⟩
  · exact lists.kept mounted created.runs.moves (not_entering directory here)

end Listing

namespace Linked

variable {s t : SimpleFs} {parent : Nat → Nat}

/-- The parent of a directory is a directory. -/
theorem climbs (linked : Linked s parent) (mounted : Mounted s) (dir : Nat)
    (directory : s.IsDir dir) : s.IsDir (parent dir) := by
  by_cases isRoot : dir = rootInode
  · -- The root is its own parent.
    rw [isRoot, linked.rootParent]
    exact ⟨by decide, mounted.rootUsed, mounted.rootType⟩
  · exact (linked.shown dir directory isRoot).1

/-- The entry `..` that is found in a directory names its parent. -/
theorem getParentInode (linked : Linked s parent) (mounted : Mounted s)
    (catalogued : s.Catalogued) {dir : Nat} (directory : s.IsDir dir) :
    ∃ t, Fs.getParentInode dir s = (some (UInt32.ofNat (parent dir)), t) ∧ Alike s t := by
  obtain ⟨entries, listed, member⟩ := linked.up dir directory
  obtain ⟨entries', listed', named⟩ := catalogued dir directory
  obtain rfl := listed.unique listed'
  -- No two entries have this name.
  refine listed.getParentInode mounted member fun entry other isDotDot => ?_
  exact congrArg Prod.fst (List.inj_on_of_nodup_map named.distinct other member isDotDot)

/-- Another state of the same volume has the same links. -/
theorem quiet (linked : Linked s parent) (quiet : Quiet s t) : Linked t parent := by
  -- A quiet step leaves directories and their parent entries as they were.
  have same : ∀ dir, t.IsDir dir ↔ s.IsDir dir := fun dir => by
    unfold SimpleFs.IsDir
    rw [quiet.inodeUsed, quiet.inodeTable]
  refine ⟨linked.rootParent, fun dir directory => ?_, fun dir directory notRoot => ?_, linked.grounded⟩
  · exact (linked.up dir ((same dir).mp directory)).quiet quiet
  · obtain ⟨holds, name, lists, ordinary⟩ := linked.shown dir ((same dir).mp directory) notRoot
    exact ⟨(same _).mpr holds, name, lists.quiet quiet, ordinary⟩

/--
The links stay when no directory is added, and only bare ones go.

A directory that stays must still be linked to its parent, and be shown by it.
-/
theorem remain (linked : Linked s parent) (dirs : ∀ dir, t.IsDir dir → s.IsDir dir)
    (gone : ∀ dir, s.IsDir dir → ¬ t.IsDir dir → s.Bare dir)
    (up : ∀ dir, t.IsDir dir → t.Lists dir (UInt32.ofNat (parent dir), dotDot))
    (shows : ∀ dir child, t.IsDir dir → t.IsDir child → s.Shows dir child → t.Shows dir child) :
    Linked t parent := by
  refine ⟨linked.rootParent, up, fun dir directory notRoot => ?_, linked.grounded⟩
  obtain ⟨holds, shown⟩ := linked.shown dir (dirs dir directory) notRoot
  -- A bare directory would not show it.
  have stays : t.IsDir (parent dir) := by
    by_contra went
    exact (gone _ holds went).shows_nothing shown
  exact ⟨stays, shows _ dir stays directory shown⟩

/-- The links stay when no directory that is left is touched, and only bare ones go. -/
theorem untouched {touched rewritten : Nat → Prop} (linked : Linked s parent) (mounted : Mounted s)
    (moves : Moves touched rewritten s t) (apart : ∀ dir, t.IsDir dir → ¬ touched dir)
    (gone : ∀ dir, s.IsDir dir → ¬ t.IsDir dir → s.Bare dir) : Linked t parent := by
  -- What was not touched was a directory before.
  have dirs : ∀ dir, t.IsDir dir → s.IsDir dir := by
    intro dir directory
    have used := moves.used_before directory.1 directory.2.1 (apart dir directory)
    have record := (moves.kept mounted directory.1 used (apart dir directory)).2.1
    exact ⟨directory.1, used, by rw [← record]; exact directory.2.2⟩
  refine linked.remain dirs gone (fun dir directory => ?_) fun dir child directory _ shows => ?_
  · exact (linked.up dir (dirs dir directory)).kept mounted moves (apart dir directory)
  · obtain ⟨name, lists, ordinary⟩ := shows
    exact ⟨name, lists.kept mounted moves (apart dir directory), ordinary⟩

/-- A file that was created changes no link. -/
theorem created (linked : Linked s parent) (mounted : Mounted s) {name : CString} {index : Nat}
    (enterable : s.Enterable name) (created : Created s name index t) : Linked t parent := by
  -- The directories are the same, and none of them got another parent.
  have same := created.isDir_iff enterable
  refine linked.remain (fun dir => (same dir).mp)
    (fun dir directory went => absurd ((same dir).mpr directory) went)
    (fun dir directory => ?_) fun dir child directory _ shows => ?_
  · have before := (same dir).mp directory
    exact created.lists enterable mounted before (linked.up dir before)
  · obtain ⟨name, lists, ordinary⟩ := shows
    exact ⟨name, created.lists enterable mounted ((same dir).mp directory) lists, ordinary⟩

/-- A directory that was made is linked to the working directory. -/
theorem dirCreated (linked : Linked s parent) (mounted : Mounted s) {name : CString} {index : Nat}
    (enterable : s.Enterable name) (created : DirCreated s name index t) :
    Linked t (Function.update parent index s.currentDirectory) := by
  have dirs := created.isDir_iff enterable
  have current : s.IsDir s.currentDirectory :=
    ⟨enterable.readable.1, enterable.readable.2.1, enterable.readable.2.2.1⟩
  -- The inode was free, so no directory had it.
  have fresh : ¬ s.IsDir index := by
    rintro ⟨-, used, -⟩
    rw [created.fresh.1] at used
    cases used
  have other : ∀ {dir}, s.IsDir dir → dir ≠ index := fun directory same => fresh (same ▸ directory)
  have root : s.IsDir rootInode := ⟨by decide, mounted.rootUsed, mounted.rootType⟩
  refine ⟨?_, fun dir directory => ?_, fun dir directory notRoot => ?_,
    linked.grounded.update (linked.climbs mounted) current fresh⟩
  · rw [Function.update_of_ne (other root)]
    exact linked.rootParent
  · rcases (dirs dir).mp directory with before | rfl
    · rw [Function.update_of_ne (other before)]
      exact created.lists enterable mounted before (linked.up dir before)
    · -- It starts with an entry for the working directory.
      rw [Function.update_self]
      refine ⟨dirEntries dir s.currentDirectory [], ?_, by simp [dirEntries]⟩
      exact Tree.listed_dotEntries created.inTable directory.2.1 created.type
        (by rw [created.newSize]; decide) current.1 created.newBytes
  · rcases (dirs dir).mp directory with before | rfl
    · rw [Function.update_of_ne (other before)]
      obtain ⟨holds, name, lists, ordinary⟩ := linked.shown dir before notRoot
      exact ⟨(dirs _).mpr (Or.inl holds), name, created.lists enterable mounted holds lists, ordinary⟩
    · rw [Function.update_self]
      obtain ⟨entries, listed, -⟩ := linked.up _ current
      refine ⟨(dirs _).mpr (Or.inl current), name, ⟨_, created.listed enterable listed, ?_⟩,
        validName.ordinary enterable.valid⟩
      exact List.mem_append_right _ (List.mem_singleton_self _)

/-- Unlinking a file or a bare directory changes no link. -/
theorem unlinked (linked : Linked s parent) (mounted : Mounted s) {index slot : Nat} {name : CString}
    {entries : List Entry}
    (listed : Listed s s.currentDirectory entries)
    (found : entries[slot]? = some (UInt32.ofNat index, name))
    (spare : s.IsFile index ∨ s.Bare index)
    (unlinked : Unlinked s s.currentDirectory index (entries.eraseIdx slot) t) :
    Linked t parent := by
  have current : s.IsDir s.currentDirectory :=
    ⟨listed.readable.1, listed.readable.2.1, listed.readable.2.2.1⟩
  have dirs := unlinked.isDir_iff mounted current
  have inTable : index < maxInodes := spare.elim (·.1) (·.isDir.1)
  -- An entry that names another inode is still listed.
  have keeps : ∀ {dir : Nat} {entry : Entry}, t.IsDir dir → entry.1 ≠ UInt32.ofNat index →
      s.Lists dir entry → t.Lists dir entry := by
    intro dir entry directory apart lists
    by_cases here : dir = s.currentDirectory
    · subst here
      obtain ⟨entries', listed', member⟩ := lists
      obtain rfl := listed.unique listed'
      refine ⟨_, unlinked.listed, ?_⟩
      obtain ⟨k, inside, at_⟩ := List.getElem_of_mem member
      refine List.mem_eraseIdx_iff_getElem?.mpr ⟨k, ?_, (List.getElem?_eq_getElem inside).trans
        (congrArg some at_)⟩
      rintro rfl
      rw [List.getElem?_eq_getElem inside, at_, Option.some.injEq] at found
      rw [found] at apart
      exact apart rfl
    · exact lists.kept mounted unlinked.runs.moves
        (not_or.mpr ⟨here, ((dirs dir).mp directory).2⟩)
  have differ : ∀ {other : Nat}, other < maxInodes → other ≠ index →
      UInt32.ofNat other ≠ UInt32.ofNat index := fun inside apart same =>
    apart (Tree.ofNat_inj_inode inside inTable same)
  -- No directory has the inode for its parent.
  have notParent : ∀ dir, s.IsDir dir → parent dir ≠ index := by
    intro dir directory same
    rcases spare with file | bare
    · exact file.not_isDir (same ▸ linked.climbs mounted dir directory)
    · by_cases isRoot : dir = rootInode
      · rw [isRoot, linked.rootParent] at same
        exact bare.1 same.symm
      · exact bare.shows_nothing (same ▸ (linked.shown dir directory isRoot).2)
  refine linked.remain (fun dir directory => ((dirs dir).mp directory).1)
    (fun dir directory went => ?_) (fun dir directory => ?_) fun dir child directory stays shows => ?_
  · -- The only directory that went is the one that was unlinked.
    obtain rfl : dir = index := by
      by_contra apart
      exact went ((dirs dir).mpr ⟨directory, apart⟩)
    exact spare.resolve_left fun file => file.not_isDir directory
  · have before := ((dirs dir).mp directory).1
    exact keeps directory (differ (linked.climbs mounted dir before).1 (notParent dir before))
      (linked.up dir before)
  · obtain ⟨name, lists, ordinary⟩ := shows
    exact ⟨name, keeps directory (differ stays.1 ((dirs child).mp stays).2) lists, ordinary⟩

/-- A step of a call keeps the links, unless blocks run out or a removed directory is made again. -/
theorem shift (linked : Linked s parent) (mounted : Mounted s) (shift : Shift s t)
    (clear : t.blocksExhausted = false)
    (asleep : s.currentDirectory < maxInodes → s.inodeUsed s.currentDirectory = false →
      t.inodeUsed s.currentDirectory = false) : ∃ parent', Linked t parent' := by
  -- A directory that is still one after a step that spares inodes in use was one before.
  have stays : ∀ {touched rewritten : Nat → Prop}, Moves touched rewritten s t →
      (∀ dir, s.IsDir dir → ¬ touched dir) → ∀ dir, s.IsDir dir → ¬ t.IsDir dir → s.Bare dir :=
    fun moves spared dir directory went =>
      absurd (isDir_kept mounted moves directory (spared dir directory)) went
  cases shift with
  | spared runs allocation =>
    refine ⟨parent, linked.untouched mounted runs.moves
      (fun dir directory => SimpleFs.not_fresh ?_)
      (stays runs.moves fun dir directory => SimpleFs.not_fresh directory.2.1)⟩
    rw [← allocation dir directory.1]
    exact directory.2.1
  | created enterable created => exact ⟨parent, linked.created mounted enterable created⟩
  | dirCreated enterable created => exact ⟨_, linked.dirCreated mounted enterable created⟩
  | reborn reborn =>
    -- The inode of the working directory was taken.
    have woken := asleep reborn.listed.readable.1 reborn.fresh
    rw [reborn.allocation, decide_eq_true rfl, Bool.true_or] at woken
    cases woken
  | entryLost readable lost =>
    rw [lost.exhausted] at clear
    cases clear
  | unlinked listed closed found spare unlinked =>
    exact ⟨parent, linked.unlinked mounted listed found spare unlinked⟩
  | itself bare runs free =>
    refine ⟨parent, linked.untouched mounted runs.moves (fun dir directory => ?_) fun dir directory went => ?_⟩
    · rintro rfl
      rw [directory.2.1] at free
      cases free
    · by_cases here : dir = s.currentDirectory
      · exact here ▸ bare
      · exact absurd (isDir_kept mounted runs.moves directory here) went
  | @written index size data file written =>
    have notFile : ∀ dir, s.IsDir dir → dir ≠ index := by
      rintro dir directory rfl
      exact file.not_isDir directory
    refine ⟨parent, linked.untouched mounted written.runs.moves (fun dir directory => ?_)
      (stays written.runs.moves notFile)⟩
    rintro rfl
    have type := directory.2.2
    rw [written.type, file.2.2] at type
    cases type
  | @lost index size file lost =>
    have notFile : ∀ dir, s.IsDir dir → dir ≠ index := by
      rintro dir directory rfl
      exact file.not_isDir directory
    refine ⟨parent, linked.untouched mounted lost.runs.moves (fun dir directory => ?_)
      (stays lost.runs.moves notFile)⟩
    rintro rfl
    have type := directory.2.2
    rw [lost.record] at type
    exact absurd (file.2.2.symm.trans type) (by decide)

/-- Every directory lies less deep than there are inodes. -/
theorem depth (linked : Linked s parent) (mounted : Mounted s) {dir : Nat}
    (directory : s.IsDir dir) : ∃ depth, depth < maxInodes ∧ parent^[depth] dir = rootInode := by
  -- A chain that meets no directory twice is shorter than the number of directories.
  have short := linked.grounded.exists_lt_card (linked.climbs mounted)
    (fun b inner => Finset.mem_range.mpr inner.1) directory
  rwa [Finset.card_range] at short

/-- Printing a directory some steps below the root ends. -/
theorem printPathToInode (linked : Linked s parent) (mounted : Mounted s)
    (catalogued : s.Catalogued) {depth bound dir : Nat} (directory : s.IsDir dir)
    (up : parent^[depth] dir = rootInode) (enough : depth < bound) :
    (Fs.printPathToInode bound dir s).isSome = true := by
  -- By induction on the depth: the recursion of the source goes up one step at a time.
  induction depth generalizing bound dir s with
  | zero =>
    obtain ⟨bound, rfl⟩ : ∃ b, bound = b + 1 := ⟨bound - 1, by omega⟩
    rw [Fs.printPathToInode, if_pos (show dir = rootInode from up)]
    rfl
  | succ depth ih =>
    obtain ⟨bound, rfl⟩ : ∃ b, bound = b + 1 := ⟨bound - 1, by omega⟩
    rw [Fs.printPathToInode]
    split
    · rfl
    obtain ⟨t, parentIs, read⟩ := linked.getParentInode mounted catalogued directory
    have holds := linked.climbs mounted dir directory
    have inTable := holds.1
    rw [parentIs]
    simp only [toNat_ofNat_inode inTable]
    rw [if_neg (by omega)]
    rw [Function.iterate_succ_apply] at up
    -- What was read changed nothing.
    have printed := ih (linked.quiet read.quiet) (read.quiet.mounted mounted)
      (catalogued.quiet read.quiet) ((read.isDir _).mpr holds) up (show depth < bound by omega)
    obtain ⟨⟨front, u⟩, printed⟩ := Option.isSome_iff_exists.mp printed
    rw [printed]
    -- Whether a name is found or not, this was the last call.
    simp only
    split <;> rfl

end Linked

section Runs

variable {s : SimpleFs} {parent : Nat → Nat}

/-- The inode of a removed working directory stays free, unless it is made again. -/
theorem fsStep_asleep (orderly : Orderly s) {call : FsCall} (reshapes : call.reshapes = true)
    (allowed : ¬ call.Resurrects s) (inTable : s.currentDirectory < maxInodes)
    (free : s.inodeUsed s.currentDirectory = false) :
    (fsStep s call).2.inodeUsed s.currentDirectory = false := by
  have mounted := orderly.healthy.mounted
  -- The working directory cannot be read, so no name is found in it.
  have unreadable : ¬ s.Readable s.currentDirectory := by
    rintro ⟨-, used, -⟩
    rw [free] at used
    cases used
  cases call with
  | create name =>
    have refused : ¬ s.Enterable name := fun enterable => unreadable enterable.readable
    obtain ⟨t, result, -, -, allocation⟩ := simplefsCreate_refused mounted refused
    change (simplefsCreate name s).2.inodeUsed _ = _
    rw [result, allocation _ inTable, free]
  | delete name =>
    have refused : ∀ index, ¬ s.Deletable name index := by
      intro index deletable
      obtain ⟨inode, slot, found, -⟩ := fileNamed_some deletable.named
      exact unreadable (readable_of_lookup found)
    obtain ⟨t, result, alike⟩ := simplefsDelete_refused mounted refused
    change (simplefsDelete name s).2.inodeUsed _ = _
    rw [result, alike.quiet.inodeUsed, free]
  | makeDir name =>
    have refused : ¬ s.Enterable name := fun enterable => unreadable enterable.readable
    obtain ⟨-, -, allocation⟩ := simplefsMakeDir_refused mounted refused
    have failed : (simplefsMakeDir name s).1 = false := by
      rw [Bool.eq_false_iff]
      exact fun success => allowed ⟨free, success⟩
    exact (allocation failed _ inTable).trans free
  | removeDir name =>
    have refused : ∀ index, ¬ s.Removable name index := by
      intro index removable
      obtain ⟨inode, slot, found, -⟩ := removable.found
      exact unreadable (readable_of_lookup found)
    have directories : ∀ inode, entryLeadsTo inode typeDirectory s = true →
        ∃ entries, Listed s inode.toNat entries := by
      intro inode leads
      obtain ⟨entries, listed, -⟩ := orderly.catalogued _ (entryLeadsTo_iff.mp leads)
      exact ⟨entries, listed⟩
    obtain ⟨t, result, alike⟩ := simplefsRemoveDir_refused mounted directories refused
    change (simplefsRemoveDir name s).2.inodeUsed _ = _
    rw [result, alike.quiet.inodeUsed, free]
  | changeDir name =>
    have quiet := simplefsChangeDir_quiet mounted name
    exact (quiet.inodeUsed _).trans free
  | _ => cases reshapes

/-- Where there is no directory the printing ends at once. -/
theorem printPathToInode_unreadable (mounted : Mounted s) {index : Nat}
    (refused : ¬ s.Readable index) : (printPathToInode maxInodes index s).isSome = true := by
  obtain ⟨transfers, find⟩ := findEntryInDirectory_sound mounted index dotDot
  -- No parent is found.
  rw [SimpleFs.lookup, if_neg refused] at find
  change (printPathToInode 64 index s).isSome = true
  rw [printPathToInode]
  split
  · rfl
  · unfold getParentInode
    rw [find]
    rfl

/-- A call that shapes directories keeps the links, unless blocks run out or one is made again. -/
theorem fsStep_linked (orderly : Orderly s) (linked : Linked s parent) {call : FsCall}
    (reshapes : call.reshapes = true) (allowed : ¬ call.Resurrects s)
    (clear : (fsStep s call).2.blocksExhausted = false) :
    ∃ parent', Linked (fsStep s call).2 parent' := by
  -- A step that is no removal shifts the tree, and a shift keeps the links.
  have mounted := orderly.healthy.mounted
  have asleep := fsStep_asleep orderly reshapes allowed
  have step : Shift s (fsStep s call).2 → ∃ parent', Linked (fsStep s call).2 parent' :=
    fun shift => linked.shift mounted shift clear asleep
  cases call with
  | create name => exact step (simplefsCreate_shift orderly.sane name)
  | delete name => exact step (simplefsDelete_shift orderly.sane name)
  | makeDir name => exact step (simplefsMakeDir_shift orderly.sane name)
  | removeDir name => exact step (simplefsRemoveDir_shift orderly.sane name)
  | changeDir name => exact ⟨parent, linked.quiet (simplefsChangeDir_quiet mounted name)⟩
  | _ => cases reshapes

/-- A fresh volume has links to its root only. -/
theorem Formatted.linked (formatted : Formatted s) : Linked s fun _ => rootInode := by
  have tree := formatted.grown.tree
  refine ⟨rfl, fun dir directory => ⟨_, tree.listed dir directory, ?_⟩, fun dir directory notRoot => ?_,
    fun _ => ⟨1, rfl⟩⟩
  · exact List.mem_cons_of_mem _ List.mem_cons_self
  · -- There is no other directory.
    obtain ⟨-, child, member, -⟩ := tree.forest.parent_lists directory notRoot
    cases member

/-- A run that never removes its working directory never makes it again, and has blocks enough. -/
theorem run_attended (sound : s.ata.Sound) (calls : List FsCall)
    (reshapes : ∀ call ∈ calls, call.reshapes = true)
    (allowed : ∀ before call after, calls = before ++ call :: after →
      ¬ call.RemovesItself (runState fsStep (simplefsFormat s).2 before)) :
    (runState fsStep (simplefsFormat s).2 calls).blocksExhausted = false ∧
    ∀ before call after, calls = before ++ call :: after →
      ¬ call.Resurrects (runState fsStep (simplefsFormat s).2 before) := by
  obtain ⟨t, format, formatted⟩ := simplefsFormat_sound sound
  rw [format] at allowed ⊢
  -- Every state reached stores a tree.
  have grown : ∀ before, before <+: calls →
      ∃ parent children, Grown (runState fsStep t before) parent children := by
    rintro before ⟨after, rfl⟩
    refine runState_invariant_along fsStep (fun s => ∃ parent children, Grown s parent children)
      (fun s call => call.reshapes = true ∧ ¬ call.RemovesItself s) ?_ ?_ ⟨_, _, formatted.grown⟩
    · rintro s call ⟨reshapes, allowed⟩ ⟨parent, children, grown⟩
      obtain ⟨parent', children', -, kept⟩ := fsStep_grown grown reshapes allowed
      exact ⟨parent', children', kept⟩
    · intro front call back split
      exact ⟨reshapes call (by simp [split]), allowed front call (back ++ after) (by simp [split])⟩
  obtain ⟨_, _, last⟩ := grown calls (List.prefix_refl _)
  refine ⟨last.clear, fun before call after split resurrects => ?_⟩
  obtain ⟨_, _, now⟩ := grown before ⟨call :: after, split.symm⟩
  cases call with
  | makeDir name =>
    -- The working directory is allocated.
    have used := now.tree.current.2.1
    rw [resurrects.1] at used
    cases used
  | _ => exact resurrects

/--
Printing the working directory ends.

In every state that a run of calls reaches the recursion is no deeper than there are inodes, if no
call of the run removes the working directory through its own entry. It is so after such a removal
too, as long as no directory takes the inode of the working one and blocks do not run out.
-/
theorem run_path_ends (s : SimpleFs) (calls : List FsCall) (sound : s.ata.Sound)
    (reshapes : ∀ call ∈ calls, call.reshapes = true)
    (allowed : (∀ before call after, calls = before ++ call :: after →
        ¬ call.RemovesItself (runState fsStep (simplefsFormat s).2 before)) ∨
      (runState fsStep (simplefsFormat s).2 calls).blocksExhausted = false ∧
        ∀ before call after, calls = before ++ call :: after →
          ¬ call.Resurrects (runState fsStep (simplefsFormat s).2 before)) :
    let t := runState fsStep (simplefsFormat s).2 calls
    (printPathToInode maxInodes t.currentDirectory t).isSome = true := by
  -- Induction on the run, the invariant is that every directory has a chain of parents to the root.
  intro t
  have lawful := allowed.elim (run_attended sound calls reshapes) id
  have start : ∃ u, simplefsFormat s = (true, u) ∧ Formatted u := simplefsFormat_sound sound
  obtain ⟨u, format, formatted⟩ := start
  rw [format] at lawful
  obtain ⟨clear, awake⟩ := lawful
  have same : t = runState fsStep u calls := congrArg (fun r : Bool × SimpleFs =>
    runState fsStep r.2 calls) format
  have stored : Orderly t ∧ ∃ parent, Linked t parent := by
    rw [same]
    refine runState_invariant_flag fsStep fsStep_mounted fsStep_exhausted
      (fun s => Orderly s ∧ ∃ parent, Linked s parent)
      (fun s call => call.reshapes = true ∧ ¬ call.Resurrects s) ?_ ?_ formatted.healthy.mounted
      ⟨formatted.orderly, _, formatted.linked⟩ clear
    · rintro s call ⟨reshapes, allowed⟩ ⟨orderly, parent, linked⟩ clear
      exact ⟨(fsStep_orderly orderly call).1, fsStep_linked orderly linked reshapes allowed clear⟩
    · exact fun before call after split =>
        ⟨reshapes call (by simp [split]), awake before call after split⟩
  obtain ⟨orderly, parent, linked⟩ := stored
  have mounted := orderly.healthy.mounted
  by_cases directory : t.IsDir t.currentDirectory
  · obtain ⟨depth, enough, up⟩ := linked.depth mounted directory
    exact linked.printPathToInode mounted orderly.catalogued directory up enough
  · exact printPathToInode_unreadable mounted (fun readable =>
      directory ⟨readable.1, readable.2.1, readable.2.2.1⟩)

end Runs

/-- A directory is made, entered and removed under the name `.`, and then another one in the root. -/
theorem run_path_ends_blank :
    let t := runState fsStep (simplefsFormat SimpleFs.blank).2
      [.makeDir ⟨[100], by decide⟩, .changeDir ⟨[100], by decide⟩, .removeDir dot,
        .changeDir slash, .makeDir ⟨[101], by decide⟩, .changeDir ⟨[101], by decide⟩]
    (printPathToInode maxInodes t.currentDirectory t).isSome = true := by
  refine run_path_ends _ _ ⟨rfl, fun _ => rfl⟩ (by decide) (Or.inr ⟨by decide +kernel, ?_⟩)
  generalize listed : ([.makeDir ⟨[100], by decide⟩, .changeDir ⟨[100], by decide⟩, .removeDir dot,
    .changeDir slash, .makeDir ⟨[101], by decide⟩, .changeDir ⟨[101], by decide⟩] : List FsCall) = calls
  -- The working directory is missing only where it was just removed.
  have awake : ∀ k, k < 6 → (runState fsStep (simplefsFormat SimpleFs.blank).2
      (calls.take k)).inodeUsed (runState fsStep (simplefsFormat SimpleFs.blank).2
        (calls.take k)).currentDirectory = true ∨ k = 3 := by
    subst listed
    decide +kernel
  intro before call after split resurrects
  have place : before = calls.take before.length := by rw [split, List.take_left]
  have inside : before.length < 6 := by
    have length := congrArg List.length split
    rw [← listed] at length
    simp only [List.length_cons, List.length_nil, List.length_append] at length
    omega
  rcases awake before.length inside with used | three
  · cases call with
    | makeDir name =>
      obtain ⟨free, -⟩ := resurrects
      rw [← place, free] at used
      cases used
    | _ => exact resurrects
  · -- There the root is entered.
    have there : calls[3]? = some call := by
      rw [split, ← three, List.getElem?_append_right (Nat.le_refl _), Nat.sub_self]
      rfl
    rw [← listed] at there
    cases there
    exact resurrects

/-- A directory that is its own parent prints without end. -/
theorem printPathToInode_loops {s : SimpleFs} {index : Nat} (mounted : Mounted s)
    (inTable : index < maxInodes) (notRoot : index ≠ rootInode) {slot : Nat}
    (self : s.lookup index dotDot = some (UInt32.ofNat index, slot)) (bound : Nat) :
    printPathToInode bound index s = none := by
  -- Induction on the bound: the parent of the directory is found to be itself.
  induction bound generalizing s with
  | zero => rfl
  | succ bound ih =>
    obtain ⟨transfers, find⟩ := findEntryInDirectory_sound mounted index dotDot
    have quiet : Quiet s (s.scannedDir index transfers) := Quiet.scanned s _ _
    have number : (UInt32.ofNat index).toNat = index := toNat_ofNat_inode inTable
    rw [printPathToInode, if_neg notRoot]
    unfold getParentInode
    rw [find, self]
    simp only [number]
    rw [if_neg (by omega), ih (quiet.mounted mounted)]
    rw [lookup_scannedDir, self]

/--
Printing the working directory may never end.

A directory is made, entered and removed under the name `.`. The next directory made takes the
inode of the working directory, is its own parent, and so is printed by an endless recursion.
-/
theorem removed_directory_path_endless :
    ∃ (s : SimpleFs) (calls : List FsCall), s.ata.Sound ∧
      (∀ call ∈ calls, call.reshapes = true) ∧
      let t := runState fsStep (simplefsFormat s).2 calls
      ∀ bound, printPathToInode bound t.currentDirectory t = none := by
  -- The removed inode is allocated again for the new directory, which becomes its own parent.
  let calls : List FsCall := [.makeDir ⟨[100], by decide⟩, .changeDir ⟨[100], by decide⟩,
    .removeDir dot, .makeDir ⟨[101], by decide⟩]
  refine ⟨SimpleFs.blank, calls, ⟨rfl, fun _ => rfl⟩, by decide, ?_⟩
  have current : (runState fsStep (simplefsFormat SimpleFs.blank).2 calls).currentDirectory = 1 := by
    decide +kernel
  have self : (runState fsStep (simplefsFormat SimpleFs.blank).2 calls).lookup 1 dotDot =
      some (UInt32.ofNat 1, 1) := by
    decide +kernel
  have mounted := (run_healthy (s := SimpleFs.blank) ⟨rfl, fun _ => rfl⟩ calls).mounted
  intro t bound
  change printPathToInode bound
    (runState fsStep (simplefsFormat SimpleFs.blank).2 calls).currentDirectory _ = none
  rw [current]
  exact printPathToInode_loops mounted (by decide) (by decide) self bound

end MyOS.Fs
