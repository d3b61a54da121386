import MyOS.Fs.Growth

/-! Paths: how the working directory is printed, and what the text says. -/

namespace MyOS.Fs

/-- `get_parent_inode`: the parent of a directory is what its `..` names. -/
def getParentInode (dir : Nat) (s : SimpleFs) : Option UInt32 × SimpleFs :=
  match findEntryInDirectory dir dotDot s with
  | (none, s) => (none, s)
  | (some (inode, _), s) => (some inode, s)

/-- `find_name_for_inode`: the first ordinary name under which a directory lists an inode. -/
def findNameForInode (dir child : Nat) (s : SimpleFs) : Option (List UInt8) × SimpleFs :=
  match readDirectoryEntries dir s with
  | (none, s) => (none, s)
  | (some count, s) =>
    match (List.range count).find? fun slot =>
        entryInode s.directoryScratch slot == UInt32.ofNat child &&
          !entrySpecial s.directoryScratch slot with
    | none => (none, s)
    -- `copy_name` cuts the name to leave room for the terminator.
    | some slot => (some ((slotName s.directoryScratch.get slot).take (nameCapacity - 1)), s)

/--
`print_path_to_inode`: what is printed, if the recursion is no deeper than a bound.

The source has no bound. It recurses into the parent before it prints anything of its own.
-/
def printPathToInode : Nat → Nat → SimpleFs → Option (List UInt8 × SimpleFs)
  | 0, _, _ => none
  | bound + 1, index, s =>
    if index = rootInode then some (slash.chars, s)
    else
      match getParentInode index s with
      | (none, s) => some (slash.chars, s)
      | (some parent, s) =>
        if parent.toNat ≥ maxInodes then some (slash.chars, s)
        else
          match printPathToInode bound parent.toNat s with
          | none => none
          | some (printed, s) =>
            match findNameForInode parent.toNat index s with
            | (none, s) => some (printed, s)
            | (some name, s) =>
              let separator := if parent.toNat = rootInode then [] else slash.chars
              some (printed ++ separator ++ name, s)

/-- The path of an inode as it is printed, if printing ends within a depth of all inodes. -/
def SimpleFs.printedPath (s : SimpleFs) (index : Nat) : Option (List UInt8) :=
  (printPathToInode maxInodes index s).map Prod.fst

/-- The name under which an inode is listed among some children. -/
def nameAmong (children : List (Nat × CString)) (index : Nat) : List UInt8 :=
  ((children.find? fun child => child.1 == index).map fun child => child.2.chars).getD []

/-- The names on the way down to a directory that stands a number of steps below the root. -/
def route (parent : Nat → Nat) (children : Nat → List (Nat × CString)) :
    Nat → Nat → List (List UInt8)
  | 0, _ => []
  | depth + 1, dir =>
    if dir = rootInode then []
    else route parent children depth (parent dir) ++ [nameAmong (children (parent dir)) dir]

/-- The text of a path: a slash in front of every name, and a lone slash for the root. -/
def pathText (names : List (List UInt8)) : List UInt8 :=
  if names = [] then slash.chars else names.flatMap fun name => slash.chars ++ name

/-- A path grows at its end. -/
theorem pathText_append (names : List (List UInt8)) (name : List UInt8) :
    pathText (names ++ [name]) =
      pathText names ++ (if names = [] then [] else slash.chars) ++ name := by
  -- The text of each name is its own, only the empty path is written otherwise.
  unfold pathText
  rw [if_neg (by simp), List.flatMap_append, List.flatMap_singleton]
  by_cases none : names = []
  · simp [none]
  · rw [if_neg none, if_neg none, List.append_assoc]

/-- Different sequences of names, none of them empty or with a slash, make different texts. -/
theorem pathText_injective {names names' : List (List UInt8)}
    (clean : ∀ name ∈ names, name ≠ [] ∧ 47 ∉ name)
    (clean' : ∀ name ∈ names', name ≠ [] ∧ 47 ∉ name)
    (same : pathText names = pathText names') : names = names' := by
  -- A lone slash is the text of no names only.
  have lone : ∀ {names : List (List UInt8)}, (∀ name ∈ names, name ≠ [] ∧ 47 ∉ name) →
      pathText names = slash.chars → names = [] := by
    intro names clean text
    by_contra some
    obtain ⟨name, rest, rfl⟩ := List.exists_cons_of_ne_nil some
    rw [pathText, if_neg some, List.flatMap_cons] at text
    have empty : name = [] := by
      have := congrArg List.length text
      simp [slash] at this
      exact this.1
    exact (clean name List.mem_cons_self).1 empty
  by_cases none : names = []
  · rw [none] at same ⊢
    exact (lone clean' same.symm).symm
  by_cases none' : names' = []
  · rw [none'] at same
    exact absurd (lone clean same) none
  · rw [pathText, if_neg none, pathText, if_neg none'] at same
    exact flatMap_separator_injective (fun name member => (clean name member).2)
      (fun name member => (clean' name member).2) same

/-- A call that only read leaves directories directories. -/
theorem Alike.isDir {s t : SimpleFs} (alike : Alike s t) (index : Nat) :
    t.IsDir index ↔ s.IsDir index := by
  -- The allocation and the types are those of before.
  unfold SimpleFs.IsDir
  rw [alike.quiet.inodeUsed, alike.quiet.inodeTable]

/-- The entry `..` of a directory is found, and read, if only one has this name. -/
theorem Listed.getParentInode {s : SimpleFs} {dir : Nat} {entries : List Entry} {inode : UInt32}
    (listed : Listed s dir entries) (mounted : Mounted s) (member : (inode, dotDot) ∈ entries)
    (only : ∀ entry ∈ entries, entry.2 = dotDot → entry.1 = inode) :
    ∃ t, Fs.getParentInode dir s = (some inode, t) ∧ Alike s t := by
  obtain ⟨transfers, find⟩ := findEntryInDirectory_sound mounted dir dotDot
  have read : Alike s (s.scannedDir dir transfers) := Alike.scanned s _ _
  unfold Fs.getParentInode
  rw [find]
  cases found : s.lookup dir dotDot with
  | none => exact absurd rfl ((listed.lookup_none dotDot).mp found _ member)
  | some entry =>
    -- What is found under the name is an entry that bears it.
    obtain ⟨other, slot⟩ := entry
    have same := only _ (List.mem_of_getElem? (listed.lookup_some found)) rfl
    exact ⟨_, by rw [show other = inode from same], read⟩

section Printing

variable {s : SimpleFs} {parent : Nat → Nat} {children : Nat → List (Nat × CString)}

namespace Tree

/-- In a tree the entry `..` of a directory is found, and names its parent. -/
theorem getParentInode (tree : Tree s parent children) {dir : Nat} (directory : s.IsDir dir) :
    ∃ t, Fs.getParentInode dir s = (some (UInt32.ofNat (parent dir)), t) ∧ Alike s t := by
  refine (tree.listed dir directory).getParentInode tree.mounted (by simp [dirEntries]) ?_
  intro entry member isDotDot
  rcases List.mem_cons.mp member with rfl | rest
  · cases isDotDot
  · rcases List.mem_cons.mp rest with rfl | other
    · rfl
    · -- No child is called `..`.
      obtain ⟨child, listed, rfl⟩ := List.mem_map.mp other
      exact absurd isDotDot (validName.ordinary (tree.names dir directory child listed)).2

/-- In a tree the name of a directory is found in its parent. -/
theorem findNameForInode (tree : Tree s parent children) {dir : Nat} {child : Nat × CString}
    (directory : s.IsDir dir) (member : child ∈ children dir) :
    ∃ t, Fs.findNameForInode dir child.1 s = (some child.2.chars, t) ∧ Alike s t := by
  have listed := tree.listed dir directory
  obtain ⟨transfers, load⟩ := readDirectoryEntries_sound tree.mounted listed.readable
  have read : Alike s (s.scannedDir dir transfers) := Alike.scanned s _ _
  have scratch : (s.scannedDir dir transfers).directoryScratch = s.loaded dir := rfl
  -- A slot is a match exactly if its entry is an ordinary one of the inode.
  have matches_iff : ∀ {slot : Nat}
      (inside : slot < (dirEntries dir (parent dir) (children dir)).length),
      (entryInode (s.loaded dir) slot == UInt32.ofNat child.1 &&
        !entrySpecial (s.loaded dir) slot) = true ↔
      (dirEntries dir (parent dir) (children dir))[slot].1 = UInt32.ofNat child.1 ∧
        (dirEntries dir (parent dir) (children dir))[slot].2 ≠ dot ∧
        (dirEntries dir (parent dir) (children dir))[slot].2 ≠ dotDot := by
    intro slot inside
    have holds := listed.loaded inside
    have inode : entryInode (s.loaded dir) slot = _ := holds.inode
    rw [Bool.and_eq_true, beq_iff_eq, inode, Bool.not_eq_true', entrySpecial, Bool.or_eq_false_iff,
      ← Bool.not_eq_true, ← Bool.not_eq_true]
    exact and_congr Iff.rfl (and_congr (not_congr (holds.named_iff dot))
      (not_congr (holds.named_iff dotDot)))
  have childUsed := tree.forest.childUsed dir directory
  unfold Fs.findNameForInode
  rw [load]
  simp only [scratch, listed.count]
  cases search : (List.range (dirEntries dir (parent dir) (children dir)).length).find? fun slot =>
      entryInode (s.loaded dir) slot == UInt32.ofNat child.1 && !entrySpecial (s.loaded dir) slot with
  | none =>
    -- The slot of the child would have matched.
    obtain ⟨place, inside, at_⟩ := List.getElem_of_mem member
    have within : place + 2 < (dirEntries dir (parent dir) (children dir)).length := by
      simp only [dirEntries, List.length_cons, List.length_map]
      omega
    have stored : (dirEntries dir (parent dir) (children dir))[place + 2] = childEntry child := by
      simp [dirEntries, at_]
    have missed := List.find?_eq_none.mp search (place + 2) (List.mem_range.mpr within)
    rw [matches_iff within, stored] at missed
    exact absurd ⟨rfl, validName.ordinary (tree.names dir directory child member)⟩ missed
  | some slot =>
    have inside := List.mem_range.mp (List.mem_of_find?_eq_some search)
    have matched := (matches_iff inside).mp (@List.find?_some _ (fun slot =>
      entryInode (s.loaded dir) slot == UInt32.ofNat child.1 &&
        !entrySpecial (s.loaded dir) slot) _ _ search)
    have holds := listed.loaded inside
    obtain ⟨place, inPlace, found⟩ := List.getElem_of_mem member
    refine ⟨_, ?_, read⟩
    rcases dirEntries_cases (List.getElem?_eq_getElem inside) with ⟨-, same⟩ | ⟨-, same⟩ |
      ⟨other, sibling, -, at_, same⟩
    · rw [same] at matched
      exact absurd rfl matched.2.1
    · rw [same] at matched
      exact absurd rfl matched.2.2
    · -- An inode is listed in one place only, so the entry found is that of the child.
      have siblingIs : sibling = child := by
        have inodes := matched.1
        rw [same] at inodes
        have equal := ofNat_inj_inode (childUsed sibling (List.mem_of_getElem? at_)).1
          (childUsed child member).1 inodes
        obtain ⟨-, rfl⟩ := tree.forest.once directory directory at_
          ((List.getElem?_eq_getElem inPlace).trans (congrArg some found)) equal
        rw [List.getElem?_eq_getElem inPlace, found] at at_
        exact (Option.some.inj at_).symm
      have short := validName.short (tree.names dir directory child member)
      have name : Fs.slotName (s.loaded dir).get slot = child.2.chars := by
        rw [holds.slotName, same, siblingIs]
        rfl
      simp only [name]
      rw [List.take_of_length_le (by omega)]

/-- The name of an inode among the children it belongs to. -/
theorem nameAmong (tree : Tree s parent children) {dir index : Nat} {child : Nat × CString}
    (directory : s.IsDir dir) (member : child ∈ children dir) (is : child.1 = index) :
    Fs.nameAmong (children dir) index = child.2.chars := by
  -- The index occurs once among the children, so the search finds this child.
  subst is
  unfold Fs.nameAmong
  cases search : (children dir).find? fun other => other.1 == child.1 with
  | none =>
    have missed := List.find?_eq_none.mp search child member
    exact absurd (beq_self_eq_true child.1) missed
  | some other =>
    have same : other.1 = child.1 := by simpa using List.find?_some search
    obtain ⟨k, inside, at_⟩ := List.getElem_of_mem member
    obtain ⟨l, inside', at_'⟩ := List.getElem_of_mem (List.mem_of_find?_eq_some search)
    obtain ⟨-, rfl⟩ := tree.forest.once directory directory
      ((List.getElem?_eq_getElem inside').trans (congrArg some at_'))
      ((List.getElem?_eq_getElem inside).trans (congrArg some at_)) same
    rw [← at_, ← at_']
    rfl

/-- The route to a directory is empty exactly for the root. -/
theorem route_eq_nil {depth dir : Nat} (up : parent^[depth] dir = rootInode) :
    route parent children depth dir = [] ↔ dir = rootInode := by
  -- Only the empty route stops at the root at once.
  cases depth with
  | zero => exact ⟨fun _ => up, fun _ => rfl⟩
  | succ depth =>
    unfold route
    split
    · rename_i isRoot
      exact ⟨fun _ => isRoot, fun _ => rfl⟩
    · rename_i notRoot
      simp [notRoot]

/-- A directory some steps below the root prints as the route to it. -/
theorem printPathToInode (tree : Tree s parent children) {depth bound dir : Nat}
    (directory : s.IsDir dir) (up : parent^[depth] dir = rootInode) (enough : depth < bound) :
    ∃ t, Fs.printPathToInode bound dir s =
      some (pathText (route parent children depth dir), t) ∧ Alike s t := by
  -- The recursion of the source goes up one step at a time.
  induction depth generalizing bound dir s with
  | zero =>
    obtain ⟨bound, rfl⟩ : ∃ b, bound = b + 1 := ⟨bound - 1, by omega⟩
    refine ⟨s, ?_, Alike.refl s⟩
    rw [Fs.printPathToInode, if_pos (show dir = rootInode from up)]
    rfl
  | succ depth ih =>
    obtain ⟨bound, rfl⟩ : ∃ b, bound = b + 1 := ⟨bound - 1, by omega⟩
    rw [Fs.printPathToInode]
    by_cases isRoot : dir = rootInode
    · refine ⟨s, ?_, Alike.refl s⟩
      rw [if_pos isRoot, route, if_pos isRoot]
      rfl
    rw [if_neg isRoot]
    obtain ⟨holds, child, member, same⟩ := tree.forest.parent_lists directory isRoot
    obtain ⟨t, parentIs, first⟩ := tree.getParentInode directory
    have number : (UInt32.ofNat (parent dir)).toNat = parent dir := toNat_ofNat_inode holds.1
    have inTable := holds.1
    rw [parentIs]
    simp only [number]
    rw [if_neg (by omega)]
    -- What was read so far changed neither the tree nor its parts.
    have treeT := tree.alike first
    have holdsT : t.IsDir (parent dir) := (first.isDir _).mpr holds
    rw [Function.iterate_succ_apply] at up
    obtain ⟨u, printed, second⟩ := ih treeT holdsT up (show depth < bound by omega)
    rw [printed]
    simp only
    have treeU := treeT.alike second
    obtain ⟨v, named, third⟩ :=
      treeU.findNameForInode ((second.isDir _).mpr holdsT) member
    rw [same] at named
    rw [named]
    refine ⟨v, ?_, (first.trans second).trans third⟩
    have name := tree.nameAmong holds member same
    simp only [route, if_neg isRoot, name, pathText_append, route_eq_nil up]

end Tree

end Printing

/-- A tree whose parent links all lead to the root, as runs leave it. -/
def Rooted (s : SimpleFs) (parent : Nat → Nat) (children : Nat → List (Nat × CString)) : Prop :=
  Grown s parent children ∧ Grounded rootInode parent

section Rooted

variable {s : SimpleFs} {parent parent' : Nat → Nat}
  {children children' : Nat → List (Nat × CString)}

/-- Whatever a call does to a tree, the parent links still lead to the root. -/
theorem Regrown.grounded {entered : Option CString}
    (regrown : Regrown s entered parent children parent' children')
    (tree : Tree s parent children) (grounded : Grounded rootInode parent) :
    Grounded rootInode parent' := by
  cases regrown with
  | kept => exact grounded
  | grown fresh enterable named =>
    -- An inode that was not in use was no directory.
    exact grounded.update tree.climbs tree.current fun directory =>
      fresh ⟨directory.1, directory.2.1⟩
  | pruned place => exact grounded

namespace Rooted

/-- Every directory lies less deep than there are inodes. -/
theorem depth (rooted : Rooted s parent children) {dir : Nat} (directory : s.IsDir dir) :
    ∃ depth, depth < maxInodes ∧ parent^[depth] dir = rootInode := by
  -- A chain that meets no directory twice is shorter than the number of directories.
  have short := rooted.2.exists_lt_card rooted.1.tree.climbs
    (fun b inner => Finset.mem_range.mpr inner.1) directory
  rwa [Finset.card_range] at short

/-- Every directory prints as some route to it, in a recursion no deeper than there are inodes. -/
theorem printedPath (rooted : Rooted s parent children) {dir : Nat} (directory : s.IsDir dir) :
    ∃ depth, parent^[depth] dir = rootInode ∧
      s.printedPath dir = some (pathText (route parent children depth dir)) := by
  -- The recursion climbs the chain, and there are more turns than steps.
  obtain ⟨depth, enough, up⟩ := rooted.depth directory
  obtain ⟨t, printed, -⟩ := rooted.1.tree.printPathToInode directory up enough
  refine ⟨depth, up, ?_⟩
  rw [SimpleFs.printedPath, printed, Option.map_some]

end Rooted

/-- A call that shapes the tree, and does not remove the working directory, keeps it rooted. -/
theorem fsStep_rooted (rooted : Rooted s parent children) {call : FsCall}
    (reshapes : call.reshapes = true) (allowed : ¬ call.RemovesItself s) :
    ∃ parent' children', Regrown s call.enters parent children parent' children' ∧
      Rooted (fsStep s call).2 parent' children' := by
  -- What grows the tree keeps every chain on the ground.
  obtain ⟨parent', children', regrown, grown⟩ := fsStep_grown rooted.1 reshapes allowed
  exact ⟨parent', children', regrown, grown, regrown.grounded rooted.1.tree rooted.2⟩

end Rooted

/-- The names in every directory are all different, and none has a slash in it. -/
def Labelled (children : Nat → List (Nat × CString)) : Prop :=
  ∀ dir, ((children dir).map Prod.snd).Nodup ∧ ∀ child ∈ children dir, 47 ∉ child.2.chars

section Labelled

variable {s : SimpleFs} {parent parent' : Nat → Nat}
  {children children' : Nat → List (Nat × CString)}

/-- Whatever a call does to a tree, names stay different, if the new one has no slash in it. -/
theorem Regrown.labelled {entered : Option CString}
    (regrown : Regrown s entered parent children parent' children')
    (tree : Tree s parent children)
    (plain : ∀ name, entered = some name → s.Enterable name → 47 ∉ name.chars)
    (labelled : Labelled children) : Labelled children' := by
  cases regrown with
  | kept => exact labelled
  | @grown node name fresh enterable named =>
    intro dir
    have current := tree.current
    by_cases here : dir = s.currentDirectory
    · subst here
      rw [Forest.inserted, Function.update_self]
      obtain ⟨nodup, clean⟩ := labelled s.currentDirectory
      -- The name was looked up and not found.
      have absent := ((tree.listed _ current).lookup_none name).mp enterable.absent
      have new : name ∉ (children s.currentDirectory).map Prod.snd := by
        intro member
        obtain ⟨child, listed, same⟩ := List.mem_map.mp member
        refine absent (childEntry child) ?_ same
        exact List.mem_cons_of_mem _ (List.mem_cons_of_mem _ (List.mem_map_of_mem listed))
      refine ⟨?_, ?_⟩
      · rw [List.map_append, List.map_singleton]
        refine List.nodup_append.mpr ⟨nodup, List.nodup_singleton _, fun a old b added same => ?_⟩
        rw [same, List.mem_singleton.mp added] at old
        exact new old
      · intro child member
        rcases List.mem_append.mp member with old | added
        · exact clean child old
        · rw [List.mem_singleton.mp added]
          exact plain name named enterable
    · rw [Forest.inserted, Function.update_of_ne here]
      by_cases fresh : dir = node
      · rw [fresh, Function.update_self]
        refine ⟨List.nodup_nil, fun child member => ?_⟩
        cases member
      · rw [Function.update_of_ne fresh]
        exact labelled dir
  | pruned place =>
    intro dir
    by_cases here : dir = s.currentDirectory
    · subst here
      obtain ⟨nodup, clean⟩ := labelled s.currentDirectory
      rw [Forest.erased, Function.update_self]
      refine ⟨?_, fun child member => clean child (List.mem_of_mem_eraseIdx member)⟩
      rw [← List.eraseIdx_map]
      exact nodup.eraseIdx place
    · rw [Forest.erased, Function.update_of_ne here]
      exact labelled dir

/-- The names on the way to a directory are neither empty nor have a slash in them. -/
theorem Tree.route_clean (tree : Tree s parent children) (labelled : Labelled children)
    {depth dir : Nat} (directory : s.IsDir dir) :
    ∀ name ∈ route parent children depth dir, name ≠ [] ∧ 47 ∉ name := by
  -- Induction on the depth: the last name is that of a child, the others lead to its parent.
  induction depth generalizing dir with
  | zero => exact nofun
  | succ depth ih =>
    intro name member
    unfold route at member
    by_cases isRoot : dir = rootInode
    · rw [if_pos isRoot] at member
      cases member
    rw [if_neg isRoot] at member
    obtain ⟨holds, child, listed, same⟩ := tree.forest.parent_lists directory isRoot
    rcases List.mem_append.mp member with above | own
    · exact ih holds name above
    · rw [List.mem_singleton.mp own, tree.nameAmong holds listed same]
      refine ⟨?_, (labelled _).2 child listed⟩
      have valid := tree.names _ holds child listed
      simp only [validName, Bool.and_eq_true, Bool.not_eq_true', List.isEmpty_eq_false_iff] at valid
      exact valid.1.1.1

/-- Two directories with the same names on the way to them are one. -/
theorem Tree.route_injective (tree : Tree s parent children) (labelled : Labelled children)
    {depth depth' dir dir' : Nat} (directory : s.IsDir dir) (directory' : s.IsDir dir')
    (up : parent^[depth] dir = rootInode) (up' : parent^[depth'] dir' = rootInode)
    (same : route parent children depth dir = route parent children depth' dir') : dir = dir' := by
  induction depth generalizing dir dir' depth' with
  | zero =>
    have none := same.symm
    rw [(route_eq_nil up).mpr up] at none
    exact (show dir = rootInode from up).trans ((route_eq_nil up').mp none).symm
  | succ depth ih =>
    by_cases isRoot : dir = rootInode
    · rw [(route_eq_nil up).mpr isRoot] at same
      exact isRoot.trans ((route_eq_nil up').mp same.symm).symm
    have notRoot' : dir' ≠ rootInode := by
      intro isRoot'
      rw [(route_eq_nil up').mpr isRoot'] at same
      exact isRoot ((route_eq_nil up).mp same)
    obtain ⟨depth', rfl⟩ : ∃ d, depth' = d + 1 := by
      cases depth' with
      | zero => exact absurd up' notRoot'
      | succ d => exact ⟨d, rfl⟩
    -- The ways up are the same, so both stand in one directory, under one name.
    rw [route, route, if_neg isRoot, if_neg notRoot'] at same
    obtain ⟨above, own⟩ := List.append_inj' same rfl
    obtain ⟨holds, child, listed, childIs⟩ := tree.forest.parent_lists directory isRoot
    obtain ⟨holds', child', listed', childIs'⟩ := tree.forest.parent_lists directory' notRoot'
    rw [Function.iterate_succ_apply] at up up'
    have parents := ih holds holds' up up' above
    have names := List.singleton_inj.mp own
    rw [tree.nameAmong holds listed childIs, tree.nameAmong holds' listed' childIs'] at names
    rw [← parents] at listed'
    have one := List.inj_on_of_nodup_map (labelled (parent dir)).1 listed listed'
      (CString.ext_chars names)
    rw [← childIs, ← childIs', one]

/-- In a tree with different names, different directories print differently. -/
theorem Rooted.printedPath_injective (rooted : Rooted s parent children)
    (labelled : Labelled children) {dir dir' : Nat} (directory : s.IsDir dir)
    (directory' : s.IsDir dir') :
    ∃ text text', s.printedPath dir = some text ∧ s.printedPath dir' = some text' ∧
      (text = text' → dir = dir') := by
  -- Equal texts have equal names, and equal names lead to the same directory.
  have tree := rooted.1.tree
  obtain ⟨depth, up, printed⟩ := rooted.printedPath directory
  obtain ⟨depth', up', printed'⟩ := rooted.printedPath directory'
  refine ⟨_, _, printed, printed', fun same => ?_⟩
  exact tree.route_injective labelled directory directory' up up'
    (pathText_injective (tree.route_clean labelled directory)
      (tree.route_clean labelled directory') same)

end Labelled

/-- The calls that make directories and walk among them. -/
def FsCall.walks : FsCall → Bool
  | .makeDir _ => true
  | .changeDir _ => true
  | _ => false

/-- The call gives no directory a name with a slash in it, which nothing checks for. -/
def FsCall.Plain (s : SimpleFs) : FsCall → Prop
  -- A name that cannot be entered is refused, whatever is in it.
  | .makeDir name => s.Enterable name → 47 ∉ name.chars
  | _ => True

/--
Printed paths identify directories.

In every state that a run of calls reaches, none of which makes a directory whose name has a slash
in it, every directory prints as some text, and no two of them as the same.
-/
theorem run_paths_distinct (s : SimpleFs) (calls : List FsCall) (sound : s.ata.Sound)
    (walks : ∀ call ∈ calls, call.walks = true)
    (plain : ∀ before call after, calls = before ++ call :: after →
      call.Plain (runState fsStep (simplefsFormat s).2 before)) :
    let t := runState fsStep (simplefsFormat s).2 calls
    ∀ dir dir', t.IsDir dir → t.IsDir dir' →
      ∃ text text', t.printedPath dir = some text ∧ t.printedPath dir' = some text' ∧
        (text = text' → dir = dir') := by
  intro t dir dir' directory directory'
  obtain ⟨u, format, formatted⟩ := simplefsFormat_sound sound
  have stored : ∃ parent children, Rooted t parent children ∧ Labelled children := by
    refine runState_invariant_along fsStep
      (fun s => ∃ parent children, Rooted s parent children ∧ Labelled children)
      (fun s call => call.walks = true ∧ call.Plain s) ?_
      (fun before call after split => ⟨walks call (by simp [split]), plain before call after split⟩) ?_
    · rintro s call ⟨walks, plain⟩ ⟨parent, children, rooted, labelled⟩
      -- Neither of the two calls removes anything.
      have lawful : call.reshapes = true ∧ ¬ call.RemovesItself s ∧
          ∀ name, call.enters = some name → s.Enterable name → 47 ∉ name.chars := by
        cases call with
        | makeDir name =>
          refine ⟨rfl, id, fun name' same => ?_⟩
          rw [← Option.some.inj same]
          exact plain
        | changeDir name => exact ⟨rfl, id, nofun⟩
        | _ => cases walks
      obtain ⟨reshapes, allowed, clean⟩ := lawful
      obtain ⟨parent', children', regrown, kept⟩ := fsStep_rooted rooted reshapes allowed
      exact ⟨parent', children', kept, regrown.labelled rooted.1.tree clean labelled⟩
    · rw [format]
      exact ⟨_, _, ⟨formatted.grown, fun _ => ⟨1, rfl⟩⟩, fun _ => ⟨List.nodup_nil, nofun⟩⟩
  obtain ⟨parent, children, rooted, labelled⟩ := stored
  exact rooted.printedPath_injective labelled directory directory'

/-- The root and a directory made in it print differently. -/
theorem run_paths_distinct_blank :
    let t := runState fsStep (simplefsFormat SimpleFs.blank).2 [.makeDir ⟨[100], by decide⟩]
    ∃ text text', t.printedPath 0 = some text ∧ t.printedPath 1 = some text' ∧
      (text = text' → 0 = 1) := by
  refine run_paths_distinct SimpleFs.blank _ ⟨rfl, fun _ => rfl⟩ (by decide) ?_ 0 1 ?_ ?_
  · -- The name of the one directory that is made has no slash in it.
    intro before call after split
    obtain rfl : call = .makeDir ⟨[100], by decide⟩ := by
      have member : call ∈ before ++ call :: after := by simp
      rw [← split] at member
      exact List.mem_singleton.mp member
    exact fun _ => by decide
  · exact ⟨by decide, by decide +kernel, by decide +kernel⟩
  · exact ⟨by decide, by decide +kernel, by decide +kernel⟩

/--
Two directories print as the same path.

One is called `a/b` and stands in the root, the other is called `b` and stands in a directory
called `a`.
-/
theorem slash_in_name_ambiguous :
    ∃ (s : SimpleFs) (calls : List FsCall), s.ata.Sound ∧ (∀ call ∈ calls, call.walks = true) ∧
      let t := runState fsStep (simplefsFormat s).2 calls
      ∃ dir dir' text, t.IsDir dir ∧ t.IsDir dir' ∧ dir ≠ dir' ∧
        t.printedPath dir = some text ∧ t.printedPath dir' = some text := by
  -- The name with a slash prints like the two names it is made of.
  refine ⟨SimpleFs.blank, [.makeDir ⟨[97, 47, 98], by decide⟩, .makeDir ⟨[97], by decide⟩,
    .changeDir ⟨[97], by decide⟩, .makeDir ⟨[98], by decide⟩], ⟨rfl, fun _ => rfl⟩, by decide, 1, 3,
    [47, 97, 47, 98], ?_, ?_, by decide, ?_, ?_⟩
  · exact ⟨by decide, by decide +kernel, by decide +kernel⟩
  · exact ⟨by decide, by decide +kernel, by decide +kernel⟩
  · decide +kernel
  · decide +kernel

end MyOS.Fs
