import MyOS.Mm.VmmLaws

/-! How address spaces are made and taken apart again. -/

namespace MyOS.Mm

variable {ρ : Type} {owner owner' : Owners ρ} {s t : Vmm} {f d d' i v v' : Nat}
  {dir virtAddr physAddr flags word : UInt32}

/-- The round of the loop of `vmm_create_address_space` that copies an entry of the kernel. -/
def copyEntry (newPageDirectoryPhys : UInt32) (s : Vmm) (i : Nat) : Vmm :=
  s.setEntry newPageDirectoryPhys i (s.entry s.kernelPageDirectoryPhys i)

/-- A state that differs from another in one page of memory only. -/
structure PageChanged (s t : Vmm) (f : Nat) : Prop where
  rest : t = { s with memory := t.memory }
  outside : ∀ k, k < f * 4096 ∨ f * 4096 + 4096 ≤ k → t.memory k = s.memory k

/-- Two changes of one page are one change of it. -/
theorem PageChanged.trans {u : Vmm} (first : PageChanged s t f) (second : PageChanged t u f) :
    PageChanged s u f := by
  -- Outside the page neither of them changes a byte.
  refine ⟨?_, fun k apart => (second.outside k apart).trans (first.outside k apart)⟩
  have rest := second.rest
  rw [first.rest] at rest
  exact rest

/-- The other pages are as they were. -/
theorem PageChanged.samePage (changed : PageChanged s t f) {g : Nat} (apart : g ≠ f) :
    s.memory.SamePage t.memory g :=
  fun _ _ => changed.outside _ (by omega)

/-- Storing an entry changes the page of its table. -/
theorem setEntry_pageChanged (at_ : dir.toNat = f * 4096) (inside : i < 1024) (word : UInt32) :
    PageChanged s (s.setEntry dir i word) f := by
  -- The four bytes of the entry lie in the page.
  refine ⟨rfl, fun k apart => ?_⟩
  have away : k < dir.toNat + 4 * i ∨ dir.toNat + 4 * i + 4 ≤ k := by
    rcases apart with below | above
    · left; omega
    · right; omega
  exact Memory.copy_outside (m := s.memory) (byteOf32 word) away

/-- Clearing a page changes that page. -/
theorem clearPage_pageChanged (at_ : physAddr.toNat = f * 4096) :
    PageChanged s (s.clearPage physAddr) f :=
  ⟨rfl, fun _ => clearPage_outside at_⟩

/-- The entries of the kernel's half come to be those of the kernel's directory. -/
theorem copyEntries {kernel : Nat} (at_ : dir.toNat = f * 4096) (apart : kernel ≠ f) (n : Nat) :
    ∀ (start : Nat) (s : Vmm), start + n ≤ 1024 →
      s.kernelPageDirectoryPhys.toNat = kernel * 4096 →
      PageChanged s ((List.range' start n).foldl (copyEntry dir) s) f ∧
        ∀ j, j < 1024 → ((List.range' start n).foldl (copyEntry dir) s).pde f j =
          if start ≤ j ∧ j < start + n then s.pde kernel j else s.pde f j := by
  -- By induction on the entries that are left to copy.
  induction n with
  | zero =>
    intro start s _ _
    refine ⟨⟨rfl, fun _ _ => rfl⟩, fun j _ => ?_⟩
    rw [if_neg (by omega)]
    rfl
  | succ n ih =>
    intro start s fits from_
    have first : PageChanged s (copyEntry dir s start) f :=
      setEntry_pageChanged at_ (by omega) _
    obtain ⟨rest, entries⟩ := ih (start + 1) (copyEntry dir s start) (by omega) from_
    rw [List.range'_succ, List.foldl_cons]
    refine ⟨first.trans rest, fun j inside => ?_⟩
    have source : (copyEntry dir s start).pde kernel j = s.pde kernel j :=
      pde_congr (first.samePage apart) inside
    have copied : (copyEntry dir s start).pde f j =
        if j = start then s.pde kernel start else s.pde f j := by
      unfold copyEntry Vmm.pde
      rw [Vmm.setEntry, at_, Memory.wordAt_storeWord_index, entry_eq from_]
    rw [entries j inside, source, copied]
    by_cases here : j = start
    · rw [if_neg (by omega), if_pos here, if_pos (by omega), here]
    · rw [if_neg here]
      congr 1
      rw [eq_iff_iff]
      omega

/-- What became of the spaces when one was made in a page that nobody owned. -/
structure SpaceMade (owner : Owners ρ) (s t : Vmm) (f : Nat) : Prop where
  free : owner f = none
  inPool : s.InPool f
  spaces : Spaces (Function.update owner f (some .directory)) t
  cells : ∀ {d v}, owner d = some .directory → v < 1048576 → t.cell d v = s.cell d v
  /-- The user's half of the new space is empty. -/
  lower : ∀ {v}, v < 786432 → t.cell f v = 0
  /-- The other half is that of the kernel. -/
  upper : ∀ {v}, 786432 ≤ v → v < 1048576 → t.cell f v = s.cell s.kernelDirectory v
  held : ∀ {g r}, owner g = some (.held r) → s.memory.SamePage t.memory g
  layout : s.toPmm.SameLayout t.toPmm
  current : t.currentPageDirectoryPhys = s.currentPageDirectoryPhys
  kernel : t.kernelPageDirectoryPhys = s.kernelPageDirectoryPhys

/-- A space is made, unless no page was left for its directory. -/
theorem vmmCreateAddressSpace_cases [Inhabited ρ] (spaces : Spaces owner s) :
    (vmmCreateAddressSpace s = (none, s) ∧ ∀ f, f < s.totalPages.toNat → owner f ≠ none) ∨
    ∃ f t, vmmCreateAddressSpace s = (some (UInt32.ofNat (f * 4096)), t) ∧
      SpaceMade owner s t f := by
  unfold vmmCreateAddressSpace
  rw [if_neg (by simp [spaces.vmmReady])]
  rcases spaces.alloc_cases default with ⟨result, full⟩ | ⟨f, t, result, taken⟩
  · left
    rw [result]
    exact ⟨rfl, full⟩
  right
  have small := spaces.small taken.inPool
  have address := toNat_ofNat_page small
  rw [result]
  simp only
  rw [if_neg (by simpa using ne_zero_of_page address (spaces.positive taken.inPool))]
  change ∃ g u, (some (UInt32.ofNat (f * 4096)), (List.range' 768 256).foldl
    (copyEntry (UInt32.ofNat (f * 4096))) (t.clearPage (UInt32.ofNat (f * 4096)))) =
      (some (UInt32.ofNat (g * 4096)), u) ∧ SpaceMade owner s u g
  have kernelApart : s.kernelDirectory ≠ f := by
    intro same
    exact nomatch (same ▸ spaces.kernelLive).symm.trans taken.free
  have kernelAt : (t.clearPage (UInt32.ofNat (f * 4096))).kernelPageDirectoryPhys.toNat =
      s.kernelDirectory * 4096 := by
    rw [← spaces.kernelAligned, ← taken.kernel]
    rfl
  obtain ⟨copied, entries⟩ := copyEntries address kernelApart 256 768 _ (by omega) kernelAt
  generalize (List.range' 768 256).foldl (copyEntry (UInt32.ofNat (f * 4096)))
    (t.clearPage (UInt32.ofNat (f * 4096))) = u at copied entries
  have changed : PageChanged t u f := (clearPage_pageChanged address).trans copied
  have held : Function.update owner f (some (.held default)) f = some (.held default) :=
    Function.update_self ..
  -- The page is filled while nobody but this call knows it.
  obtain ⟨filled, same⟩ := taken.spaces.poke held changed.outside
  rw [← changed.rest] at filled same
  have stays : ∀ {d'}, owner d' = some .directory →
      Function.update owner f (some (.held default)) d' = some .directory := by
    intro d' live'
    rwa [Function.update_of_ne (by rintro rfl; exact nomatch live'.symm.trans taken.free)]
  have kernelU : u.kernelDirectory = s.kernelDirectory := by
    unfold Vmm.kernelDirectory
    rw [changed.rest]
    exact congrArg pageOf taken.kernel
  have sameKernel : ∀ {j}, j < 1024 → u.pde s.kernelDirectory j = s.pde s.kernelDirectory j :=
    fun inside => (same.pdes (stays spaces.kernelLive) inside).trans
      (taken.tables.pdes spaces.kernelLive inside)
  have lower : ∀ j, j < 768 → flagOf (u.pde f j) 0 = false := by
    intro j half
    rw [entries j (by omega), if_neg (by omega)]
    exact congrArg (flagOf · 0) (clearPage_zero address (by omega))
  have upper : ∀ j, 768 ≤ j → j < 1024 → u.pde f j = s.pde s.kernelDirectory j := by
    intro j low high
    rw [entries j high, if_pos ⟨low, by omega⟩, ← sameKernel high]
    exact (pde_congr (copied.samePage kernelApart) high).symm
  have adopted := filled.adopt held lower fun j low high => by
    rw [kernelU, upper j low high, sameKernel high]
  rw [Function.update_idem] at adopted
  refine ⟨f, u, rfl, taken.free, taken.inPool, adopted, ?_, fun half => ?_, fun {v} low high => ?_, ?_,
    ?_, ?_, ?_⟩
  · exact fun live inside => (same.cells (stays live) inside).trans (taken.tables.cells live inside)
  · exact cell_eq_zero (lower _ (by omega))
  · -- Both directories have the same table here, which has not changed.
    have entry : u.pde f (v / 1024) = s.pde s.kernelDirectory (v / 1024) :=
      upper _ (by omega) (by omega)
    rw [← taken.tables.cells spaces.kernelLive high, ← same.cells (stays spaces.kernelLive) high]
    unfold Vmm.cell
    rw [entry, sameKernel (by omega)]
  · intro g r here
    have apart : g ≠ f := by
      rintro rfl
      exact nomatch here.symm.trans taken.free
    exact (taken.memory g (spaces.pool here nofun).above).trans (changed.samePage apart)
  · refine taken.layout.trans ?_
    rw [changed.rest]
    exact ⟨rfl, rfl, rfl, rfl, rfl⟩
  · rw [changed.rest]
    exact taken.current
  · rw [changed.rest]
    exact taken.kernel

/-- Marking a page as free and storing a word behind the bitmap can be done in either order. -/
theorem Pmm.freePage_storeWord {p : Pmm} (sound : p.Sound) {a : Nat} (behind : p.firstPage * 4096 ≤ a)
    (page : Nat) (word : UInt32) :
    Pmm.freePage page { p with memory := p.memory.storeWord a word } =
      { p.freePage page with memory := (p.freePage page).memory.storeWord a word } := by
  -- The flag lies in the bitmap and the word behind it, so neither write sees the other.
  unfold Pmm.freePage
  by_cases inside : page ≥ p.totalPages.toNat
  · rw [if_pos (by simpa using Or.inl inside), if_pos (by simpa using Or.inl inside)]
  · have flag := sound.flag_inside (Nat.lt_of_not_le inside)
    have apart : p.bitmapBase.toNat + page / 8 < a := by omega
    have byte : p.memory.storeWord a word (p.bitmapBase.toNat + page / 8) =
        p.memory (p.bitmapBase.toNat + page / 8) := Memory.copy_outside _ (Or.inl apart)
    have test : Pmm.bitmapTest page { p with memory := p.memory.storeWord a word } =
        p.bitmapTest page := by
      unfold Pmm.bitmapTest
      exact congrArg (bitTest · _) byte
    rw [test]
    split
    · rfl
    · simp only [Pmm.bitmapClear, byte, Pmm.mk.injEq, and_true]
      funext k
      simp only [Memory.store, Memory.storeWord, Memory.copy]
      by_cases here : k = p.bitmapBase.toNat + page / 8
      · rw [if_pos here, if_neg (by omega), if_pos here]
      · rw [if_neg here, if_neg here]

/-- The same for an entry of a table. -/
theorem free_setEntry (spaces : Spaces owner s) (behind : s.firstPage ≤ d) (at_ : dir.toNat = d * 4096)
    (physAddr : UInt32) (i : Nat) (word : UInt32) :
    (s.free physAddr).setEntry dir i word = (s.setEntry dir i word).free physAddr := by
  -- The table is behind the bitmap.
  have above : s.firstPage * 4096 ≤ dir.toNat + 4 * i := by
    have := Nat.mul_le_mul_right 4096 behind
    omega
  have commute := Pmm.freePage_storeWord spaces.pmm above (physAddr / pageSize).toNat word
  unfold Vmm.free Vmm.setEntry pmmFreePage
  simp only
  split
  · rfl
  · split
    · rfl
    · rw [commute]

/-- Give the tables of the lower entries of a directory up. -/
def releasedTables (owner : Owners ρ) (d n : Nat) : Owners ρ := fun g =>
  match owner g with
  | some (.table d' i) => if d' = d ∧ i < n then none else some (.table d' i)
  | other => other

/-- The roles that are no tables stay while tables are given up. -/
theorem releasedTables_roles (owner : Owners ρ) (d n : Nat) {g : Nat} {r : Owner ρ}
    (plain : ∀ d' i, r ≠ .table d' i) : releasedTables owner d n g = some r ↔ owner g = some r := by
  -- Only tables are taken out.
  unfold releasedTables
  cases role : owner g with
  | none => simp
  | some other =>
    cases other with
    | table d' i =>
      simp only
      constructor
      · intro same
        split at same
        · cases same
        · exact absurd (Option.some.inj same).symm (plain d' i)
      · intro same
        exact absurd (Option.some.inj same).symm (plain d' i)
    | _ => simp

/-- One more entry has its table given up. -/
theorem releasedTables_succ (owner : Owners ρ) (d i g : Nat) :
    (releasedTables owner d i g = some (.table d i) ∧ releasedTables owner d (i + 1) g = none) ∨
    (releasedTables owner d i g ≠ some (.table d i) ∧
      releasedTables owner d (i + 1) g = releasedTables owner d i g) := by
  -- The tables given up are told by the number of their entry.
  unfold releasedTables
  cases role : owner g with
  | none => simp
  | some other =>
    cases other with
    | table d' j =>
      by_cases here : d' = d ∧ j = i
      · obtain ⟨rfl, rfl⟩ := here
        simp
      · right
        simp only
        have same : (d' = d ∧ j < i + 1) = (d' = d ∧ j < i) := by
          rw [eq_iff_iff]
          omega
        simp only [same]
        refine ⟨fun equal => ?_, trivial⟩
        split at equal
        · cases equal
        · simp only [Option.some.injEq, Owner.table.injEq] at equal
          exact here equal
    | _ => simp

/-- The taking apart of a space, so far. -/
structure Dismantled (owner : Owners ρ) (s t : Vmm) (d n : Nat) : Prop where
  spaces : Spaces (releasedTables owner d n) t
  absent : ∀ {i}, i < n → flagOf (t.pde d i) 0 = false
  cells : ∀ {d' v}, owner d' = some .directory → d' ≠ d → v < 1048576 → t.cell d' v = s.cell d' v
  held : ∀ {g r}, owner g = some (.held r) → s.memory.SamePage t.memory g
  layout : s.toPmm.SameLayout t.toPmm
  current : t.currentPageDirectoryPhys = s.currentPageDirectoryPhys
  kernel : t.kernelPageDirectoryPhys = s.kernelPageDirectoryPhys

/-- One round of the loop gives one table back. -/
theorem Dismantled.next [Inhabited ρ] (so : Dismantled owner s t d i) (live : owner d = some .directory)
    (half : i < 768) (at_ : dir.toNat = d * 4096) :
    Dismantled owner s (destroyEntry dir t i) d (i + 1) := by
  have liveT : releasedTables owner d i d = some .directory :=
    (releasedTables_roles owner d i (r := .directory) nofun).mpr live
  unfold destroyEntry
  simp only [entry_directory at_, and_pagePresent_ne_zero]
  by_cases present : flagOf (t.pde d i) 0 = true
  · rw [if_pos present]
    have owned := so.spaces.table_owner liveT half present
    have inPool := so.spaces.pool owned nofun
    have small := so.spaces.small inPool
    have address : t.pde d i &&& pageAddrMask = UInt32.ofNat (pageOf (t.pde d i) * 4096) := by
      apply UInt32.toNat_inj.mp
      rw [toNat_ofNat_page small]
      exact toNat_and_pageMask _
    rw [address, free_setEntry so.spaces (so.spaces.directory_inPool liveT).above at_]
    -- First the entry goes, and then the page, which by now nobody uses.
    obtain ⟨unlinked, cells⟩ := so.spaces.unlink liveT half present at_ default
    have given := unlinked.free (Function.update_self ..)
    obtain ⟨others, pdes⟩ := Spaces.setPde_others (s := t) liveT half at_ 0
    have passed : ∀ {d'}, owner d' = some .directory →
        releasedTables owner d i d' = some .directory ∧
        Function.update (releasedTables owner d i) (pageOf (t.pde d i)) (some (.held default)) d' =
          some .directory := by
      intro d' live'
      have before := (releasedTables_roles owner d i (r := .directory) nofun).mpr live'
      refine ⟨before, ?_⟩
      rwa [Function.update_of_ne (by rintro rfl; exact nomatch before.symm.trans owned)]
    have ownerAfter : Function.update (Function.update (releasedTables owner d i)
        (pageOf (t.pde d i)) (some (.held default))) (pageOf (t.pde d i)) none =
          releasedTables owner d (i + 1) := by
      rw [Function.update_idem]
      funext g
      rcases releasedTables_succ owner d i g with ⟨role, after⟩ | ⟨role, after⟩
      · have place := ((so.spaces.tables g d i).mp role).2.2.2
        rw [after, ← place, Function.update_self]
      · rw [after, Function.update_of_ne (by rintro rfl; exact role owned)]
    have after := given.spaces
    rw [ownerAfter] at after
    have stored : t.toPmm.SameLayout (t.setEntry dir i 0).toPmm := ⟨rfl, rfl, rfl, rfl, rfl⟩
    refine ⟨after, fun {j} below => ?_, fun {d' v} live' apart inside => ?_, fun {g r} here => ?_,
      so.layout.trans (stored.trans given.layout),
      given.current.trans so.current, given.kernel.trans so.kernel⟩
    · have entry := (given.tables.pdes (passed live).2 (show j < 1024 by omega)).trans
        (pdes (passed live).1 (by omega))
      rw [entry]
      split
      · rfl
      · exact so.absent (by omega)
    · rw [given.tables.cells (passed live').2 inside, cells (passed live').1 inside,
        if_neg (by rintro ⟨rfl, -⟩; exact apart rfl)]
      exact so.cells live' apart inside
    · have still := (releasedTables_roles owner d i (r := .held r) nofun).mpr here
      exact ((so.held here).trans (others still nofun)).trans
        (given.memory g (so.spaces.pool still nofun).above)
  · rw [if_neg present]
    have ownerAfter : releasedTables owner d (i + 1) = releasedTables owner d i := by
      funext g
      rcases releasedTables_succ owner d i g with ⟨role, -⟩ | ⟨-, after⟩
      · exact absurd ((so.spaces.tables g d i).mp role).2.2.1 present
      · exact after
    refine ⟨ownerAfter ▸ so.spaces, fun {j} below => ?_, so.cells, so.held, so.layout, so.current,
      so.kernel⟩
    by_cases here : j = i
    · exact here ▸ Bool.eq_false_iff.mpr present
    · exact so.absent (by omega)

/-- The whole loop gives back every table of the user's half. -/
theorem dismantled [Inhabited ρ] (spaces : Spaces owner s) (live : owner d = some .directory)
    (at_ : dir.toNat = d * 4096) (n : Nat) (half : n ≤ 768) :
    Dismantled owner s ((List.range n).foldl (destroyEntry dir) s) d n := by
  -- By induction on the entries of the user's half.
  induction n with
  | zero =>
    have none_ : releasedTables owner d 0 = owner := by
      funext g
      unfold releasedTables
      cases owner g with
      | none => rfl
      | some r => cases r <;> simp
    exact ⟨by rw [none_]; exact spaces, nofun, fun _ _ _ => rfl, fun _ => .refl _ _, .refl _, rfl, rfl⟩
  | succ n ih =>
    rw [List.range_succ, List.foldl_append]
    exact (ih (by omega)).next live (by omega) at_

/-- Who owns what after a space is gone. -/
def withoutSpace (owner : Owners ρ) (d : Nat) : Owners ρ :=
  Function.update (releasedTables owner d 768) d none

/-- What became of the spaces when one was taken apart. -/
structure SpaceGone (owner : Owners ρ) (s t : Vmm) (d : Nat) : Prop where
  spaces : Spaces (withoutSpace owner d) t
  cells : ∀ {d' v}, owner d' = some .directory → d' ≠ d → v < 1048576 → t.cell d' v = s.cell d' v
  held : ∀ {g r}, owner g = some (.held r) → s.memory.SamePage t.memory g
  layout : s.toPmm.SameLayout t.toPmm
  current : t.currentPageDirectoryPhys = s.currentPageDirectoryPhys
  kernel : t.kernelPageDirectoryPhys = s.kernelPageDirectoryPhys

/-- A space other than the kernel's is taken apart. -/
theorem vmmDestroyAddressSpace_gone [Inhabited ρ] (spaces : Spaces owner s)
    (live : owner d = some .directory) (at_ : dir.toNat = d * 4096) (other : d ≠ s.kernelDirectory) :
    SpaceGone owner s (vmmDestroyAddressSpace dir s) d := by
  -- The loop gives back the tables, and the directory goes last.
  have inPool := spaces.directory_inPool live
  have nonzero := ne_zero_of_page at_ (spaces.positive inPool)
  have notKernel : dir ≠ s.kernelPageDirectoryPhys := by
    rintro rfl
    have := spaces.kernelAligned
    omega
  unfold vmmDestroyAddressSpace
  rw [if_neg (by simp [spaces.vmmReady, nonzero, notKernel])]
  change SpaceGone owner s (((List.range 768).foldl (destroyEntry dir) s).free dir) d
  have so := dismantled spaces live at_ 768 (Nat.le_refl _)
  generalize (List.range 768).foldl (destroyEntry dir) s = t at so
  have address : dir = UInt32.ofNat (d * 4096) := by
    apply UInt32.toNat_inj.mp
    rw [toNat_ofNat_page (spaces.small inPool), at_]
  have liveT := (releasedTables_roles owner d 768 (r := .directory) nofun).mpr live
  have apart : d ≠ t.kernelDirectory := by
    unfold Vmm.kernelDirectory
    rw [so.kernel]
    exact other
  have alone := so.spaces.disown liveT apart (fun i half => so.absent half) default
  have given := alone.free (Function.update_self ..)
  rw [← address] at given
  have after := given.spaces
  rw [Function.update_idem] at after
  refine ⟨after, fun {d' v} live' apart' inside => ?_, fun {g r} here => ?_,
    so.layout.trans given.layout, given.current.trans so.current, given.kernel.trans so.kernel⟩
  · have stays : Function.update (releasedTables owner d 768) d (some (.held default)) d' =
        some .directory := by
      rw [Function.update_of_ne apart']
      exact (releasedTables_roles owner d 768 (r := .directory) nofun).mpr live'
    rw [given.tables.cells stays inside]
    exact so.cells live' apart' inside
  · have still := (releasedTables_roles owner d 768 (r := .held r) nofun).mpr here
    exact (so.held here).trans (given.memory g (so.spaces.pool still nofun).above)

/-- The kernel's own space is never taken apart. -/
theorem vmmDestroyAddressSpace_kernel (spaces : Spaces owner s)
    (at_ : dir.toNat = s.kernelDirectory * 4096) : vmmDestroyAddressSpace dir s = s := by
  -- The function refuses the address of the kernel's directory.
  have same : dir = s.kernelPageDirectoryPhys := by
    apply UInt32.toNat_inj.mp
    rw [at_, spaces.kernelAligned]
  unfold vmmDestroyAddressSpace
  rw [if_pos (by simp [same])]

/-- The other roles stay as they are when a space is gone. -/
theorem withoutSpace_roles (owner : Owners ρ) (d : Nat) {g : Nat} {r : Owner ρ}
    (plain : ∀ d' i, r ≠ .table d' i) :
    withoutSpace owner d g = some r ↔ g ≠ d ∧ owner g = some r := by
  -- The directory loses its role, and the tables lose theirs.
  unfold withoutSpace
  by_cases same : g = d
  · simp [same]
  · rw [Function.update_of_ne same, releasedTables_roles owner d 768 plain]
    simp [same]

end MyOS.Mm
