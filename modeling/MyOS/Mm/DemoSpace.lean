import MyOS.Mm.Translation

/-! The spaces built for demonstrations, and what is left behind when one cannot be finished. -/

namespace MyOS.Mm

/-- What the caller learns about a space that was built. -/
structure VmmUserSpaceInfo where
  pageDirectoryPhys : UInt32
  codeVirt : UInt32
  codePhys : UInt32
  stackTop : UInt32
  stackPageVirt : UInt32
  stackPhys : UInt32

/-- Where the code of a demonstration lies. -/
def vmmUserCodeBase : UInt32 := 0x00400000

/-- Where the stack of a demonstration ends. -/
def vmmUserStackTop : UInt32 := vmmKernelBase

/-- `alloc_and_map_user_page`: give a page of a space a page of memory, filled with zeros. -/
def allocAndMapUserPage (pageDirectoryPhys virtAddr flags : UInt32) (s : Vmm) : Option UInt32 × Vmm :=
  match s.alloc with
  | (physAddr, s) =>
    if physAddr == 0 then (none, s)
    else
      match vmmMapPageInDirectory pageDirectoryPhys virtAddr physAddr (flags ||| vmmPageUser)
        (s.clearPage physAddr) with
      | (false, s) => (none, s.free physAddr)
      | (true, s) => (some physAddr, s)

/--
`vmm_create_user_demo_space`: build a space with a page of code and one of stack.

The flag says whether there is a place for the answer.
-/
def vmmCreateUserDemoSpace (infoOut : Bool) (s : Vmm) : Option VmmUserSpaceInfo × Vmm :=
  if !s.vmmReady || !infoOut then (none, s)
  else
    match vmmCreateAddressSpace s with
    | (none, s) => (none, s)
    | (some pageDirectoryPhys, s) =>
      match allocAndMapUserPage pageDirectoryPhys vmmUserCodeBase 0 s with
      | (none, s) => (none, s.free pageDirectoryPhys)
      | (some codePhys, s) =>
        let stackPageVirt := vmmUserStackTop - pageSize
        match allocAndMapUserPage pageDirectoryPhys stackPageVirt vmmPageWritable s with
        | (none, s) => (none, (s.free codePhys).free pageDirectoryPhys)
        | (some stackPhys, s) =>
          (some ⟨pageDirectoryPhys, vmmUserCodeBase, codePhys, vmmUserStackTop, stackPageVirt, stackPhys⟩,
            s)

/-- `vmm_create_current_user_demo_space`: put code and a stack into the current space. -/
def vmmCreateCurrentUserDemoSpace (infoOut : Bool) (code : Option (Nat → UInt8)) (codeSize : UInt32)
    (s : Vmm) : Option VmmUserSpaceInfo × Vmm :=
  match code with
  | none => (none, s)
  | some code =>
    if !s.vmmReady || !infoOut || decide (codeSize > pageSize) then (none, s)
    else
      match allocAndMapUserPage s.currentPageDirectoryPhys vmmUserCodeBase 0 s with
      | (none, s) => (none, s)
      | (some codePhys, s) =>
        let s := { s with memory := s.memory.copy codePhys.toNat codeSize.toNat code }
        let stackPageVirt := vmmUserStackTop - pageSize
        match allocAndMapUserPage s.currentPageDirectoryPhys stackPageVirt vmmPageWritable s with
        | (none, s) => (none, s.free codePhys)
        | (some stackPhys, s) =>
          (some ⟨s.currentPageDirectoryPhys, vmmUserCodeBase, codePhys, vmmUserStackTop, stackPageVirt,
            stackPhys⟩, s)

/-- How many pages it takes to give a page of a space a table: one, unless there is a table. -/
def tablesNeeded (pageDirectoryPhys virtAddr : UInt32) (s : Vmm) : Nat :=
  if s.entry pageDirectoryPhys (pageDirectoryIndex virtAddr) &&& pagePresent == 0 then 1 else 0

/-- No page that is free serves a live space, as a table or behind one of the user's pages. -/
structure NoDangling (live : Nat → Prop) (s : Vmm) : Prop where
  table : ∀ {d i}, live d → i < 768 → flagOf (s.pde d i) 0 = true → ¬ s.IsFree (pageOf (s.pde d i))
  frame : ∀ {d v}, live d → v < 786432 → flagOf (s.cell d v) 0 = true → ¬ s.IsFree (pageOf (s.cell d v))

/-- A call that fails leaves the same pages free as before, none of which serves a space. -/
def CleansUp {α : Type} (live : Nat → Prop) (s : Vmm) (result : Option α × Vmm) : Prop :=
  result.1 = none → (∀ page, result.2.IsFree page ↔ s.IsFree page) ∧ NoDangling live result.2

section Counting

variable {ρ : Type} {owner : Owners ρ} {bound f : Nat}

/-- How many pages have no owner. -/
def ownerless (owner : Owners ρ) (bound : Nat) : Nat := clearCount (fun f => (owner f).isSome) bound

/-- A page that gets an owner is one fewer without. -/
theorem ownerless_update (inside : f < bound) (free : owner f = none) (r : Owner ρ) :
    ownerless (Function.update owner f (some r)) bound + 1 = ownerless owner bound := by
  -- The page is the only one whose count changes.
  have count := @clearCount_add_card (fun g => (owner g).isSome)
    (fun g => (Function.update owner f (some r) g).isSome) bound {f}
    (fun g member => by
      rw [Finset.mem_singleton.mp member, free]
      exact ⟨inside, rfl⟩)
    (fun g _ => by
      rw [Finset.mem_singleton]
      by_cases here : g = f
      · rw [here, Function.update_self]
        exact ⟨fun _ => Or.inr rfl, fun _ => rfl⟩
      · rw [Function.update_of_ne here, or_iff_left here])
  rw [Finset.card_singleton] at count
  exact count

/-- Where every page has an owner there is none without. -/
theorem ownerless_eq_zero (full : ∀ f, f < bound → owner f ≠ none) : ownerless owner bound = 0 :=
  clearCount_eq_zero.mpr fun f inside => Option.isSome_iff_ne_none.mpr (full f inside)

end Counting

section Laws

variable {ρ : Type} {owner owner' : Owners ρ} {s t u : Vmm} {d f v i : Nat}
  {dir virtAddr physAddr flags word : UInt32}

/-- The pages that are free are those without an owner. -/
theorem Spaces.isFree_iff (spaces : Spaces owner s) (page : Nat) :
    s.IsFree page ↔ page < s.totalPages.toNat ∧ owner page = none := by
  -- A sound bitmap has the flag of a page exactly where the page has an owner.
  refine and_congr_right fun inside => ?_
  rw [spaces.used page inside, Option.isSome_eq_false_iff, Option.isNone_iff_eq_none]

/-- The counter of free pages says how many have no owner. -/
theorem Spaces.freePages_eq (spaces : Spaces owner s) :
    s.freePages.toNat = ownerless owner s.totalPages.toNat :=
  spaces.pmm.counted.trans (clearCount_congr spaces.used)

/-- An entry of the user's half is in use where some page is its table. -/
theorem Spaces.present_iff (spaces : Spaces owner s) (live : owner d = some .directory) (half : i < 768) :
    flagOf (s.pde d i) 0 = true ↔ ∃ g, owner g = some (.table d i) :=
  -- The table behind an entry is the page whose role names the entry.
  ⟨fun present => ⟨_, spaces.table_owner live half present⟩,
    fun ⟨g, role⟩ => ((spaces.tables g d i).mp role).2.2.1⟩

/-- What leaves the owners alone, and the pages of the spaces, cleans up after itself. -/
theorem Spaces.clean (spaces : Spaces owner s) (before : NoDangling (owner · = some .directory) s)
    (spaces' : Spaces owner t) (total : t.totalPages = s.totalPages)
    (cells : ∀ {d v}, owner d = some .directory → v < 1048576 → t.cell d v = s.cell d v) :
    (∀ page, t.IsFree page ↔ s.IsFree page) ∧ NoDangling (owner · = some .directory) t := by
  -- The free pages are those without an owner, and nothing of the spaces has changed.
  have same : ∀ page, t.IsFree page ↔ s.IsFree page := fun page => by
    rw [spaces'.isFree_iff, spaces.isFree_iff, total]
  refine ⟨same, fun {d i} live half present free => ?_, fun {d v} live half present => ?_⟩
  · exact nomatch (spaces'.table_owner live half present).symm.trans ((spaces'.isFree_iff _).mp free).2
  · rw [cells live (by omega)] at present ⊢
    rw [same]
    exact before.frame live half present

/-- A page can be mapped wherever there is a table for it. -/
theorem vmmMapPageInDirectory_present (at_ : dir.toNat = d * 4096) (positive : 0 < d)
    (virtAligned : virtAddr.toNat % 4096 = 0) (physAligned : physAddr.toNat % 4096 = 0)
    (present : flagOf (s.pde d (virtAddr.toNat / 4096 / 1024)) 0 = true) (flags : UInt32) :
    (vmmMapPageInDirectory dir virtAddr physAddr flags s).1 = true := by
  -- None of the checks refuses, and the table need not be made.
  unfold vmmMapPageInDirectory mapPageInDirectory preparePageTable
  rw [if_neg (by simpa using ne_zero_of_page at_ positive), mod_pageSize_ne_zero,
    mod_pageSize_ne_zero, if_neg (by simp [virtAligned, physAligned])]
  simp only [pageDirectoryIndex_eq, entry_directory at_, and_pagePresent_eq_zero, present, Bool.not_true,
    Bool.false_eq_true, if_false]
  split
  · next fails =>
    split at fails
    · cases fails
    · cases fails
  · rfl

/-- A page of a space that was given a page of memory. -/
structure UserPage [Inhabited ρ] (owner owner' : Owners ρ) (s t : Vmm) (d v f : Nat) : Prop where
  spaces : Spaces owner' t
  free : owner f = none
  inPool : s.InPool f
  table : MaybeTable (Function.update owner f (some (.held default))) owner' d (v / 1024)
  held : owner' f = some (.held default)
  /-- The page leads to the page of memory, and there is a table for it. -/
  page : flagOf (t.cell d v) 0 = true ∧ pageOf (t.cell d v) = f
  cells : ∀ {d' v'}, owner d' = some .directory → v' < 1048576 → ¬ (d' = d ∧ v' = v) →
    t.cell d' v' = s.cell d' v'
  directory : ∀ {d'}, owner' d' = some .directory ↔ owner d' = some .directory
  layout : s.toPmm.SameLayout t.toPmm
  current : t.currentPageDirectoryPhys = s.currentPageDirectoryPhys
  kernel : t.kernelPageDirectoryPhys = s.kernelPageDirectoryPhys

/-- A step that changes neither what the spaces lead to nor who owns what. -/
structure SameSpaces (owner : Owners ρ) (s t : Vmm) : Prop where
  spaces : Spaces owner t
  tables : SameTables owner s t
  layout : s.toPmm.SameLayout t.toPmm
  current : t.currentPageDirectoryPhys = s.currentPageDirectoryPhys
  kernel : t.kernelPageDirectoryPhys = s.kernelPageDirectoryPhys

/-- Two such steps, one after the other. -/
theorem SameSpaces.trans (first : SameSpaces owner s t) (second : SameSpaces owner t u) :
    SameSpaces owner s u where
  -- What the two steps leave alone is the same.
  spaces := second.spaces
  tables := ⟨fun live inside => (second.tables.pdes live inside).trans (first.tables.pdes live inside),
    fun live inside => (second.tables.cells live inside).trans (first.tables.cells live inside)⟩
  layout := first.layout.trans second.layout
  current := second.current.trans first.current
  kernel := second.kernel.trans first.kernel

/--
A page of a space gets a page of memory, or there was too little of it.

There must be a page for the table as well, if the space has none there.
-/
theorem allocAndMapUserPage_cases [Inhabited ρ] (spaces : Spaces owner s)
    (live : owner d = some .directory) (at_ : dir.toNat = d * 4096) (half : virtAddr < vmmKernelBase)
    (aligned : virtAddr.toNat % 4096 = 0) (flags : UInt32) :
    (∃ t, allocAndMapUserPage dir virtAddr flags s = (none, t) ∧ SameSpaces owner s t ∧
      (s.freePages.toNat = 0 ∨ s.freePages.toNat = 1 ∧
        flagOf (s.pde d (virtAddr.toNat / 4096 / 1024)) 0 = false)) ∨
    ∃ f owner' t, allocAndMapUserPage dir virtAddr flags s = (some (UInt32.ofNat (f * 4096)), t) ∧
      UserPage owner owner' s t d (virtAddr.toNat / 4096) f := by
  unfold allocAndMapUserPage
  rcases spaces.alloc_cases default with ⟨result, full⟩ | ⟨f, t, result, taken⟩
  · left
    refine ⟨s, ?_, ⟨spaces, ⟨fun _ _ => rfl, fun _ _ => rfl⟩, .refl _, rfl, rfl⟩, Or.inl ?_⟩
    · rw [result]
      rfl
    · rw [spaces.freePages_eq]
      exact ownerless_eq_zero full
  have address := toNat_ofNat_page (spaces.small taken.inPool)
  rw [result]
  simp only
  rw [if_neg (by simpa using ne_zero_of_page address (spaces.positive taken.inPool))]
  have held : Function.update owner f (some (.held default)) f = some (.held default) :=
    Function.update_self ..
  have stays : ∀ {d'}, owner d' = some .directory →
      Function.update owner f (some (.held default)) d' = some .directory := by
    intro d' live'
    rwa [Function.update_of_ne (by rintro rfl; exact nomatch live'.symm.trans taken.free)]
  -- The page is cleared while nobody but this call knows it.
  obtain ⟨cleared, same⟩ := @Spaces.poke _ _ _ _ taken.spaces _ held
    (t.clearPage (UInt32.ofNat (f * 4096))).memory fun k => clearPage_outside address
  have physAligned : (UInt32.ofNat (f * 4096)).toNat % 4096 = 0 := by
    rw [address]
    exact Nat.mul_mod_left f 4096
  have layout : s.toPmm.SameLayout (t.clearPage (UInt32.ofNat (f * 4096))).toPmm :=
    taken.layout.trans ⟨rfl, rfl, rfl, rfl, rfl⟩
  have positive := spaces.positive (spaces.directory_inPool live)
  have small := page_half half
  rcases vmmMapPageInDirectory_cases cleared (stays live) at_ half aligned physAligned
    (flags ||| vmmPageUser) with ⟨result', full⟩ | ⟨owner', u, result', change⟩
  · left
    have given := cleared.free held
    have back : Function.update (Function.update owner f (some (.held default))) f none = owner := by
      rw [Function.update_idem, ← taken.free, Function.update_eq_self]
    refine ⟨_, ?_, ⟨back ▸ given.spaces, ⟨fun live' inside => ?_, fun live' inside => ?_⟩,
      layout.trans given.layout, given.current.trans taken.current, given.kernel.trans taken.kernel⟩,
      Or.inr ⟨?_, ?_⟩⟩
    · exact congrArg (fun r => match r with
        | (false, s) => (none, s.free (UInt32.ofNat (f * 4096)))
        | (true, s) => (some (UInt32.ofNat (f * 4096)), s)) result'
    · exact (given.tables.pdes (stays live') inside).trans
        ((same.pdes (stays live') inside).trans (taken.tables.pdes live' inside))
    · exact (given.tables.cells (stays live') inside).trans
        ((same.cells (stays live') inside).trans (taken.tables.cells live' inside))
    · -- Only the page just taken was left, and none for the table.
      rw [spaces.freePages_eq, ← ownerless_update taken.inPool.below taken.free (.held default),
        ← taken.layout.totalPages]
      rw [ownerless_eq_zero full]
    · by_contra present
      rw [Bool.not_eq_false] at present
      have entry : (t.clearPage (UInt32.ofNat (f * 4096))).pde d (virtAddr.toNat / 4096 / 1024) =
          s.pde d (virtAddr.toNat / 4096 / 1024) :=
        (same.pdes (stays live) (by omega)).trans (taken.tables.pdes live (by omega))
      have fits := vmmMapPageInDirectory_present at_ positive aligned physAligned
        (by rw [entry]; exact present) (flags ||| vmmPageUser)
      rw [show vmmMapPageInDirectory dir virtAddr (UInt32.ofNat (f * 4096)) (flags ||| vmmPageUser)
        (t.clearPage (UInt32.ofNat (f * 4096))) = _ from result'] at fits
      cases fits
  · right
    obtain ⟨present, -, -⟩ := leafEntry_flags (UInt32.ofNat (f * 4096)) (flags ||| vmmPageUser)
    have page := change.cells (stays live) (show virtAddr.toNat / 4096 < 1048576 by omega)
    rw [if_pos ⟨rfl, rfl⟩] at page
    refine ⟨f, owner', u, ?_, ⟨change.spaces, taken.free, taken.inPool, change.table,
      (change.framed.roles f (.held default) nofun).mpr held, ?_, fun live' inside other => ?_, ?_,
      layout.trans change.framed.layout, change.framed.current.trans taken.current,
      change.framed.kernel.trans taken.kernel⟩⟩
    · exact congrArg (fun r => match r with
        | (false, s) => (none, s.free (UInt32.ofNat (f * 4096)))
        | (true, s) => (some (UInt32.ofNat (f * 4096)), s)) result'
    · rw [page, leafEntry_page, pageOf_ofNat_page (spaces.small taken.inPool)]
      exact ⟨present, rfl⟩
    · have cell := change.cells (stays live') inside
      rw [if_neg other] at cell
      exact cell.trans ((same.cells (stays live') inside).trans (taken.tables.cells live' inside))
    · intro d'
      rw [change.framed.directory]
      exact Spaces.update_roles (fun r => r = .held default) (by rw [taken.free]; nofun)
        (by rintro r ⟨⟩; rfl) (by simp)

/-- The entry that got a table is the only one that changed hands. -/
theorem MaybeTable.role (maybe : MaybeTable owner owner' d i) {g : Nat} {r : Owner ρ}
    (other : r ≠ .table d i) : owner' g = some r ↔ owner g = some r := by
  -- The page that became the table had no role before.
  rcases maybe with rfl | ⟨-, f, free, rfl⟩
  · rfl
  · exact Spaces.update_roles (fun r => r = .table d i) (by rw [free]; nofun) (by rintro r ⟨⟩; rfl) other

namespace UserPage

variable [Inhabited ρ]

/-- The other pages keep their roles. -/
theorem role (made : UserPage owner owner' s t d v f) {g : Nat} {r : Owner ρ}
    (notHeld : r ≠ .held default) (notTable : r ≠ .table d (v / 1024)) :
    owner' g = some r ↔ owner g = some r :=
  -- The page had no role before it was held.
  (made.table.role notTable).trans (Spaces.update_roles (fun r => r = .held default)
    (by rw [made.free]; nofun) (by rintro r ⟨⟩; rfl) notHeld)

/-- The page leads somewhere, so there is a table for it. -/
theorem present (made : UserPage owner owner' s t d v f) : flagOf (t.pde d (v / 1024)) 0 = true := by
  -- Without a table the page would lead nowhere.
  by_contra absent
  have leads := made.page.1
  rw [cell_eq_zero (Bool.eq_false_iff.mpr absent)] at leads
  cases leads

/-- Every other entry of the space has a table if it had one before. -/
theorem present_other (made : UserPage owner owner' s t d v f) (spaces : Spaces owner s)
    (live : owner d = some .directory) (half : i < 768) (other : i ≠ v / 1024) :
    flagOf (t.pde d i) 0 = flagOf (s.pde d i) 0 := by
  -- An entry has a table where some page has that role, and the roles of other tables are as they
  -- were.
  rw [Bool.eq_iff_iff, made.spaces.present_iff (made.directory.mpr live) half,
    spaces.present_iff live half]
  exact exists_congr fun g => made.role nofun (by simp [other])

/-- One page is used up, and another one where there was no table. -/
theorem freePages (made : UserPage owner owner' s t d v f) (spaces : Spaces owner s)
    (live : owner d = some .directory) (half : v < 786432) :
    t.freePages.toNat + 1 + (!flagOf (s.pde d (v / 1024)) 0).toNat = s.freePages.toNat := by
  have taken := ownerless_update made.inPool.below made.free (.held (default : ρ))
  have tables := spaces.present_iff live (show v / 1024 < 768 by omega)
  have role : ∀ g, Function.update owner f (some (.held default)) g = some (.table d (v / 1024)) ↔
      owner g = some (.table d (v / 1024)) := fun g =>
    Spaces.update_roles (fun r => r = .held default) (by rw [made.free]; nofun)
      (by rintro r ⟨⟩; rfl) (by simp)
  rw [made.spaces.freePages_eq, spaces.freePages_eq, made.layout.totalPages]
  rcases made.table with same | ⟨lacks, g, free, given⟩
  · -- The table that there is now was there before.
    obtain ⟨g, here⟩ := (made.spaces.present_iff (made.directory.mpr live) (by omega)).mp made.present
    rw [same, role] at here
    rw [tables.mpr ⟨g, here⟩, same]
    exact taken
  · have absent : flagOf (s.pde d (v / 1024)) 0 = false := by
      by_contra before
      obtain ⟨g, here⟩ := tables.mp (Bool.not_eq_false _ ▸ before)
      exact lacks g ((role g).mpr here)
    have inside : g < s.totalPages.toNat := by
      rw [← made.layout.totalPages]
      refine (made.spaces.pool (f := g) (r := .table d (v / 1024)) ?_ nofun).below
      rw [given, Function.update_self]
    have linked := ownerless_update inside free (.table d (v / 1024))
    rw [absent, given]
    change _ + 1 + 1 = _
    omega

end UserPage

/-- The tables needed at an address, by the entry of the directory. -/
theorem tablesNeeded_eq (at_ : dir.toNat = d * 4096) :
    tablesNeeded dir virtAddr s = (!flagOf (s.pde d (virtAddr.toNat / 4096 / 1024)) 0).toNat := by
  -- A table is needed where the flag of the entry is not set.
  unfold tablesNeeded
  rw [entry_directory at_, pageDirectoryIndex_eq, and_pagePresent_eq_zero]
  cases flagOf (s.pde d (virtAddr.toNat / 4096 / 1024)) 0 <;> rfl

/-- A page of memory that is given back while a page of a space leads to it is left dangling. -/
theorem UserPage.dangles [Inhabited ρ] (made : UserPage owner owner' s t d v f)
    (live : owner d = some .directory) (half : v < 786432) (again : SameSpaces owner' t u) :
    ¬ NoDangling (owner · = some .directory) (u.free (UInt32.ofNat (f * 4096))) := by
  -- The page is free afterwards, while the entry that leads to it is as it was.
  intro clean
  have given := again.spaces.free made.held
  have liveT := made.directory.mpr live
  have cell : (u.free (UInt32.ofNat (f * 4096))).cell d v = t.cell d v :=
    (given.tables.cells liveT (by omega)).trans (again.tables.cells liveT (by omega))
  obtain ⟨present, page⟩ := made.page
  rw [← cell] at present page
  refine clean.frame live half present ?_
  rw [page, given.spaces.isFree_iff, given.layout.totalPages, again.layout.totalPages,
    made.layout.totalPages]
  exact ⟨made.inPool.below, Function.update_self ..⟩

/--
A failure in the current space is cleaned up unless it comes after the page of code was mapped.

From then on that page is given back while the space still leads to it.
-/
theorem currentUserDemoSpace_cleansUp [Inhabited ρ] (spaces : Spaces owner s)
    (live : owner d = some .directory) (at_ : s.currentPageDirectoryPhys.toNat = d * 4096)
    (before : NoDangling (owner · = some .directory) s) (infoOut : Bool) (code : Option (Nat → UInt8))
    (codeSize : UInt32) :
    CleansUp (owner · = some .directory) s (vmmCreateCurrentUserDemoSpace infoOut code codeSize s) ↔
      ¬ (infoOut = true ∧ code ≠ none ∧ codeSize ≤ pageSize ∧
        1 + tablesNeeded s.currentPageDirectoryPhys vmmUserCodeBase s ≤ s.freePages.toNat ∧
        s.freePages.toNat < 2 + tablesNeeded s.currentPageDirectoryPhys vmmUserCodeBase s +
          tablesNeeded s.currentPageDirectoryPhys (vmmUserStackTop - pageSize) s) := by
  have unchanged : CleansUp (α := VmmUserSpaceInfo) (owner · = some .directory) s (none, s) :=
    fun _ => spaces.clean before spaces rfl fun _ _ => rfl
  unfold vmmCreateCurrentUserDemoSpace
  cases code with
  | none => exact iff_of_true unchanged fun ⟨_, absurd_, _⟩ => absurd_ rfl
  | some code =>
    simp only
    by_cases refused : (!s.vmmReady || !infoOut || decide (codeSize > pageSize)) = true
    · rw [if_pos refused]
      refine iff_of_true unchanged fun ⟨given, _, fits, _⟩ => ?_
      rw [spaces.vmmReady, given, Bool.not_true, Bool.false_or, Bool.false_or, decide_eq_true_eq] at refused
      exact absurd fits (UInt32.not_le.mpr refused)
    rw [if_neg refused, tablesNeeded_eq at_, tablesNeeded_eq at_]
    simp only [spaces.vmmReady, Bool.not_true, Bool.false_or, Bool.or_eq_true, Bool.not_eq_true',
      decide_eq_true_eq, not_or, Bool.not_eq_false, gt_iff_lt, UInt32.not_lt] at refused
    obtain ⟨given, fits⟩ := refused
    have here : vmmUserCodeBase.toNat / 4096 = 1024 := by decide
    have there : (vmmUserStackTop - pageSize).toNat / 4096 = 786431 := by decide
    rw [here, there]
    rcases allocAndMapUserPage_cases spaces live at_ (show vmmUserCodeBase < vmmKernelBase by decide)
      (show vmmUserCodeBase.toNat % 4096 = 0 by decide) 0 with
      ⟨t, result, none_, few⟩ | ⟨f, owner', t, result, made⟩
    · -- Nothing was mapped yet, and the page of memory has been given back.
      rw [result]
      refine iff_of_true (fun _ => spaces.clean before none_.spaces none_.layout.totalPages
        none_.tables.cells) ?_
      rw [here] at few
      rintro ⟨-, -, -, enough, -⟩
      rcases few with none_ | ⟨one, absent⟩
      · omega
      · rw [absent, one] at enough
        exact absurd enough (by decide)
    · rw [result]
      simp only
      have address := toNat_ofNat_page (spaces.small made.inPool)
      rw [here] at made
      have count := made.freePages spaces live (by decide)
      -- The code goes into a page that is the caller's.
      have size : codeSize.toNat ≤ 4096 := UInt32.le_iff_toNat_le.mp fits
      obtain ⟨filled, same⟩ := @Spaces.poke _ _ _ _ made.spaces _ made.held
        (t.memory.copy (UInt32.ofNat (f * 4096)).toNat codeSize.toNat code) fun k outside => by
          rw [address]
          exact Memory.copy_outside _ (by omega)
      have filled : SameSpaces owner' t { t with
          memory := t.memory.copy (UInt32.ofNat (f * 4096)).toNat codeSize.toNat code } :=
        ⟨filled, same, ⟨rfl, rfl, rfl, rfl, rfl⟩, rfl, rfl⟩
      have liveT := made.directory.mpr live
      have other := made.present_other spaces live (show 786431 / 1024 < 768 by decide) (by decide)
      have present := (congrArg (flagOf · 0) (filled.tables.pdes liveT
        (show 786431 / 1024 < 1024 by decide))).trans other
      rcases allocAndMapUserPage_cases filled.spaces liveT
        ((congrArg UInt32.toNat made.current).trans at_)
        (show vmmUserStackTop - pageSize < vmmKernelBase by decide)
        (show (vmmUserStackTop - pageSize).toNat % 4096 = 0 by decide) vmmPageWritable with
        ⟨u, result', none_, few⟩ | ⟨g, owner'', u, result', made'⟩
      · rw [result']
        refine iff_of_false (fun clean => ?_) (not_not_intro ⟨given, nofun, fits, ?_⟩)
        · exact made.dangles live (by decide) (filled.trans none_) (clean rfl).2
        · -- What is left after the code is too little for the stack.
          change t.freePages.toNat = 0 ∨ t.freePages.toNat = 1 ∧ _ at few
          rw [there, present] at few
          rcases few with none_ | ⟨one, absent⟩
          · omega
          · rw [absent, Bool.not_false, Bool.toNat_true]
            omega
      · rw [result']
        refine iff_of_true nofun ?_
        rw [there] at made'
        have count' := made'.freePages filled.spaces liveT (by decide)
        rw [present] at count'
        change _ = t.freePages.toNat at count'
        omega

namespace SpaceMade

/-- A new space has no table yet. -/
theorem absent (made : SpaceMade owner s t d) (spaces : Spaces owner s) (half : i < 768) :
    flagOf (t.pde d i) 0 = false := by
  -- A table would be a page whose role names the new directory, and no page had such a role.
  by_contra present
  rw [Bool.not_eq_false, made.spaces.present_iff (Function.update_self ..) half] at present
  obtain ⟨g, role⟩ := present
  by_cases same : g = d
  · rw [same, Function.update_self] at role
    cases role
  · rw [Function.update_of_ne same] at role
    exact nomatch made.free.symm.trans ((spaces.tables g d i).mp role).1

/-- A new space takes one page, for its directory. -/
theorem freePages (made : SpaceMade owner s t d) (spaces : Spaces owner s) :
    t.freePages.toNat + 1 = s.freePages.toNat := by
  -- The pages without an owner are counted, and the directory is one fewer.
  rw [made.spaces.freePages_eq, spaces.freePages_eq, made.layout.totalPages]
  exact ownerless_update made.inPool.below made.free .directory

/-- A new space without tables is undone by giving back its directory. -/
theorem undone [Inhabited ρ] (made : SpaceMade owner s t d) (spaces : Spaces owner s)
    (same : SameSpaces (Function.update owner d (some .directory)) t u) :
    Spaces owner (u.free (UInt32.ofNat (d * 4096))) ∧
      (u.free (UInt32.ofNat (d * 4096))).totalPages = s.totalPages ∧
      ∀ {d' v}, owner d' = some .directory → v < 1048576 →
        (u.free (UInt32.ofNat (d * 4096))).cell d' v = s.cell d' v := by
  have live : Function.update owner d (some .directory) d = some .directory := Function.update_self ..
  have other : d ≠ u.kernelDirectory := by
    rw [Vmm.kernelDirectory, same.kernel, made.kernel]
    intro equal
    have kernelLive := spaces.kernelLive
    rw [Vmm.kernelDirectory, ← equal, made.free] at kernelLive
    cases kernelLive
  -- Without tables the directory is a page like any other.
  have alone := same.spaces.disown live other (fun i half => by
    rw [same.tables.pdes live (by omega)]
    exact made.absent spaces half) default
  have given := alone.free (Function.update_self ..)
  have back := given.spaces
  rw [Function.update_idem, Function.update_idem, ← made.free, Function.update_eq_self] at back
  refine ⟨back, ?_, fun {d' v} live' inside => ?_⟩
  · rw [given.layout.totalPages, same.layout.totalPages, made.layout.totalPages]
  · have apart : d' ≠ d := by
      rintro rfl
      exact nomatch made.free.symm.trans live'
    have liveT : Function.update owner d (some .directory) d' = some .directory := by
      rw [Function.update_of_ne apart]
      exact live'
    have liveU : Function.update (Function.update owner d (some .directory)) d (some (.held default)) d' =
        some .directory := by
      rw [Function.update_of_ne apart]
      exact liveT
    exact (given.tables.cells liveU inside).trans
      ((same.tables.cells liveT inside).trans (made.cells live' inside))

/-- A new space with a table loses it when only its page and its directory are given back. -/
theorem leaks [Inhabited ρ] (made : SpaceMade owner s t d) (spaces : Spaces owner s) {t' : Vmm}
    (page : UserPage (Function.update owner d (some .directory)) owner' t t' d v f) (half : v < 786432)
    (same : SameSpaces owner' t' u) :
    ¬ ∀ g, ((u.free (UInt32.ofNat (f * 4096))).free (UInt32.ofNat (d * 4096))).IsFree g ↔ s.IsFree g := by
  intro clean
  have live := page.directory.mpr (Function.update_self ..)
  obtain ⟨g, role⟩ := (page.spaces.present_iff live (show v / 1024 < 768 by omega)).mp page.present
  have notPage : g ≠ f := by
    rintro rfl
    exact nomatch role.symm.trans page.held
  have notDirectory : g ≠ d := by
    rintro rfl
    exact nomatch role.symm.trans live
  -- The page of the table was free before the call.
  have fresh : owner g = none := by
    rcases page.table with equal | ⟨lacks, g', free, given⟩
    · rw [equal, Function.update_of_ne notPage, Function.update_of_ne notDirectory] at role
      exact nomatch made.free.symm.trans ((spaces.tables g d (v / 1024)).mp role).1
    · by_cases here : g = g'
      · rwa [← here, Function.update_of_ne notPage, Function.update_of_ne notDirectory] at free
      · rw [given, Function.update_of_ne here] at role
        exact absurd role (lacks g)
  have total : u.totalPages = s.totalPages := by
    rw [same.layout.totalPages, page.layout.totalPages, made.layout.totalPages]
  have inside := (same.spaces.pool role nofun).below
  obtain ⟨-, free⟩ := (clean g).mpr ((spaces.isFree_iff g).mpr ⟨total ▸ inside, fresh⟩)
  -- Neither of the two pages given back is that of the table.
  have given := same.spaces.free page.held
  have still : ∀ {h r}, h ≠ f → owner' h = some r → Function.update owner' f none h = some r :=
    fun apart role => (Function.update_of_ne apart ..).trans role
  have notHeld : d ≠ f := by
    rintro rfl
    exact nomatch live.symm.trans page.held
  have marks := pmmFreePage_marks given.spaces.pmm (given.spaces.pool (still notHeld live) nofun)
  have flag := marks.flags g (given.layout.totalPages ▸ inside)
  rw [if_neg notDirectory, given.spaces.used g (given.layout.totalPages ▸ inside), still notPage role] at flag
  exact nomatch free.symm.trans flag

end SpaceMade

/--
A failure in a space of its own is cleaned up unless it comes after the page of code was mapped.

From then on there is a table, which is never given back.
-/
theorem userDemoSpace_cleansUp [Inhabited ρ] (spaces : Spaces owner s)
    (before : NoDangling (owner · = some .directory) s) (infoOut : Bool) :
    CleansUp (owner · = some .directory) s (vmmCreateUserDemoSpace infoOut s) ↔
      ¬ (infoOut = true ∧ 3 ≤ s.freePages.toNat ∧ s.freePages.toNat < 5) := by
  unfold vmmCreateUserDemoSpace
  cases infoOut with
  | false =>
    rw [if_pos (by simp)]
    exact iff_of_true (fun _ => spaces.clean before spaces rfl fun _ _ => rfl) nofun
  | true =>
  rw [if_neg (by simp [spaces.vmmReady])]
  rcases vmmCreateAddressSpace_cases spaces with ⟨result, full⟩ | ⟨d, t, result, made⟩
  · rw [result]
    refine iff_of_true (fun _ => spaces.clean before spaces rfl fun _ _ => rfl) ?_
    rw [spaces.freePages_eq, ownerless_eq_zero full]
    omega
  have address := toNat_ofNat_page (spaces.small made.inPool)
  have live : Function.update owner d (some .directory) d = some .directory := Function.update_self ..
  have count := made.freePages spaces
  have here : vmmUserCodeBase.toNat / 4096 = 1024 := by decide
  have there : (vmmUserStackTop - pageSize).toNat / 4096 = 786431 := by decide
  rw [result]
  simp only
  rcases allocAndMapUserPage_cases made.spaces live address (show vmmUserCodeBase < vmmKernelBase by decide)
    (show vmmUserCodeBase.toNat % 4096 = 0 by decide) 0 with
    ⟨u, result', same, few⟩ | ⟨f, owner', t', result', page⟩
  · -- Nothing was mapped yet, so that there is only the directory to give back.
    rw [result']
    obtain ⟨back, total, cells⟩ := made.undone spaces same
    refine iff_of_true (fun _ => spaces.clean before back total cells) ?_
    omega
  rw [result']
  simp only
  rw [here] at page
  have count' := page.freePages made.spaces live (by decide)
  rw [made.absent spaces (by decide), Bool.not_false, Bool.toNat_true] at count'
  have liveT := page.directory.mpr live
  have absent := (page.present_other made.spaces live (show 786431 / 1024 < 768 by decide)
    (by decide)).trans (made.absent spaces (by decide))
  rcases allocAndMapUserPage_cases page.spaces liveT address
    (show vmmUserStackTop - pageSize < vmmKernelBase by decide)
    (show (vmmUserStackTop - pageSize).toNat % 4096 = 0 by decide) vmmPageWritable with
    ⟨u, result'', same, few⟩ | ⟨g, owner'', t'', result'', page'⟩
  · rw [result'']
    refine iff_of_false (fun clean => made.leaks spaces page (by decide) same (clean rfl).1) ?_
    refine not_not_intro ⟨trivial, ?_⟩
    omega
  · rw [result'']
    rw [there] at page'
    have count'' := page'.freePages page.spaces liveT (by decide)
    rw [absent, Bool.not_false, Bool.toNat_true] at count''
    refine iff_of_true nofun ?_
    omega

/--
When a failed construction of a space for demonstrations leaves everything as it was.

In a space of its own the page of the first table is lost, in the current one the page of code is
given back while it is still mapped.
-/
theorem demoSpace_cleansUp_iff [Inhabited ρ] (spaces : s.vmmReady = true → Spaces owner s)
    (current : s.vmmReady = true →
      ∃ d, owner d = some .directory ∧ s.currentPageDirectoryPhys.toNat = d * 4096)
    (before : NoDangling (owner · = some .directory) s) (infoOut : Bool) (code : Option (Nat → UInt8))
    (codeSize : UInt32) :
    (CleansUp (owner · = some .directory) s (vmmCreateUserDemoSpace infoOut s) ↔
      ¬ (s.vmmReady = true ∧ infoOut = true ∧ 3 ≤ s.freePages.toNat ∧ s.freePages.toNat < 5)) ∧
    (CleansUp (owner · = some .directory) s (vmmCreateCurrentUserDemoSpace infoOut code codeSize s) ↔
      ¬ (s.vmmReady = true ∧ infoOut = true ∧ code ≠ none ∧ codeSize ≤ pageSize ∧
        1 + tablesNeeded s.currentPageDirectoryPhys vmmUserCodeBase s ≤ s.freePages.toNat ∧
        s.freePages.toNat < 2 + tablesNeeded s.currentPageDirectoryPhys vmmUserCodeBase s +
          tablesNeeded s.currentPageDirectoryPhys (vmmUserStackTop - pageSize) s)) := by
  cases ready : s.vmmReady with
  | true =>
    obtain ⟨d, live, at_⟩ := current ready
    constructor
    · rw [userDemoSpace_cleansUp (spaces ready) before infoOut]
      simp only [true_and]
    · rw [currentUserDemoSpace_cleansUp (spaces ready) live at_ before infoOut code codeSize]
      simp only [true_and]
  | false =>
    -- Before the manager has started every call is refused.
    have refused : CleansUp (α := VmmUserSpaceInfo) (owner · = some .directory) s (none, s) :=
      fun _ => ⟨fun _ => Iff.rfl, before⟩
    constructor
    · refine iff_of_true ?_ nofun
      unfold vmmCreateUserDemoSpace
      rw [ready]
      exact refused
    · refine iff_of_true ?_ nofun
      unfold vmmCreateCurrentUserDemoSpace
      rw [ready]
      cases code with
      | none => exact refused
      | some code => exact refused

end Laws

section Example

/-- Six pages, of which three are free. -/
def tinyMachine : Vmm :=
  { smallMachine with totalPages := 6, totalMemoryBytes := 24576, bitmapBytes := 1, freePages := 3 }

/-- Four pages, of which one is free. -/
def tightMachine : Vmm :=
  { smallMachine with totalPages := 4, totalMemoryBytes := 16384, bitmapBytes := 1, freePages := 1 }

/-- A machine with no entry in any directory leaves nothing dangling. -/
theorem noDangling_empty {s : Vmm} (zeros : ∀ k, 8192 ≤ k → s.memory k = 0) :
    NoDangling (@emptyOwners Unit · = some .directory) s := by
  -- There is one directory, and none of its entries is in use.
  refine ⟨fun live _ present => ?_, fun live _ present => ?_⟩
  · rw [emptyOwners_directory live, pde_empty zeros] at present
    cases present
  · rw [emptyOwners_directory live, cell_eq_zero (by rw [pde_empty zeros]; rfl)] at present
    cases present

/-- The spaces of the machine with three free pages are in order. -/
theorem tinyMachine_spaces {ρ : Type} : Spaces (@emptyOwners ρ) tinyMachine :=
  .ofEmpty rfl (by decide) (by decide) (by decide) (by decide) rfl rfl (by decide) (by decide) (by decide)
    fun k behind => if_neg (by omega)

/-- So are those of the machine with a single one. -/
theorem tightMachine_spaces {ρ : Type} : Spaces (@emptyOwners ρ) tightMachine :=
  .ofEmpty rfl (by decide) (by decide) (by decide) (by decide) rfl rfl (by decide) (by decide) (by decide)
    fun k behind => if_neg (by omega)

/-- With a single page both calls fail, and leave everything as it was. -/
theorem demoSpace_cleansUp_tight :
    (vmmCreateUserDemoSpace true tightMachine).1.isNone = true ∧
      CleansUp (@emptyOwners Unit · = some .directory) tightMachine
        (vmmCreateUserDemoSpace true tightMachine) ∧
      CleansUp (@emptyOwners Unit · = some .directory) tightMachine
        (vmmCreateCurrentUserDemoSpace true (some fun _ => 0x90) 4 tightMachine) := by
  -- Fewer pages are free than are needed, so the condition that leaks does not hold.
  obtain ⟨own, current⟩ := demoSpace_cleansUp_iff (fun _ => tightMachine_spaces) (fun _ => ⟨2, rfl, rfl⟩)
    (noDangling_empty fun k behind => if_neg (by omega)) true (some fun _ => 0x90) 4
  refine ⟨by decide +kernel, own.mpr (by decide), current.mpr ?_⟩
  rintro ⟨-, -, -, -, enough, -⟩
  exact absurd enough (by decide +kernel)

/-- With three pages both calls fail after the page of code, and neither cleans up. -/
theorem demoSpace_leaks_tiny :
    ¬ CleansUp (@emptyOwners Unit · = some .directory) tinyMachine
        (vmmCreateUserDemoSpace true tinyMachine) ∧
      ¬ CleansUp (@emptyOwners Unit · = some .directory) tinyMachine
        (vmmCreateCurrentUserDemoSpace true (some fun _ => 0x90) 4 tinyMachine) := by
  -- Three pages are free, which is enough for the code but not for the stack.
  have before := @noDangling_empty tinyMachine fun k behind => if_neg (by omega)
  constructor
  · rw [userDemoSpace_cleansUp tinyMachine_spaces before]
    decide
  · rw [currentUserDemoSpace_cleansUp (d := 2) tinyMachine_spaces rfl rfl before]
    exact not_not_intro ⟨rfl, nofun, by decide, by decide +kernel, by decide +kernel⟩

end Example

end MyOS.Mm
