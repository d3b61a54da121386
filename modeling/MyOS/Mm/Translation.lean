import MyOS.Lib.Run
import MyOS.Mm.SpaceLife

/-! The page tables in memory behave like one independent map for each address space. -/

namespace MyOS.Mm

/-- The calls made on address spaces and on the pages mapped into them. -/
inductive VmCall where
  | allocPage
  | freePage (physAddr : UInt32)
  | createAddressSpace
  | mapPage (pageDirectoryPhys virtAddr physAddr flags : UInt32)
  | unmapPage (pageDirectoryPhys virtAddr : UInt32)
  | clearPageAccessed (pageDirectoryPhys virtAddr : UInt32)
  | destroyAddressSpace (pageDirectoryPhys : UInt32)

/-- What a call returns, with `0` for a failure, and the memory it leaves behind. -/
def vmCall (s : Vmm) : VmCall → UInt32 × Vmm
  | .allocPage => s.alloc
  | .freePage physAddr => (1, s.free physAddr)
  | .createAddressSpace =>
    match vmmCreateAddressSpace s with
    | (none, s) => (0, s)
    | (some pageDirectoryPhys, s) => (pageDirectoryPhys, s)
  | .mapPage pageDirectoryPhys virtAddr physAddr flags =>
    match vmmMapPageInDirectory pageDirectoryPhys virtAddr physAddr flags s with
    | (mapped, s) => (if mapped then 1 else 0, s)
  | .unmapPage pageDirectoryPhys virtAddr => (1, vmmUnmapPageInDirectory pageDirectoryPhys virtAddr s)
  | .clearPageAccessed pageDirectoryPhys virtAddr =>
    match vmmClearPageAccessedInDirectory pageDirectoryPhys virtAddr s with
    | (cleared, s) => (if cleared then 1 else 0, s)
  | .destroyAddressSpace pageDirectoryPhys => (1, vmmDestroyAddressSpace pageDirectoryPhys s)

/-- What a page of an address space leads to, and with which rights. -/
structure Mapping where
  frame : Nat
  writable : Bool
  user : Bool
  deriving DecidableEq

/-- Address spaces as their users see them: a map for each, and the pages handed out. -/
structure AddressSpaces where
  /-- The directory that no call destroys. -/
  kernel : Nat
  /-- The map of each live directory, by page of the user's half. -/
  maps : Nat → Option (Nat → Option Mapping)
  /-- The pages that callers got and did not give back. -/
  pages : Nat → Bool

namespace AddressSpaces

variable (a : AddressSpaces)

/-- Change what one page of one map leads to. -/
def set (d v : Nat) (mapping : Option Mapping) : AddressSpaces :=
  { a with maps := Function.update a.maps d ((a.maps d).map (Function.update · v mapping)) }

/-- What a call that returned an answer means for the maps. -/
def next (answer : UInt32) : VmCall → AddressSpaces
  | .allocPage =>
    if answer = 0 then a else { a with pages := Function.update a.pages (pageOf answer) true }
  | .freePage physAddr => { a with pages := Function.update a.pages (pageOf physAddr) false }
  | .createAddressSpace =>
    if answer = 0 then a
    else { a with maps := Function.update a.maps (pageOf answer) (some fun _ => none) }
  | .mapPage pageDirectoryPhys virtAddr physAddr flags =>
    if answer = 0 then a
    else a.set (pageOf pageDirectoryPhys) (pageOf virtAddr)
      (some ⟨pageOf physAddr, flagOf flags 1, flagOf flags 2⟩)
  | .unmapPage pageDirectoryPhys virtAddr =>
    if virtAddr.toNat % 4096 = 0 then a.set (pageOf pageDirectoryPhys) (pageOf virtAddr) none else a
  | .clearPageAccessed _ _ => a
  | .destroyAddressSpace pageDirectoryPhys =>
    if pageOf pageDirectoryPhys = a.kernel then a
    else { a with maps := Function.update a.maps (pageOf pageDirectoryPhys) none }

/-- An address names a live directory. -/
def Live (pageDirectoryPhys : UInt32) : Prop :=
  pageDirectoryPhys.toNat % 4096 = 0 ∧ (a.maps (pageOf pageDirectoryPhys)).isSome = true

/-- The calls that callers may make: on live directories, on the user's half, on pages they hold. -/
def Permits : VmCall → Prop
  | .allocPage | .createAddressSpace => True
  | .freePage physAddr => physAddr.toNat % 4096 = 0 ∧ a.pages (pageOf physAddr) = true
  | .mapPage pageDirectoryPhys virtAddr _ _ | .unmapPage pageDirectoryPhys virtAddr
  | .clearPageAccessed pageDirectoryPhys virtAddr =>
    a.Live pageDirectoryPhys ∧ virtAddr < vmmKernelBase
  | .destroyAddressSpace pageDirectoryPhys => a.Live pageDirectoryPhys

end AddressSpaces

/-- A call on memory, with the maps kept beside it. -/
def vmStep (state : Vmm × AddressSpaces) (call : VmCall) : UInt32 × Vmm × AddressSpaces :=
  let (answer, s) := vmCall state.1 call
  (answer, s, state.2.next answer call)

/-- What a table entry says. -/
def mappingOf (word : UInt32) : Option Mapping :=
  if flagOf word 0 then some ⟨pageOf word, flagOf word 1, flagOf word 2⟩ else none

/-- The rights the processor grants at an address: those both entries on the way grant. -/
def effectiveAccess (pageDirectoryPhys virtAddr : UInt32) (s : Vmm) : Option (Bool × Bool) :=
  let directoryEntry := s.entry pageDirectoryPhys (pageDirectoryIndex virtAddr)
  if directoryEntry &&& pagePresent == 0 then none
  else
    let entry := s.entry (pageTableFromDirectory directoryEntry) (pageTableIndex virtAddr)
    if entry &&& pagePresent == 0 then none
    else some (directoryEntry &&& entry &&& vmmPageWritable != 0,
      directoryEntry &&& entry &&& vmmPageUser != 0)

/-- The directory a call is about. -/
def VmCall.directory : VmCall → Option Nat
  | .mapPage pageDirectoryPhys _ _ _ | .unmapPage pageDirectoryPhys _
  | .clearPageAccessed pageDirectoryPhys _ | .destroyAddressSpace pageDirectoryPhys =>
    some (pageOf pageDirectoryPhys)
  | .allocPage | .freePage _ | .createAddressSpace => none

/-- The maps that the tables in memory amount to. -/
def asMaps (owner : Owners Unit) (s : Vmm) : AddressSpaces where
  kernel := s.kernelDirectory
  maps d := if owner d = some .directory then some fun v => mappingOf (s.cell d v) else none
  pages f := decide (owner f = some (.held ()))

/-- The maps say what the tables in memory say. -/
structure Shows (owner : Owners Unit) (s : Vmm) (a : AddressSpaces) : Prop where
  spaces : Spaces owner s
  kernel : a.kernel = s.kernelDirectory
  live : ∀ d, (a.maps d).isSome = true ↔ owner d = some .directory
  held : ∀ f, a.pages f = true ↔ owner f = some (.held ())
  maps : ∀ {d map}, a.maps d = some map → ∀ {v}, v < 786432 → map v = mappingOf (s.cell d v)

variable {owner owner' : Owners Unit} {s t : Vmm} {a : AddressSpaces} {d v : Nat} {word : UInt32}

/-- The maps read off the tables say what the tables say. -/
theorem asMaps_shows (spaces : Spaces owner s) : Shows owner s (asMaps owner s) := by
  -- The maps are read off from the same tables that they are to show.
  refine ⟨spaces, rfl, fun d => ?_, fun f => decide_eq_true_iff, fun {d map} here v _ => ?_⟩
  · unfold asMaps
    simp only
    split <;> simp [*]
  · unfold asMaps at here
    simp only at here
    split at here
    · cases here
      rfl
    · cases here

namespace AddressSpaces

/-- Changing a page makes no space and takes none apart. -/
@[simp] theorem set_isSome (a : AddressSpaces) (d v : Nat) (mapping : Option Mapping) (d' : Nat) :
    ((a.set d v mapping).maps d').isSome = (a.maps d').isSome := by
  -- Only a map that is there is changed.
  unfold set
  by_cases same : d' = d
  · subst same
    simp
  · simp [Function.update_of_ne same]

/-- Changing a page of a map changes that page of that map only. -/
theorem set_maps {mapping : Option Mapping} {d' : Nat} {map' : Nat → Option Mapping}
    (here : (a.set d v mapping).maps d' = some map') :
    ∃ map, a.maps d' = some map ∧
      ∀ v', map' v' = if d' = d ∧ v' = v then mapping else map v' := by
  -- The map that is changed is that of the space, and the others are the same.
  unfold set at here
  by_cases same : d' = d
  · subst same
    simp only [Function.update_self, Option.map_eq_some_iff] at here
    obtain ⟨map, before, rfl⟩ := here
    refine ⟨map, before, fun v' => ?_⟩
    by_cases page : v' = v
    · simp [page]
    · simp [page]
  · simp only [Function.update_of_ne same] at here
    exact ⟨map', here, fun v' => by rw [if_neg fun both => same both.1]⟩

end AddressSpaces

/-- What a call does to the tables, as far as the maps and the other directories are concerned. -/
structure Stepped (owner : Owners Unit) (s t : Vmm) (a' : AddressSpaces) (call : VmCall)
    (answer : UInt32) : Prop where
  shows : ∃ owner', Shows owner' t a'
  kernel : t.kernelDirectory = s.kernelDirectory
  others : ∀ {d v}, owner d = some .directory → call.directory ≠ some d ∨ answer = 0 →
    v < 1048576 → t.cell d v = s.cell d v
  upper : ∀ {v}, 786432 ≤ v → v < 1048576 → t.cell s.kernelDirectory v = s.cell s.kernelDirectory v

namespace Shows

/-- The live directories are those that have a map. -/
theorem directory (shows : Shows owner s a) {dir : UInt32} (live : a.Live dir) :
    owner (pageOf dir) = some .directory ∧ dir.toNat = pageOf dir * 4096 :=
  ⟨(shows.live _).mp live.2, toNat_eq_of_aligned live.1⟩

/-- A change of the tables that no map notices. -/
theorem sameCells (shows : Shows owner s a) (spaces : Spaces owner' t)
    (kernel : t.kernelPageDirectoryPhys = s.kernelPageDirectoryPhys)
    (roles : ∀ f r, (∀ d i, r ≠ .table d i) → (owner' f = some r ↔ owner f = some r))
    (same : ∀ {d v}, owner d = some .directory → v < 786432 →
      mappingOf (t.cell d v) = mappingOf (s.cell d v)) : Shows owner' t a := by
  -- Roles and entries are all that the maps are read off from.
  refine ⟨spaces, shows.kernel.trans (congrArg pageOf kernel).symm, fun d => ?_, fun f => ?_, ?_⟩
  · rw [shows.live, roles d .directory nofun]
  · rw [shows.held, roles f (.held ()) nofun]
  · intro d map here v half
    have live := (shows.live d).mp (by rw [here]; rfl)
    rw [same live half, shows.maps here half]

/-- A change of one page is a change of one page of a map. -/
theorem cellChange (shows : Shows owner s a) (change : CellChange owner owner' s t d v word) :
    Shows owner' t (a.set d v (mappingOf word)) := by
  -- The one entry that changes is that of the page, and the map changes at the page.
  have framed := change.framed
  refine ⟨change.spaces, shows.kernel.trans (congrArg pageOf framed.kernel).symm, fun d' => ?_,
    fun f => ?_, ?_⟩
  · rw [AddressSpaces.set_isSome, shows.live, framed.directory]
  · exact (shows.held f).trans (framed.roles f (.held ()) nofun).symm
  · intro d' map' here v' half
    obtain ⟨map, before, pages⟩ := AddressSpaces.set_maps here
    have live := (shows.live d').mp (by rw [before]; rfl)
    rw [pages, change.cells live (by omega)]
    split
    · rfl
    · exact shows.maps before half

end Shows

/-- A change of one page below the kernel's half, seen as a call on its directory. -/
theorem CellChange.stepped {call : VmCall} {answer : UInt32} {a' : AddressSpaces}
    (change : CellChange owner owner' s t d v word) (spaces : Spaces owner s) (half : v < 786432)
    (about : call.directory = some d)
    (failed : answer = 0 → word = s.cell d v) (shows : Shows owner' t a') :
    Stepped owner s t a' call answer := by
  -- The call is about this directory, so the other spaces keep what they lead to.
  refine ⟨⟨owner', shows⟩, congrArg pageOf change.framed.kernel, ?_, ?_⟩
  · intro d' v' live reason inside
    rw [change.cells live inside]
    split
    · next same =>
      rcases reason with other | zero
      · exact absurd (about.trans (congrArg some same.1.symm)) other
      · rw [failed zero, same.1, same.2]
    · rfl
  · intro v' low high
    rw [change.cells spaces.kernelLive high, if_neg (by omega)]

/-- Without a change nothing is to be shown. -/
theorem Shows.stepped (shows : Shows owner s a) (call : VmCall) (answer : UInt32) :
    Stepped owner s s a call answer :=
  ⟨⟨owner, shows⟩, rfl, fun _ _ _ => rfl, fun _ _ => rfl⟩

section Calls

variable (shows : Shows owner s a) {dir virtAddr physAddr flags : UInt32}

include shows

/-- A page is handed out. -/
theorem alloc_stepped :
    Stepped owner s s.alloc.2 (a.next s.alloc.1 .allocPage) .allocPage s.alloc.1 := by
  rcases shows.spaces.alloc_cases () with ⟨result, -⟩ | ⟨f, t, result, taken⟩
  · rw [result]
    exact shows.stepped _ _
  · rw [result]
    have small := shows.spaces.small taken.inPool
    have nonzero := ne_zero_of_page (toNat_ofNat_page small) (shows.spaces.positive taken.inPool)
    -- No directory stood in the page that was free.
    have roles : ∀ d, Function.update owner f (some (.held ())) d = some .directory ↔
        owner d = some .directory := fun d =>
      Spaces.update_roles (fun r => r = .held ()) (by rw [taken.free]; nofun)
        (by rintro r ⟨⟩; rfl) nofun
    refine ⟨⟨_, taken.spaces, ?_, ?_, ?_, ?_⟩, congrArg pageOf taken.kernel,
      fun live _ inside => taken.tables.cells live inside,
      fun _ high => taken.tables.cells shows.spaces.kernelLive high⟩
    · rw [AddressSpaces.next, if_neg nonzero]
      exact shows.kernel.trans (congrArg pageOf taken.kernel).symm
    · intro d
      rw [AddressSpaces.next, if_neg nonzero, roles d]
      exact shows.live d
    · intro g
      rw [AddressSpaces.next, if_neg nonzero, pageOf_ofNat_page small]
      by_cases here : g = f
      · simp [here]
      · simp only [Function.update_of_ne here]
        exact shows.held g
    · intro d map here v half
      rw [AddressSpaces.next, if_neg nonzero] at here
      have live := (shows.live d).mp (by rw [here]; rfl)
      rw [taken.tables.cells live (by omega)]
      exact shows.maps here half

/-- A page that was handed out is given back. -/
theorem free_stepped (aligned : physAddr.toNat % 4096 = 0) (held : a.pages (pageOf physAddr) = true) :
    Stepped owner s (s.free physAddr) (a.next 1 (.freePage physAddr)) (.freePage physAddr) 1 := by
  -- The page is one that a caller holds, so no table is on it.
  have owned := (shows.held _).mp held
  have inPool := shows.spaces.pool owned nofun
  have address : physAddr = UInt32.ofNat (pageOf physAddr * 4096) := by
    apply UInt32.toNat_inj.mp
    rw [toNat_ofNat_page (shows.spaces.small inPool), toNat_eq_of_aligned aligned]
  have given := shows.spaces.free owned
  rw [← address] at given
  have roles : ∀ d, Function.update owner (pageOf physAddr) none d = some .directory ↔
      owner d = some .directory := by
    intro d
    refine Spaces.update_roles (fun r => r = .held ()) ?_ ?_ (r := .directory) nofun
    · rw [owned]
      rintro r ⟨⟩
      rfl
    · nofun
  refine ⟨⟨_, given.spaces, shows.kernel.trans (congrArg pageOf given.kernel).symm, ?_, ?_, ?_⟩,
    congrArg pageOf given.kernel, fun live _ inside => given.tables.cells live inside,
    fun _ high => given.tables.cells shows.spaces.kernelLive high⟩
  · intro d
    rw [roles d]
    exact shows.live d
  · intro g
    rw [AddressSpaces.next]
    by_cases here : g = pageOf physAddr
    · simp [here]
    · simp only [Function.update_of_ne here]
      exact shows.held g
  · intro d map here v half
    have live := (shows.live d).mp (by rw [show a.maps d = some map from here]; rfl)
    rw [given.tables.cells live (by omega)]
    exact shows.maps here half

/-- A space is made, or there is no memory for it. -/
theorem create_stepped :
    Stepped owner s (vmCall s .createAddressSpace).2
      (a.next (vmCall s .createAddressSpace).1 .createAddressSpace) .createAddressSpace
      (vmCall s .createAddressSpace).1 := by
  unfold vmCall
  rcases vmmCreateAddressSpace_cases shows.spaces with ⟨result, -⟩ | ⟨f, t, result, made⟩
  · rw [result]
    exact shows.stepped _ _
  · rw [result]
    have small := shows.spaces.small made.inPool
    have nonzero := ne_zero_of_page (toNat_ofNat_page small) (shows.spaces.positive made.inPool)
    refine ⟨⟨_, made.spaces, ?_, ?_, ?_, ?_⟩, congrArg pageOf made.kernel,
      fun live _ inside => made.cells live inside,
      fun _ high => made.cells shows.spaces.kernelLive high⟩
    · rw [AddressSpaces.next, if_neg nonzero]
      exact shows.kernel.trans (congrArg pageOf made.kernel).symm
    · intro d
      rw [AddressSpaces.next, if_neg nonzero, pageOf_ofNat_page small]
      by_cases here : d = f
      · simp [here]
      · simp only [Function.update_of_ne here]
        exact shows.live d
    · intro g
      rw [AddressSpaces.next, if_neg nonzero]
      refine (shows.held g).trans
        (Spaces.update_roles (fun r => r = .directory) ?_ ?_ (r := .held ()) nofun).symm
      · rw [made.free]
        nofun
      · rintro r ⟨⟩
        rfl
    · intro d map here v half
      rw [AddressSpaces.next, if_neg nonzero, pageOf_ofNat_page small] at here
      by_cases new : d = f
      · -- The new map is empty, and so is the lower half of the new directory.
        subst new
        simp only [Function.update_self, Option.some.injEq] at here
        rw [made.lower half, ← here]
        rfl
      · simp only [Function.update_of_ne new] at here
        have live := (shows.live d).mp (by rw [here]; rfl)
        rw [made.cells live (by omega)]
        exact shows.maps here half

/-- A page is mapped, unless its address is not aligned or no table can be had. -/
theorem map_stepped (live : a.Live dir) (half : virtAddr < vmmKernelBase) :
    Stepped owner s (vmCall s (.mapPage dir virtAddr physAddr flags)).2
      (a.next (vmCall s (.mapPage dir virtAddr physAddr flags)).1
        (.mapPage dir virtAddr physAddr flags))
      (.mapPage dir virtAddr physAddr flags) (vmCall s (.mapPage dir virtAddr physAddr flags)).1 := by
  -- The code refuses addresses that are not aligned, and so do the maps.
  obtain ⟨owned, at_⟩ := shows.directory live
  unfold vmCall
  by_cases unaligned : virtAddr.toNat % 4096 ≠ 0 ∨ physAddr.toNat % 4096 ≠ 0
  · simp only [vmmMapPageInDirectory_unaligned unaligned]
    exact shows.stepped _ _
  simp only [not_or, not_not] at unaligned
  rcases vmmMapPageInDirectory_cases shows.spaces owned at_ half unaligned.1 unaligned.2 flags with
    ⟨result, -⟩ | ⟨owner', t, result, change⟩
  · simp only [result]
    exact shows.stepped _ _
  · simp only [result]
    refine change.stepped shows.spaces (page_half half) rfl nofun ?_
    have entry : mappingOf (leafEntry physAddr flags) =
        some ⟨pageOf physAddr, flagOf flags 1, flagOf flags 2⟩ := by
      obtain ⟨present, writable, user⟩ := leafEntry_flags physAddr flags
      rw [mappingOf, if_pos present, leafEntry_page, writable, user]
    have shown := shows.cellChange change
    rw [entry] at shown
    exact shown

/-- A page is unmapped. -/
theorem unmap_stepped (live : a.Live dir) (half : virtAddr < vmmKernelBase) :
    Stepped owner s (vmmUnmapPageInDirectory dir virtAddr s) (a.next 1 (.unmapPage dir virtAddr))
      (.unmapPage dir virtAddr) 1 := by
  obtain ⟨owned, at_⟩ := shows.directory live
  rw [AddressSpaces.next]
  by_cases aligned : virtAddr.toNat % 4096 = 0
  · rw [if_pos aligned]
    rcases vmmUnmapPageInDirectory_cases shows.spaces owned at_ half aligned with
      ⟨result, absent⟩ | change
    · -- There was nothing to unmap, so the map is set to what it says already.
      rw [result]
      have same : CellChange owner owner s s (pageOf dir) (pageOf virtAddr)
          (s.cell (pageOf dir) (pageOf virtAddr)) := .refl shows.spaces _ _
      refine same.stepped shows.spaces (page_half half) rfl nofun ?_
      have shown := shows.cellChange same
      have nothing : mappingOf (s.cell (pageOf dir) (pageOf virtAddr)) = none :=
        if_neg (by simp [show flagOf (s.cell (pageOf dir) (pageOf virtAddr)) 0 = false from absent])
      rwa [nothing] at shown
    · exact change.stepped shows.spaces (page_half half) rfl nofun (shows.cellChange change)
  · rw [if_neg aligned, vmmUnmapPageInDirectory_unaligned aligned]
    exact shows.stepped _ _

/-- The accessed flag of a page is lowered, which no map notices. -/
theorem clear_stepped (live : a.Live dir) (half : virtAddr < vmmKernelBase) :
    Stepped owner s (vmCall s (.clearPageAccessed dir virtAddr)).2 a
      (.clearPageAccessed dir virtAddr) (vmCall s (.clearPageAccessed dir virtAddr)).1 := by
  obtain ⟨owned, at_⟩ := shows.directory live
  unfold vmCall
  rcases vmmClearPageAccessedInDirectory_cases shows.spaces owned at_ half with
    ⟨result, -⟩ | ⟨t, result, present, change⟩
  · simp only [result]
    exact shows.stepped _ _
  · simp only [result]
    refine change.stepped shows.spaces (page_half half) rfl nofun ?_
    refine shows.sameCells change.spaces change.framed.kernel change.framed.roles ?_
    intro d v live' small
    rw [change.cells live' (by omega)]
    split
    · next same =>
      rw [same.1, same.2]
      -- The accessed flag is none of those that the maps speak of.
      have page : pageOf (~~~vmmPageAccessed) = 2 ^ 20 - 1 := rfl
      have flag0 : flagOf (~~~vmmPageAccessed) 0 = true := rfl
      have flag1 : flagOf (~~~vmmPageAccessed) 1 = true := rfl
      have flag2 : flagOf (~~~vmmPageAccessed) 2 = true := rfl
      rw [mappingOf, mappingOf, flagOf_and, flagOf_and, flagOf_and, pageOf_and, page, flag0, flag1,
        flag2, Bool.and_true, Bool.and_true, Bool.and_true,
        Nat.and_two_pow_sub_one_of_lt_two_pow (pageOf_lt _)]
    · rfl

/-- A space is taken apart, unless it is the kernel's. -/
theorem destroy_stepped (live : a.Live dir) :
    Stepped owner s (vmmDestroyAddressSpace dir s) (a.next 1 (.destroyAddressSpace dir))
      (.destroyAddressSpace dir) 1 := by
  -- The kernel's own space is left alone by both.
  obtain ⟨owned, at_⟩ := shows.directory live
  rw [AddressSpaces.next]
  by_cases kernel : pageOf dir = a.kernel
  · rw [if_pos kernel, vmmDestroyAddressSpace_kernel shows.spaces (by rw [at_, kernel, shows.kernel])]
    exact shows.stepped _ _
  · rw [if_neg kernel]
    rw [shows.kernel] at kernel
    have gone := vmmDestroyAddressSpace_gone shows.spaces owned at_ kernel
    refine ⟨⟨_, gone.spaces, shows.kernel.trans (congrArg pageOf gone.kernel).symm, ?_, ?_, ?_⟩,
      congrArg pageOf gone.kernel, ?_, ?_⟩
    · intro d
      rw [withoutSpace_roles owner (pageOf dir) (r := .directory) nofun]
      by_cases here : d = pageOf dir
      · simp [here]
      · simp only [Function.update_of_ne here, here, ne_eq, not_false_eq_true, true_and]
        exact shows.live d
    · intro g
      rw [withoutSpace_roles owner (pageOf dir) (r := .held ()) nofun]
      refine (shows.held g).trans ⟨fun role => ⟨?_, role⟩, fun role => role.2⟩
      rintro rfl
      exact nomatch role.symm.trans owned
    · intro d map here v half
      by_cases same : d = pageOf dir
      · simp [same] at here
      · simp only [Function.update_of_ne same] at here
        have live' := (shows.live d).mp (by rw [here]; rfl)
        rw [gone.cells live' same (by omega)]
        exact shows.maps here half
    · intro d v live' other inside
      refine gone.cells live' ?_ inside
      rintro rfl
      rcases other with other | zero
      · exact other rfl
      · exact absurd zero (by decide)
    · exact fun _ high => gone.cells shows.spaces.kernelLive (Ne.symm kernel) high

/-- Every call does to the tables what it means for the maps. -/
theorem vmCall_stepped (call : VmCall) (permitted : a.Permits call) :
    Stepped owner s (vmCall s call).2 (a.next (vmCall s call).1 call) call (vmCall s call).1 := by
  -- One case for each call, by the lemma about its function.
  cases call with
  | allocPage => exact alloc_stepped shows
  | freePage physAddr => exact free_stepped shows permitted.1 permitted.2
  | createAddressSpace => exact create_stepped shows
  | mapPage dir virtAddr physAddr flags => exact map_stepped shows permitted.1 permitted.2
  | unmapPage dir virtAddr => exact unmap_stepped shows permitted.1 permitted.2
  | clearPageAccessed dir virtAddr => exact clear_stepped shows permitted.1 permitted.2
  | destroyAddressSpace dir => exact destroy_stepped shows permitted

end Calls

/-- What an address leads to is what its map says, at the offset in the page. -/
theorem Shows.mapping (shows : Shows owner s a) {map : Nat → Option Mapping}
    (here : a.maps d = some map) {virtAddr : UInt32} (half : virtAddr < vmmKernelBase) :
    vmmGetMappingInDirectory (UInt32.ofNat (d * 4096)) virtAddr s =
        (map (pageOf virtAddr)).map fun m => UInt32.ofNat (m.frame * 4096 + virtAddr.toNat % 4096) := by
  -- The map says what the entry of the page leads to.
  have live := (shows.live d).mp (by rw [here]; rfl)
  have inPool := shows.spaces.directory_inPool live
  have said : map (pageOf virtAddr) = mappingOf (s.cell d (virtAddr.toNat / 4096)) :=
    shows.maps here (page_half half)
  rw [vmmGetMappingInDirectory_eq (toNat_ofNat_page (shows.spaces.small inPool))
    (shows.spaces.positive inPool), said, mappingOf, toNat_frame_or_offset]
  cases flagOf (s.cell d (virtAddr.toNat / 4096)) 0 <;> rfl

/-- The rights at an address are what its map says. -/
theorem Shows.access (shows : Shows owner s a) {map : Nat → Option Mapping}
    (here : a.maps d = some map) {virtAddr : UInt32} (half : virtAddr < vmmKernelBase) :
    effectiveAccess (UInt32.ofNat (d * 4096)) virtAddr s =
      (map (pageOf virtAddr)).map fun m => (m.writable, m.user) := by
  have spaces := shows.spaces
  have live := (shows.live d).mp (by rw [here]; rfl)
  have at_ := toNat_ofNat_page (spaces.small (spaces.directory_inPool live))
  have small := page_half half
  have inside : virtAddr.toNat / 4096 / 1024 < 768 := by omega
  have writableFlag : ∀ entry : UInt32, (entry &&& vmmPageWritable != 0) = flagOf entry 1 :=
    fun entry => and_ne_zero_eq_flagOf entry rfl
  unfold effectiveAccess
  simp only [pageDirectoryIndex_eq, pageTableIndex_eq, entry_directory at_, and_pagePresent_eq_zero,
    and_vmmPageUser_ne_zero, writableFlag, flagOf_and]
  have said : map (pageOf virtAddr) = mappingOf (s.cell d (virtAddr.toNat / 4096)) :=
    shows.maps here small
  rw [said, mappingOf]
  by_cases present : flagOf (s.pde d (virtAddr.toNat / 4096 / 1024)) 0 = true
  · rw [if_neg (by simp [present]), entry_table present]
    by_cases mapped : flagOf (s.cell d (virtAddr.toNat / 4096)) 0 = true
    · rw [if_neg (by simp [mapped]), if_pos mapped, spaces.writable live inside present]
      -- The directory entry lets the user through wherever a table entry does.
      have user := spaces.user live small mapped
      cases asked : flagOf (s.cell d (virtAddr.toNat / 4096)) 2 with
      | true => simp [user asked]
      | false => simp
    · rw [if_pos (by simpa using mapped), if_neg mapped]
      rfl
  · rw [if_pos (by simpa using present), cell_eq_zero (Bool.eq_false_iff.mpr present)]
    rfl

/-- Where two states have the same cell they have the same translation. -/
theorem mapping_congr {dir dir' : UInt32} {d' : Nat} (at_ : dir.toNat = d * 4096)
    (at' : dir'.toNat = d' * 4096) (positive : 0 < d) (positive' : 0 < d') {virtAddr : UInt32}
    (same : t.cell d (virtAddr.toNat / 4096) = s.cell d' (virtAddr.toNat / 4096)) :
    vmmGetMappingInDirectory dir virtAddr t = vmmGetMappingInDirectory dir' virtAddr s := by
  -- The translation is told by the cell.
  rw [vmmGetMappingInDirectory_eq at_ positive, vmmGetMappingInDirectory_eq at' positive', same]

/-- The kernel's half of every space is that of the kernel's own directory. -/
theorem Spaces.upper_cell (spaces : Spaces owner s) (live : owner d = some .directory)
    (low : 786432 ≤ v) (high : v < 1048576) : s.cell d v = s.cell s.kernelDirectory v := by
  -- The entries of the directory are shared there, and so are the tables.
  unfold Vmm.cell
  rw [spaces.shared live (by omega) (by omega)]

/-- Memory after a run, with the maps beside it and the kernel's half as it was. -/
theorem run_shows {owner : Owners Unit} {s : Vmm} (spaces : Spaces owner s) (calls : List VmCall)
    (permitted : ∀ before call after, calls = before ++ call :: after →
      (runState vmStep (s, asMaps owner s) before).2.Permits call) :
    (∃ owner', Shows owner' (runState vmStep (s, asMaps owner s) calls).1
      (runState vmStep (s, asMaps owner s) calls).2) ∧
    (runState vmStep (s, asMaps owner s) calls).1.kernelDirectory = s.kernelDirectory ∧
    ∀ v, 786432 ≤ v → v < 1048576 →
      (runState vmStep (s, asMaps owner s) calls).1.cell s.kernelDirectory v =
        s.cell s.kernelDirectory v := by
  -- By induction on the calls: each one is a step of the maps, and leaves the kernel's half alone.
  refine runState_invariant_along vmStep
    (fun state => (∃ owner', Shows owner' state.1 state.2) ∧
      state.1.kernelDirectory = s.kernelDirectory ∧
      ∀ v, 786432 ≤ v → v < 1048576 →
        state.1.cell s.kernelDirectory v = s.cell s.kernelDirectory v)
    (fun state call => state.2.Permits call) ?_ permitted
    ⟨⟨owner, asMaps_shows spaces⟩, rfl, fun _ _ _ => rfl⟩
  rintro ⟨t, a⟩ call allowed ⟨⟨owner', shows⟩, kernel, upper⟩
  have stepped := vmCall_stepped shows call allowed
  refine ⟨stepped.shows, stepped.kernel.trans kernel, fun v low high => ?_⟩
  have same := stepped.upper low high
  rw [kernel] at same
  exact same.trans (upper v low high)

/-- The tables in memory are independent maps, beside a half that is the kernel's as it was. -/
structure Independent (start t : Vmm) (a : AddressSpaces) : Prop where
  /-- An address leads where the map of its directory says, at its offset in the page. -/
  translation : ∀ d map, a.maps d = some map → ∀ virtAddr : UInt32, virtAddr < vmmKernelBase →
    vmmGetMappingInDirectory (UInt32.ofNat (d * 4096)) virtAddr t =
      (map (pageOf virtAddr)).map fun m => UInt32.ofNat (m.frame * 4096 + virtAddr.toNat % 4096)
  access : ∀ d map, a.maps d = some map → ∀ virtAddr : UInt32, virtAddr < vmmKernelBase →
    effectiveAccess (UInt32.ofNat (d * 4096)) virtAddr t =
      (map (pageOf virtAddr)).map fun m => (m.writable, m.user)
  kernelHalf : ∀ d, (a.maps d).isSome = true → ∀ virtAddr : UInt32, vmmKernelBase ≤ virtAddr →
    vmmGetMappingInDirectory (UInt32.ofNat (d * 4096)) virtAddr t =
      vmmGetMappingInDirectory start.kernelPageDirectoryPhys virtAddr start
  /-- A call changes no translation of another directory, and none at all if it fails. -/
  untouched : ∀ call, a.Permits call → ∀ d, (a.maps d).isSome = true →
    call.directory ≠ some d ∨ (vmCall t call).1 = 0 → ∀ virtAddr : UInt32,
      vmmGetMappingInDirectory (UInt32.ofNat (d * 4096)) virtAddr (vmCall t call).2 =
        vmmGetMappingInDirectory (UInt32.ofNat (d * 4096)) virtAddr t

/-- After every run of permitted calls the page tables are independent maps. -/
theorem run_refines_maps {owner : Owners Unit} {s : Vmm} (spaces : Spaces owner s)
    (calls : List VmCall)
    (permitted : ∀ before call after, calls = before ++ call :: after →
      (runState vmStep (s, asMaps owner s) before).2.Permits call) :
    Independent s (runState vmStep (s, asMaps owner s) calls).1
      (runState vmStep (s, asMaps owner s) calls).2 := by
  -- The maps beside the run show what the tables say at its end.
  obtain ⟨⟨owner', shows⟩, kernel, upper⟩ := run_shows spaces calls permitted
  generalize runState vmStep (s, asMaps owner s) calls = state at shows kernel upper
  obtain ⟨t, a⟩ := state
  have address : ∀ {d}, (a.maps d).isSome = true →
      owner' d = some .directory ∧ (UInt32.ofNat (d * 4096)).toNat = d * 4096 ∧ 0 < d := by
    intro d live
    have owned := (shows.live d).mp live
    have inPool := shows.spaces.directory_inPool owned
    exact ⟨owned, toNat_ofNat_page (shows.spaces.small inPool), shows.spaces.positive inPool⟩
  refine ⟨fun d map here virtAddr half => shows.mapping here half,
    fun d map here virtAddr half => shows.access here half, fun d live virtAddr high => ?_,
    fun call allowed d live reason virtAddr => ?_⟩
  · obtain ⟨owned, at_, positive⟩ := address live
    have low : 786432 ≤ virtAddr.toNat / 4096 := by
      rw [UInt32.le_iff_toNat_le] at high
      change 3221225472 ≤ virtAddr.toNat at high
      omega
    have first := spaces.positive (spaces.directory_inPool spaces.kernelLive)
    refine mapping_congr at_ spaces.kernelAligned positive first ?_
    have shared := shows.spaces.upper_cell owned low (page_small virtAddr)
    rw [show t.kernelDirectory = s.kernelDirectory from kernel] at shared
    exact shared.trans (upper _ low (page_small virtAddr))
  · obtain ⟨owned, at_, positive⟩ := address live
    have stepped := vmCall_stepped shows call allowed
    exact mapping_congr at_ at_ positive positive (stepped.others owned reason (page_small virtAddr))

section Empty

variable {ρ : Type} {s : Vmm}

/-- Who owns what on a machine with a page not used, one with the bitmap, and one with the kernel's
directory. -/
def emptyOwners : Owners ρ := fun f =>
  if f < 2 then some .kernel else if f = 2 then some .directory else none

/-- Page two is the only directory. -/
theorem emptyOwners_directory {d : Nat} (live : @emptyOwners ρ d = some .directory) : d = 2 := by
  -- The pages before it are the kernel's.
  unfold emptyOwners at live
  split at live
  · cases live
  · split at live
    · assumption
    · cases live

/-- A directory without entries leaves every page of its space without a table. -/
theorem pde_empty (zeros : ∀ k, 8192 ≤ k → s.memory k = 0) (i : Nat) : s.pde 2 i = 0 := by
  rw [Vmm.pde, wordAt, zeros _ (by omega), zeros _ (by omega), zeros _ (by omega), zeros _ (by omega)]
  rfl

/-- A machine with three pages taken, on which nothing is mapped yet. -/
theorem Spaces.ofEmpty (ready : s.ready = true)
    (bytes : s.bitmapBytes.toNat = (s.totalPages.toNat + 7) / 8) (pages : s.totalPages.toNat < 2 ^ 20)
    (noWrap : s.bitmapBase.toNat + s.bitmapBytes.toNat + 4095 < 2 ^ 32)
    (counted : s.freePages.toNat = clearCount s.bitmapTest s.totalPages.toNat)
    (started : s.vmmReady = true) (kernel : s.kernelPageDirectoryPhys = 8192) (first : s.firstPage = 2)
    (room : 2 < s.totalPages.toNat)
    (taken : ∀ f, f < s.totalPages.toNat → s.bitmapTest f = decide (f < 3))
    (zeros : ∀ k, 8192 ≤ k → s.memory k = 0) : Spaces (@emptyOwners ρ) s := by
  -- Three pages have roles, and every entry of the directory is zero.
  have sound : s.toPmm.Sound := by
    refine ⟨ready, bytes, pages, noWrap, fun page low inside => ?_, counted⟩
    rw [first] at low
    rw [taken page inside]
    exact decide_eq_true (by omega)
  have flags : ∀ f, f < s.totalPages.toNat → s.bitmapTest f = (@emptyOwners ρ f).isSome := by
    intro f inside
    rw [taken f inside]
    unfold emptyOwners
    by_cases low : f < 2
    · rw [if_pos low]
      exact decide_eq_true (by omega)
    · rw [if_neg low]
      by_cases here : f = 2
      · rw [if_pos here, here]
        rfl
      · rw [if_neg here]
        exact decide_eq_false (by omega)
  have directory : s.kernelDirectory = 2 := by
    unfold Vmm.kernelDirectory
    rw [kernel]
    rfl
  have empty := pde_empty zeros
  refine ⟨sound, started, by rw [directory, kernel]; rfl, by rw [directory]; rfl, flags, ?_, ?_, ?_, ?_,
    ?_, ?_⟩
  · intro f r role outside
    unfold emptyOwners at role
    refine ⟨?_, ?_⟩
    · rw [first]
      by_contra low
      rw [if_pos (by omega)] at role
      cases role
      exact outside rfl
    · by_contra high
      rw [if_neg (by omega), if_neg (by omega)] at role
      cases role
  · intro f d i
    constructor
    · intro role
      unfold emptyOwners at role
      split at role
      · cases role
      · split at role <;> cases role
    · rintro ⟨live, -, present, -⟩
      rw [emptyOwners_directory live, empty] at present
      cases present
  · intro d i live _ _
    rw [emptyOwners_directory live, directory]
  · intro i _ _ present
    rw [directory, empty] at present
    cases present
  · intro d i live _ present
    rw [emptyOwners_directory live, empty] at present
    cases present
  · intro d v live _ present
    rw [emptyOwners_directory live, cell_eq_zero (by rw [empty]; rfl)] at present
    cases present

end Empty

section Example

/-- Sixteen pages: one not used, one with the bitmap, and one with the kernel's directory. -/
def smallMachine : Vmm where
  memory k := if k = 4096 then 7 else 0
  bitmapBase := 4096
  bitmapBytes := 2
  totalMemoryBytes := 65536
  totalPages := 16
  freePages := 13
  ready := true
  currentPageDirectoryPhys := 8192
  kernelPageDirectoryPhys := 8192
  kernelMappedBytes := 0
  mappedPages := 0
  vmmReady := true

/-- The spaces of the small machine are in order. -/
theorem smallMachine_spaces {ρ : Type} : Spaces (@emptyOwners ρ) smallMachine :=
  .ofEmpty rfl (by decide) (by decide) (by decide) (by decide) rfl rfl (by decide) (by decide) (by decide)
    fun k behind => if_neg (by omega)

/-- A new space, a page, and the page mapped at the place of a program's code. -/
def smallCalls : List VmCall :=
  [.createAddressSpace, .allocPage, .mapPage 0x3000 0x00800000 0x4000 6]

example : (runAll vmStep (smallMachine, asMaps (@emptyOwners Unit) smallMachine) smallCalls).1 =
    [0x3000, 0x4000, 1] := by
  decide +kernel

/-- The page is found behind the address where it was mapped. -/
theorem run_refines_maps_small :
    vmmGetMappingInDirectory 0x3000 0x00800123
      (runState vmStep (smallMachine, asMaps (@emptyOwners Unit) smallMachine) smallCalls).1 =
        some 0x4123 := by
  -- The maps are computed, and the tables say the same.
  have live : (((runState vmStep (smallMachine, asMaps (@emptyOwners Unit) smallMachine)
      smallCalls).2.maps 3).bind (· 0x800)) = some ⟨4, true, true⟩ := by decide +kernel
  obtain ⟨map, here, page⟩ := Option.bind_eq_some_iff.mp live
  have refined := run_refines_maps (smallMachine_spaces (ρ := Unit)) smallCalls ?_
  · refine (refined.translation 3 map here 0x00800123 (by decide)).trans ?_
    rw [show pageOf 0x00800123 = 0x800 from rfl, page]
    rfl
  · intro before call after split
    match before, split with
    | [], split =>
      cases split
      trivial
    | [_], split =>
      cases split
      trivial
    | [_, _], split =>
      cases split
      refine ⟨⟨by decide, ?_⟩, by decide⟩
      decide +kernel
    | _ :: _ :: _ :: _, split => simp [smallCalls] at split

end Example

end MyOS.Mm
