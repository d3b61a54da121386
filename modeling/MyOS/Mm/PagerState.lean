import MyOS.Lib.Bitmap
import MyOS.Mm.Pager
import MyOS.Mm.VmmLaws

/-! What is always true of the pager: its entries, the frames they are in, and the page tables. -/

namespace MyOS.Mm

/-- Who holds a page that was handed out. -/
inductive Holder where
  /-- An entry of the pager. -/
  | page (i : Nat)
  /-- A slot of the memory demonstration. -/
  | slot (k : Nat)
  | other
  deriving Inhabited, DecidableEq

/-- Two table entries lead to the same page and grant the same rights. -/
structure Alike (a b : UInt32) : Prop where
  page : pageOf a = pageOf b
  flags : ∀ k, k < 3 → flagOf a k = flagOf b k

namespace Alike

variable {a b c : UInt32}

/-- An entry is like itself. -/
theorem refl (a : UInt32) : Alike a a := ⟨rfl, fun _ _ => rfl⟩

/-- Entries that are like a third one are like each other. -/
theorem trans (first : Alike a b) (second : Alike b c) : Alike a c :=
  ⟨first.page.trans second.page, fun k small => (first.flags k small).trans (second.flags k small)⟩

/-- Lowering the accessed flag leaves the rest of an entry as it is. -/
theorem clearAccessed (word : UInt32) : Alike (word &&& ~~~vmmPageAccessed) word := by
  -- The mask has every bit of the page number and the flags of the rights.
  have page : pageOf (~~~vmmPageAccessed) = 2 ^ 20 - 1 := rfl
  refine ⟨?_, fun k small => ?_⟩
  · rw [pageOf_and, page, Nat.and_two_pow_sub_one_of_lt_two_pow (pageOf_lt word)]
  · have flag : ∀ k, k < 3 → flagOf (~~~vmmPageAccessed) k = true := by decide
    rw [flagOf_and, flag k small, Bool.and_true]

/-- Raising flags above the rights leaves the rest of an entry as it is. -/
theorem raiseFlags (word : UInt32) {mask : UInt32} (page : pageOf mask = 0)
    (flags : ∀ k, k < 3 → flagOf mask k = false) : Alike (word ||| mask) word := by
  -- The mask has no bit of the page number, and none of the rights.
  refine ⟨?_, fun k small => ?_⟩
  · rw [pageOf_or, page, Nat.or_zero]
  · rw [flagOf_or, flags k small, Bool.or_false]

end Alike

/-- Memory after steps that change what is known about accesses only. -/
structure Touched {ρ : Type} (owner : Owners ρ) (s t : Vmm) : Prop where
  spaces : Spaces owner t
  cells : ∀ {d v}, owner d = some .directory → v < 1048576 → Alike (t.cell d v) (s.cell d v)
  held : ∀ {f r}, owner f = some (.held r) → s.memory.SamePage t.memory f
  layout : s.toPmm.SameLayout t.toPmm
  current : t.currentPageDirectoryPhys = s.currentPageDirectoryPhys
  kernel : t.kernelPageDirectoryPhys = s.kernelPageDirectoryPhys

namespace Touched

variable {ρ : Type} {owner : Owners ρ} {s t u : Vmm}

/-- Nothing was touched. -/
theorem refl (spaces : Spaces owner s) : Touched owner s s :=
  ⟨spaces, fun _ _ => .refl _, fun _ => .refl _ _, .refl _, rfl, rfl⟩

/-- Changes that do not show follow each other. -/
theorem trans (first : Touched owner s t) (second : Touched owner t u) : Touched owner s u :=
  -- What the second change leaves alone is what the first one left.
  ⟨second.spaces, fun live inside => (second.cells live inside).trans (first.cells live inside),
    fun here => (first.held here).trans (second.held here), first.layout.trans second.layout,
    second.current.trans first.current, second.kernel.trans first.kernel⟩

/-- A change of one entry that does not show. -/
theorem ofChange {d v : Nat} {word : UInt32} (change : CellChange owner owner s t d v word)
    (alike : Alike word (s.cell d v)) : Touched owner s t := by
  -- The entry that changed is like the one before, and the others are the same.
  refine ⟨change.spaces, fun {d' v'} live inside => ?_, change.framed.held, change.framed.layout,
    change.framed.current, change.framed.kernel⟩
  rw [change.cells live inside]
  split
  · next same =>
    rw [same.1, same.2]
    exact alike
  · exact .refl _

end Touched

namespace PagerPage

variable (p : PagerPage)

/-- The page of the directory that an entry belongs to. -/
def directory : Nat := pageOf p.pageDirectoryPhys

/-- The number of the page that an entry is about. -/
def page : Nat := p.virtAddr.toNat / 4096

/-- The physical page that an entry is in. -/
def frame : Nat := pageOf p.physAddr

/-- An entry is about a page of the user's half of a space that is there. -/
structure Lives (owner : Owners Holder) : Prop where
  live : owner p.directory = some .directory
  address : p.pageDirectoryPhys.toNat = p.directory * 4096
  half : p.virtAddr < vmmKernelBase
  aligned : p.virtAddr.toNat % 4096 = 0

/-- A page is in a frame of its own, which its space maps. -/
structure Resident (owner : Owners Holder) (i : Nat) (s : Vmm) : Prop where
  owned : owner p.frame = some (.held (.page i))
  address : p.physAddr.toNat = p.frame * 4096
  mapped : flagOf (s.cell p.directory p.page) 0 = true
  target : pageOf (s.cell p.directory p.page) = p.frame

end PagerPage

/-- How many entries are in use. -/
def usedCount (pages : FixedArray 128 PagerPage) : Nat :=
  (List.range 128).countP fun i => (pages.get i).used

/--
What is always true of the entries of the pager and its list of frames.

While a page is brought in, one of the frames is not in use yet, or not any more.
-/
structure Pager.Books (hole : Option Nat) (s : Pager) : Prop where
  resident : s.residentFrames ≤ 16
  hand : s.clockHand < 16
  vacant : ∀ {k}, hole = some k → k < s.residentFrames
  /-- The frames in use are those of the entries that are in memory. -/
  listed : ∀ {k}, k < s.residentFrames → hole ≠ some k →
    s.framePages.get k < 128 ∧ (s.pages.get (s.framePages.get k)).used = true ∧
      (s.pages.get (s.framePages.get k)).present = true
  distinct : ∀ {k l}, k < s.residentFrames → l < s.residentFrames → hole ≠ some k → hole ≠ some l →
    s.framePages.get k = s.framePages.get l → k = l
  complete : ∀ {i}, i < 128 → (s.pages.get i).used = true → (s.pages.get i).present = true →
    ∃ k, k < s.residentFrames ∧ hole ≠ some k ∧ s.framePages.get k = i
  counted : s.registeredPages = usedCount s.pages
  unique : ∀ {i j}, i < 128 → j < 128 → (s.pages.get i).used = true → (s.pages.get j).used = true →
    (s.pages.get i).pageDirectoryPhys = (s.pages.get j).pageDirectoryPhys →
    (s.pages.get i).virtAddr = (s.pages.get j).virtAddr → i = j
  /-- A page is in memory or on the disk. -/
  swapped : ∀ {i}, i < 128 → (s.pages.get i).used = true →
    (s.pages.get i).swapped = !(s.pages.get i).present
  slots : ∀ {i}, i < 128 → (s.pages.get i).swapSlot = UInt32.ofNat i

/-- What is always true of the pager and of memory. -/
structure Pager.Ok (owner : Owners Holder) (hole : Option Nat) (s : Pager) : Prop where
  books : s.Books hole
  ready : s.pagerReady = true
  spaces : Spaces owner s.toVmm
  lives : ∀ {i}, i < 128 → (s.pages.get i).used = true → (s.pages.get i).Lives owner
  frames : ∀ {i}, i < 128 → (s.pages.get i).used = true → (s.pages.get i).present = true →
    (s.pages.get i).Resident owner i s.toVmm
  held : ∀ {f i}, owner f = some (.held (.page i)) →
    i < 128 ∧ (s.pages.get i).used = true ∧ (s.pages.get i).present = true ∧
      f = (s.pages.get i).frame

/-- Two entries are about the same page, which is at the same place. -/
structure PagerPage.Same (p q : PagerPage) : Prop where
  used : q.used = p.used
  present : q.present = p.present
  swapped : q.swapped = p.swapped
  directory : q.pageDirectoryPhys = p.pageDirectoryPhys
  virt : q.virtAddr = p.virtAddr
  phys : q.physAddr = p.physAddr
  slot : q.swapSlot = p.swapSlot

/-- An entry is the same as itself. -/
theorem PagerPage.Same.refl (p : PagerPage) : p.Same p := ⟨rfl, rfl, rfl, rfl, rfl, rfl, rfl⟩

/-- The pager after steps that leave every page at its place. -/
structure Pager.Kept (owner : Owners Holder) (s t : Pager) : Prop where
  vmm : Touched owner s.toVmm t.toVmm
  entries : ∀ i, i < 128 → (s.pages.get i).Same (t.pages.get i)
  framePages : t.framePages = s.framePages
  registered : t.registeredPages = s.registeredPages
  resident : t.residentFrames = s.residentFrames
  ready : t.pagerReady = s.pagerReady
  hand : s.clockHand < 16 → t.clockHand < 16

/-- The pager after steps that change what is known about accesses only. -/
structure Pager.Sampled (owner : Owners Holder) (s t : Pager) : Prop where
  vmm : Touched owner s.toVmm t.toVmm
  disk : t.disk = s.disk
  pages : ∀ i, i < 128 →
    t.pages.get i = { s.pages.get i with lastUsedTick := (t.pages.get i).lastUsedTick }
  framePages : t.framePages = s.framePages
  registered : t.registeredPages = s.registeredPages
  resident : t.residentFrames = s.residentFrames
  ready : t.pagerReady = s.pagerReady
  hand : s.clockHand < 16 → t.clockHand < 16

namespace Pager

variable {owner : Owners Holder} {hole : Option Nat} {s t u : Pager} {i : Nat}

namespace Sampled

/-- No access was looked at. -/
theorem refl (spaces : Spaces owner s.toVmm) : Sampled owner s s :=
  ⟨.refl spaces, rfl, fun _ _ => rfl, rfl, rfl, rfl, rfl, id⟩

/-- Looks at accesses follow each other. -/
theorem trans (first : Sampled owner s t) (second : Sampled owner t u) : Sampled owner s u := by
  -- Each look keeps an entry but for the time of its last use.
  refine ⟨first.vmm.trans second.vmm, second.disk.trans first.disk, fun i inside => ?_,
    second.framePages.trans first.framePages, second.registered.trans first.registered,
    second.resident.trans first.resident, second.ready.trans first.ready,
    fun small => second.hand (first.hand small)⟩
  rw [second.pages i inside, first.pages i inside]

end Sampled

/-- The number of entries in use does not depend on anything else. -/
theorem usedCount_congr {pages pages' : FixedArray 128 PagerPage}
    (same : ∀ i, i < 128 → (pages'.get i).used = (pages.get i).used) :
    usedCount pages' = usedCount pages := by
  -- The entries in use are counted at the same places.
  unfold usedCount
  apply List.countP_congr
  intro i member
  rw [same i (List.mem_range.mp member)]

/-- Looking at accesses leaves every page at its place. -/
theorem Sampled.kept (sampled : Sampled owner s t) : Kept owner s t := by
  -- The time of the last use is no part of a page's place.
  refine ⟨sampled.vmm, fun i inside => ?_, sampled.framePages, sampled.registered, sampled.resident,
    sampled.ready, sampled.hand⟩
  rw [sampled.pages i inside]
  exact ⟨rfl, rfl, rfl, rfl, rfl, rfl, rfl⟩

/-- Leaving every page at its place keeps the books. -/
theorem Books.kept (books : s.Books hole) (kept : Kept owner s t) : t.Books hole := by
  -- The books are about the fields that stay: use, presence, frames, places in the swap area.
  have used := fun i inside => (kept.entries i inside).used
  have present := fun i inside => (kept.entries i inside).present
  have frames := kept.framePages
  have resident := kept.resident
  have all := books.resident
  refine ⟨by omega, kept.hand books.hand, ?_, ?_, ?_, ?_, ?_, ?_, ?_, ?_⟩
  · intro k here
    have := books.vacant here
    omega
  · intro k inside other
    have := @books.listed k
    grind
  · intro k l inside inside' other other' equal
    have := @books.distinct k l
    grind
  · intro i inside used present
    have := @books.complete i
    grind
  · rw [kept.registered, books.counted]
    exact (usedCount_congr used).symm
  · intro i j inside inside' usedI usedJ directory virt
    have one := kept.entries i inside
    have two := kept.entries j inside'
    rw [one.used] at usedI
    rw [two.used] at usedJ
    rw [one.directory, two.directory] at directory
    rw [one.virt, two.virt] at virt
    exact books.unique inside inside' usedI usedJ directory virt
  · intro i inside usedI
    have entry := kept.entries i inside
    rw [entry.used] at usedI
    rw [entry.swapped, entry.present]
    exact books.swapped inside usedI
  · intro i inside
    rw [(kept.entries i inside).slot]
    exact books.slots inside

end Pager

namespace PagerPage

variable {owner owner' : Owners Holder} {p q : PagerPage} {i : Nat} {s t : Vmm}

/-- An entry about the same page is about one that is there. -/
theorem Lives.congr (lives : p.Lives owner)
    (directory : q.pageDirectoryPhys = p.pageDirectoryPhys) (virt : q.virtAddr = p.virtAddr)
    (live : owner p.directory = some .directory → owner' p.directory = some .directory) :
    q.Lives owner' := by
  -- The page is told by the directory and the address, which are the same.
  have same : q.directory = p.directory := by
    unfold PagerPage.directory
    rw [directory]
  refine ⟨?_, ?_, ?_, ?_⟩
  · rw [same]
    exact live lives.live
  · rw [directory, same]
    exact lives.address
  · rw [virt]
    exact lives.half
  · rw [virt]
    exact lives.aligned

/-- The page of an entry lies in the user's half. -/
theorem page_half (half : p.virtAddr < vmmKernelBase) : p.page < 786432 := Mm.page_half half

/-- A page stays in its frame where neither the frame nor the entry of its table is disturbed. -/
theorem Resident.congr (resident : p.Resident owner i s)
    (directory : q.pageDirectoryPhys = p.pageDirectoryPhys) (virt : q.virtAddr = p.virtAddr)
    (phys : q.physAddr = p.physAddr)
    (owned : owner p.frame = some (.held (.page i)) → owner' p.frame = some (.held (.page i)))
    (cell : Alike (t.cell p.directory p.page) (s.cell p.directory p.page)) :
    q.Resident owner' i t := by
  -- Where the page is, and in which frame, is told by the same three fields.
  have sameDirectory : q.directory = p.directory := by
    unfold PagerPage.directory
    rw [directory]
  have samePage : q.page = p.page := by
    unfold PagerPage.page
    rw [virt]
  have sameFrame : q.frame = p.frame := by
    unfold PagerPage.frame
    rw [phys]
  refine ⟨?_, ?_, ?_, ?_⟩
  · rw [sameFrame]
    exact owned resident.owned
  · rw [phys, sameFrame]
    exact resident.address
  · rw [sameDirectory, samePage]
    exact (cell.flags 0 (by decide)).trans resident.mapped
  · rw [sameDirectory, samePage, sameFrame]
    exact cell.page.trans resident.target

end PagerPage

namespace Pager

variable {owner : Owners Holder} {hole : Option Nat} {s t : Pager} {i j : Nat}

/-- Leaving every page at its place keeps what is always true. -/
theorem Ok.kept (ok : Ok owner hole s) (kept : Kept owner s t) : Ok owner hole t := by
  -- Each fact about an entry or a frame is carried over by what stayed the same.
  refine ⟨ok.books.kept kept, kept.ready.trans ok.ready, kept.vmm.spaces, ?_, ?_, ?_⟩
  · intro i inside used
    have same := kept.entries i inside
    exact (ok.lives inside (same.used ▸ used)).congr same.directory same.virt id
  · intro i inside used present
    have same := kept.entries i inside
    have lives := ok.lives inside (same.used ▸ used)
    have half := PagerPage.page_half lives.half
    refine (ok.frames inside (same.used ▸ used) (same.present ▸ present)).congr same.directory
      same.virt same.phys id ?_
    exact kept.vmm.cells lives.live (by omega)
  · intro f i owned
    obtain ⟨inside, used, present, frame⟩ := ok.held owned
    have same := kept.entries i inside
    refine ⟨inside, same.used.trans used, same.present.trans present, ?_⟩
    rw [frame]
    unfold PagerPage.frame
    rw [same.phys]

/-- Looking at accesses keeps what is always true. -/
theorem Ok.sampled (ok : Ok owner hole s) (sampled : Sampled owner s t) : Ok owner hole t :=
  ok.kept sampled.kept

/-- What others do in their spaces keeps what is always true of the pager. -/
theorem Ok.elsewhere {owner' : Owners Holder} (ok : Ok owner hole s) {vmm : Vmm}
    (spaces : Spaces owner' vmm)
    (live : ∀ i, i < 128 → (s.pages.get i).used = true →
      owner' (s.pages.get i).directory = some .directory)
    (held : ∀ f i, owner' f = some (.held (.page i)) ↔ owner f = some (.held (.page i)))
    (cells : ∀ i, i < 128 → (s.pages.get i).used = true → (s.pages.get i).present = true →
      Alike (vmm.cell (s.pages.get i).directory (s.pages.get i).page)
        (s.cell (s.pages.get i).directory (s.pages.get i).page)) :
    Ok owner' hole { s with toVmm := vmm } := by
  -- The books are the pager's own, and the rest is what the hypotheses give.
  refine ⟨⟨ok.books.resident, ok.books.hand, ok.books.vacant, ok.books.listed, ok.books.distinct,
    ok.books.complete, ok.books.counted, ok.books.unique, ok.books.swapped, ok.books.slots⟩, ok.ready,
    spaces, ?_, ?_, ?_⟩
  · exact fun {i} inside used => (ok.lives inside used).congr rfl rfl fun _ => live i inside used
  · intro i inside used present
    refine (ok.frames inside used present).congr rfl rfl rfl (fun owned => ?_) ?_
    · exact (held _ i).mpr owned
    · exact cells i inside used present
  · exact fun {f i} owned => ok.held ((held f i).mp owned)

/-- Two entries in use are about different pages. -/
theorem Ok.apart (ok : Ok owner hole s) (inside : i < 128) (inside' : j < 128)
    (used : (s.pages.get i).used = true) (used' : (s.pages.get j).used = true)
    (directory : (s.pages.get i).directory = (s.pages.get j).directory)
    (page : (s.pages.get i).page = (s.pages.get j).page) : i = j := by
  -- Two aligned addresses in one page are one address, so the books apply.
  have one := ok.lives inside used
  have two := ok.lives inside' used'
  refine ok.books.unique inside inside' used used' ?_ ?_
  · apply UInt32.toNat_inj.mp
    rw [one.address, two.address, directory]
  · apply UInt32.toNat_inj.mp
    have first := one.aligned
    have second := two.aligned
    unfold PagerPage.page at page
    omega

end Pager

end MyOS.Mm
