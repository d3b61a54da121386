import MyOS.Mm.Vmm

/-! Who owns which page of memory, and what the page tables of all address spaces say. -/

namespace MyOS.Mm

/-- What a page in use is for. The pages handed to callers are told apart by a label. -/
inductive Owner (ρ : Type) where
  | kernel
  | directory
  /-- The table behind an entry of the user's half of a directory. -/
  | table (directory index : Nat)
  | held (label : ρ)
  deriving DecidableEq

/-- The owner of each page. No page has two. -/
abbrev Owners (ρ : Type) := Nat → Option (Owner ρ)

namespace Vmm

/-- An entry of the directory in a page. -/
def pde (s : Vmm) (d i : Nat) : UInt32 := wordAt s.memory (d * 4096 + 4 * i)

/-- The table entry of a page of an address space, zero where there is no table. -/
def cell (s : Vmm) (d v : Nat) : UInt32 :=
  if flagOf (s.pde d (v / 1024)) 0 then
    wordAt s.memory (pageOf (s.pde d (v / 1024)) * 4096 + 4 * (v % 1024))
  else 0

/-- The page of the kernel's own directory. -/
def kernelDirectory (s : Vmm) : Nat := pageOf s.kernelPageDirectoryPhys

end Vmm

/--
Every page of every table has one owner.

This is what keeps the address spaces apart: a table belongs to one entry of one directory, and
to nothing else.
-/
structure Spaces {ρ : Type} (owner : Owners ρ) (s : Vmm) : Prop where
  pmm : s.toPmm.Sound
  vmmReady : s.vmmReady = true
  kernelAligned : s.kernelPageDirectoryPhys.toNat = s.kernelDirectory * 4096
  kernelLive : owner s.kernelDirectory = some .directory
  /-- The pages marked as taken are those with an owner. -/
  used : ∀ f, f < s.totalPages.toNat → s.bitmapTest f = (owner f).isSome
  pool : ∀ {f r}, owner f = some r → r ≠ .kernel → s.InPool f
  tables : ∀ f d i, owner f = some (.table d i) ↔ owner d = some .directory ∧ i < 768 ∧
    flagOf (s.pde d i) 0 = true ∧ pageOf (s.pde d i) = f
  /-- All directories have the kernel's half in common. -/
  shared : ∀ {d i}, owner d = some .directory → 768 ≤ i → i < 1024 →
    s.pde d i = s.pde s.kernelDirectory i
  kernelTables : ∀ {i}, 768 ≤ i → i < 1024 → flagOf (s.pde s.kernelDirectory i) 0 = true →
    owner (pageOf (s.pde s.kernelDirectory i)) = some .kernel ∧
      s.firstPage ≤ pageOf (s.pde s.kernelDirectory i)
  writable : ∀ {d i}, owner d = some .directory → i < 768 → flagOf (s.pde d i) 0 = true →
    flagOf (s.pde d i) 1 = true
  /-- Where some page of a table is the user's, the directory entry is too. -/
  user : ∀ {d v}, owner d = some .directory → v < 786432 → flagOf (s.cell d v) 0 = true →
    flagOf (s.cell d v) 2 = true → flagOf (s.pde d (v / 1024)) 2 = true

/-- What the steps on tables leave alone: who owns what else, and the pages held by callers. -/
structure Framed {ρ : Type} (owner owner' : Owners ρ) (s t : Vmm) : Prop where
  roles : ∀ f r, (∀ d i, r ≠ .table d i) → (owner' f = some r ↔ owner f = some r)
  held : ∀ {f r}, owner f = some (.held r) → s.memory.SamePage t.memory f
  layout : s.toPmm.SameLayout t.toPmm
  current : t.currentPageDirectoryPhys = s.currentPageDirectoryPhys
  kernel : t.kernelPageDirectoryPhys = s.kernelPageDirectoryPhys

namespace Framed

variable {ρ : Type} {owner owner' owner'' : Owners ρ} {s t u : Vmm}

/-- Nothing was changed. -/
theorem refl (owner : Owners ρ) (s : Vmm) : Framed owner owner s s :=
  ⟨fun _ _ _ => Iff.rfl, fun _ => .refl _ _, .refl _, rfl, rfl⟩

/-- Changes that keep to their frame follow each other. -/
theorem trans (first : Framed owner owner' s t) (second : Framed owner' owner'' t u) :
    Framed owner owner'' s u := by
  -- A page keeps its role through both changes, and one that is held stays held.
  refine ⟨fun f r plain => (second.roles f r plain).trans (first.roles f r plain), ?_,
    first.layout.trans second.layout, second.current.trans first.current,
    second.kernel.trans first.kernel⟩
  intro f r here
  exact (first.held here).trans (second.held ((first.roles f (.held r) nofun).mpr here))

/-- The same pages are directories. -/
theorem directory (framed : Framed owner owner' s t) {d : Nat} :
    owner' d = some .directory ↔ owner d = some .directory :=
  framed.roles d _ nofun

end Framed

/-- The owners as before, or with a free page for the table of an entry that had none. -/
def MaybeTable {ρ : Type} (owner owner' : Owners ρ) (d i : Nat) : Prop :=
  owner' = owner ∨ (∀ g, owner g ≠ some (.table d i)) ∧
    ∃ f, owner f = none ∧ owner' = Function.update owner f (some (.table d i))

/-- An entry that has got a table does not get another one. -/
theorem MaybeTable.trans {ρ : Type} {owner owner' owner'' : Owners ρ} {d i : Nat}
    (one : MaybeTable owner owner' d i) (two : MaybeTable owner' owner'' d i) :
    MaybeTable owner owner'' d i := by
  -- The entry that got a table in the first step lacks none in the second.
  rcases one with rfl | ⟨lacks, f, free, rfl⟩
  · exact two
  · rcases two with rfl | ⟨lacks', -⟩
    · exact Or.inr ⟨lacks, f, free, rfl⟩
    · exact absurd (Function.update_self ..) (lacks' f)

/-- A step that changes what one page of one space leads to, and nothing else that shows. -/
structure CellChange {ρ : Type} (owner owner' : Owners ρ) (s t : Vmm) (d v : Nat) (word : UInt32) :
    Prop where
  spaces : Spaces owner' t
  framed : Framed owner owner' s t
  cells : ∀ {d' v'}, owner d' = some .directory → v' < 1048576 →
    t.cell d' v' = if d' = d ∧ v' = v then word else s.cell d' v'
  /-- A table that is made is one of that space. -/
  tables : ∀ {f d' i}, d' ≠ d → (owner' f = some (.table d' i) ↔ owner f = some (.table d' i))
  table : MaybeTable owner owner' d (v / 1024)

namespace CellChange

variable {ρ : Type} {owner owner' owner'' : Owners ρ} {s t u : Vmm} {d v : Nat}
  {first second : UInt32}

/-- Doing nothing leaves every page as it is. -/
theorem refl (spaces : Spaces owner s) (d v : Nat) :
    CellChange owner owner s s d v (s.cell d v) :=
  -- Every page leads where it did, the changed one included.
  ⟨spaces, .refl _ _, fun _ _ => by
    split
    · next same => rw [same.1, same.2]
    · rfl, fun _ => Iff.rfl, Or.inl rfl⟩

/-- The second of two changes of one page is the one that shows. -/
theorem trans (one : CellChange owner owner' s t d v first)
    (two : CellChange owner' owner'' t u d v second) :
    CellChange owner owner'' s u d v second := by
  -- The spaces are those of the second change, and a page leads where the later of the two says.
  refine ⟨two.spaces, one.framed.trans two.framed, fun {d' v'} live inside => ?_,
    fun apart => (two.tables apart).trans (one.tables apart), one.table.trans two.table⟩
  rw [two.cells (one.framed.directory.mpr live) inside]
  split
  · rfl
  · next other => rw [one.cells live inside, if_neg other]

end CellChange

section Memory

variable {ρ : Type} {owner : Owners ρ} {s : Vmm} {f d i : Nat}

/-- Memory that changes behind the bitmap only leaves the manager of physical memory alone. -/
theorem Pmm.Sound.withMemory {s : Pmm} (sound : s.Sound) {m : Memory}
    (below : ∀ k, k < s.firstPage * 4096 → m k = s.memory k) :
    Pmm.Sound { s with memory := m } ∧
      ∀ page, page < s.totalPages.toNat →
        Pmm.bitmapTest page { s with memory := m } = s.bitmapTest page := by
  -- The bitmap lies in front of the pages that change, so every bit is as it was.
  have flags : ∀ page, page < s.totalPages.toNat →
      Pmm.bitmapTest page { s with memory := m } = s.bitmapTest page := by
    intro page inside
    unfold Pmm.bitmapTest
    exact congrArg (bitTest · _) (below _ (sound.flag_inside inside))
  refine ⟨⟨sound.ready, sound.bytes, sound.pages, sound.noWrap, fun page low inside => ?_, ?_⟩, flags⟩
  · exact (flags page inside).trans (sound.reserved page low inside)
  · exact sound.counted.trans (clearCount_congr fun page inside => (flags page inside).symm)

/-- The entries of the table in a page are its words. -/
theorem entry_eq {table : UInt32} {f : Nat} (at_ : table.toNat = f * 4096) (i : Nat) :
    s.entry table i = wordAt s.memory (f * 4096 + 4 * i) := by
  rw [Vmm.entry, at_]

/-- Storing an entry changes its own page only. -/
theorem samePage_storeWord {m : Memory} {f i : Nat} (inside : i < 1024) (word : UInt32) {other : Nat}
    (apart : other ≠ f) : m.SamePage (m.storeWord (f * 4096 + 4 * i) word) other :=
  .copy _ ⟨by omega, by omega⟩ apart

/-- Storing an entry behind the bitmap does not touch the bitmap. -/
theorem storeWord_below {m : Memory} {f i first k : Nat} (behind : first ≤ f) (word : UInt32)
    (low : k < first * 4096) : m.storeWord (f * 4096 + 4 * i) word k = m k := by
  -- The page of the table begins behind the first pages.
  have := Nat.mul_le_mul_right 4096 behind
  exact Memory.copy_outside _ (by omega)

/-- An entry of a directory whose page did not change. -/
theorem pde_congr {t : Vmm} {d i : Nat} (same : s.memory.SamePage t.memory d) (inside : i < 1024) :
    t.pde d i = s.pde d i :=
  same.wordAt inside

/-- A page without a table leads nowhere. -/
theorem cell_eq_zero {v : Nat} (absent : flagOf (s.pde d (v / 1024)) 0 = false) :
    s.cell d v = 0 :=
  if_neg (by simp [absent])

/-- A page whose directory entry and table did not change. -/
theorem cell_congr {t : Vmm} {d v : Nat} (entry : t.pde d (v / 1024) = s.pde d (v / 1024))
    (same : flagOf (s.pde d (v / 1024)) 0 = true →
      s.memory.SamePage t.memory (pageOf (s.pde d (v / 1024)))) : t.cell d v = s.cell d v := by
  -- A page leads where the entry of its table says, and the table is behind the entry of the
  -- directory.
  unfold Vmm.cell
  rw [entry]
  split
  · next present => exact (same present).wordAt (Nat.mod_lt _ (by omega))
  · rfl

end Memory

namespace Spaces

variable {ρ : Type} {owner : Owners ρ} {s : Vmm} {f d d' i v v' : Nat} {word : UInt32}

/-- The table behind an entry in use of the user's half. -/
theorem table_owner (spaces : Spaces owner s) (live : owner d = some .directory) (half : i < 768)
    (present : flagOf (s.pde d i) 0 = true) :
    owner (pageOf (s.pde d i)) = some (.table d i) :=
  -- The entry in use is what gives the page its owner.
  (spaces.tables _ d i).mpr ⟨live, half, present, rfl⟩

/-- The table of any page of a space is owned by its entry, or by the kernel. -/
theorem cell_owner (spaces : Spaces owner s) (live : owner d = some .directory) (inside : v < 1048576)
    (present : flagOf (s.pde d (v / 1024)) 0 = true) :
    owner (pageOf (s.pde d (v / 1024))) =
        some (if v / 1024 < 768 then .table d (v / 1024) else .kernel) ∧
      s.firstPage ≤ pageOf (s.pde d (v / 1024)) := by
  -- The user's half has tables of its own, and the kernel's half shares those of the kernel.
  by_cases half : v / 1024 < 768
  · rw [if_pos half]
    have owned := spaces.table_owner live half present
    exact ⟨owned, (spaces.pool owned nofun).above⟩
  · rw [if_neg half]
    rw [spaces.shared live (by omega) (by omega)] at present ⊢
    exact spaces.kernelTables (by omega) (by omega) present

/-- A directory is a page that was handed out. -/
theorem directory_inPool (spaces : Spaces owner s) (live : owner d = some .directory) :
    s.InPool d :=
  spaces.pool live nofun

/-- A page number of the pool fits in an address. -/
theorem small (spaces : Spaces owner s) (inside : s.InPool f) : f < 2 ^ 20 :=
  inside.below.trans spaces.pmm.pages

/-- The first page is never handed out. -/
theorem positive (spaces : Spaces owner s) (inside : s.InPool f) : 0 < f :=
  spaces.pmm.positive inside

end Spaces

end MyOS.Mm
