import MyOS.Mm.Spaces

/-! How each single step on a directory, a table or a page keeps the address spaces apart. -/

namespace MyOS.Mm

/-- The tables of all spaces say the same. -/
structure SameTables {ρ : Type} (owner : Owners ρ) (s t : Vmm) : Prop where
  pdes : ∀ {d i}, owner d = some .directory → i < 1024 → t.pde d i = s.pde d i
  cells : ∀ {d v}, owner d = some .directory → v < 1048576 → t.cell d v = s.cell d v

variable {ρ : Type} {owner owner' : Owners ρ} {s t : Vmm} {f d d' i v v' : Nat} {word : UInt32}

namespace Spaces

/-- Memory that keeps the pages of the tables keeps what they say. -/
theorem sameTables (spaces : Spaces owner s)
    (pages : ∀ {g r}, owner g = some r → (∀ label, r ≠ .held label) → s.firstPage ≤ g →
      s.memory.SamePage t.memory g) : SameTables owner s t := by
  -- An entry is read from its directory and its table, and both are tables or the kernel's.
  have pdes : ∀ {d i}, owner d = some .directory → i < 1024 → t.pde d i = s.pde d i :=
    fun live inside => pde_congr (pages live nofun (spaces.directory_inPool live).above) inside
  refine ⟨pdes, fun {d v} live inside => cell_congr (pdes live (by omega)) fun present => ?_⟩
  obtain ⟨role, above⟩ := spaces.cell_owner live inside present
  refine pages role ?_ above
  split <;> nofun

/-- The parts of the invariant about the kernel's half stay true as long as that half does. -/
theorem rebuild (spaces : Spaces owner s) (sound : t.toPmm.Sound)
    (layout : s.toPmm.SameLayout t.toPmm) (ready : t.vmmReady = s.vmmReady)
    (kernel : t.kernelPageDirectoryPhys = s.kernelPageDirectoryPhys)
    (live : ∀ {d}, owner' d = some .directory ↔ owner d = some .directory)
    (kept : ∀ {g}, owner g = some .kernel → owner' g = some .kernel)
    (upper : ∀ {d i}, owner d = some .directory → 768 ≤ i → i < 1024 → t.pde d i = s.pde d i)
    (used : ∀ g, g < s.totalPages.toNat → t.bitmapTest g = (owner' g).isSome)
    (pool : ∀ {g r}, owner' g = some r → r ≠ .kernel → s.InPool g)
    (tables : ∀ g d i, owner' g = some (.table d i) ↔ owner d = some .directory ∧ i < 768 ∧
      flagOf (t.pde d i) 0 = true ∧ pageOf (t.pde d i) = g)
    (writable : ∀ {d i}, owner d = some .directory → i < 768 → flagOf (t.pde d i) 0 = true →
      flagOf (t.pde d i) 1 = true)
    (user : ∀ {d v}, owner d = some .directory → v < 786432 → flagOf (t.cell d v) 0 = true →
      flagOf (t.cell d v) 2 = true → flagOf (t.pde d (v / 1024)) 2 = true) : Spaces owner' t := by
  -- Each part is told by the directory of the kernel and by its entries, which are kept.
  have here : t.kernelDirectory = s.kernelDirectory := congrArg pageOf kernel
  refine ⟨sound, ready.trans spaces.vmmReady, ?_, ?_, ?_, ?_, ?_, ?_, ?_,
    fun live' => writable (live.mp live'), fun live' => user (live.mp live')⟩
  · rw [kernel, here]
    exact spaces.kernelAligned
  · rw [here]
    exact live.mpr spaces.kernelLive
  · rw [layout.totalPages]
    exact used
  · exact fun role other => layout.inPool.mpr (pool role other)
  · intro g d i
    rw [tables g d i, live]
  · intro d i live' low high
    rw [here, upper (live.mp live') low high, upper spaces.kernelLive low high]
    exact spaces.shared (live.mp live') low high
  · intro i low high present
    rw [here, upper spaces.kernelLive low high] at present ⊢
    rw [layout.firstPage]
    obtain ⟨role, above⟩ := spaces.kernelTables low high present
    exact ⟨kept role, above⟩

/-- A change of the pages that callers hold, which the tables do not notice. -/
theorem heldChange (spaces : Spaces owner s) (sound : t.toPmm.Sound)
    (layout : s.toPmm.SameLayout t.toPmm) (ready : t.vmmReady = s.vmmReady)
    (kernel : t.kernelPageDirectoryPhys = s.kernelPageDirectoryPhys)
    (roles : ∀ g r, (∀ label, r ≠ .held label) → (owner' g = some r ↔ owner g = some r))
    (used : ∀ g, g < s.totalPages.toNat → t.bitmapTest g = (owner' g).isSome)
    (pool : ∀ {g label}, owner' g = some (.held label) → s.InPool g)
    (same : SameTables owner s t) : Spaces owner' t := by
  -- Only roles that tables do not have change.
  refine spaces.rebuild sound layout ready kernel (roles _ .directory nofun)
    (fun role => (roles _ .kernel nofun).mpr role) (fun live _ high => same.pdes live high) used
    ?_ ?_ ?_ ?_
  · intro g r role outside
    cases r with
    | held label => exact pool role
    | kernel => exact absurd rfl outside
    | directory => exact spaces.pool ((roles g .directory nofun).mp role) nofun
    | table d i => exact spaces.pool ((roles g (.table d i) nofun).mp role) nofun
  · intro g d i
    rw [roles g (.table d i) nofun, spaces.tables g d i]
    refine and_congr_right fun live => and_congr_right fun half => ?_
    rw [same.pdes live (by omega)]
  · intro d i live half
    rw [same.pdes live (by omega)]
    exact spaces.writable live half
  · intro d v live half
    rw [same.pdes live (by omega), same.cells live (by omega)]
    exact spaces.user live half

/-- Roles that a page neither had nor gets are those of the other pages. -/
theorem update_roles (kind : Owner ρ → Prop) {new : Option (Owner ρ)}
    (old : ∀ r, owner f = some r → kind r) (next : ∀ r, new = some r → kind r) {g : Nat}
    {r : Owner ρ} (other : ¬ kind r) :
    Function.update owner f new g = some r ↔ owner g = some r := by
  -- The page is the one whose role changes, or it is another one.
  by_cases same : g = f
  · subst same
    rw [Function.update_self]
    exact ⟨fun role => absurd (next r role) other, fun role => absurd (old r role) other⟩
  · rw [Function.update_of_ne same]

/-- A page that passes from one owner to another is in use before and after. -/
theorem passed (spaces : Spaces owner s) {old new : Owner ρ} (owned : owner f = some old)
    (outside : old ≠ .kernel) :
    (∀ g, g < s.totalPages.toNat →
      s.bitmapTest g = (Function.update owner f (some new) g).isSome) ∧
    ∀ {g r}, Function.update owner f (some new) g = some r → r ≠ .kernel → s.InPool g := by
  -- It has a role before and after, and no other page changes.
  constructor
  · intro g inside
    rw [spaces.used g inside]
    by_cases same : g = f
    · rw [same, Function.update_self, owned]
      rfl
    · rw [Function.update_of_ne same]
  · intro g r role other
    by_cases same : g = f
    · exact same ▸ spaces.pool owned outside
    · rw [Function.update_of_ne same] at role
      exact spaces.pool role other

end Spaces

/-- A page that is marked, or no longer, while callers hold it. -/
theorem Spaces.marked (spaces : Spaces owner s) {pmm : Pmm} {value : Bool}
    (marks : s.toPmm.Marks pmm f value) {new : Option (Owner ρ)} (isSome : new.isSome = value)
    (inPool : s.InPool f) (old : ∀ r, owner f = some r → ∃ label, r = .held label)
    (next : ∀ r, new = some r → ∃ label, r = .held label) :
    Spaces (Function.update owner f new) { s with toPmm := pmm } ∧
      SameTables owner s { s with toPmm := pmm } := by
  -- The tables are as they were, and the page was nobody's or somebody's to hold.
  have same : SameTables owner s { s with toPmm := pmm } :=
    spaces.sameTables fun _ _ behind => marks.memory _ behind
  refine ⟨spaces.heldChange marks.sound marks.layout rfl rfl
    (fun g r plain => Spaces.update_roles _ old next fun ⟨label, held⟩ => plain label held) ?_ ?_ same,
    same⟩
  · intro g inside
    refine (marks.flags g inside).trans ?_
    by_cases here : g = f
    · subst here
      rw [if_pos rfl, Function.update_self, isSome]
    · rw [if_neg here, Function.update_of_ne here, spaces.used g inside]
  · intro g label role
    by_cases here : g = f
    · exact here ▸ inPool
    · rw [Function.update_of_ne here] at role
      exact spaces.pool role nofun

/-- What became of memory when a page was handed out. -/
structure Taken (owner : Owners ρ) (s t : Vmm) (f : Nat) (label : ρ) : Prop where
  spaces : Spaces (Function.update owner f (some (.held label))) t
  tables : SameTables owner s t
  free : owner f = none
  inPool : s.InPool f
  memory : ∀ g, s.firstPage ≤ g → s.memory.SamePage t.memory g
  layout : s.toPmm.SameLayout t.toPmm
  current : t.currentPageDirectoryPhys = s.currentPageDirectoryPhys
  kernel : t.kernelPageDirectoryPhys = s.kernelPageDirectoryPhys

/-- Asking for a page gives one that had no owner, if there is any. -/
theorem Spaces.alloc_cases (spaces : Spaces owner s) (label : ρ) :
    (s.alloc = (0, s) ∧ ∀ f, f < s.totalPages.toNat → owner f ≠ none) ∨
    ∃ f t, s.alloc = (UInt32.ofNat (f * 4096), t) ∧ Taken owner s t f label := by
  -- No page is free, or the one returned had no role.
  unfold Vmm.alloc
  rcases pmmAllocPage_cases spaces.pmm with ⟨result, full⟩ | ⟨f, result, inPool, free, -, marks⟩
  · left
    rw [result]
    refine ⟨rfl, fun f inside none_ => ?_⟩
    have := full f inside
    rw [spaces.used f inside, none_] at this
    cases this
  · right
    rw [result]
    have unowned : owner f = none := by
      rw [spaces.used f inPool.below] at free
      exact Option.isSome_eq_false_iff.mp free |> Option.isNone_iff_eq_none.mp
    obtain ⟨after, tables⟩ := @Spaces.marked _ _ _ _ spaces _ true marks (some (.held label)) rfl inPool
      (by rw [unowned]; nofun) (by rintro r ⟨⟩; exact ⟨label, rfl⟩)
    exact ⟨f, _, rfl, after, tables, unowned, inPool, marks.memory, marks.layout, rfl, rfl⟩

/-- What became of memory when a page was given back. -/
structure GivenBack (owner : Owners ρ) (s t : Vmm) (f : Nat) : Prop where
  spaces : Spaces (Function.update owner f none) t
  tables : SameTables owner s t
  memory : ∀ g, s.firstPage ≤ g → s.memory.SamePage t.memory g
  layout : s.toPmm.SameLayout t.toPmm
  current : t.currentPageDirectoryPhys = s.currentPageDirectoryPhys
  kernel : t.kernelPageDirectoryPhys = s.kernelPageDirectoryPhys

/-- A page that a caller holds can be given back. -/
theorem Spaces.free (spaces : Spaces owner s) {label : ρ} (held : owner f = some (.held label)) :
    GivenBack owner s (s.free (UInt32.ofNat (f * 4096))) f := by
  -- The page leaves the role that its holder had.
  have inPool := spaces.pool held nofun
  have marks := pmmFreePage_marks spaces.pmm inPool
  obtain ⟨after, tables⟩ := @Spaces.marked _ _ _ _ spaces _ false marks none rfl inPool
    (by rw [held]; rintro r ⟨⟩; exact ⟨label, rfl⟩) nofun
  exact ⟨after, tables, marks.memory, marks.layout, rfl, rfl⟩

/-- Writing into a page that a caller holds. -/
theorem Spaces.poke (spaces : Spaces owner s) {label : ρ} (held : owner f = some (.held label))
    {m : Memory} (outside : ∀ k, k < f * 4096 ∨ f * 4096 + 4096 ≤ k → m k = s.memory k) :
    Spaces owner { s with memory := m } ∧ SameTables owner s { s with memory := m } := by
  have inPool := spaces.pool held nofun
  have above := Nat.mul_le_mul_right 4096 inPool.above
  obtain ⟨sound, flags⟩ := @Pmm.Sound.withMemory _ spaces.pmm m fun k low => outside k (by omega)
  have same : SameTables owner s { s with memory := m } := by
    refine spaces.sameTables fun {g r} role other _ k inside => outside _ ?_
    -- The page of a table is another page than the one held.
    have apart : g ≠ f := by
      rintro rfl
      rw [held] at role
      exact other label (Option.some.inj role).symm
    omega
  refine ⟨spaces.heldChange sound ⟨rfl, rfl, rfl, rfl, rfl⟩ rfl rfl (fun _ _ _ => Iff.rfl) ?_
    (fun role => spaces.pool role nofun) same, same⟩
  exact fun g inside => (flags g inside).trans (spaces.used g inside)

end MyOS.Mm
