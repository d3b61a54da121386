import MyOS.Mm.VmmLaws

/-! Pages that callers take, map into a space and give back again. -/

namespace MyOS.Mm

variable {ρ : Type} {owner owner' : Owners ρ} {s t : Vmm} {d f : Nat} {label : ρ}
  {dir virtAddr physAddr : UInt32}

/-- What became of memory when a page of a space was unmapped and its frame given back. -/
structure Dropped (owner : Owners ρ) (s t : Vmm) (d v f : Nat) : Prop where
  spaces : Spaces (Function.update owner f none) t
  cells : ∀ {d' v'}, owner d' = some .directory → v' < 1048576 → ¬ (d' = d ∧ v' = v) →
    t.cell d' v' = s.cell d' v'
  gone : flagOf (t.cell d v) 0 = false
  held : ∀ {g r}, owner g = some (.held r) → s.memory.SamePage t.memory g
  layout : s.toPmm.SameLayout t.toPmm
  current : t.currentPageDirectoryPhys = s.currentPageDirectoryPhys
  kernel : t.kernelPageDirectoryPhys = s.kernelPageDirectoryPhys

/-- A page of a space is unmapped, and its frame given back. -/
theorem Spaces.drop (spaces : Spaces owner s) (live : owner d = some .directory)
    (at_ : dir.toNat = d * 4096) (half : virtAddr < vmmKernelBase)
    (aligned : virtAddr.toNat % 4096 = 0) (held : owner f = some (.held label))
    (phys : physAddr.toNat = f * 4096) :
    Dropped owner s ((vmmUnmapPageInDirectory dir virtAddr s).free physAddr) d
      (virtAddr.toNat / 4096) f := by
  have address : physAddr = UInt32.ofNat (f * 4096) := by
    apply UInt32.toNat_inj.mp
    rw [toNat_ofNat_page (spaces.small (spaces.pool held nofun)), phys]
  have inside := page_half half
  -- Unmapping leads to spaces with the same owners, in which the page leads nowhere.
  have unmapped : Framed owner owner s (vmmUnmapPageInDirectory dir virtAddr s) ∧
      Spaces owner (vmmUnmapPageInDirectory dir virtAddr s) ∧
      flagOf ((vmmUnmapPageInDirectory dir virtAddr s).cell d (virtAddr.toNat / 4096)) 0 = false ∧
      ∀ {d' v'}, owner d' = some .directory → v' < 1048576 →
        ¬ (d' = d ∧ v' = virtAddr.toNat / 4096) →
        (vmmUnmapPageInDirectory dir virtAddr s).cell d' v' = s.cell d' v' := by
    rcases vmmUnmapPageInDirectory_cases spaces live at_ half aligned with ⟨same, absent⟩ | change
    · rw [same]
      exact ⟨.refl _ _, spaces, absent, fun _ _ _ => rfl⟩
    · refine ⟨change.framed, change.spaces, ?_, fun live' inside' other => ?_⟩
      · rw [change.cells live (by omega), if_pos ⟨rfl, rfl⟩]
        rfl
      · rw [change.cells live' inside', if_neg other]
  obtain ⟨framed, after, gone, others⟩ := unmapped
  have given := after.free held
  rw [← address] at given
  refine ⟨given.spaces, fun live' inside' other => ?_, ?_, fun {g r} here => ?_,
    framed.layout.trans given.layout, given.current.trans framed.current,
    given.kernel.trans framed.kernel⟩
  · rw [given.tables.cells live' inside', others live' inside' other]
  · rw [given.tables.cells live (by omega)]
    exact gone
  · exact (framed.held here).trans (given.memory g (after.pool here nofun).above)

/-- What became of memory when a page was taken, filled and mapped into a space. -/
structure Placed (owner owner' : Owners ρ) (s t : Vmm) (d v f : Nat) (label : ρ) (entry : UInt32)
    (bytes : Nat → UInt8) : Prop where
  free : owner f = none
  small : f < 2 ^ 20
  spaces : Spaces owner' t
  roles : ∀ g r, (∀ d i, r ≠ .table d i) →
    (owner' g = some r ↔ (g = f ∧ r = .held label) ∨ owner g = some r)
  cells : ∀ {d' v'}, owner d' = some .directory → v' < 1048576 →
    t.cell d' v' = if d' = d ∧ v' = v then entry else s.cell d' v'
  tables : ∀ {g d' i}, d' ≠ d → (owner' g = some (.table d' i) ↔ owner g = some (.table d' i))
  contents : ∀ k, k < 4096 → t.memory (f * 4096 + k) = bytes k
  held : ∀ {g r}, owner g = some (.held r) → s.memory.SamePage t.memory g
  layout : s.toPmm.SameLayout t.toPmm
  current : t.currentPageDirectoryPhys = s.currentPageDirectoryPhys
  kernel : t.kernelPageDirectoryPhys = s.kernelPageDirectoryPhys

/-- A page is taken, filled and mapped into a space. -/
theorem Spaces.place [Inhabited ρ] (spaces : Spaces owner s) (label : ρ)
    (live : owner d = some .directory) (at_ : dir.toNat = d * 4096) (half : virtAddr < vmmKernelBase)
    (aligned : virtAddr.toNat % 4096 = 0) {u : Vmm} (taken : s.alloc = (physAddr, u))
    (nonzero : physAddr ≠ 0) (bytes : Nat → UInt8) {flags : UInt32}
    (mapped : vmmMapPageInDirectory dir virtAddr physAddr flags
      { u with memory := u.memory.copy physAddr.toNat 4096 bytes } = (true, t)) :
    ∃ f owner', physAddr.toNat = f * 4096 ∧
      Placed owner owner' s t d (virtAddr.toNat / 4096) f label (leafEntry physAddr flags) bytes := by
  rcases spaces.alloc_cases label with ⟨none_, -⟩ | ⟨f, u', result, took⟩
  · rw [none_] at taken
    exact absurd (congrArg Prod.fst taken).symm nonzero
  rw [result] at taken
  obtain ⟨rfl, rfl⟩ : UInt32.ofNat (f * 4096) = physAddr ∧ u' = u := by simpa using taken
  have small := spaces.small took.inPool
  have address := toNat_ofNat_page small
  rw [address] at mapped
  have mine : Function.update owner f (some (.held label)) f = some (.held label) :=
    Function.update_self ..
  -- The page is filled while only its new holder can see it.
  obtain ⟨filled, same⟩ := took.spaces.poke mine (m := u'.memory.copy (f * 4096) 4096 bytes)
    fun k outside => Memory.copy_outside _ outside
  have apart : ∀ {g r}, owner g = some r → g ≠ f := by
    rintro g r role rfl
    exact nomatch took.free.symm.trans role
  have liveU : Function.update owner f (some (.held label)) d = some .directory := by
    rw [Function.update_of_ne (apart live)]
    exact live
  rcases vmmMapPageInDirectory_cases filled liveU at_ half aligned (by rw [address]; omega) flags with
    ⟨failed, -⟩ | ⟨owner', t', result', change⟩
  · exact nomatch failed.symm.trans mapped
  obtain rfl : t' = t := congrArg Prod.snd (result'.symm.trans mapped)
  refine ⟨f, owner', address, took.free, small, change.spaces, ?_, ?_, ?_, ?_, ?_, ?_, ?_, ?_⟩
  · intro g r plain
    rw [change.framed.roles g r plain]
    by_cases here : g = f
    · subst here
      rw [mine, took.free]
      simp [eq_comm]
    · rw [Function.update_of_ne here]
      simp [here]
  · intro d' v' live' inside
    have liveU' : Function.update owner f (some (.held label)) d' = some .directory := by
      rw [Function.update_of_ne (apart live')]
      exact live'
    rw [change.cells liveU' inside, same.cells liveU' inside, took.tables.cells live' inside]
  · intro g d' i apart'
    rw [change.tables apart']
    by_cases here : g = f
    · rw [here, mine, took.free]
      exact ⟨nofun, nofun⟩
    · rw [Function.update_of_ne here]
  · intro k inside
    rw [change.framed.held mine k inside]
    exact Memory.copy_inside _ inside
  · intro g r here
    have still : Function.update owner f (some (.held label)) g = some (.held r) := by
      rw [Function.update_of_ne (apart here)]
      exact here
    refine (took.memory g (spaces.pool here nofun).above).trans (.trans ?_ (change.framed.held still))
    exact .copy _ ⟨by omega, by omega⟩ (apart here)
  · have layout := change.framed.layout
    exact took.layout.trans ⟨layout.bitmapBase, layout.bitmapBytes, layout.totalMemoryBytes,
      layout.totalPages, layout.ready⟩
  · exact change.framed.current.trans took.current
  · exact change.framed.kernel.trans took.kernel

end MyOS.Mm
