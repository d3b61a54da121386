import MyOS.Mm.PagerAccess
import MyOS.Mm.SpaceLife

/-! Pages that callers hold and spaces map, and what of memory stays as it was at the start. -/

namespace MyOS.Mm

variable {ρ : Type} {owner owner' base : Owners ρ} {s t o : Vmm} {d v f : Nat} {label label' : ρ}
  {dir virtAddr entry : UInt32} {bytes : Nat → UInt8}

/-- A page that a caller holds, at the place where a space maps it. -/
structure Lease (owner : Owners ρ) (s : Vmm) (label : ρ) (d v f : Nat) : Prop where
  live : owner d = some .directory
  half : v < 786432
  owned : owner f = some (.held label)
  mapped : flagOf (s.cell d v) 0 = true
  target : pageOf (s.cell d v) = f

/-- Every page that a space maps in the user's half is held by a caller, and mapped nowhere else. -/
structure Leases (owner : Owners ρ) (s : Vmm) : Prop where
  held : ∀ {d v}, owner d = some .directory → v < 786432 → flagOf (s.cell d v) 0 = true →
    ∃ label, owner (pageOf (s.cell d v)) = some (.held label)
  once : ∀ {d v d' v'}, owner d = some .directory → v < 786432 → flagOf (s.cell d v) 0 = true →
    owner d' = some .directory → v' < 786432 → flagOf (s.cell d' v') 0 = true →
    pageOf (s.cell d v) = pageOf (s.cell d' v') → d = d' ∧ v = v'

/-- Nothing in the kernel's half is open to programs. -/
def Vmm.Guarded (s : Vmm) : Prop :=
  ∀ v, 786432 ≤ v → v < 1048576 → flagOf (s.cell s.kernelDirectory v) 2 = false

/-- The roles that no page gains or loses, once the kernel has started. -/
def Lasting (stays : ρ → Prop) (kernelDirectory f : Nat) : Owner ρ → Prop
  | .kernel => True
  | .directory => f = kernelDirectory
  | .table d _ => d = kernelDirectory
  | .held label => stays label

/-- The pages with a lasting role are those that had it at the start. -/
def Stock (stays : ρ → Prop) (base owner : Owners ρ) (kernelDirectory : Nat) : Prop :=
  ∀ f r, Lasting stays kernelDirectory f r → (owner f = some r ↔ base f = some r)

/-- What is true of memory all the time, seen from the start. -/
structure Estate (stays : ρ → Prop) (base : Owners ρ) (o : Vmm) (owner : Owners ρ) (s : Vmm) :
    Prop where
  layout : o.toPmm.SameLayout s.toPmm
  kernel : s.kernelPageDirectoryPhys = o.kernelPageDirectoryPhys
  stock : Stock stays base owner o.kernelDirectory
  leases : Leases owner s
  guarded : s.Guarded

/-- A step after which every space maps the same pages with the same rights. -/
structure Unmoved (owner : Owners ρ) (s t : Vmm) : Prop where
  cells : ∀ {d v}, owner d = some .directory → v < 1048576 → Alike (t.cell d v) (s.cell d v)
  layout : s.toPmm.SameLayout t.toPmm
  kernel : t.kernelPageDirectoryPhys = s.kernelPageDirectoryPhys

/-- Accesses leave every page at its place. -/
theorem Touched.unmoved (touched : Touched owner s t) : Unmoved owner s t :=
  ⟨touched.cells, touched.layout, touched.kernel⟩

namespace Lease

/-- At one place there is the page of one holder. -/
theorem label_eq {f' : Nat} (lease : Lease owner s label d v f) (lease' : Lease owner s label' d v f') :
    label = label' := by
  -- The frame is what the entry leads to, and it has one owner.
  obtain rfl : f = f' := lease.target.symm.trans lease'.target
  simpa using lease.owned.symm.trans lease'.owned

/-- A step that leaves every page at its place leaves this one there. -/
theorem unmoved (lease : Lease owner s label d v f) (unmoved : Unmoved owner s t) :
    Lease owner t label d v f := by
  -- The entry of the place is like the one it was, and the frame is still held.
  have alike := unmoved.cells lease.live (show v < 1048576 by have := lease.half; omega)
  exact ⟨lease.live, lease.half, lease.owned, (alike.flags 0 (by decide)).trans lease.mapped,
    alike.page.trans lease.target⟩

/-- Another page is taken back. -/
theorem dropped {d' v' f' : Nat} (lease : Lease owner s label d v f)
    (gone : Lease owner s label' d' v' f') (other : label ≠ label')
    (dropped : Dropped owner s t d' v' f') : Lease (Function.update owner f' none) t label d v f := by
  have small : v < 1048576 := by
    have := lease.half
    omega
  -- The page taken back is held by someone else, so it is neither this one nor a directory.
  have apart : f ≠ f' := by
    rintro rfl
    have same := lease.owned.symm.trans gone.owned
    simp only [Option.some.injEq, Owner.held.injEq] at same
    exact other same
  have directory : d ≠ f' := by
    rintro rfl
    exact nomatch lease.live.symm.trans gone.owned
  have place : ¬ (d = d' ∧ v = v') := by
    rintro ⟨rfl, rfl⟩
    exact apart (lease.target.symm.trans gone.target)
  refine ⟨?_, lease.half, ?_, ?_, ?_⟩
  · rw [Function.update_of_ne directory]
    exact lease.live
  · rw [Function.update_of_ne apart]
    exact lease.owned
  · rw [dropped.cells lease.live small place]
    exact lease.mapped
  · rw [dropped.cells lease.live small place]
    exact lease.target

/-- A page is mapped somewhere else. -/
theorem placed {d' v' f' : Nat} (lease : Lease owner s label d v f)
    (placed : Placed owner owner' s t d' v' f' label' entry bytes) (place : ¬ (d = d' ∧ v = v')) :
    Lease owner' t label d v f := by
  -- The place is another one, so its entry is as it was.
  have small : v < 1048576 := by
    have := lease.half
    omega
  have cell := placed.cells lease.live small
  rw [if_neg place] at cell
  refine ⟨(placed.roles d .directory nofun).mpr (Or.inr lease.live), lease.half,
    (placed.roles f (.held label) nofun).mpr (Or.inr lease.owned), ?_, ?_⟩
  · rw [cell]
    exact lease.mapped
  · rw [cell]
    exact lease.target

/-- A page that was placed is held there. -/
theorem ofPlaced (placed : Placed owner owner' s t d v f label entry bytes)
    (live : owner d = some .directory) (half : v < 786432) (present : flagOf entry 0 = true)
    (page : pageOf entry = f) : Lease owner' t label d v f := by
  -- The entry is the one that was placed.
  have cell := placed.cells live (show v < 1048576 by omega)
  rw [if_pos ⟨rfl, rfl⟩] at cell
  refine ⟨(placed.roles d .directory nofun).mpr (Or.inr live), half,
    (placed.roles f (.held label) nofun).mpr (Or.inl ⟨rfl, rfl⟩), ?_, ?_⟩
  · rw [cell]
    exact present
  · rw [cell]
    exact page

/-- A space is made, in a page nobody had. -/
theorem made {f' : Nat} (lease : Lease owner s label d v f) (made : SpaceMade owner s t f') :
    Lease (Function.update owner f' (some .directory)) t label d v f := by
  -- Neither the frame nor the directory is the page that nobody had.
  have small : v < 1048576 := by
    have := lease.half
    omega
  have apart : ∀ {g r}, owner g = some r → g ≠ f' := by
    rintro g r role rfl
    exact nomatch made.free.symm.trans role
  refine ⟨?_, lease.half, ?_, ?_, ?_⟩
  · rw [Function.update_of_ne (apart lease.live)]
    exact lease.live
  · rw [Function.update_of_ne (apart lease.owned)]
    exact lease.owned
  · rw [made.cells lease.live small]
    exact lease.mapped
  · rw [made.cells lease.live small]
    exact lease.target

/-- Another space is taken apart. -/
theorem gone {d' : Nat} (lease : Lease owner s label d v f) (live : owner d' = some .directory)
    (other : d ≠ d') (gone : SpaceGone owner s t d') :
    Lease (withoutSpace owner d') t label d v f := by
  -- The frame is not the directory that goes, nor a table of it.
  have small : v < 1048576 := by
    have := lease.half
    omega
  have apart : f ≠ d' := by
    rintro rfl
    exact nomatch live.symm.trans lease.owned
  have cell := gone.cells lease.live other small
  refine ⟨(withoutSpace_roles owner d' (r := .directory) nofun).mpr ⟨other, lease.live⟩, lease.half,
    (withoutSpace_roles owner d' (r := .held label) nofun).mpr ⟨apart, lease.owned⟩, ?_, ?_⟩
  · rw [cell]
    exact lease.mapped
  · rw [cell]
    exact lease.target

end Lease

namespace Leases

/-- Where every page that is mapped was mapped before, and its holder has it still. -/
theorem restrict (leases : Leases owner s)
    (before : ∀ {d v}, owner' d = some .directory → v < 786432 → flagOf (t.cell d v) 0 = true →
      owner d = some .directory ∧ flagOf (s.cell d v) 0 = true ∧
        pageOf (t.cell d v) = pageOf (s.cell d v) ∧
        ∀ label, owner (pageOf (s.cell d v)) = some (.held label) →
          owner' (pageOf (s.cell d v)) = some (.held label)) : Leases owner' t := by
  -- The holder of a mapped page is the one it had before.
  constructor
  · intro d v live half mapped
    obtain ⟨live', mapped', page, still⟩ := before live half mapped
    obtain ⟨label, held⟩ := leases.held live' half mapped'
    exact ⟨label, by rw [page]; exact still label held⟩
  · intro d v d' v' live half mapped live' half' mapped' same
    obtain ⟨one, present, page, -⟩ := before live half mapped
    obtain ⟨two, present', page', -⟩ := before live' half' mapped'
    exact leases.once one half present two half' present' (by rw [← page, ← page', same])

/-- A step that leaves every page at its place keeps it so. -/
theorem unmoved (leases : Leases owner s) (unmoved : Unmoved owner s t) : Leases owner t := by
  -- What is mapped now was mapped before.
  refine leases.restrict fun {d v} live half mapped => ?_
  have alike := unmoved.cells live (show v < 1048576 by omega)
  exact ⟨live, (alike.flags 0 (by decide)).symm.trans mapped, alike.page, fun _ => id⟩

/-- A page is taken back, and so it is mapped nowhere any more. -/
theorem dropped (leases : Leases owner s) (gone : Lease owner s label d v f)
    (dropped : Dropped owner s t d v f) : Leases (Function.update owner f none) t := by
  -- The page that was taken back is the only one that is not mapped any more.
  refine leases.restrict fun {d' v'} live half mapped => ?_
  have before : owner d' = some .directory := by
    by_cases here : d' = f
    · rw [here, Function.update_self] at live
      cases live
    · rwa [Function.update_of_ne here] at live
  have place : ¬ (d' = d ∧ v' = v) := by
    rintro ⟨rfl, rfl⟩
    exact nomatch dropped.gone.symm.trans mapped
  have cell := dropped.cells before (show v' < 1048576 by omega) place
  rw [cell] at mapped
  refine ⟨before, mapped, by rw [cell], fun label' held => ?_⟩
  rw [Function.update_of_ne]
  · exact held
  · intro same
    exact place (leases.once before half mapped gone.live gone.half gone.mapped
      (same.trans gone.target.symm))

/-- A page that nobody had is mapped at one place. -/
theorem placed (leases : Leases owner s)
    (placed : Placed owner owner' s t d v f label entry bytes) (page : pageOf entry = f) :
    Leases owner' t := by
  have before : ∀ {d'}, owner' d' = some .directory → owner d' = some .directory := by
    intro d' live
    rcases (placed.roles d' .directory nofun).mp live with ⟨-, held⟩ | before
    · cases held
    · exact before
  -- Another page that is mapped is one that was held before, and so it is not this one.
  have others : ∀ {d' v'}, owner' d' = some .directory → v' < 786432 → ¬ (d' = d ∧ v' = v) →
      flagOf (t.cell d' v') 0 = true → t.cell d' v' = s.cell d' v' ∧
        flagOf (s.cell d' v') 0 = true ∧ ∃ label', owner (pageOf (s.cell d' v')) = some (.held label') := by
    intro d' v' live half place mapped
    have cell := placed.cells (before live) (show v' < 1048576 by omega)
    rw [if_neg place] at cell
    rw [cell] at mapped
    exact ⟨cell, mapped, leases.held (before live) half mapped⟩
  have fresh : ∀ {g r}, owner g = some r → g ≠ f := by
    rintro g r role rfl
    exact nomatch placed.free.symm.trans role
  have here : ∀ {d' v'}, owner' d' = some .directory → v' < 786432 → (d' = d ∧ v' = v) →
      pageOf (t.cell d' v') = f := by
    intro d' v' live half place
    rw [placed.cells (before live) (show v' < 1048576 by omega), if_pos place]
    exact page
  constructor
  · intro d' v' live half mapped
    by_cases place : d' = d ∧ v' = v
    · rw [here live half place]
      exact ⟨label, (placed.roles f (.held label) nofun).mpr (Or.inl ⟨rfl, rfl⟩)⟩
    · obtain ⟨cell, -, label', held⟩ := others live half place mapped
      rw [cell]
      exact ⟨label', (placed.roles _ (.held label') nofun).mpr (Or.inr held)⟩
  · intro d' v' d'' v'' live half mapped live' half' mapped' same
    by_cases one : d' = d ∧ v' = v <;> by_cases two : d'' = d ∧ v'' = v
    · exact ⟨one.1.trans two.1.symm, one.2.trans two.2.symm⟩
    · obtain ⟨cell, -, _, held⟩ := others live' half' two mapped'
      rw [here live half one, cell] at same
      exact absurd same.symm (fresh held)
    · obtain ⟨cell, -, _, held⟩ := others live half one mapped
      rw [here live' half' two, cell] at same
      exact absurd same (fresh held)
    · obtain ⟨cell, present, -⟩ := others live half one mapped
      obtain ⟨cell', present', -⟩ := others live' half' two mapped'
      rw [cell, cell'] at same
      exact leases.once (before live) half present (before live') half' present' same

/-- A new space maps nothing of its own. -/
theorem made (leases : Leases owner s) (made : SpaceMade owner s t f) :
    Leases (Function.update owner f (some .directory)) t := by
  -- A mapped page is in another space, and was mapped there before.
  refine leases.restrict fun {d v} live half mapped => ?_
  have other : d ≠ f := by
    rintro rfl
    rw [made.lower half] at mapped
    cases mapped
  rw [Function.update_of_ne other] at live
  have cell := made.cells live (show v < 1048576 by omega)
  rw [cell] at mapped
  refine ⟨live, mapped, by rw [cell], fun label held => ?_⟩
  rw [Function.update_of_ne]
  · exact held
  · intro same
    rw [same, made.free] at held
    cases held

/-- A space that is taken apart maps nothing any more. -/
theorem gone (leases : Leases owner s) (live : owner d = some .directory)
    (gone : SpaceGone owner s t d) : Leases (withoutSpace owner d) t := by
  -- A mapped page is in a space that stays, and was mapped there before.
  refine leases.restrict fun {d' v} live' half mapped => ?_
  obtain ⟨other, before⟩ := (withoutSpace_roles owner d (r := .directory) nofun).mp live'
  have cell := gone.cells before other (show v < 1048576 by omega)
  rw [cell] at mapped
  refine ⟨before, mapped, by rw [cell], fun label held =>
    (withoutSpace_roles owner d (r := .held label) nofun).mpr ⟨fun same => ?_, held⟩⟩
  rw [same, live] at held
  cases held

end Leases

namespace Stock

variable {stays : ρ → Prop} {kernelDirectory : Nat}

/-- A page that was only lent is taken back. -/
theorem dropped (stock : Stock stays base owner kernelDirectory)
    (held : owner f = some (.held label)) (lent : ¬ stays label) :
    Stock stays base (Function.update owner f none) kernelDirectory := by
  -- The page is none of those that stay.
  intro g r lasting
  rw [← stock g r lasting]
  by_cases here : g = f
  · subst here
    rw [Function.update_self, held]
    refine ⟨nofun, fun same => ?_⟩
    obtain rfl : Owner.held label = r := Option.some.inj same
    exact absurd lasting lent
  · rw [Function.update_of_ne here]

/-- A page is lent, and mapped into a space other than the kernel's. -/
theorem placed (stock : Stock stays base owner kernelDirectory)
    (placed : Placed owner owner' s t d v f label entry bytes) (lent : ¬ stays label)
    (other : d ≠ kernelDirectory) : Stock stays base owner' kernelDirectory := by
  -- The page that was placed, and its table, are none of those that stay.
  intro g r lasting
  rw [← stock g r lasting]
  cases r with
  | table d' i => exact placed.tables (by rw [show d' = kernelDirectory from lasting]; exact other.symm)
  | kernel =>
    rw [placed.roles g .kernel nofun]
    simp
  | directory =>
    rw [placed.roles g .directory nofun]
    simp
  | held label' =>
    rw [placed.roles g (.held label') nofun]
    refine ⟨fun either => ?_, Or.inr⟩
    rcases either with ⟨-, same⟩ | before
    · cases same
      exact absurd lasting lent
    · exact before

/-- A space is made in a page nobody had. -/
theorem made (stock : Stock stays base owner kernelDirectory) (free : owner f = none)
    (live : owner kernelDirectory = some .directory) :
    Stock stays base (Function.update owner f (some .directory)) kernelDirectory := by
  -- The page had no role before, and its new role is not one that stays.
  intro g r lasting
  rw [← stock g r lasting]
  by_cases here : g = f
  · subst here
    rw [Function.update_self, free]
    refine ⟨fun same => ?_, nofun⟩
    obtain rfl : Owner.directory = r := Option.some.inj same
    obtain rfl : g = kernelDirectory := lasting
    exact nomatch free.symm.trans live
  · rw [Function.update_of_ne here]

/-- A space other than the kernel's is taken apart. -/
theorem gone (stock : Stock stays base owner kernelDirectory) (live : owner d = some .directory)
    (other : d ≠ kernelDirectory) : Stock stays base (withoutSpace owner d) kernelDirectory := by
  -- The directory and its tables are none of those that stay.
  intro g r lasting
  rw [← stock g r lasting]
  unfold withoutSpace
  by_cases here : g = d
  · subst here
    rw [Function.update_self, live]
    refine ⟨nofun, fun same => ?_⟩
    obtain rfl : Owner.directory = r := Option.some.inj same
    exact absurd lasting other
  · rw [Function.update_of_ne here]
    cases r with
    | table d' i =>
      unfold releasedTables
      cases role : owner g with
      | none => simp
      | some old =>
        cases old with
        | table d'' j =>
          simp only
          split
          · next mine =>
            refine ⟨nofun, fun same => ?_⟩
            simp only [Option.some.injEq, Owner.table.injEq] at same
            exact absurd (mine.1.symm.trans (same.1.trans lasting)) other
          · rfl
        | _ => simp
    | _ => exact releasedTables_roles owner d 768 nofun

end Stock

namespace Estate

variable {stays : ρ → Prop}

/-- The kernel's directory is where it was at the start. -/
theorem kernelDirectory (estate : Estate stays base o owner s) :
    s.kernelDirectory = o.kernelDirectory :=
  congrArg pageOf estate.kernel

/-- What the kernel's half says does not change with what the user's half says. -/
theorem guarded_of (guarded : s.Guarded) (kernel : t.kernelPageDirectoryPhys = s.kernelPageDirectoryPhys)
    (cells : ∀ {v}, 786432 ≤ v → v < 1048576 →
      Alike (t.cell s.kernelDirectory v) (s.cell s.kernelDirectory v)) : t.Guarded := by
  -- The flag for users is one that entries that are alike agree on.
  intro v low high
  rw [show t.kernelDirectory = s.kernelDirectory from congrArg pageOf kernel]
  exact ((cells low high).flags 2 (by decide)).trans (guarded v low high)

/-- Every page stays at its place. -/
theorem unmoved (estate : Estate stays base o owner s) (spaces : Spaces owner s)
    (unmoved : Unmoved owner s t) : Estate stays base o owner t :=
  -- The kernel's half is mapped in the kernel's directory, whose entries are like those before.
  ⟨estate.layout.trans unmoved.layout, unmoved.kernel.trans estate.kernel, estate.stock,
    estate.leases.unmoved unmoved,
    guarded_of estate.guarded unmoved.kernel fun _ high => unmoved.cells spaces.kernelLive high⟩

/-- A page that was lent is taken back. -/
theorem dropped (estate : Estate stays base o owner s) (spaces : Spaces owner s)
    (gone : Lease owner s label d v f) (lent : ¬ stays label) (dropped : Dropped owner s t d v f) :
    Estate stays base o (Function.update owner f none) t := by
  -- The page lay in the user's half, so the kernel's half is as it was.
  refine ⟨estate.layout.trans dropped.layout, dropped.kernel.trans estate.kernel,
    estate.stock.dropped gone.owned lent, estate.leases.dropped gone dropped,
    guarded_of estate.guarded dropped.kernel fun low high => ?_⟩
  rw [dropped.cells spaces.kernelLive high]
  · exact .refl _
  · rintro ⟨-, rfl⟩
    have := gone.half
    omega

/-- A page is lent, and mapped into the user's half of a space other than the kernel's. -/
theorem placed (estate : Estate stays base o owner s) (spaces : Spaces owner s)
    (placed : Placed owner owner' s t d v f label entry bytes) (page : pageOf entry = f)
    (half : v < 786432) (lent : ¬ stays label) (other : d ≠ s.kernelDirectory) :
    Estate stays base o owner' t := by
  -- The page lies in the user's half, so the kernel's half is as it was.
  rw [estate.kernelDirectory] at other
  refine ⟨estate.layout.trans placed.layout, placed.kernel.trans estate.kernel,
    estate.stock.placed placed lent other, estate.leases.placed placed page,
    guarded_of estate.guarded placed.kernel fun low high => ?_⟩
  rw [placed.cells spaces.kernelLive high, if_neg]
  · exact .refl _
  · rintro ⟨-, rfl⟩
    omega

/-- A space is made. -/
theorem made (estate : Estate stays base o owner s) (spaces : Spaces owner s)
    (made : SpaceMade owner s t f) :
    Estate stays base o (Function.update owner f (some .directory)) t := by
  -- The new directory is a page of its own, so the kernel's is as it was.
  have live := spaces.kernelLive
  refine ⟨estate.layout.trans made.layout, made.kernel.trans estate.kernel,
    estate.stock.made made.free (estate.kernelDirectory ▸ live), estate.leases.made made,
    guarded_of estate.guarded made.kernel fun low high => ?_⟩
  rw [made.cells live high]
  exact .refl _

/-- A space other than the kernel's is taken apart. -/
theorem gone (estate : Estate stays base o owner s) (spaces : Spaces owner s)
    (live : owner d = some .directory) (other : d ≠ s.kernelDirectory)
    (gone : SpaceGone owner s t d) : Estate stays base o (withoutSpace owner d) t := by
  -- The kernel's directory is another one, and is as it was.
  refine ⟨estate.layout.trans gone.layout, gone.kernel.trans estate.kernel,
    estate.stock.gone live (estate.kernelDirectory ▸ other), estate.leases.gone live gone,
    guarded_of estate.guarded gone.kernel fun low high => ?_⟩
  rw [gone.cells spaces.kernelLive other.symm high]
  exact .refl _

end Estate

section Pages

/-- Tables that say the same map every page at the same place. -/
theorem SameTables.unmoved (same : SameTables owner s t) (layout : s.toPmm.SameLayout t.toPmm)
    (kernel : t.kernelPageDirectoryPhys = s.kernelPageDirectoryPhys) : Unmoved owner s t := by
  -- Entries that are the same are alike.
  refine ⟨fun live inside => ?_, layout, kernel⟩
  rw [same.cells live inside]
  exact .refl _

/-- A step after which the spaces, and the pages that are free, are as they were. -/
structure Reverted (owner : Owners ρ) (s t : Vmm) : Prop where
  spaces : Spaces owner t
  tables : SameTables owner s t
  layout : s.toPmm.SameLayout t.toPmm
  kernel : t.kernelPageDirectoryPhys = s.kernelPageDirectoryPhys
  current : t.currentPageDirectoryPhys = s.currentPageDirectoryPhys

/-- A step that does nothing is one. -/
theorem Reverted.refl (spaces : Spaces owner s) : Reverted owner s s :=
  ⟨spaces, ⟨fun _ _ => rfl, fun _ _ => rfl⟩, .refl _, rfl, rfl⟩

/-- Every space maps the same pages as before. -/
theorem Reverted.unmoved (reverted : Reverted owner s t) : Unmoved owner s t :=
  reverted.tables.unmoved reverted.layout reverted.kernel

/-- A page that was taken and filled, but could not be mapped, is given back as if nothing was. -/
theorem Spaces.unplaced [Inhabited ρ] (spaces : Spaces owner s) (live : owner d = some .directory)
    (at_ : dir.toNat = d * 4096) (half : virtAddr < vmmKernelBase)
    (aligned : virtAddr.toNat % 4096 = 0) {physAddr flags : UInt32} {u : Vmm}
    (taken : s.alloc = (physAddr, u)) (nonzero : physAddr ≠ 0)
    (failed : vmmMapPageInDirectory dir virtAddr physAddr flags
      { u with memory := u.memory.copy physAddr.toNat 4096 bytes } = (false, t)) :
    Reverted owner s (t.free physAddr) := by
  rcases spaces.alloc_cases default with ⟨none_, -⟩ | ⟨f, u', result, took⟩
  · rw [none_] at taken
    exact absurd (congrArg Prod.fst taken).symm nonzero
  rw [result] at taken
  obtain ⟨rfl, rfl⟩ : UInt32.ofNat (f * 4096) = physAddr ∧ u' = u := by simpa using taken
  have address := toNat_ofNat_page (spaces.small took.inPool)
  rw [address] at failed
  have mine : Function.update owner f (some (.held default)) f = some (.held default) :=
    Function.update_self ..
  have stays : ∀ {d'}, owner d' = some .directory →
      Function.update owner f (some (.held default)) d' = some .directory := by
    intro d' live'
    rwa [Function.update_of_ne (by rintro rfl; exact nomatch live'.symm.trans took.free)]
  obtain ⟨filled, same⟩ := took.spaces.poke mine (m := u'.memory.copy (f * 4096) 4096 bytes)
    fun k outside => Memory.copy_outside _ outside
  rcases vmmMapPageInDirectory_cases filled (stays live) at_ half aligned
    (by rw [address]; omega) flags with ⟨result', -⟩ | ⟨owner', t', result', -⟩
  · obtain rfl : _ = t := congrArg Prod.snd (result'.symm.trans failed)
    have given := filled.free mine
    have after := given.spaces
    -- The page is free again, as it was.
    rw [Function.update_idem, Function.update_eq_self_iff.mpr took.free.symm] at after
    refine ⟨after, ⟨fun live' inside => ?_, fun live' inside => ?_⟩, ?_, ?_, ?_⟩
    · rw [given.tables.pdes (stays live') inside, same.pdes (stays live') inside,
        took.tables.pdes live' inside]
    · rw [given.tables.cells (stays live') inside, same.cells (stays live') inside,
        took.tables.cells live' inside]
    · have layout := given.layout
      exact took.layout.trans ⟨layout.bitmapBase, layout.bitmapBytes, layout.totalMemoryBytes,
        layout.totalPages, layout.ready⟩
    · exact given.kernel.trans took.kernel
    · exact given.current.trans took.current
  · exact nomatch result'.symm.trans failed

/-- What others hold is not touched by a page that is given back. -/
theorem Spaces.unplaced_held [Inhabited ρ] (spaces : Spaces owner s) (live : owner d = some .directory)
    (at_ : dir.toNat = d * 4096) (half : virtAddr < vmmKernelBase)
    (aligned : virtAddr.toNat % 4096 = 0) {physAddr flags : UInt32} {u : Vmm}
    (taken : s.alloc = (physAddr, u)) (nonzero : physAddr ≠ 0)
    (failed : vmmMapPageInDirectory dir virtAddr physAddr flags
      { u with memory := u.memory.copy physAddr.toNat 4096 bytes } = (false, t))
    {g : Nat} {r : ρ} (here : owner g = some (.held r)) :
    s.memory.SamePage (t.free physAddr).memory g := by
  rcases spaces.alloc_cases default with ⟨none_, -⟩ | ⟨f, u', result, took⟩
  · rw [none_] at taken
    exact absurd (congrArg Prod.fst taken).symm nonzero
  rw [result] at taken
  obtain ⟨rfl, rfl⟩ : UInt32.ofNat (f * 4096) = physAddr ∧ u' = u := by simpa using taken
  have address := toNat_ofNat_page (spaces.small took.inPool)
  rw [address] at failed
  have mine : Function.update owner f (some (.held default)) f = some (.held default) :=
    Function.update_self ..
  have apart : ∀ {g' role}, owner g' = some role → g' ≠ f := by
    rintro g' role holds rfl
    exact nomatch took.free.symm.trans holds
  obtain ⟨filled, same⟩ := took.spaces.poke mine (m := u'.memory.copy (f * 4096) 4096 bytes)
    fun k outside => Memory.copy_outside _ outside
  have liveU : Function.update owner f (some (.held default)) d = some .directory := by
    rw [Function.update_of_ne (apart live)]
    exact live
  rcases vmmMapPageInDirectory_cases filled liveU at_ half aligned (by rw [address]; omega) flags with
    ⟨result', -⟩ | ⟨owner', t', result', -⟩
  · obtain rfl : _ = t := congrArg Prod.snd (result'.symm.trans failed)
    have given := filled.free mine
    have above := (spaces.pool here nofun).above
    have small := spaces.small took.inPool
    -- The page is taken, filled and given back, each time apart from this one.
    refine (took.memory g above).trans (.trans ?_ (given.memory g ?_))
    · exact .copy _ ⟨by omega, by omega⟩ (apart here)
    · have layout := took.layout
      change u'.firstPage ≤ g
      rw [layout.firstPage]
      exact above
  · exact nomatch result'.symm.trans failed

end Pages

section Programs

/-- A program reaches nothing in the kernel's half. -/
theorem userTranslate_kernel (spaces : Spaces owner s) (guarded : s.Guarded)
    (live : owner d = some .directory) (at_ : dir.toNat = d * 4096)
    (upper : ¬ virtAddr < vmmKernelBase) (write : Bool) :
    ∃ fault, userTranslate dir virtAddr write s = .error fault := by
  have small := page_small virtAddr
  have low : 786432 ≤ virtAddr.toNat / 4096 := by
    rw [UInt32.lt_iff_toNat_lt] at upper
    change ¬ virtAddr.toNat < 3221225472 at upper
    omega
  unfold userTranslate
  rw [entry_directory at_, pageDirectoryIndex_eq, pageTableIndex_eq]
  simp only [and_pagePresent_eq_zero, Bool.not_eq_eq_eq_not, Bool.not_true]
  cases present : flagOf (s.pde d (virtAddr.toNat / 4096 / 1024)) 0 with
  | false => exact ⟨.notPresent, rfl⟩
  | true =>
    rw [if_neg nofun, entry_table present]
    cases flagOf (s.cell d (virtAddr.toNat / 4096)) 0 with
    | false => exact ⟨.notPresent, rfl⟩
    | true =>
      -- The entry is that of the kernel's own space, which does not have the user flag.
      have same : s.cell d (virtAddr.toNat / 4096) = s.cell s.kernelDirectory (virtAddr.toNat / 4096) := by
        unfold Vmm.cell
        rw [spaces.shared live (by omega) (by omega)]
      have closed : (s.pde d (virtAddr.toNat / 4096 / 1024) &&& s.cell d (virtAddr.toNat / 4096) &&&
          vmmPageUser == 0) = true := by
        have flag : flagOf (s.pde d (virtAddr.toNat / 4096 / 1024) &&&
            s.cell d (virtAddr.toNat / 4096)) 2 = false := by
          rw [flagOf_and, same, guarded _ low small, Bool.and_false]
        have bit := and_vmmPageUser_ne_zero (s.pde d (virtAddr.toNat / 4096 / 1024) &&&
          s.cell d (virtAddr.toNat / 4096))
        rw [flag] at bit
        simpa [bne] using bit
      rw [if_neg nofun, if_pos closed]
      exact ⟨.protection, rfl⟩

/-- A page that a program reaches is mapped in the user's half of its space. -/
theorem userTranslate_ok (spaces : Spaces owner s) (guarded : s.Guarded)
    (live : owner d = some .directory) (at_ : dir.toNat = d * 4096) {write : Bool} {physAddr : UInt32}
    (reached : userTranslate dir virtAddr write s = .ok physAddr) :
    virtAddr < vmmKernelBase ∧ flagOf (s.cell d (virtAddr.toNat / 4096)) 0 = true ∧
      physAddr = UInt32.ofNat
        (pageOf (s.cell d (virtAddr.toNat / 4096)) * 4096 + virtAddr.toNat % 4096) := by
  -- In the user's half the walk finds the entry, and in the kernel's half the guard refuses.
  by_cases half : virtAddr < vmmKernelBase
  · rw [userTranslate_eq spaces live at_ half] at reached
    split at reached
    · cases reached
    · next mapped =>
      split at reached
      · cases reached
      · rw [toNat_frame_or_offset, Except.ok.injEq] at reached
        exact ⟨half, by simpa using mapped, reached.symm⟩
  · obtain ⟨fault, result⟩ := userTranslate_kernel spaces guarded live at_ half write
    exact nomatch result.symm.trans reached

/-- A program that reads leaves every page at its place. -/
theorem userRead_touched (spaces : Spaces owner s) (guarded : s.Guarded)
    (live : owner d = some .directory) (at_ : dir.toNat = d * 4096) (virtAddr : UInt32) :
    Touched owner s (userRead dir virtAddr s).2 := by
  -- A read that is refused changes nothing, and one that is not marks an entry.
  unfold userRead
  cases reached : userTranslate dir virtAddr false s with
  | error fault => exact .refl spaces
  | ok physAddr =>
    obtain ⟨half, mapped, -⟩ := userTranslate_ok spaces guarded live at_ reached
    exact markAccess_touched spaces live at_ half mapped false

/-- A program that writes leaves every page at its place, for it writes into pages that are held. -/
theorem userWrite_unmoved (spaces : Spaces owner s) (guarded : s.Guarded) (leases : Leases owner s)
    (live : owner d = some .directory) (at_ : dir.toNat = d * 4096) (virtAddr : UInt32)
    (value : UInt8) :
    Spaces owner (userWrite dir virtAddr value s).2 ∧
      Unmoved owner s (userWrite dir virtAddr value s).2 ∧
      (userWrite dir virtAddr value s).2.currentPageDirectoryPhys = s.currentPageDirectoryPhys := by
  unfold userWrite
  cases reached : userTranslate dir virtAddr true s with
  | error fault => exact ⟨spaces, (Touched.refl spaces).unmoved, rfl⟩
  | ok physAddr =>
    obtain ⟨half, mapped, address⟩ := userTranslate_ok spaces guarded live at_ reached
    obtain ⟨label, held⟩ := leases.held live (page_half half) mapped
    have touched := markAccess_touched spaces live at_ half mapped true
    simp only
    generalize markAccess dir virtAddr true s = t at touched
    -- The byte that changes lies in the page that is held.
    have small := spaces.small (spaces.pool held nofun)
    have place : physAddr.toNat =
        pageOf (s.cell d (virtAddr.toNat / 4096)) * 4096 + virtAddr.toNat % 4096 := by
      rw [address, UInt32.toNat_ofNat']
      omega
    obtain ⟨after, same⟩ := touched.spaces.poke held (m := t.memory.store physAddr.toNat value)
      fun k outside => if_neg (by omega)
    refine ⟨after, ⟨fun live' inside => ?_, touched.layout.trans ⟨rfl, rfl, rfl, rfl, rfl⟩,
      touched.kernel⟩, touched.current⟩
    rw [same.cells live' inside]
    exact touched.cells live' inside

end Programs

section Pagers

variable {owner owner' : Owners Holder} {s t : Pager} {i : Nat}

/-- The page of an entry that is in memory is at the place the entry says. -/
theorem Pager.Ok.lease {hole : Option Nat} (ok : Pager.Ok owner hole s) (inside : i < 128)
    (used : (s.pages.get i).used = true) (present : (s.pages.get i).present = true) :
    Lease owner s.toVmm (.page i) (s.pages.get i).directory (s.pages.get i).page
      (s.pages.get i).frame := by
  -- What is always true of the entry says so.
  have lives := ok.lives inside used
  have resident := ok.frames inside used present
  exact ⟨lives.live, PagerPage.page_half lives.half, resident.owned, resident.mapped, resident.target⟩

/-- A pager that is in order, or that has not started and has no page yet. -/
structure Pager.Settled (owner : Owners Holder) (s : Pager) : Prop where
  spaces : Spaces owner s.toVmm
  ok : s.pagerReady = true → Pager.Ok owner none s
  idle : s.pagerReady = false → ∀ j, j < 128 → (s.pages.get j).used = false
  unheld : s.pagerReady = false → ∀ f j, owner f ≠ some (.held (.page j))

namespace Pager.Settled

/-- A pager that is in order has started. -/
theorem of_ok (ok : Pager.Ok owner none s) : Settled owner s :=
  ⟨ok.spaces, fun _ => ok, fun stopped => (nomatch stopped.symm.trans ok.ready),
    fun stopped => (nomatch stopped.symm.trans ok.ready)⟩

/-- Only a pager that has started has a page. -/
theorem of_used (settled : Settled owner s) (inside : i < 128) (used : (s.pages.get i).used = true) :
    Pager.Ok owner none s := by
  -- A pager that has not started has no entry in use.
  refine settled.ok ?_
  by_contra stopped
  exact nomatch (settled.idle (Bool.eq_false_iff.mpr stopped) i inside).symm.trans used

/-- The page of an entry in use is one of a space that is there. -/
theorem lives (settled : Settled owner s) (inside : i < 128) (used : (s.pages.get i).used = true) :
    (s.pages.get i).Lives owner :=
  (settled.of_used inside used).lives inside used

/-- The page of an entry in memory is at the place the entry says. -/
theorem lease (settled : Settled owner s) (inside : i < 128) (used : (s.pages.get i).used = true)
    (present : (s.pages.get i).present = true) :
    Lease owner s.toVmm (.page i) (s.pages.get i).directory (s.pages.get i).page
      (s.pages.get i).frame :=
  -- The pager has started, so this is always true of it.
  (settled.of_used inside used).lease inside used present

/-- Steps that leave every page at its place keep the pager in order. -/
theorem kept (settled : Settled owner s) (kept : Pager.Kept owner s t) : Settled owner t := by
  -- A pager that has started is kept in order, and one that has not is still idle.
  refine ⟨kept.vmm.spaces, fun ready => (settled.ok (kept.ready ▸ ready)).kept kept,
    fun stopped j inside => ?_, fun stopped => settled.unheld (kept.ready ▸ stopped)⟩
  exact (kept.entries j inside).used.trans (settled.idle (kept.ready ▸ stopped) j inside)

/-- So does what others do in their spaces. -/
theorem elsewhere (settled : Settled owner s) {vmm : Vmm} (spaces : Spaces owner' vmm)
    (live : ∀ i, i < 128 → (s.pages.get i).used = true →
      owner' (s.pages.get i).directory = some .directory)
    (held : ∀ f i, owner' f = some (.held (.page i)) ↔ owner f = some (.held (.page i)))
    (cells : ∀ i, i < 128 → (s.pages.get i).used = true → (s.pages.get i).present = true →
      Alike (vmm.cell (s.pages.get i).directory (s.pages.get i).page)
        (s.cell (s.pages.get i).directory (s.pages.get i).page)) :
    Settled owner' { s with toVmm := vmm } :=
  -- The entries are the same, and the pages held are held by the same.
  ⟨spaces, fun ready => (settled.ok ready).elsewhere spaces live held cells, settled.idle,
    fun stopped f j owned => settled.unheld stopped f j ((held f j).mp owned)⟩

/-- A space is made. -/
theorem made (settled : Settled owner s) {f : Nat} {vmm : Vmm} (made : SpaceMade owner s.toVmm vmm f) :
    Settled (Function.update owner f (some .directory)) { s with toVmm := vmm } := by
  -- The page of the new directory is none that the pager holds.
  refine ⟨made.spaces, fun ready => (settled.ok ready).made made, settled.idle,
    fun stopped g j owned => ?_⟩
  by_cases here : g = f
  · rw [here, Function.update_self] at owned
    cases owned
  · rw [Function.update_of_ne here] at owned
    exact settled.unheld stopped g j owned

/-- A space none of whose pages is registered is taken apart. -/
theorem gone (settled : Settled owner s) {d : Nat} {vmm : Vmm} (live : owner d = some .directory)
    (elsewhere : ∀ i, i < 128 → (s.pages.get i).used = true → (s.pages.get i).directory ≠ d)
    (gone : SpaceGone owner s.toVmm vmm d) : Settled (withoutSpace owner d) { s with toVmm := vmm } := by
  -- Pages of the pager are not tables, so they keep their role.
  refine ⟨gone.spaces, fun ready => (settled.ok ready).gone live elsewhere gone, settled.idle,
    fun stopped g j owned => ?_⟩
  exact settled.unheld stopped g j ((withoutSpace_roles owner d (r := .held (.page j)) nofun).mp owned).2

end Pager.Settled

end Pagers

end MyOS.Mm
