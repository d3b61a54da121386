import MyOS.Mm.Estates
import MyOS.Mm.VmmInit

/-! The one space that there is once the kernel's directory is built, and whose the pages are then. -/

namespace MyOS.Mm

variable {ρ : Type} {s t : Vmm} {d n : Nat}

/-- Whose the pages are when the only space is that of a directory. -/
def firstOwners (d : Nat) (s : Vmm) : Owners ρ := fun f =>
  -- Whatever else is taken belongs to the kernel.
  if f = d then some .directory
  else if f < s.totalPages.toNat ∧ s.bitmapTest f = true then some .kernel
  else none

/-- A page that somebody has is the directory, or it is the kernel's. -/
theorem firstOwners_cases {f : Nat} {r : Owner ρ} (role : firstOwners d s f = some r) :
    r = .directory ∧ f = d ∨ r = .kernel := by
  -- The owners are defined by these three cases.
  unfold firstOwners at role
  split at role
  · next here => exact Or.inl ⟨(Option.some.inj role).symm, here⟩
  · split at role
    · exact Or.inr (Option.some.inj role).symm
    · cases role

/-- The only directory is the one that is built. -/
theorem firstOwners_directory {f : Nat} (live : (firstOwners d s : Owners ρ) f = some .directory) : f = d := by
  -- The kernel's pages have another role.
  rcases firstOwners_cases live with ⟨-, here⟩ | other
  · exact here
  · cases other

/-- The kernel's directory is the page at its address. -/
theorem Vmm.kernelDirectory_eq (at_ : s.kernelPageDirectoryPhys.toNat = d * 4096) : s.kernelDirectory = d :=
  (congrArg (· / 4096) at_).trans (Nat.mul_div_cancel _ (by omega))

/-- Memory up to a gigabyte is mapped behind the user's half, which stays without tables. -/
theorem Mapped.absent (mapped : Mapped d n s) (small : n ≤ 262144) {i : Nat} (low : i < 768) :
    flagOf (s.pde d i) 0 = false := by
  -- The pages that are mapped begin with the kernel's half and end with the address space.
  rw [Bool.eq_false_iff, ne_eq, mapped.present (by omega)]
  rintro ⟨j, below, here⟩
  unfold directPage at here
  omega

/-- The kernel's space is a space like others, and the only one, where it stays in its half. -/
theorem Mapped.spaces (mapped : Mapped d n s) (at_ : s.kernelPageDirectoryPhys.toNat = d * 4096)
    (small : n ≤ 262144) (started : s.vmmReady = true) : Spaces (firstOwners d s : Owners ρ) s := by
  have directory : s.kernelDirectory = d := Vmm.kernelDirectory_eq at_
  have inPool := mapped.building.inPool
  refine ⟨mapped.building.pmm, started, by rw [directory, at_], by rw [directory]; exact if_pos rfl,
    fun f inside => ?_, fun {f r} role other => ?_, fun f d' i => ?_, fun live _ _ => ?_,
    fun {i} low high present => ?_, fun live low present => ?_, fun {d' v} live low present => ?_⟩
  · unfold firstOwners
    by_cases here : f = d
    · rw [if_pos here, here, mapped.building.taken]
      rfl
    · rw [if_neg here]
      cases taken : s.bitmapTest f with
      | true =>
        rw [if_pos ⟨inside, rfl⟩]
        rfl
      | false =>
        rw [if_neg (by simp)]
        rfl
  · -- What is not the kernel's is the directory, which came from the pool.
    rcases firstOwners_cases role with ⟨-, here⟩ | kernel
    · rw [here]
      exact inPool
    · exact absurd kernel other
  · constructor
    · -- No table is in the user's half, so nobody has one.
      intro role
      rcases firstOwners_cases role with ⟨none_, -⟩ | none_ <;> cases none_
    · rintro ⟨live, low, present, -⟩
      rw [firstOwners_directory live, mapped.absent small low] at present
      cases present
  · rw [firstOwners_directory live, directory]
  · rw [directory] at present ⊢
    obtain ⟨room, taken, other⟩ := mapped.building.table high present
    refine ⟨?_, room.above⟩
    unfold firstOwners
    rw [if_neg other, if_pos ⟨room.below, taken⟩]
  · rw [firstOwners_directory live, mapped.absent small low] at present
    cases present
  · rw [firstOwners_directory live, cell_eq_zero (mapped.absent small (by omega))] at present
    cases present

end MyOS.Mm
