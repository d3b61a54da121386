import MyOS.Mm.Mmu
import MyOS.Mm.PagerState

/-! What a program reaches through its address space, and what its accesses leave behind. -/

namespace MyOS.Mm

variable {ρ : Type} {owner : Owners ρ} {s : Vmm} {d : Nat} {dir virtAddr : UInt32}

/-- The rights that an entry of a table grants a program. -/
def permits (entry : UInt32) (write : Bool) : Bool :=
  flagOf entry 2 && (!write || flagOf entry 1)

/-- What a program reaches is decided by the entry of the page alone. -/
theorem userTranslate_eq (spaces : Spaces owner s) (live : owner d = some .directory)
    (at_ : dir.toNat = d * 4096) (half : virtAddr < vmmKernelBase) (write : Bool) :
    userTranslate dir virtAddr write s =
      if flagOf (s.cell d (virtAddr.toNat / 4096)) 0 = false then .error .notPresent
      else if permits (s.cell d (virtAddr.toNat / 4096)) write = false then .error .protection
      else .ok ((s.cell d (virtAddr.toNat / 4096) &&& pageAddrMask) |||
        (virtAddr &&& ~~~pageAddrMask)) := by
  have inside := page_half half
  unfold userTranslate
  rw [entry_directory at_, pageDirectoryIndex_eq, pageTableIndex_eq]
  simp only [and_pagePresent_eq_zero, Bool.not_eq_eq_eq_not, Bool.not_true]
  cases present : flagOf (s.pde d (virtAddr.toNat / 4096 / 1024)) 0 with
  | false =>
    rw [if_pos rfl, cell_eq_zero present]
    rfl
  | true =>
    rw [if_neg nofun, entry_table present]
    cases mapped : flagOf (s.cell d (virtAddr.toNat / 4096)) 0 with
    | false => rw [if_pos rfl, if_pos rfl]
    | true =>
      rw [if_neg (by decide : ¬ true = false), if_neg (by decide : ¬ true = false)]
      -- The entry of the directory grants what that of the table does.
      have writable := spaces.writable live (by omega) present
      have both : ∀ {mask : UInt32} {k : Nat}, mask.toNat = 2 ^ k →
          (s.pde d (virtAddr.toNat / 4096 / 1024) &&& s.cell d (virtAddr.toNat / 4096) &&& mask == 0) =
            !(flagOf (s.pde d (virtAddr.toNat / 4096 / 1024)) k &&
              flagOf (s.cell d (virtAddr.toNat / 4096)) k) := by
        intro mask k single
        rw [← flagOf_and, ← and_ne_zero_eq_flagOf _ single, bne, Bool.not_not]
      have user : (flagOf (s.pde d (virtAddr.toNat / 4096 / 1024)) 2 &&
          flagOf (s.cell d (virtAddr.toNat / 4096)) 2) =
            flagOf (s.cell d (virtAddr.toNat / 4096)) 2 := by
        cases raised : flagOf (s.cell d (virtAddr.toNat / 4096)) 2 with
        | false => exact Bool.and_false _
        | true => rw [spaces.user live inside mapped raised]; rfl
      rw [@both vmmPageUser 2 rfl, @both vmmPageWritable 1 rfl, user, writable, Bool.true_and]
      unfold permits
      cases flagOf (s.cell d (virtAddr.toNat / 4096)) 2 <;>
        cases flagOf (s.cell d (virtAddr.toNat / 4096)) 1 <;> cases write <;> rfl

/-- The flags that an access raises are above the rights. -/
theorem accessFlags_alike (entry : UInt32) (dirty : Bool) :
    Alike (entry ||| vmmPageAccessed ||| (if dirty then vmmPageDirty else 0)) entry := by
  -- The bits for accessed and dirty lie above the first three, and below the page.
  have dirtyMask : pageOf (if dirty then vmmPageDirty else 0) = 0 ∧
      ∀ k, k < 3 → flagOf (if dirty then vmmPageDirty else 0) k = false := by
    cases dirty <;> decide
  exact (Alike.raiseFlags _ dirtyMask.1 dirtyMask.2).trans
    (Alike.raiseFlags entry rfl (by decide))

/-- An access changes what is known about accesses only. -/
theorem markAccess_touched (spaces : Spaces owner s) (live : owner d = some .directory)
    (at_ : dir.toNat = d * 4096) (half : virtAddr < vmmKernelBase)
    (mapped : flagOf (s.cell d (virtAddr.toNat / 4096)) 0 = true) (dirty : Bool) :
    Touched owner s (markAccess dir virtAddr dirty s) := by
  have inside := page_half half
  have present : flagOf (s.pde d (virtAddr.toNat / 4096 / 1024)) 0 = true := by
    by_contra absent
    rw [cell_eq_zero (Bool.eq_false_iff.mpr absent)] at mapped
    cases mapped
  unfold markAccess
  simp only [entry_directory at_, pageDirectoryIndex_eq, pageTableIndex_eq, entry_table present]
  generalize place : virtAddr.toNat / 4096 = v at *
  -- First the entry of the directory, which keeps its table.
  have page : pageOf (s.pde d (v / 1024) ||| vmmPageAccessed) = pageOf (s.pde d (v / 1024)) := by
    rw [pageOf_or]
    exact Nat.or_zero _
  have raised := spaces.raise live (show v / 1024 < 768 by omega) present at_ page
    (fun k before => by rw [flagOf_or, before, Bool.true_or]) v
  have first := Touched.ofChange raised (.refl _)
  obtain ⟨-, pdes⟩ := Spaces.setPde_others (s := s) live (show v / 1024 < 768 by omega) at_
    (s.pde d (v / 1024) ||| vmmPageAccessed)
  generalize s.setEntry dir (v / 1024) (s.pde d (v / 1024) ||| vmmPageAccessed) = t at *
  have here : t.pde d (v / 1024) = s.pde d (v / 1024) ||| vmmPageAccessed := by
    rw [pdes live (by omega), if_pos ⟨rfl, rfl⟩]
  have same : t.cell d v = s.cell d v := by
    rw [raised.cells live (by omega), if_pos ⟨rfl, rfl⟩]
  -- Then the entry of the table.
  have alike := accessFlags_alike (s.cell d v) dirty
  have second := @Spaces.setCell ρ owner t d v
    (s.cell d v ||| vmmPageAccessed ||| (if dirty then vmmPageDirty else 0)) raised.spaces live inside
    (by rw [here, flagOf_or, present, Bool.true_or])
    _ (by rw [here, page]; exact toNat_pageTableFromDirectory _)
    (fun _ user => by
      rw [alike.flags 2 (by decide)] at user
      rw [here, flagOf_or, spaces.user live inside mapped user, Bool.true_or])
  refine first.trans (.ofChange second ?_)
  rw [same]
  exact alike

end MyOS.Mm
