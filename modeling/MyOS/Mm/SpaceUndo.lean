import MyOS.Lib.Run
import MyOS.Mm.SpaceLife

/-! A space that is taken apart as soon as it was made leaves nothing behind. -/

namespace MyOS.Mm

section Pages

variable {s : Pmm} {page : Nat}

/-- Taking a page that is free marks it and counts it. -/
theorem reservePage_eq (sound : s.Sound) (inside : page < s.totalPages.toNat)
    (free : s.bitmapTest page = false) :
    s.reservePage page = { s.bitmapSet page with freePages := s.freePages - 1 } := by
  -- A free page counts, so the counter is positive.
  have some_ : clearCount s.bitmapTest s.totalPages.toNat ≠ 0 := fun none_ =>
    Bool.false_ne_true (free.symm.trans (clearCount_eq_zero.mp none_ page inside))
  have positive : (s.bitmapSet page).freePages > 0 := by
    rw [gt_iff_lt, UInt32.lt_iff_toNat_lt]
    change 0 < s.freePages.toNat
    rw [sound.counted]
    exact Nat.pos_of_ne_zero some_
  unfold Pmm.reservePage
  rw [if_neg (by simp [free, inside])]
  exact if_pos positive

/-- A page that is given back right after it was taken is free as before, whatever was put in it. -/
theorem freePage_reservePage (sound : s.Sound) (inside : s.InPool page)
    (free : s.bitmapTest page = false) {m : Memory}
    (outside : ∀ k, k < page * 4096 ∨ page * 4096 + 4096 ≤ k → m k = (s.reservePage page).memory k) :
    let t := Pmm.freePage page { s.reservePage page with memory := m }
    t = { s with memory := t.memory } ∧
      ∀ k, k < page * 4096 ∨ page * 4096 + 4096 ≤ k → t.memory k = s.memory k := by
  have front : s.bitmapBase.toNat + page / 8 < page * 4096 :=
    (sound.flag_inside inside.below).trans_le (Nat.mul_le_mul_right 4096 inside.above)
  intro t
  rw [reservePage_eq sound inside.below free] at outside
  -- The flag lies in front of the page, and is still up.
  have byte : m (s.bitmapBase.toNat + page / 8) =
      bitSet (s.memory (s.bitmapBase.toNat + page / 8)) (page % 8) := by
    have here := outside (s.bitmapBase.toNat + page / 8) (Or.inl front)
    rw [here]
    unfold Pmm.bitmapSet Memory.store
    exact if_pos rfl
  have up : bitTest (m (s.bitmapBase.toNat + page / 8)) (page % 8) = true := by
    rw [byte, bitTest_bitSet _ (Nat.mod_lt _ (by decide)) (Nat.mod_lt _ (by decide))]
    simp
  have result : t = { s with
      memory := m.store (s.bitmapBase.toNat + page / 8) (s.memory (s.bitmapBase.toNat + page / 8)) } := by
    have down := bitClear_bitSet (Nat.mod_lt page (by decide)) free
    change Pmm.freePage page _ = _
    rw [reservePage_eq sound inside.below free]
    unfold Pmm.freePage
    rw [if_neg]
    · simp only [Pmm.bitmapClear, Pmm.bitmapSet, byte, down, UInt32.sub_add_cancel]
    · have below := Nat.not_le_of_lt inside.below
      rw [Bool.or_eq_true, not_or, decide_eq_true_eq, Bool.not_eq_true', Bool.not_eq_false]
      exact ⟨below, up⟩
  rw [result]
  refine ⟨rfl, fun k apart => ?_⟩
  simp only [Memory.store]
  split
  · next here => rw [here]
  · next other =>
    rw [outside k apart]
    exact if_neg other

end Pages

section Spaces

variable {ρ : Type} [Inhabited ρ] {owner : Owners ρ} {s u : Vmm} {dir : UInt32}

/-- A directory that has just been made has no table in the user's half. -/
theorem created_absent {f : Nat} (at_ : dir.toNat = f * 4096) {t : Vmm} (apart : s.kernelDirectory ≠ f)
    (copied : (List.range' 768 256).foldl (copyEntry dir) (t.clearPage dir) = u)
    (kernel : t.kernelPageDirectoryPhys.toNat = s.kernelDirectory * 4096) {i : Nat} (half : i < 768) :
    flagOf (u.pde f i) 0 = false := by
  -- The page was cleared, and only the entries of the kernel's half were copied into it.
  obtain ⟨-, entries⟩ := copyEntries at_ apart 256 768 (t.clearPage dir) (by omega) kernel
  rw [← copied, entries i (by omega), if_neg (by omega)]
  exact congrArg (flagOf · 0) (clearPage_zero at_ (by omega))

/-- The pages are in order once a space was made. -/
theorem created_sound (spaces : Spaces owner s) (created : vmmCreateAddressSpace s = (some dir, u)) :
    u.toPmm.Sound := by
  -- A space was made, as the result shows.
  rcases vmmCreateAddressSpace_cases spaces with ⟨failed, -⟩ | ⟨f, t, result, made⟩
  · exact nomatch failed.symm.trans created
  · obtain rfl : t = u := congrArg Prod.snd (result.symm.trans created)
    exact made.spaces.pmm

/-- A space that is taken apart as soon as it was made gives its page back, and nothing else changed. -/
theorem vmmDestroyAddressSpace_created (spaces : Spaces owner s)
    (created : vmmCreateAddressSpace s = (some dir, u)) :
    ∃ f, dir.toNat = f * 4096 ∧ s.InPool f ∧ s.bitmapTest f = false ∧
      PageChanged s (vmmDestroyAddressSpace dir u) f := by
  have sound := created_sound spaces created
  unfold vmmCreateAddressSpace Vmm.alloc at created
  rw [if_neg (by simp [spaces.vmmReady])] at created
  rcases pmmAllocPage_cases spaces.pmm with ⟨result, -⟩ | ⟨f, result, inside, free, -, -⟩
  · rw [result] at created
    exact nomatch created
  rw [result] at created
  have address := toNat_ofNat_page (spaces.small inside)
  have nonzero := ne_zero_of_page address (spaces.positive inside)
  simp only at created
  rw [if_neg (by simpa using nonzero)] at created
  change (some (UInt32.ofNat (f * 4096)), (List.range' 768 256).foldl (copyEntry (UInt32.ofNat (f * 4096)))
    (Vmm.clearPage { s with toPmm := s.reservePage f } (UInt32.ofNat (f * 4096)))) = (some dir, u) at created
  obtain ⟨same, copied⟩ := Prod.mk.inj created
  obtain rfl := Option.some.inj same
  refine ⟨f, address, inside, free, ?_⟩
  -- The page that was taken is not the kernel's directory.
  have apart : s.kernelDirectory ≠ f := by
    rintro rfl
    have taken := spaces.used s.kernelDirectory inside.below
    rw [spaces.kernelLive, free] at taken
    cases taken
  have kernel : (UInt32.ofNat (f * 4096)) ≠ s.kernelPageDirectoryPhys := by
    intro same
    have place := spaces.kernelAligned
    rw [← same, address] at place
    omega
  have absent {i : Nat} (half : i < 768) : flagOf (u.pde f i) 0 = false :=
    created_absent address apart copied spaces.kernelAligned half
  have changed : PageChanged { s with toPmm := s.reservePage f } u f := by
    have cleared := @clearPage_pageChanged { s with toPmm := s.reservePage f } f _ address
    obtain ⟨filled, -⟩ := copyEntries address apart 256 768
      (Vmm.clearPage { s with toPmm := s.reservePage f } (UInt32.ofNat (f * 4096))) (by decide)
      spaces.kernelAligned
    rw [copied] at filled
    exact cleared.trans filled
  have rest : u = { s with toPmm := { s.reservePage f with memory := u.memory } } := changed.rest
  have layout : (s.reservePage f).SameLayout u.toPmm := by
    rw [rest]
    exact ⟨rfl, rfl, rfl, rfl, rfl⟩
  have pool : u.InPool f := ((reservePage_marks spaces.pmm inside).layout.trans layout).inPool.mpr inside
  have ready : u.vmmReady = true := by
    rw [rest]
    exact spaces.vmmReady
  have other : (UInt32.ofNat (f * 4096)) ≠ u.kernelPageDirectoryPhys := by
    rw [rest]
    exact kernel
  -- There is no table to give back, only the directory.
  have tables : (List.range kernelDirectoryStart).foldl (destroyEntry (UInt32.ofNat (f * 4096))) u = u := by
    refine foldl_range_invariant (fun _ t => t = u) rfl fun i t half same => ?_
    subst same
    unfold destroyEntry
    simp only [entry_directory address, and_pagePresent_ne_zero]
    rw [absent half]
    rfl
  obtain ⟨given, outside⟩ := freePage_reservePage spaces.pmm inside free changed.outside
  have result : vmmDestroyAddressSpace (UInt32.ofNat (f * 4096)) u =
      { s with toPmm := Pmm.freePage f { s.reservePage f with memory := u.memory } } := by
    unfold vmmDestroyAddressSpace
    rw [if_neg, tables]
    · unfold Vmm.free
      rw [pmmFreePage_eq sound pool, rest]
    · rw [ready]
      simp only [Bool.not_true, Bool.false_or, Bool.or_eq_true, beq_iff_eq, not_or]
      exact ⟨nonzero, other⟩
  rw [result]
  exact ⟨congrArg (fun pmm : Pmm => { s with toPmm := pmm }) given, outside⟩

end Spaces

end MyOS.Mm
