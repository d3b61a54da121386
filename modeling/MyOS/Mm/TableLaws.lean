import MyOS.Mm.SpaceLaws

/-! How entries come and go in the directories and tables of the user's half. -/

namespace MyOS.Mm

variable {ρ : Type} {owner owner' : Owners ρ} {s t : Vmm} {f d d' i v v' : Nat} {word : UInt32}

namespace Spaces

/-- Storing an entry in a page behind the bitmap is sound, and marks no page. -/
theorem setEntry_sound (spaces : Spaces owner s) (behind : s.firstPage ≤ f) {table : UInt32}
    (at_ : table.toNat = f * 4096) (i : Nat) (word : UInt32) :
    (s.setEntry table i word).toPmm.Sound ∧ ∀ page, page < s.totalPages.toNat →
      (s.setEntry table i word).bitmapTest page = s.bitmapTest page :=
  -- The entry lies in a page behind the bitmap.
  spaces.pmm.withMemory fun k low => by rw [at_]; exact storeWord_below behind word low

/-- An entry of a table of the user's half is replaced. -/
theorem setCell (spaces : Spaces owner s) (live : owner d = some .directory) (half : v < 786432)
    (present : flagOf (s.pde d (v / 1024)) 0 = true) {table : UInt32}
    (at_ : table.toNat = pageOf (s.pde d (v / 1024)) * 4096)
    (allowed : flagOf word 0 = true → flagOf word 2 = true →
      flagOf (s.pde d (v / 1024)) 2 = true) :
    CellChange owner owner s (s.setEntry table (v % 1024) word) d v word := by
  have owned := spaces.table_owner live (by omega) present
  generalize page : pageOf (s.pde d (v / 1024)) = f at owned at_
  have inPool := spaces.pool owned nofun
  have small : v % 1024 < 1024 := Nat.mod_lt _ (by omega)
  -- Only the page of the table changes, and that is behind the bitmap.
  have memory : (s.setEntry table (v % 1024) word).memory =
      s.memory.storeWord (f * 4096 + 4 * (v % 1024)) word := by
    rw [Vmm.setEntry, at_]
  have others : ∀ {g r}, owner g = some r → r ≠ .table d (v / 1024) →
      s.memory.SamePage (s.setEntry table (v % 1024) word).memory g := by
    intro g r role apart
    rw [memory]
    refine samePage_storeWord small word fun same => apart ?_
    rw [same, owned] at role
    exact (Option.some.inj role).symm
  have pdes : ∀ {d' i}, owner d' = some .directory → i < 1024 →
      (s.setEntry table (v % 1024) word).pde d' i = s.pde d' i := fun live' inside =>
    pde_congr (others live' nofun) inside
  have cells : ∀ {d' v'}, owner d' = some .directory → v' < 1048576 →
      (s.setEntry table (v % 1024) word).cell d' v' =
        if d' = d ∧ v' = v then word else s.cell d' v' := by
    intro d' v' live' inside
    have entry := pdes live' (show v' / 1024 < 1024 by omega)
    by_cases here : flagOf (s.pde d' (v' / 1024)) 0 = true ∧ pageOf (s.pde d' (v' / 1024)) = f
    · -- A page of this very table: the one written, or a neighbour of it.
      obtain ⟨present', same⟩ := here
      have role := (spaces.cell_owner live' inside present').1
      rw [same, owned] at role
      have place : d' = d ∧ v' / 1024 = v / 1024 := by
        split at role
        · simp only [Option.some.injEq, Owner.table.injEq] at role
          exact ⟨role.1.symm, role.2.symm⟩
        · cases role
      unfold Vmm.cell
      rw [entry, if_pos present', if_pos present', same, memory,
        Memory.wordAt_storeWord_index]
      congr 1
      rw [eq_iff_iff]
      omega
    · rw [if_neg (by rintro ⟨rfl, rfl⟩; exact here ⟨present, page⟩)]
      refine cell_congr entry fun present' => ?_
      rw [memory]
      exact samePage_storeWord small word fun same => here ⟨present', same⟩
  obtain ⟨sound, flags⟩ := spaces.setEntry_sound inPool.above at_ (v % 1024) word
  refine ⟨spaces.rebuild sound ⟨rfl, rfl, rfl, rfl, rfl⟩ rfl rfl Iff.rfl id
    (fun live' _ high => pdes live' high)
    (fun g inside => (flags g inside).trans (spaces.used g inside)) spaces.pool ?_ ?_ ?_,
    ⟨fun _ _ _ => Iff.rfl, fun held => others held nofun, ⟨rfl, rfl, rfl, rfl, rfl⟩, rfl, rfl⟩, cells,
    fun _ => Iff.rfl, Or.inl rfl⟩
  · intro g d' i
    rw [spaces.tables g d' i]
    refine and_congr_right fun live' => and_congr_right fun half' => ?_
    rw [pdes live' (by omega)]
  · intro d' i live' half'
    rw [pdes live' (by omega)]
    exact spaces.writable live' half'
  · intro d' v' live' half'
    rw [cells live' (by omega), pdes live' (by omega)]
    split
    · next same =>
      obtain ⟨rfl, rfl⟩ := same
      exact allowed
    · exact spaces.user live' half'

/-- Storing an entry of the user's half of a directory, as the other entries see it. -/
theorem setPde_others (live : owner d = some .directory) (half : i < 768)
    {directory : UInt32} (at_ : directory.toNat = d * 4096) (word : UInt32) :
    (∀ {g r}, owner g = some r → r ≠ .directory →
      s.memory.SamePage (s.setEntry directory i word).memory g) ∧
    ∀ {d' j}, owner d' = some .directory → j < 1024 →
      (s.setEntry directory i word).pde d' j = if d' = d ∧ j = i then word else s.pde d' j := by
  -- The word lies in the directory, and the other pages are not written.
  have memory : (s.setEntry directory i word).memory =
      s.memory.storeWord (d * 4096 + 4 * i) word := by
    rw [Vmm.setEntry, at_]
  refine ⟨fun {g r} role other => ?_, fun {d' j} live' inside => ?_⟩
  · rw [memory]
    refine samePage_storeWord (by omega) word ?_
    rintro rfl
    rw [live] at role
    exact other (Option.some.inj role).symm
  · by_cases same : d' = d
    · subst same
      unfold Vmm.pde
      rw [memory, Memory.wordAt_storeWord_index]
      simp only [true_and]
    · rw [if_neg (by simp [same])]
      refine pde_congr ?_ inside
      rw [memory]
      exact samePage_storeWord (by omega) word same

/-- An entry of a directory gains flags, and keeps its table. -/
theorem raise (spaces : Spaces owner s) (live : owner d = some .directory) (half : i < 768)
    (present : flagOf (s.pde d i) 0 = true) {directory : UInt32} (at_ : directory.toNat = d * 4096)
    (page : pageOf word = pageOf (s.pde d i))
    (flags : ∀ k, flagOf (s.pde d i) k = true → flagOf word k = true) (v : Nat) :
    CellChange owner owner s (s.setEntry directory i word) d v (s.cell d v) := by
  obtain ⟨others, pdes⟩ := setPde_others (s := s) live half at_ word
  have inPool := spaces.directory_inPool live
  -- Neither whether an entry is in use nor its table changes.
  have alike : ∀ {d' j}, owner d' = some .directory → j < 1024 →
      flagOf ((s.setEntry directory i word).pde d' j) 0 = flagOf (s.pde d' j) 0 ∧
        pageOf ((s.setEntry directory i word).pde d' j) = pageOf (s.pde d' j) := by
    intro d' j live' inside
    rw [pdes live' inside]
    split
    · next same =>
      obtain ⟨rfl, rfl⟩ := same
      exact ⟨(flags 0 present).trans present.symm, page⟩
    · exact ⟨rfl, rfl⟩
  have raised : ∀ {d' j}, owner d' = some .directory → j < 1024 → ∀ k,
      flagOf (s.pde d' j) k = true → flagOf ((s.setEntry directory i word).pde d' j) k = true := by
    intro d' j live' inside k before
    rw [pdes live' inside]
    split
    · next same =>
      obtain ⟨rfl, rfl⟩ := same
      exact flags k before
    · exact before
  have upper : ∀ {d' j}, owner d' = some .directory → 768 ≤ j → j < 1024 →
      (s.setEntry directory i word).pde d' j = s.pde d' j := by
    intro d' j live' low high
    rw [pdes live' high, if_neg (by omega)]
  have cells : ∀ {d' v'}, owner d' = some .directory → v' < 1048576 →
      (s.setEntry directory i word).cell d' v' = s.cell d' v' := by
    intro d' v' live' inside
    obtain ⟨same0, same⟩ := alike live' (show v' / 1024 < 1024 by omega)
    unfold Vmm.cell
    rw [same0, same]
    split
    · next present' =>
      obtain ⟨role, -⟩ := spaces.cell_owner live' inside present'
      refine (others role ?_).wordAt (Nat.mod_lt _ (by omega))
      split <;> nofun
    · rfl
  obtain ⟨sound, marks⟩ := spaces.setEntry_sound inPool.above at_ i word
  refine ⟨spaces.rebuild sound ⟨rfl, rfl, rfl, rfl, rfl⟩ rfl rfl Iff.rfl id upper
    (fun g inside => (marks g inside).trans (spaces.used g inside)) spaces.pool ?_ ?_ ?_,
    ⟨fun _ _ _ => Iff.rfl, fun held => others held nofun, ⟨rfl, rfl, rfl, rfl, rfl⟩, rfl, rfl⟩, ?_,
    fun _ => Iff.rfl, Or.inl rfl⟩
  · intro g d' j
    rw [spaces.tables g d' j]
    refine and_congr_right fun live' => and_congr_right fun half' => ?_
    obtain ⟨same0, same⟩ := alike live' (show j < 1024 by omega)
    rw [same0, same]
  · intro d' j live' half' present'
    rw [(alike live' (by omega)).1] at present'
    exact raised live' (by omega) 1 (spaces.writable live' half' present')
  · intro d' v' live' half' present' user'
    rw [cells live' (by omega)] at present' user'
    exact raised live' (by omega) 2 (spaces.user live' half' present' user')
  · intro d' v' live' inside
    rw [cells live' inside]
    split
    · next same => rw [same.1, same.2]
    · rfl

/-- A page a caller holds, in which no word is set, becomes the table of an unused entry. -/
theorem link (spaces : Spaces owner s) (live : owner d = some .directory) (half : i < 768)
    (absent : flagOf (s.pde d i) 0 = false) {directory : UInt32} (at_ : directory.toNat = d * 4096)
    {label : ρ} (held : owner f = some (.held label))
    (clear : ∀ j, j < 1024 → wordAt s.memory (f * 4096 + 4 * j) = 0) (page : pageOf word = f)
    (present : flagOf word 0 = true) (writable : flagOf word 1 = true) :
    Spaces (Function.update owner f (some (.table d i))) (s.setEntry directory i word) ∧
      (∀ {d' v'}, owner d' = some .directory → v' < 1048576 →
        (s.setEntry directory i word).cell d' v' = s.cell d' v') := by
  obtain ⟨others, pdes⟩ := setPde_others (s := s) live half at_ word
  -- The pages of the new table lead nowhere yet, as they did without one.
  have cells : ∀ {d' v'}, owner d' = some .directory → v' < 1048576 →
      (s.setEntry directory i word).cell d' v' = s.cell d' v' := by
    intro d' v' live' inside
    unfold Vmm.cell
    rw [pdes live' (by omega)]
    by_cases same : d' = d ∧ v' / 1024 = i
    · rw [if_pos same, if_pos present, page, same.1, same.2, if_neg (by simp [absent]),
        (others held nofun).wordAt (Nat.mod_lt _ (by omega)), clear _ (Nat.mod_lt _ (by omega))]
    · rw [if_neg same]
      split
      · next present' =>
        obtain ⟨role, -⟩ := spaces.cell_owner live' inside present'
        refine (others role ?_).wordAt (Nat.mod_lt _ (by omega))
        split <;> nofun
      · rfl
  have roles : ∀ {g r}, ¬ (r = .table d i ∨ r = .held label) →
      (Function.update owner f (some (.table d i)) g = some r ↔ owner g = some r) :=
    update_roles (fun r => r = .table d i ∨ r = .held label)
      (by rw [held]; rintro r ⟨⟩; exact Or.inr rfl) (by rintro r ⟨⟩; exact Or.inl rfl)
  obtain ⟨sound, marks⟩ :=
    spaces.setEntry_sound (spaces.directory_inPool live).above at_ i word
  obtain ⟨used, pool⟩ := @passed _ _ _ _ spaces _ (.table d i) held nofun
  refine ⟨spaces.rebuild sound ⟨rfl, rfl, rfl, rfl, rfl⟩ rfl rfl (roles (by simp))
    (fun role => (roles (by simp)).mpr role)
    (fun live' low high => by rw [pdes live' high, if_neg (by omega)])
    (fun g inside => (marks g inside).trans (used g inside)) pool ?_ ?_ ?_, cells⟩
  · intro g d' j
    by_cases here : d' = d ∧ j = i
    · obtain ⟨rfl, rfl⟩ := here
      constructor
      · intro role
        refine ⟨live, half, ?_⟩
        rw [pdes live (by omega), if_pos ⟨rfl, rfl⟩]
        refine ⟨present, ?_⟩
        by_contra other
        rw [Function.update_of_ne (by rw [page] at other; exact Ne.symm other)] at role
        have := ((spaces.tables g d' j).mp role).2.2.1
        rw [absent] at this
        cases this
      · rintro ⟨-, -, -, same⟩
        rw [pdes live (by omega), if_pos ⟨rfl, rfl⟩, page] at same
        rw [← same, Function.update_self]
    · have other : ¬ ((Owner.table d' j : Owner ρ) = .table d i ∨ Owner.table d' j = .held label) := by
        simpa using here
      rw [roles other, spaces.tables g d' j]
      refine and_congr_right fun live' => and_congr_right fun half' => ?_
      rw [pdes live' (by omega), if_neg here]
  · intro d' j live' half'
    rw [pdes live' (by omega)]
    split
    · exact fun _ => writable
    · exact spaces.writable live' half'
  · intro d' v' live' half' present' user'
    rw [cells live' (by omega)] at present' user'
    rw [pdes live' (by omega)]
    split
    · next same =>
      -- The new table has no page in use.
      obtain ⟨rfl, rfl⟩ := same
      rw [cell_eq_zero absent] at present'
      exact absurd present' (by decide)
    · exact spaces.user live' half' present' user'

/-- The table of an entry that is cleared becomes a page that can be given back. -/
theorem unlink (spaces : Spaces owner s) (live : owner d = some .directory) (half : i < 768)
    (present : flagOf (s.pde d i) 0 = true) {directory : UInt32} (at_ : directory.toNat = d * 4096)
    (label : ρ) :
    Spaces (Function.update owner (pageOf (s.pde d i)) (some (.held label)))
        (s.setEntry directory i 0) ∧
      (∀ {d' v'}, owner d' = some .directory → v' < 1048576 →
        (s.setEntry directory i 0).cell d' v' =
          if d' = d ∧ v' / 1024 = i then 0 else s.cell d' v') := by
  -- Once the entry is clear, no entry leads to the table.
  obtain ⟨others, pdes⟩ := setPde_others (s := s) live half at_ 0
  have owned := spaces.table_owner live half present
  generalize page : pageOf (s.pde d i) = f at owned ⊢
  have cells : ∀ {d' v'}, owner d' = some .directory → v' < 1048576 →
      (s.setEntry directory i 0).cell d' v' =
        if d' = d ∧ v' / 1024 = i then 0 else s.cell d' v' := by
    intro d' v' live' inside
    unfold Vmm.cell
    rw [pdes live' (by omega)]
    by_cases same : d' = d ∧ v' / 1024 = i
    · rw [if_pos same, if_pos same]
      rfl
    · rw [if_neg same, if_neg same]
      split
      · next present' =>
        obtain ⟨role, -⟩ := spaces.cell_owner live' inside present'
        refine (others role ?_).wordAt (Nat.mod_lt _ (by omega))
        split <;> nofun
      · rfl
  have roles : ∀ {g r}, ¬ (r = .table d i ∨ r = .held label) →
      (Function.update owner f (some (.held label)) g = some r ↔ owner g = some r) :=
    update_roles (fun r => r = .table d i ∨ r = .held label)
      (by rw [owned]; rintro r ⟨⟩; exact Or.inl rfl) (by rintro r ⟨⟩; exact Or.inr rfl)
  obtain ⟨sound, marks⟩ := spaces.setEntry_sound (spaces.directory_inPool live).above at_ i 0
  obtain ⟨used, pool⟩ := @passed _ _ _ _ spaces _ (.held label) owned nofun
  refine ⟨spaces.rebuild sound ⟨rfl, rfl, rfl, rfl, rfl⟩ rfl rfl (roles (by simp))
    (fun role => (roles (by simp)).mpr role)
    (fun live' low high => by rw [pdes live' high, if_neg (by omega)])
    (fun g inside => (marks g inside).trans (used g inside)) pool ?_ ?_ ?_, cells⟩
  · intro g d' j
    by_cases here : d' = d ∧ j = i
    · obtain ⟨rfl, rfl⟩ := here
      constructor
      · intro role
        by_cases same : g = f
        · rw [same, Function.update_self] at role
          cases role
        · rw [Function.update_of_ne same] at role
          exact absurd (((spaces.tables g d' j).mp role).2.2.2.symm.trans page) same
      · rintro ⟨-, -, present', -⟩
        rw [pdes live (by omega), if_pos ⟨rfl, rfl⟩] at present'
        cases present'
    · have other : ¬ ((Owner.table d' j : Owner ρ) = .table d i ∨ Owner.table d' j = .held label) := by
        simpa using here
      rw [roles other, spaces.tables g d' j]
      refine and_congr_right fun live' => and_congr_right fun half' => ?_
      rw [pdes live' (by omega), if_neg here]
  · intro d' j live' half'
    rw [pdes live' (by omega)]
    split
    · nofun
    · exact spaces.writable live' half'
  · intro d' v' live' half' present' user'
    rw [cells live' (by omega)] at present' user'
    rw [pdes live' (by omega)]
    split at present'
    · cases present'
    · next other =>
      rw [if_neg other] at user' ⊢
      exact spaces.user live' half' present' user'

/-- A page laid out like a new directory becomes one. -/
theorem adopt (spaces : Spaces owner s) {label : ρ} (held : owner f = some (.held label))
    (lower : ∀ i, i < 768 → flagOf (s.pde f i) 0 = false)
    (upper : ∀ i, 768 ≤ i → i < 1024 → s.pde f i = s.pde s.kernelDirectory i) :
    Spaces (Function.update owner f (some .directory)) s := by
  have roles : ∀ {g r}, ¬ (r = .directory ∨ r = .held label) →
      (Function.update owner f (some .directory) g = some r ↔ owner g = some r) :=
    update_roles (fun r => r = .directory ∨ r = .held label)
      (by rw [held]; rintro r ⟨⟩; exact Or.inr rfl) (by rintro r ⟨⟩; exact Or.inl rfl)
  have live : ∀ {d}, Function.update owner f (some .directory) d = some .directory ↔
      d = f ∨ owner d = some .directory := by
    intro d
    by_cases same : d = f
    · simp [same]
    · simp [same]
  -- Of the user's half of the new directory nothing is in use.
  have empty : ∀ {v}, v < 786432 → s.cell f v = 0 := fun {v} half =>
    cell_eq_zero (lower (v / 1024) (by omega))
  obtain ⟨used, pool⟩ := @passed _ _ _ _ spaces _ .directory held nofun
  refine ⟨spaces.pmm, spaces.vmmReady, spaces.kernelAligned, live.mpr (Or.inr spaces.kernelLive),
    used, pool, ?_, ?_, ?_, ?_, ?_⟩
  · intro g d i
    rw [roles (by simp), spaces.tables g d i, live]
    constructor
    · rintro ⟨live', rest⟩
      exact ⟨Or.inr live', rest⟩
    · rintro ⟨rfl | live', half, present, same⟩
      · rw [lower i half] at present
        cases present
      · exact ⟨live', half, present, same⟩
  · intro d i live' low high
    rcases live.mp live' with rfl | before
    · exact upper i low high
    · exact spaces.shared before low high
  · intro i low high present
    rw [roles (by simp)]
    exact spaces.kernelTables low high present
  · intro d i live' half present
    rcases live.mp live' with rfl | before
    · rw [lower i half] at present
      cases present
    · exact spaces.writable before half present
  · intro d v live' half present
    rcases live.mp live' with rfl | before
    · rw [empty half] at present
      exact absurd present (by decide)
    · exact spaces.user before half present

/-- A directory without tables of its own becomes a page that can be given back. -/
theorem disown (spaces : Spaces owner s) (live : owner d = some .directory)
    (other : d ≠ s.kernelDirectory) (lower : ∀ i, i < 768 → flagOf (s.pde d i) 0 = false)
    (label : ρ) : Spaces (Function.update owner d (some (.held label))) s := by
  -- Neither a table nor an entry of another directory speaks of this one.
  have roles : ∀ {g r}, ¬ (r = .directory ∨ r = .held label) →
      (Function.update owner d (some (.held label)) g = some r ↔ owner g = some r) :=
    update_roles (fun r => r = .directory ∨ r = .held label)
      (by rw [live]; rintro r ⟨⟩; exact Or.inl rfl) (by rintro r ⟨⟩; exact Or.inr rfl)
  have before : ∀ {d'}, Function.update owner d (some (.held label)) d' = some .directory →
      d' ≠ d ∧ owner d' = some .directory := by
    intro d' live'
    by_cases same : d' = d
    · rw [same, Function.update_self] at live'
      cases live'
    · rw [Function.update_of_ne same] at live'
      exact ⟨same, live'⟩
  obtain ⟨used, pool⟩ := @passed _ _ _ _ spaces _ (.held label) live nofun
  refine ⟨spaces.pmm, spaces.vmmReady, spaces.kernelAligned, ?_, used, pool, ?_, ?_, ?_, ?_, ?_⟩
  · rw [Function.update_of_ne other.symm]
    exact spaces.kernelLive
  · intro g d' i
    rw [roles (by simp), spaces.tables g d' i]
    constructor
    · rintro ⟨live', half, present, same⟩
      have apart : d' ≠ d := by
        rintro rfl
        rw [lower i half] at present
        cases present
      rw [Function.update_of_ne apart]
      exact ⟨live', half, present, same⟩
    · rintro ⟨live', rest⟩
      exact ⟨(before live').2, rest⟩
  · exact fun live' => spaces.shared (before live').2
  · intro i low high present
    rw [roles (by simp)]
    exact spaces.kernelTables low high present
  · exact fun live' => spaces.writable (before live').2
  · exact fun live' => spaces.user (before live').2

end Spaces

end MyOS.Mm
