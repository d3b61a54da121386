import MyOS.Kernel.Charges
import MyOS.Kernel.TenancyLaws

/-!
Processes cannot reach each other's memory.

Each finds in its pages what it was born with and what it wrote there since, whatever the others, the
pager and the file system did in between, and it reaches nothing else.
-/

namespace MyOS.Kernel

open MyOS.Mm MyOS.Fs

variable {base owner : Owners Holder} {o : Vmm} {processes : FixedArray 8 Process} {m m' : MemDemo}
  {s t : KernelState} {i k : Nat} {virtAddr : UInt32}

section Accesses

/-- No page was held before there were processes. -/
def Unlent (base : Owners Holder) : Prop := ∀ f l, base f ≠ some (.held l)

namespace Tenancy

/-- What a process can reach is a page of the pager, or one that a slot lends to it. -/
theorem mapped (tenancy : Tenancy base o owner processes m) (unlent : Unlent base) (inside : i < 8)
    (used : (processes.get i).used = true) (half : virtAddr < vmmKernelBase)
    (mapped : flagOf (m.cell (pageOf (processes.get i).pageDirectoryPhys) (virtAddr.toNat / 4096)) 0 =
      true) :
    (∃ j, j < 128 ∧ (m.pages.get j).Maps (pageOf (processes.get i).pageDirectoryPhys)
      (virtAddr.toNat / 4096)) ∨
    ∃ k, k < 8 ∧ m.lends (processes.get i).pageDirectoryPhys virtAddr k = true ∧
      pageOf (m.cell (pageOf (processes.get i).pageDirectoryPhys) (virtAddr.toNat / 4096)) =
        pageOf (m.slots.get k).physAddr := by
  obtain ⟨live, at_, -⟩ := tenancy.accounts.home inside used
  have leases := tenancy.accounts.estate.leases
  have low := page_half half
  obtain ⟨label, held⟩ := leases.held live low mapped
  -- Whoever holds the page has mapped it, and no page is mapped twice.
  have same : ∀ {d v}, Lease owner m.toVmm label d v
      (pageOf (m.cell (pageOf (processes.get i).pageDirectoryPhys) (virtAddr.toNat / 4096))) →
      d = pageOf (processes.get i).pageDirectoryPhys ∧ v = virtAddr.toNat / 4096 :=
    fun lease => leases.once lease.live lease.half lease.mapped live low mapped lease.target
  cases label with
  | page j =>
    obtain ⟨small, used', present, frame⟩ := tenancy.ok.held held
    have lease := tenancy.ok.lease small used' present
    rw [← frame] at lease
    obtain ⟨directory, page⟩ := same lease
    exact Or.inl ⟨j, small, used', present, directory, page⟩
  | slot k =>
    obtain ⟨small, allocated, frame⟩ := tenancy.accounts.slots.held held
    obtain ⟨virt, at', -, lease⟩ := tenancy.accounts.slots.lent small allocated
    rw [← frame] at lease
    obtain ⟨directory, page⟩ := same lease
    refine Or.inr ⟨k, small, ?_, frame⟩
    unfold MemDemo.lends samePage
    have home : (m.slots.get k).pageDirectoryPhys = (processes.get i).pageDirectoryPhys := by
      apply UInt32.toNat_inj.mp
      rw [at', at_, directory]
    simp [allocated, home, ← virt, page]
  | other =>
    -- Nobody else holds a page.
    exact absurd ((tenancy.accounts.estate.stock _ (.held .other) rfl).mp held) (unlent _ _)

/-- A byte that a program reads is the one that its space holds. -/
theorem read (tenancy : Tenancy base o owner processes m) (unlent : Unlent base) (inside : i < 8)
    (used : (processes.get i).used = true) {byte : UInt8}
    (got : (userRead (processes.get i).pageDirectoryPhys virtAddr m.toVmm).1 = .ok byte) :
    m.byteIn (processes.get i).pageDirectoryPhys virtAddr = some byte := by
  -- The address is translated, or the page is brought in first, and both lead to the same byte.
  obtain ⟨live, at_, -⟩ := tenancy.accounts.home inside used
  have spaces := tenancy.accounts.spaces
  have reached : ∃ physAddr, userTranslate (processes.get i).pageDirectoryPhys virtAddr false m.toVmm =
      .ok physAddr ∧ m.memory physAddr.toNat = byte := by
    unfold userRead at got
    generalize userTranslate (processes.get i).pageDirectoryPhys virtAddr false m.toVmm = result at got
    cases result with
    | error fault => cases got
    | ok physAddr => exact ⟨physAddr, rfl, Except.ok.inj got⟩
  obtain ⟨physAddr, translated, here⟩ := reached
  obtain ⟨half, mapped, address⟩ :=
    userTranslate_ok spaces tenancy.accounts.estate.guarded live at_ translated
  rcases tenancy.mapped unlent inside used half mapped with ⟨j, small, maps⟩ | ⟨k, small, lends, frame⟩
  · obtain ⟨page, there, same⟩ := tenancy.mirrors.read tenancy.ok at_ half small maps got
    have seen := tenancy.mirrors.seen (processes.get i).pageDirectoryPhys virtAddr
    unfold FlatMemory.seen at seen
    rw [there, Option.map_some, same] at seen
    unfold MemDemo.byteIn
    rw [pagedByte_eq, seen]
    rfl
  · obtain ⟨-, -, at', lease⟩ := tenancy.accounts.slots.lent small (lends_true lends).1
    have bound := spaces.small (spaces.pool lease.owned nofun)
    have place : physAddr.toNat = (m.slots.get k).physAddr.toNat + virtAddr.toNat % 4096 := by
      rw [address, frame, UInt32.toNat_ofNat', at']
      omega
    rw [tenancy.byteIn_lent (lent_iff.mpr ⟨k, small, lends⟩), lentByte_some small lends, ← place, here]

/-- What a write that goes through does: one byte changes, in a page that is not one of code. -/
structure Wrote (base : Owners Holder) (o : Vmm) (owner : Owners Holder)
    (processes : FixedArray 8 Process) (m m' : MemDemo) (dir virtAddr : UInt32) (value : UInt8) : Prop where
  tenancy : Tenancy base o owner processes m'
  data : samePage virtAddr processUserCodeBase = false
  owned : (m.byteIn dir virtAddr).isSome = true
  lent : ∀ d v, m'.lent d v = m.lent d v
  bytes : ∀ d v, m'.byteIn d v = if d = dir ∧ v = virtAddr then some value else m.byteIn d v

/-- A write to a page of the pager. -/
theorem writePage (tenancy : Tenancy base o owner processes m) (inside : i < 8)
    (used : (processes.get i).used = true) (half : virtAddr < vmmKernelBase) {j : Nat} (small : j < 128)
    (maps : (m.pages.get j).Maps (pageOf (processes.get i).pageDirectoryPhys) (virtAddr.toNat / 4096))
    (value : UInt8)
    (done : (userWrite (processes.get i).pageDirectoryPhys virtAddr value m.toVmm).1 = .ok ()) :
    Wrote base o owner processes m
      (m.withVmm (userWrite (processes.get i).pageDirectoryPhys virtAddr value m.toVmm).2)
      (processes.get i).pageDirectoryPhys virtAddr value := by
  have accounts := tenancy.accounts
  obtain ⟨live, at_, -⟩ := accounts.home inside used
  obtain ⟨page, there, denied | ⟨allowed, -, mirrors⟩⟩ :=
    tenancy.mirrors.write tenancy.ok at_ half small maps value
  · rw [denied.2] at done
    cases done
  obtain ⟨spaces, unmoved, -⟩ := userWrite_unmoved accounts.spaces accounts.estate.guarded
    accounts.estate.leases live at_ virtAddr value
  have others : LeavesOthers owner m.toVmm
      (userWrite (processes.get i).pageDirectoryPhys virtAddr value m.toVmm).2 := by
    rcases userWrite_page tenancy.ok small at_ half maps value with ⟨-, denied⟩ | ⟨-, vmm, touched, result⟩
    · rw [denied]
      exact .refl _ _
    · rw [result]
      intro f k held l inner
      have mine := (tenancy.ok.frames small maps.used maps.present).owned
      have apart : f ≠ (m.pages.get j).frame := by
        rintro rfl
        rw [mine] at held
        cases held
      refine Eq.trans (if_neg ?_) (touched.held held l inner)
      have := Nat.mod_lt virtAddr.toNat (by decide : 0 < 4096)
      omega
  generalize (userWrite (processes.get i).pageDirectoryPhys virtAddr value m.toVmm).2 = vmm
    at mirrors spaces unmoved others
  have seen : m.seen (processes.get i).pageDirectoryPhys virtAddr =
      some (page.flags, page.bytes (virtAddr.toNat % 4096)) := by
    rw [tenancy.mirrors.seen]
    unfold FlatMemory.seen
    rw [there, Option.map_some]
  have shows : ∀ d v, (m.withVmm vmm).seen d v =
      if d = (processes.get i).pageDirectoryPhys ∧ v.toNat / 4096 = virtAddr.toNat / 4096 then
        some (page.flags, if v.toNat % 4096 = virtAddr.toNat % 4096 then value
          else page.bytes (v.toNat % 4096))
      else m.seen d v := by
    intro d v
    rw [tenancy.mirrors.seen d v]
    exact (mirrors.seen d v).trans (FlatMemory.seen_put m.flat _ virtAddr _ d v)
  have pages : ∀ d v, ((m.withVmm vmm).seen d v).map Prod.snd =
      if d = (processes.get i).pageDirectoryPhys ∧ v = virtAddr then some value
      else (m.seen d v).map Prod.snd := by
    intro d v
    rw [shows]
    by_cases here : d = (processes.get i).pageDirectoryPhys ∧ v.toNat / 4096 = virtAddr.toNat / 4096
    · rw [if_pos here]
      by_cases place : v.toNat % 4096 = virtAddr.toNat % 4096
      · have same : v = virtAddr := UInt32.toNat_inj.mp (by omega)
        rw [if_pos place, if_pos ⟨here.1, same⟩, Option.map_some]
      · -- The rest of the page is as it was.
        have find : m.flat.find d v = some page := by
          rw [here.1, ← there]
          unfold FlatMemory.find
          rw [here.2]
        rw [if_neg place, if_neg fun same => place (by rw [same.2]), tenancy.mirrors.seen]
        unfold FlatMemory.seen
        rw [find, Option.map_some, Option.map_some, Option.map_some]
    · rw [if_neg here, if_neg fun same => here ⟨same.1, by rw [same.2]⟩]
  -- The rights of the page are those it was registered with.
  have rights : page.flags = pageFlags virtAddr := tenancy.flags seen
  have swapped : SwapOnly m.disk (m.withVmm vmm).disk := Ata.Within.refl _
  have unlent : m.lent (processes.get i).pageDirectoryPhys virtAddr = false := by
    rw [Bool.eq_false_iff]
    intro lent
    exact nomatch seen.symm.trans (tenancy.apart lent)
  have lent : ∀ d v, (m.withVmm vmm).lent d v = m.lent d v := fun _ _ => rfl
  refine ⟨tenancy.ofPager (accounts.unmoved spaces unmoved) tenancy.ready mirrors
    (fun {d v shown} here => ?_) swapped rfl, ?_, ?_, lent, fun d v => ?_⟩
  · rw [FlatMemory.seen_put] at here
    split at here
    · next same =>
      cases here
      unfold pageFlags samePage at rights ⊢
      rw [same.2]
      exact rights
    · exact tenancy.flagsFlat here
  · -- A page of code does not allow writing.
    rw [rights] at allowed
    unfold pageFlags at allowed
    split at allowed
    · exact absurd allowed (by decide)
    · next other => exact Bool.eq_false_iff.mpr other
  · rw [byteIn_unlent unlent, seen]
    rfl
  · have same : (m.withVmm vmm).lentByte d v = m.lentByte d v :=
      @lentByte_congr m (m.withVmm vmm) rfl (fun k inside allocated l inner =>
        accounts.slots.bytes others inside allocated inner) d v
    unfold MemDemo.byteIn
    rw [pagedByte_eq, pagedByte_eq, same, pages]
    split <;> rfl

/-- A write to a page that a slot lends. -/
theorem writeLent (tenancy : Tenancy base o owner processes m) (small : k < 8)
    (lends : m.lends (processes.get i).pageDirectoryPhys virtAddr k = true) (value : UInt8) {vmm t : Vmm}
    (touched : Touched owner m.toVmm vmm) (spaces : Spaces owner t) (unmoved : Unmoved owner m.toVmm t)
    (stored : t = { vmm with
      memory := vmm.memory.store ((m.slots.get k).physAddr.toNat + virtAddr.toNat % 4096) value }) :
    Wrote base o owner processes m (m.withVmm t) (processes.get i).pageDirectoryPhys virtAddr value := by
  have accounts := tenancy.accounts
  obtain ⟨allocated, -, page⟩ := lends_true lends
  obtain ⟨-, -, address, lease⟩ := accounts.slots.lent small allocated
  have inner := Nat.mod_lt virtAddr.toNat (by decide : 0 < 4096)
  -- Whatever others hold is in other frames.
  have others : ∀ {f r}, owner f = some (.held r) → r ≠ .slot k → m.memory.SamePage t.memory f := by
    intro f r held other l inner'
    have apart : f ≠ pageOf (m.slots.get k).physAddr := by
      rintro rfl
      rw [lease.owned] at held
      cases held
      exact other rfl
    rw [stored]
    refine Eq.trans (if_neg ?_) (touched.held held l inner')
    omega
  have pager : (m.withVmm t).toPager = { m.toPager with toVmm := t } := rfl
  obtain ⟨after, seen⟩ := tenancy.moved (accounts.unmoved spaces unmoved) pager rfl
    (fun {_ _} held => others held nofun) fun j small' used' present => by
      obtain ⟨live, half⟩ := tenancy.cell small' used' present
      exact unmoved.cells live (by omega)
  have lent : ∀ d v, (m.withVmm t).lent d v = m.lent d v := fun _ _ => rfl
  have here := lent_iff.mpr ⟨k, small, lends⟩
  refine ⟨after, ?_, ?_, lent, fun d v => ?_⟩
  · -- The pages of slots are apart from the code.
    rw [toNat_slotVirt small] at page
    unfold samePage
    rw [page, beq_eq_false_iff_ne]
    change _ ≠ 8388608 / 4096
    omega
  · rw [tenancy.byteIn_lent here, lentByte_some small lends]
    rfl
  · cases before : m.lent d v with
    | false =>
      rw [byteIn_unlent ((lent d v).trans before), byteIn_unlent before, seen, if_neg]
      rintro ⟨rfl, rfl⟩
      exact nomatch before.symm.trans here
    | true =>
      obtain ⟨j, small', lends'⟩ := lent_iff.mp before
      have lends'' : (m.withVmm t).lends d v j = true := lends'
      rw [after.byteIn_lent ((lent d v).trans before), tenancy.byteIn_lent before,
        lentByte_some small' lends', lentByte_some small' lends'']
      by_cases same : j = k
      · subst same
        obtain ⟨-, directory, page'⟩ := lends_true lends'
        obtain ⟨-, directory', -⟩ := lends_true lends
        have place : (d = (processes.get i).pageDirectoryPhys ∧ v = virtAddr) ↔
            v.toNat % 4096 = virtAddr.toNat % 4096 := by
          constructor
          · rintro ⟨-, rfl⟩
            rfl
          · exact fun place => ⟨directory.symm.trans directory', UInt32.toNat_inj.mp (by omega)⟩
        change some (t.memory ((m.slots.get j).physAddr.toNat + v.toNat % 4096)) = _
        rw [stored]
        simp only [Memory.store, Nat.add_left_cancel_iff, place]
        split
        · rfl
        · have kept := touched.held lease.owned (v.toNat % 4096) (Nat.mod_lt _ (by decide))
          rw [address, kept]
      · obtain ⟨-, -, address', lease'⟩ := accounts.slots.lent small' (lends_true lends').1
        have kept := others lease'.owned (by simpa using same) (v.toNat % 4096)
          (Nat.mod_lt _ (by decide))
        rw [if_neg]
        · change some (t.memory ((m.slots.get j).physAddr.toNat + v.toNat % 4096)) = _
          rw [address', kept]
        · rintro ⟨rfl, rfl⟩
          exact same (lends_unique small small' lends lends')

/-- A write of a program that goes through changes one byte of its own. -/
theorem write (tenancy : Tenancy base o owner processes m) (unlent : Unlent base) (inside : i < 8)
    (used : (processes.get i).used = true) (value : UInt8) :
    let result := userWrite (processes.get i).pageDirectoryPhys virtAddr value m.toVmm
    (∃ fault, result = (.error fault, m.toVmm)) ∨
      result.1 = .ok () ∧ Wrote base o owner processes m (m.withVmm result.2)
        (processes.get i).pageDirectoryPhys virtAddr value := by
  -- A fault changes nothing, otherwise the byte is in the page of the entry.
  intro result
  obtain ⟨live, at_, -⟩ := tenancy.accounts.home inside used
  have spaces := tenancy.accounts.spaces
  cases translated : userTranslate (processes.get i).pageDirectoryPhys virtAddr true m.toVmm with
  | error fault =>
    left
    refine ⟨fault, ?_⟩
    change userWrite _ _ _ _ = _
    unfold userWrite
    rw [translated]
  | ok physAddr =>
    right
    have done : result.1 = .ok () := by
      change (userWrite _ _ _ _).1 = _
      unfold userWrite
      rw [translated]
    refine ⟨done, ?_⟩
    obtain ⟨half, mapped, address⟩ :=
      userTranslate_ok spaces tenancy.accounts.estate.guarded live at_ translated
    rcases tenancy.mapped unlent inside used half mapped with ⟨j, small, maps⟩ | ⟨k, small, lends, frame⟩
    · exact tenancy.writePage inside used half small maps value done
    · obtain ⟨-, -, at', lease⟩ := tenancy.accounts.slots.lent small (lends_true lends).1
      have bound := spaces.small (spaces.pool lease.owned nofun)
      have place : physAddr.toNat = (m.slots.get k).physAddr.toNat + virtAddr.toNat % 4096 := by
        rw [address, frame, UInt32.toNat_ofNat', at']
        omega
      obtain ⟨spaces', unmoved, -⟩ := userWrite_unmoved spaces tenancy.accounts.estate.guarded
        tenancy.accounts.estate.leases live at_ virtAddr value
      refine tenancy.writeLent small lends value
        (markAccess_touched spaces live at_ half mapped true) spaces' unmoved ?_
      change (userWrite _ _ _ _).2 = _
      unfold userWrite
      rw [translated, ← place]

end Tenancy

end Accesses

section Steps

variable {builtin : UInt32 → Option (List UInt8)} {machine : Machine} {born : Option ((Nat → UInt8) × Nat)}

/-- What a machine holds afterwards is what the act makes of what it held. -/
def Follows (builtin : UInt32 → Option (List UInt8)) (machine : Machine) (act : Act) (after : Machine) :
    Prop :=
  ∀ i, i < 8 → (after.kernel.processes.get i).used = true → ∀ virtAddr,
    after.kernel.byteOf i virtAddr =
      memoriesStep builtin machine act after machine.kernel.byteOf i virtAddr

/-- An act that writes nothing, and passes every memory on. -/
theorem Passes.follows {act : Act} {after : Machine}
    (passes : Passes (bornImage builtin act) machine.kernel after.kernel)
    (writes : ∀ i virtAddr, writtenByte machine act i virtAddr = none) :
    Follows builtin machine act after := by
  -- No byte is written, so the memories are those passed on.
  intro i inside used virtAddr
  unfold memoriesStep
  rw [used, writes]
  rcases passes i inside used with ⟨before, bytes⟩ | ⟨before, image, some_, bytes⟩
  · rw [before, bytes]
    rfl
  · rw [before, bytes, some_]
    rfl

/-- What a step of the machine leaves behind, as long as it goes on. -/
def Goes (base : Owners Holder) (o : Vmm) (born : Option ((Nat → UInt8) × Nat)) (s : KernelState)
    (after : Machine) : Prop :=
  after.mode ≠ .halted → Tenanted base o after.kernel ∧ Passes born s after.kernel

namespace Goes

/-- A part of a step that every process remembers its memory through. -/
theorem of_remembers {after : Machine}
    (remembers : Tenanted base o after.kernel ∧ Remembers s after.kernel) : Goes base o born s after :=
  fun _ => ⟨remembers.1, remembers.2.passes⟩

/-- The processor goes to a program, or stays with the kernel. -/
theorem enter (tenanted : Tenanted base o machine.kernel) (pid : Int) (selected : Option Nat) :
    Goes base o born machine.kernel (machine.enter pid selected) := by
  -- Entering changes who runs, not what the memories hold.
  have entered := processEnter_tenanted tenanted pid
  unfold Machine.enter
  generalize processEnter machine.kernel pid = result at entered
  obtain ⟨found, kernel⟩ := result
  cases found with
  | none => exact of_remembers entered
  | some slot => exact of_remembers entered

/-- The processor comes back to the kernel. -/
theorem leave (tenanted : Tenanted base o machine.kernel) (passes : Passes born s machine.kernel)
    (slot : Nat) (selected : Option Nat) (result : UInt32) :
    Goes base o born s (machine.leave slot selected result) := by
  -- Leaving changes who runs, not what the memories hold.
  obtain ⟨left, remembers⟩ := processLeave_tenanted tenanted slot result
  unfold Machine.leave
  cases selected with
  | none => exact fun _ => ⟨left, passes.remembers remembers⟩
  | some next =>
    have moved : PagesKept (processLeave machine.kernel slot result)
        { processLeave machine.kernel slot result with scheduleCursor := (next + 1) % processMax } :=
      ⟨rfl, fun _ => ⟨rfl, fun _ => ⟨rfl, rfl⟩⟩⟩
    obtain ⟨left', remembers'⟩ := moved.tenanted left
    exact fun _ => ⟨left', passes.remembers (remembers.trans remembers')⟩

/-- What the main loop does while no process runs. -/
theorem kernelStep (tenanted : Tenanted base o machine.kernel) (event : Event) :
    Goes base o (bornImage builtin (.event event)) machine.kernel (kernelStep machine event) := by
  -- One case for each event, a spawn being the only one that adds a memory.
  cases event with
  | spawn parentPid image imageSize priority =>
    intro _
    obtain ⟨after, passes⟩ := processSpawn_tenanted tenanted parentPid image imageSize priority
    refine ⟨after, ?_⟩
    cases image with
    | none => exact passes
    | some image => exact passes
  | kill pid => exact of_remembers (processKill_tenanted tenanted pid)
  | waitChild parentPid childPid => exact of_remembers (processWaitChild_tenanted tenanted parentPid childPid)
  | reapZombies => exact of_remembers (processReapZombies_tenanted tenanted)
  | setPriority pid priority =>
    exact of_remembers ((processSetPriority_pagesKept machine.kernel pid priority).tenanted tenanted)
  | scheduleAuto =>
    unfold MyOS.Kernel.kernelStep
    cases selectNextReadyProcess machine.kernel with
    | none => exact of_remembers ⟨tenanted, .refl _⟩
    | some slot => exact enter tenanted _ _
  | runPid pid => exact enter tenanted pid none
  | _ => exact of_remembers ⟨tenanted, .refl _⟩

/-- What happens while a program runs, but for its writes. -/
theorem userStep (tenanted : Tenanted base o machine.kernel) {slot : Nat} (inside : slot < 8)
    (used : (machine.kernel.processes.get slot).used = true)
    (here : (machine.kernel.processes.get slot).pageDirectoryPhys = machine.kernel.currentPageDirectoryPhys)
    (selected : Option Nat) (event : Event) (reads : ∀ virtAddr value, event ≠ .write virtAddr value) :
    Goes base o (bornImage builtin (.event event)) machine.kernel
      (userStep builtin machine slot selected event) := by
  -- One case for each event, a new page being the only one that adds to a memory.
  obtain ⟨owner, tenancy⟩ := id tenanted
  cases event with
  | syscall frame =>
    obtain ⟨after, passes⟩ := usermodeHandleSyscall_tenanted tenanted inside used here builtin frame
    simp only [MyOS.Kernel.userStep]
    generalize usermodeHandleSyscall builtin frame machine.kernel = result at after passes ⊢
    obtain ⟨outcome, kernel⟩ := result
    cases outcome with
    | resume frame' => exact fun _ => ⟨after, passes⟩
    | leave value => exact leave after passes slot selected value
  | clock scheduleEvent frame =>
    obtain ⟨after, remembers⟩ :=
      (processPreemptIfNeeded_pagesKept scheduleEvent frame machine.kernel).tenanted tenanted
    simp only [MyOS.Kernel.userStep]
    generalize processPreemptIfNeeded scheduleEvent frame machine.kernel = result at after remembers ⊢
    obtain ⟨taken, kernel⟩ := result
    cases taken with
    | false => exact of_remembers ⟨after, remembers⟩
    | true => exact leave after remembers.passes slot selected _
  | pageFault faultAddr errCode =>
    simp only [MyOS.Kernel.userStep]
    cases handled : pagerHandlePageFault machine.kernel.toPager faultAddr errCode with
    | mk done pager =>
    cases done with
    | false => exact fun goes => absurd rfl goes
    | true =>
      have found : (pagerHandlePageFault machine.kernel.toPager faultAddr errCode).1 = true := by
        rw [handled]
      obtain ⟨⟨owner', after⟩, -, keeps⟩ := tenancy.fault found fun _ => True
      rw [handled] at after keeps
      exact of_remembers (after.remembered keeps)
  | read virtAddr =>
    obtain ⟨live, at_, -⟩ := tenancy.accounts.home inside used
    rw [here] at live at_
    have touched := userRead_touched tenancy.accounts.spaces tenancy.accounts.estate.guarded live at_ virtAddr
    obtain ⟨after, keeps⟩ := tenancy.touched touched fun _ => True
    exact of_remembers (after.remembered keeps)
  | write virtAddr value => exact absurd rfl (reads virtAddr value)
  | _ => exact of_remembers ⟨tenanted, .refl _⟩

end Goes

/-- A call on files leaves every process its memory. -/
theorem withVolume_tenanted (tenanted : Tenanted base o s) {files : SimpleFs}
    (served : Served s.volume files) :
    Tenanted base o (s.withVolume files) ∧ Remembers s (s.withVolume files) := by
  -- The disk of the files is not where memories are swapped out.
  obtain ⟨owner, tenancy⟩ := tenanted
  obtain ⟨after, keeps⟩ := tenancy.served served
  exact after.remembered keeps

/-- What the shell does between two processes leaves every process its memory. -/
theorem act_tenanted (tenanted : Tenanted base o s) (act : Act) :
    Tenanted base o (s.act act) ∧ Passes none s (s.act act) := by
  obtain ⟨owner, tenancy⟩ := id tenanted
  have only : ∀ {t : KernelState}, Tenanted base o t ∧ Remembers s t → Tenanted base o t ∧ Passes none s t :=
    fun ⟨after, remembers⟩ => ⟨after, remembers.passes⟩
  have volume : s.files.fsMounted = true → Healthy s.volume := tenancy.volume
  cases act with
  | event event => exact only ⟨tenanted, .refl s⟩
  | call call =>
    simp only [KernelState.act]
    split
    · exact only ⟨tenanted, .refl s⟩
    · next asked =>
      refine only (withVolume_tenanted tenanted ?_)
      cases call with
      | close fd => exact .close volume fd
      | _ =>
        -- Every other call comes only where there is a volume.
        refine Served.call (volume ?_) _
        simpa [asksForVolume] using asked
  | makeFs => exact only (withVolume_tenanted tenanted (.format tenancy.sound))
  | list => exact only (withVolume_tenanted tenanted (.list volume))
  | printWorkingDirectory => exact only (withVolume_tenanted tenanted (.printWorkingDirectory volume))
  | memdemo =>
    obtain ⟨after, relent⟩ := tenancy.reset
    exact ⟨after, relent.passes⟩
  | setAlgorithm algorithm =>
    have idle : pagerSetAlgorithm s.toPager algorithm = { s.toPager with
        currentAlgorithm := (pagerSetAlgorithm s.toPager algorithm).currentAlgorithm
        victimTrace := (pagerSetAlgorithm s.toPager algorithm).victimTrace } := rfl
    obtain ⟨after, -, keeps⟩ := tenancy.idle idle fun _ => True
    exact only (after.remembered keeps)
  | setBanker banker =>
    have kept : PagesKept s { s with banker } := ⟨rfl, fun _ => ⟨rfl, fun _ => ⟨rfl, rfl⟩⟩⟩
    exact only (kept.tenanted tenanted)

/-- Which process runs, and what the machine holds for each of them. -/
structure Machine.Private (base : Owners Holder) (o : Vmm) (machine : Machine) (memories : Memories) :
    Prop where
  tenanted : Tenanted base o machine.kernel
  runs : ∀ {slot selected}, machine.mode = .user slot selected → slot < 8 ∧
    (machine.kernel.processes.get slot).used = true ∧
    (machine.kernel.processes.get slot).pageDirectoryPhys = machine.kernel.currentPageDirectoryPhys
  holds : ∀ {i}, i < 8 → (machine.kernel.processes.get i).used = true → ∀ virtAddr,
    machine.kernel.byteOf i virtAddr = memories i virtAddr

namespace Machine.Private

variable {memories : Memories}

/-- A write of the program that runs changes its own memory only. -/
theorem write (private_ : Machine.Private base o machine memories) (unlent : Unlent base) {slot : Nat}
    {selected : Option Nat} (mode : machine.mode = .user slot selected) (virtAddr : UInt32)
    (value : UInt8) :
    let after := userStep builtin machine slot selected (.write virtAddr value)
    Tenanted base o after.kernel ∧ Follows builtin machine (.event (.write virtAddr value)) after := by
  intro after
  obtain ⟨⟨owner, tenancy⟩, runs, -⟩ := private_
  obtain ⟨inside, used, here⟩ := runs mode
  have result := @Tenancy.write base owner o machine.kernel.processes machine.kernel.toMemDemo slot
    virtAddr tenancy unlent inside used value
  simp only [here] at result
  rcases result with ⟨fault, failed⟩ | ⟨done, wrote⟩
  · have same : after.kernel = machine.kernel := by
      change machine.kernel.withVmm (userWrite _ _ _ _).2 = _
      rw [failed]
      rfl
    rw [same]
    refine ⟨⟨owner, tenancy⟩, Passes.follows ?_ fun i v => ?_⟩
    · rw [same]
      exact (Remembers.refl _).passes
    · simp only [writtenByte, mode, failed]
  · have memory : after.kernel.toMemDemo = machine.kernel.toMemDemo.withVmm
        (userWrite machine.kernel.currentPageDirectoryPhys virtAddr value machine.kernel.toVmm).2 := rfl
    rw [← memory] at wrote
    have slots : after.kernel.processes = machine.kernel.processes := rfl
    refine ⟨⟨owner, wrote.tenancy⟩, fun i small used' v => ?_⟩
    rw [slots] at used'
    have grants : after.kernel.grants i v = machine.kernel.grants i v := by
      unfold KernelState.grants
      rw [slots, wrote.lent]
    have written : writtenByte machine (.event (.write virtAddr value)) i v =
        if slot = i ∧ virtAddr = v then some value else none := by
      simp only [writtenByte, mode, done]
    -- Only the process that runs has the space that is in use.
    have home : (machine.kernel.processes.get i).pageDirectoryPhys =
        machine.kernel.currentPageDirectoryPhys ↔ slot = i := by
      constructor
      · intro same
        by_contra other
        exact tenancy.elsewhere inside small used used' (Ne.symm other) (same.trans here.symm)
      · rintro rfl
        exact here
    have byte : after.kernel.byteOf i v =
        if slot = i ∧ virtAddr = v then some value else machine.kernel.byteOf i v := by
      unfold KernelState.byteOf
      rw [slots, wrote.bytes]
      simp only [home, @eq_comm _ v virtAddr]
    unfold memoriesStep
    rw [slots, used', grants, written, byte]
    unfold regranted
    cases machine.kernel.grants i v <;> split <;> rfl

/-- Only writes write. -/
theorem writtenByte_none {act : Act} (reads : ∀ virtAddr value, act ≠ .event (.write virtAddr value))
    (i : Nat) (virtAddr : UInt32) : writtenByte machine act i virtAddr = none := by
  -- The other acts fall into the last case.
  unfold writtenByte
  split
  · exact absurd rfl (reads _ _)
  · rfl

/-- A machine that has stopped does nothing more. -/
theorem halted_stays (halted : machine.mode = .halted) (act : Act) :
    systemStep builtin machine act = machine := by
  -- An event does nothing to it, and neither does a call.
  cases act with
  | event event =>
    change machineStep builtin machine event = machine
    unfold machineStep
    rw [halted]
  | _ => exact if_neg (by rw [halted]; nofun)

/-- Every act leaves to each process its memory. -/
theorem follows (private_ : Machine.Private base o machine memories) (unlent : Unlent base) (act : Act)
    (goes : (systemStep builtin machine act).mode ≠ .halted) :
    Tenanted base o (systemStep builtin machine act).kernel ∧
      Follows builtin machine act (systemStep builtin machine act) := by
  have running : machine.mode ≠ .halted := by
    intro halted
    rw [halted_stays halted] at goes
    exact goes halted
  have nothing : Tenanted base o machine.kernel ∧ Passes (bornImage builtin act) machine.kernel
      machine.kernel := ⟨private_.tenanted, (Remembers.refl _).passes⟩
  -- An act that writes nothing only has to pass every memory on.
  have done : ∀ {after : Machine}, systemStep builtin machine act = after →
      (∀ i v, writtenByte machine act i v = none) → (Tenanted base o after.kernel ∧
        Passes (bornImage builtin act) machine.kernel after.kernel) →
      Tenanted base o (systemStep builtin machine act).kernel ∧
        Follows builtin machine act (systemStep builtin machine act) := by
    rintro _ rfl writes ⟨after, passes⟩
    exact ⟨after, passes.follows writes⟩
  have shell : (∀ event, act ≠ .event event) → bornImage builtin act = none →
      systemStep builtin machine act =
        (if machine.mode = .kernel then { machine with kernel := machine.kernel.act act } else machine) →
      Tenanted base o (systemStep builtin machine act).kernel ∧
        Follows builtin machine act (systemStep builtin machine act) := by
    intro quiet none_ step
    have writes : ∀ i v, writtenByte machine act i v = none :=
      writtenByte_none fun virtAddr value => quiet (.write virtAddr value)
    by_cases mode : machine.mode = .kernel
    · refine done (step.trans (if_pos mode)) writes ?_
      rw [none_]
      exact act_tenanted private_.tenanted act
    · exact done (step.trans (if_neg mode)) writes nothing
  cases act with
  | event event =>
    have step : systemStep builtin machine (.event event) = machineStep builtin machine event := rfl
    unfold machineStep at step
    cases mode : machine.mode with
    | halted => exact absurd mode running
    | kernel =>
      rw [mode] at step
      rw [step] at goes
      refine done step (fun i v => ?_) (Goes.kernelStep private_.tenanted event goes)
      unfold writtenByte
      rw [mode]
    | user slot selected =>
      rw [mode] at step
      obtain ⟨inside, used, here⟩ := private_.runs mode
      by_cases writes : ∃ virtAddr value, event = .write virtAddr value
      · obtain ⟨virtAddr, value, rfl⟩ := writes
        rw [step]
        exact private_.write unlent mode virtAddr value
      · have reads : ∀ virtAddr value, event ≠ .write virtAddr value :=
          fun virtAddr value same => writes ⟨virtAddr, value, same⟩
        rw [step] at goes
        refine done step (writtenByte_none fun virtAddr value same => ?_)
          (Goes.userStep private_.tenanted inside used here selected event reads goes)
        exact reads virtAddr value (Act.event.inj same)
  | _ => exact shell nofun rfl rfl

/-- What the machine holds is known after every act. -/
theorem step (private_ : Machine.Private base o machine memories) (unlent : Unlent base) (act : Act)
    (goes : (systemStep builtin machine act).mode ≠ .halted) :
    Machine.Private base o (systemStep builtin machine act)
      (memoriesStep builtin machine act (systemStep builtin machine act) memories) := by
  obtain ⟨after, follows⟩ := private_.follows unlent act goes
  refine ⟨after, fun {slot selected} mode => ?_, fun {i} inside used virtAddr => ?_⟩
  · have accounted : Machine.Accounted base o machine :=
      ⟨fun _ => private_.tenanted.imp fun _ tenancy => tenancy.accounts, private_.runs⟩
    cases act with
    | event event => exact (accounted.step builtin event).runs mode
    | _ =>
      -- The shell does nothing while a process runs.
      simp only [systemStep] at mode ⊢
      split at mode
      · next kernel => exact nomatch kernel.symm.trans mode
      · next other =>
        rw [if_neg other]
        exact private_.runs mode
  · rw [follows i inside used]
    unfold memoriesStep
    rw [used]
    cases before : (machine.kernel.processes.get i).used with
    | false => rfl
    | true => rw [private_.holds inside before]

/-- So it is after every run. -/
theorem run (private_ : Machine.Private base o machine memories) (unlent : Unlent base)
    (acts : List Act) (goes : (systemRun builtin machine acts).mode ≠ .halted) :
    Machine.Private base o (systemRun builtin machine acts)
      (memoriesRun builtin machine memories acts) := by
  -- By induction on the acts, from whatever machine they begin with.
  induction acts generalizing machine memories with
  | nil => exact private_
  | cons act rest ih =>
    have first : (systemStep builtin machine act).mode ≠ .halted := by
      intro halted
      refine goes ?_
      have still : ∀ acts, (systemRun builtin (systemStep builtin machine act) acts).mode = .halted := by
        intro acts
        induction acts with
        | nil => exact halted
        | cons next more ih =>
          change (systemRun builtin (systemStep builtin (systemStep builtin machine act) next) more).mode = _
          rw [halted_stays halted]
          exact ih
      exact still rest
    exact ih (private_.step unlent act first) goes

end Machine.Private

end Steps

end MyOS.Kernel
