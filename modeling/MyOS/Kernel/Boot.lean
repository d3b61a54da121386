import MyOS.Kernel.Privacy
import MyOS.Kernel.SharedFiles
import MyOS.Mm.FirstSpace

/-!
How the kernel starts, from memory as the boot loader leaves it to the loop of the shell.

What holds while processes run is established by it, and the files are still there the next time.
-/

namespace MyOS.Kernel

open MyOS.Mm MyOS.Fs

section Model

/-- The parts that start behind memory: the files, the pager and the processes. -/
def startRest (s : KernelState) : Machine :=
  -- The volume is looked for before the pager takes its part of the disk.
  let s := s.withVolume (simplefsInit s.volume).2
  let s := s.withPager (pagerInit s.toPager).2
  machineStart s

/--
`kernel_main` up to its loop, which is what the machine does from then on.

There is no result if the map of the boot loader does not end within the fuel.
-/
def kernelMain (fuel : Nat) (kernelPhysEnd multibootMagic info : UInt32) (s : KernelState) :
    Option Machine :=
  (pmmInit fuel kernelPhysEnd multibootMagic info s.toPmm).map fun pmm =>
    match vmmInit { s.toVmm with toPmm := pmm } with
    -- Without a directory of its own the kernel stops.
    | (false, vmm) => ⟨s.withVmm vmm, .halted⟩
    | (true, vmm) => startRest (s.withVmm vmm)

/-- The static variables as the boot loader leaves them. -/
structure KernelState.Loaded (s : KernelState) : Prop where
  pager : s.toPager.Idle
  slots : ∀ {k}, k < 8 → (s.slots.get k).allocated = false
  exhausted : s.files.blocksExhausted = false

end Model

variable {fuel : Nat} {kernelPhysEnd multibootMagic info : UInt32} {s : KernelState} {a : Store}
  {builtin : UInt32 → Option (List UInt8)}

section Start

end Start

section Life

/-- One time that the machine is on: what it finds, and what happens until it is switched off. -/
structure Power where
  fuel : Nat
  kernelPhysEnd : UInt32
  multibootMagic : UInt32
  info : UInt32
  /-- Memory as the boot loader leaves it, with the static variables. -/
  found : KernelState
  acts : List Act

/-- The machine once it is switched on with a disk. -/
def Power.on (power : Power) (disk : Ata) : Option Machine :=
  -- Only the disk keeps anything from one time to the next.
  kernelMain power.fuel power.kernelPhysEnd power.multibootMagic power.info
    { power.found with disk := disk }

variable (builtin : UInt32 → Option (List UInt8))

/-- The volume on a disk holds the files of a store. -/
def Stores (disk : Ata) (a : Store) : Prop :=
  ∃ v : SimpleFs, Fs.Mirrors v a ∧ v.blocksExhausted = false ∧ SameVolume v.ata disk

variable {builtin} {disk disk' : Ata} {power : Power} {powers : List Power} {machine : Machine}

/-- A machine that is on has stopped without touching its disk, or it has looked for a volume there. -/
theorem Power.on_cases (starts : power.on disk = some machine) :
    (machine.mode = .halted ∧ machine.kernel.files = power.found.files ∧ machine.kernel.disk = disk) ∨
    (machine.mode = .kernel ∧ machine.kernel.files = (simplefsInit (power.found.files.on disk)).2 ∧
      machine.kernel.disk = machine.kernel.files.ata ∧
      (machine.kernel.disk.ready = true → machine.kernel.toPager.Placed)) := by
  -- The page directory is built or the machine halts, and a built one goes on to look for the
  -- volume.
  unfold Power.on kernelMain at starts
  obtain ⟨p, -, rfl⟩ := Option.map_eq_some_iff.mp starts
  generalize vmmInit { power.found.toVmm with toPmm := p } = result
  obtain ⟨_ | _, t⟩ := result
  · exact Or.inl ⟨rfl, rfl, rfl⟩
  · right
    refine ⟨rfl, rfl, pagerInit_disk _, fun ready => pagerInit_placed _ ?_⟩
    rw [← pagerInit_disk]
    exact ready

/-- A machine that has stopped stays as it is, and so do the files. -/
theorem systemRun_halted (halted : machine.mode = .halted) (acts : List Act) (a : Store) :
    systemRun builtin machine acts = machine ∧ filesRun builtin machine a acts = a := by
  -- By induction on the acts, none of which finds anybody to do it.
  induction acts with
  | nil => exact ⟨rfl, rfl⟩
  | cons act rest ih =>
    have same : systemStep builtin machine act = machine := Machine.Private.halted_stays halted act
    have still : filesStep machine act a = a := by
      unfold filesStep
      rw [halted]
    change systemRun builtin (systemStep builtin machine act) rest = machine ∧
      filesRun builtin (systemStep builtin machine act) (filesStep machine act a) rest = a
    rw [same, still]
    exact ih

/-- Files are on the disk when the machine is switched off, as acts have left them. -/
theorem Stores.kept (stores : Stores disk a) (loaded : power.found.Loaded)
    (starts : power.on disk = some machine)
    (onFiles : ∀ call, Act.call call ∈ power.acts → call.onFiles = true)
    (clear : ∀ acts, acts <+: power.acts →
      (systemRun builtin machine acts).kernel.files.blocksExhausted = false) :
    Stores (systemRun builtin machine power.acts).kernel.disk
      (filesRun builtin machine a.closed power.acts) := by
  obtain ⟨v, mirrors, roomy, same⟩ := stores
  obtain ⟨t, found, again, reads, left_⟩ := mirrors.mountedAgain (b := power.found.files.on disk) same roomy
  have clear' : t.blocksExhausted = false := left_.trans loaded.exhausted
  rcases Power.on_cases starts with ⟨halted, -, kept⟩ | ⟨idle, files, disk', placed⟩
  · -- What would have been found is still there.
    obtain ⟨run, files⟩ := @systemRun_halted builtin machine halted power.acts a.closed
    rw [run, files, kept]
    refine ⟨t, again, clear', same.sound, fun lba _ _ => ?_⟩
    rw [reads.sectors]
    rfl
  · rw [found] at files
    have sound : machine.kernel.disk.Sound := by
      rw [disk', files]
      exact again.mounted.sound
    have holds : HoldsFiles true a.closed machine.kernel.toMemDemo := by
      refine ⟨sound, placed sound.ready, fun _ => ?_, fun _ => ?_⟩
      · have here : machine.kernel.files.on machine.kernel.disk = t := by
          rw [disk', files]
          rfl
        rw [here]
        exact again
      · rw [files]
        exact again.fsMounted
    have after := holds.run power.acts onFiles clear
    exact ⟨_, after.mirrors (after.mounted rfl), clear power.acts (List.prefix_refl _), after.sound,
      fun _ _ _ => rfl⟩

end Life

end MyOS.Kernel
