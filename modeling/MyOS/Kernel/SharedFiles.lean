import MyOS.Fs.SharedDisk
import MyOS.Kernel.AccountRuns
import MyOS.Kernel.Charges
import MyOS.Kernel.System
import MyOS.Kernel.TenancyLaws
import MyOS.Mm.SwapPlaces

/-!
Files keep what was written to them through whole runs of the system.

Processes come and go, and their pages are swapped to the disk that the files lie on.
-/

namespace MyOS.Kernel

open MyOS.Mm MyOS.Fs

/-- The line that a report of an event adds to the file with the record, if it adds one. -/
def reportedLine (m : MemDemo) (requestedSequence : UInt32) : Option (List UInt8) :=
  let i := requestedSequence.toNat
  -- Events are counted from one, and each is reported once.
  if i = 0 ∨ i > memdemoEventCount then none
  else
    let event := m.events.get (i - 1)
    if !event.valid || event.reported then none
    else some ((buildEventLine event ++ textBytes "\n").take 163)

/-- The files once the record of the demonstration begins anew. -/
def recordBegun (a : Store) : Store := (a.write memdemoLogName memdemoLogHeader).2

/-- The files once an event was reported. -/
def recordReported (m : MemDemo) (requestedSequence : UInt32) (a : Store) : Store :=
  match reportedLine m requestedSequence with
  | none => a
  | some line => (a.append memdemoLogName line).2

/-- What a system call makes of the files: two of them write to the file with the record. -/
def filesSyscall (s : KernelState) (frame : InterruptFrame) (a : Store) : Store :=
  -- Without a volume the record is kept in memory only.
  if !s.files.fsMounted then a
  else if frame.eax == sysMemdemoReset then recordBegun a
  else if frame.eax == sysMemdemoReport then recordReported s.toMemDemo frame.ebx a
  else a

/--
What an act makes of the files.

Only calls on files do anything to them, and the record of the demonstration.
-/
def filesStep (machine : Machine) (act : Act) (a : Store) : Store :=
  match machine.mode, act with
  | .kernel, .makeFs => Store.empty
  | .kernel, .call call => if machine.kernel.files.fsMounted then (a.step call).2 else a
  | .kernel, .memdemo => if machine.kernel.files.fsMounted then recordBegun a else a
  | .user _ _, .event (.syscall frame) => filesSyscall machine.kernel frame a
  | _, _ => a

/-- What a whole run makes of them. -/
def filesRun (builtin : UInt32 → Option (List UInt8)) (machine : Machine) (a : Store) :
    List Act → Store
  | [] => a
  | act :: rest => filesRun builtin (systemStep builtin machine act) (filesStep machine act a) rest

/-- A step that leaves the files alone, and writes to the disk at most where pages are kept. -/
structure SparesFiles (m m' : MemDemo) : Prop where
  files : m'.files = m.files
  swaps : Swaps m.toPager m'.toPager

/-- The same of the whole kernel. -/
def Spares (s t : KernelState) : Prop := SparesFiles s.toMemDemo t.toMemDemo

/--
A pager at its places on a sound disk, on which a volume that is mounted holds a store.

Where there must be a volume, there is one.
-/
structure HoldsFiles (must : Bool) (a : Store) (m : MemDemo) : Prop where
  sound : m.disk.Sound
  placed : m.toPager.Placed
  mirrors : m.files.fsMounted = true → Fs.Mirrors (m.files.on m.disk) a
  mounted : must = true → m.files.fsMounted = true

variable {must : Bool} {m m' m'' : MemDemo} {s t u : KernelState} {a b : Store} {machine : Machine}
  {builtin : UInt32 → Option (List UInt8)}

namespace SparesFiles

section Demonstration

/-- Nothing happens to the files of a state left alone. -/
theorem refl (m : MemDemo) : SparesFiles m m := ⟨rfl, .refl _⟩

/-- Sparing files twice spares them. -/
theorem trans (first : SparesFiles m m') (second : SparesFiles m' m'') : SparesFiles m m'' :=
  ⟨second.files.trans first.files, first.swaps.trans second.swaps⟩

/-- A call on the pager. -/
theorem pager {pager : Pager} (swaps : Swaps m.toPager pager) :
    SparesFiles m { m with toPager := pager } := ⟨rfl, swaps⟩

/-- A call on memory. -/
theorem withVmm (m : MemDemo) (vmm : Vmm) : SparesFiles m (m.withVmm vmm) :=
  ⟨rfl, .still (fun _ => rfl) rfl⟩

/-- The record of the demonstration is kept in memory. -/
theorem recording (books : Recording m m') : SparesFiles m m' := by
  -- Neither the files nor the pager change.
  refine ⟨books.files, ?_⟩
  rw [books.pager]
  exact .refl _

/-- Clearing a slot spares the files. -/
theorem clearSlot (m : MemDemo) (k : Nat) : SparesFiles m (m.clearSlot k) := ⟨rfl, .refl _⟩

/-- Taking back the page of a slot spares the files. -/
theorem freeSlot (m : MemDemo) (k : Nat) : SparesFiles m (m.freeSlot k) := by
  -- The mapping and the page are all that changes.
  unfold MemDemo.freeSlot
  simp only
  split
  · exact refl m
  · exact ⟨rfl, .still (fun _ => rfl) rfl⟩

/-- Giving a slot a page spares the files. -/
theorem allocSlot (m : MemDemo) (k : Nat) : SparesFiles m (allocSlot m k).2 := by
  -- Each branch allocates, maps, or undoes it.
  unfold MyOS.Kernel.allocSlot
  split
  · exact refl m
  · generalize m.toVmm.alloc = result
    obtain ⟨physAddr, vmm⟩ := result
    simp only
    split
    · exact withVmm m vmm
    · generalize vmmMapPageInDirectory _ _ _ _ _ = result
      obtain ⟨done, vmm'⟩ := result
      cases done with
      | false => exact withVmm m _
      | true => exact ⟨rfl, .still (fun _ => rfl) rfl⟩

/-- A call of the demonstration spares the files, but for its record. -/
theorem applyOp (m : MemDemo) (op page : UInt32) : SparesFiles m (memdemoApplyOp m op page).2 := by
  -- A page is given or taken back, and then the record is changed in memory.
  obtain ⟨m', books, rfl | ⟨-, rfl | rfl⟩⟩ := memdemoApplyOp_cases m op page
  · exact recording books
  · exact (allocSlot m page.toNat).trans (recording books)
  · exact (freeSlot m page.toNat).trans (recording books)

/-- Taking back the pages of a space spares the files. -/
theorem releaseForDirectory (m : MemDemo) (dir : UInt32) :
    SparesFiles m (memdemoReleaseForDirectory m dir) := by
  unfold memdemoReleaseForDirectory
  -- The induction is on the slots that have been looked at.
  refine foldl_range_invariant (fun _ m' => SparesFiles m m') (refl m) fun k m' _ soFar => ?_
  split
  · exact soFar.trans (freeSlot m' k)
  · exact soFar

end Demonstration

end SparesFiles

namespace Spares

section Processes

/-- Nothing happens to the files of a kernel left alone. -/
theorem refl (s : KernelState) : Spares s s := SparesFiles.refl _

/-- Sparing files twice spares them. -/
theorem trans (first : Spares s t) (second : Spares t u) : Spares s u := SparesFiles.trans first second

/-- A step that leaves the memory of processes alone. -/
theorem pagesKept (pagesKept : PagesKept s t) : Spares s t := by
  -- The memory is the same.
  unfold Spares
  rw [pagesKept.memory]
  exact .refl _

variable (s)

/-- A call of the demonstration. -/
theorem memory (spares : SparesFiles s.toMemDemo m) : Spares s (s.withMemDemo m) := spares

/-- A call on the pager. -/
theorem withPager {pager : Pager} (swaps : Swaps s.toPager pager) : Spares s (s.withPager pager) :=
  memory s (.pager swaps)

/-- A call on memory. -/
theorem withVmm (vmm : Vmm) : Spares s (s.withVmm vmm) := memory s (.withVmm _ vmm)

/-- The process table is no matter of the files. -/
theorem setProcess (i : Nat) (p : Process) : Spares s (s.setProcess i p) := .refl _

/-- Neither is which process runs. -/
theorem setCurrent (pid : Int) : Spares s { s with currentPid := pid } := .refl _

/-- Neither is the banker. -/
theorem setBanker (banker : Banker) : Spares s { s with banker } := .refl _

/-- Pinning a page spares the files. -/
theorem pinPage (i : Nat) (virtAddr : UInt32) : Spares s (s.pinPage i virtAddr) :=
  withPager s (.pin _ _ _ _)

/-- A page is given up. -/
theorem unregister (dir virtAddr : UInt32) :
    Spares s (s.withPager (pagerUnregisterPage s.toPager dir virtAddr)) :=
  withPager s (.unregister _ _ _)

/-- What was made for a process that cannot be is given up with its slot. -/
theorem abandon (i : Nat) : Spares s ((s.destroySpace i).abandonProcess i) :=
  (withVmm s _).trans (setProcess _ i _)

/-- The last part of a spawn spares the files. -/
theorem spawnStack (i : Nat) : Spares s (s.spawnStack i).2 := by
  have registered : Swaps s.toPager (pagerRegisterPageInDirectory s.toPager
      (s.processes.get i).pageDirectoryPhys processUserStackPage (vmmPageWritable ||| vmmPageUser)).2 :=
    .register _ _ _ _ _ _
  unfold KernelState.spawnStack
  generalize pagerRegisterPageInDirectory _ _ _ _ = result at registered
  obtain ⟨done, pager⟩ := result
  have paged := withPager s registered
  cases done with
  | true => exact paged.trans (pinPage _ i _)
  | false =>
    -- What the parts before have made is given up again.
    have released := paged.trans (memory (s.withPager pager)
      (.releaseForDirectory _ (s.processes.get i).pageDirectoryPhys))
    exact (released.trans (unregister _ _ _)).trans (abandon _ i)

/-- The part that registers the code spares the files. -/
theorem spawnCode (i : Nat) (image : Nat → UInt8) (imageSize : Nat) :
    Spares s (s.spawnCode i image imageSize).2 := by
  -- The page is written to the places of the pager only.
  have registered := Swaps.register s.toPager (s.processes.get i).pageDirectoryPhys
    processUserCodeBase vmmPageUser (some image) imageSize
  unfold KernelState.spawnCode
  generalize pagerRegisterPageData _ _ _ _ _ _ = result at registered
  obtain ⟨done, pager⟩ := result
  have paged := withPager s registered
  cases done with
  | true => exact (paged.trans (pinPage _ i _)).trans (spawnStack _ i)
  | false => exact paged.trans (abandon _ i)

/-- The part that makes the space spares the files. -/
theorem spawnSpace (i : Nat) (image : Nat → UInt8) (imageSize : Nat) :
    Spares s (s.spawnSpace i image imageSize).2 := by
  -- With a space or without.
  unfold KernelState.spawnSpace
  generalize vmmCreateAddressSpace s.toVmm = result
  obtain ⟨directory, vmm⟩ := result
  cases directory with
  | none => exact (withVmm s vmm).trans (setProcess _ i _)
  | some directory =>
    exact ((withVmm s vmm).trans (setProcess _ i _)).trans (spawnCode _ i image imageSize)

/-- `process_spawn` spares the files. -/
theorem spawn (parentPid : Int) (image : Option (Nat → UInt8)) (imageSize : Nat) (priority : Int) :
    Spares s (processSpawnChildFromBufferWithPriority s parentPid image imageSize priority).2 := by
  have allocated : Spares s s.allocateProcess.2 := by
    unfold KernelState.allocateProcess
    split <;> exact refl s
  unfold processSpawnChildFromBufferWithPriority
  cases image with
  | none => exact refl s
  | some image =>
    simp only
    split
    · exact refl s
    · generalize s.allocateProcess = result at allocated
      obtain ⟨slot, t⟩ := result
      cases slot with
      | none => exact allocated
      -- The slot is filled in before there is any memory.
      | some i => exact (allocated.trans (setProcess t i _)).trans (spawnSpace _ i image imageSize)

/-- `process_spawn_builtin_child_for_current` spares the files. -/
theorem spawnBuiltin (builtin : UInt32 → Option (List UInt8)) (appId : UInt32) :
    Spares s (processSpawnBuiltinChildForCurrent s builtin appId).2 := by
  -- Refused, or a spawn.
  unfold processSpawnBuiltinChildForCurrent
  split
  · exact refl s
  split
  · exact refl s
  split
  · exact refl s
  split
  · exact refl s
  · exact spawn s _ _ _ _

/-- `process_vm_alloc_page` spares the files. -/
theorem vmAlloc (pageIndex : UInt32) : Spares s (processVmAllocPage s pageIndex).2 := by
  -- Refused, or a page is registered, which writes to the places of the pager only.
  have registered : ∀ i, Swaps s.toPager (pagerRegisterPageInDirectory s.toPager
      (s.processes.get i).pageDirectoryPhys (processUserVmBase + pageIndex * pageSize)
      (vmmPageWritable ||| vmmPageUser)).2 := fun i => .register _ _ _ _ _ _
  unfold processVmAllocPage
  split
  · exact refl s
  split
  · exact refl s
  next i _ =>
  split
  · exact refl s
  simp only
  split
  · exact refl s
  have paged := registered i
  generalize pagerRegisterPageInDirectory _ _ _ _ = result at paged
  obtain ⟨done, pager⟩ := result
  cases done with
  | false => exact withPager s paged
  | true => exact (withPager s paged).trans (setProcess _ i _)

/-- Giving up the memory of a process spares the files. -/
theorem releaseMemory (i : Nat) : Spares s (releaseMemory s i) := by
  unfold MyOS.Kernel.releaseMemory
  simp only
  split
  · exact refl s
  have lent := memory s (.releaseForDirectory s.toMemDemo (s.processes.get i).pageDirectoryPhys)
  refine trans ?_ (withVmm _ _)
  -- The induction is on the pages that the process may have asked for.
  refine foldl_range_invariant (fun _ u => Spares s u) ?_ fun k u _ soFar => ?_
  · exact (lent.trans (unregister _ _ _)).trans (unregister _ _ _)
  · split
    · exact soFar.trans (unregister u _ _)
    · exact soFar

/-- Giving up a process spares the files. -/
theorem release (i : Nat) : Spares s (releaseProcess s i) := by
  unfold releaseProcess
  split
  · exact refl s
  · -- The banker and the table change besides memory.
    have adopted : Spares s (s.adoptChildren (s.processes.get i).pid) := pagesKept (.adoptChildren s _)
    exact ((adopted.trans (setBanker _ _)).trans (releaseMemory _ i)).trans (setProcess _ i emptyProcess)

/-- `process_kill` spares the files. -/
theorem kill (pid : Int) : Spares s (processKill s pid).2 := by
  -- Refused, or the process is given up.
  unfold processKill
  split
  · exact refl s
  · split
    · exact refl s
    · exact release s _

/-- `process_wait_child` spares the files. -/
theorem waitChild (parentPid childPid : Int) : Spares s (processWaitChild s parentPid childPid).2 := by
  -- Nothing to wait for, or the zombie is given up.
  unfold processWaitChild
  split
  · exact refl s
  · split
    · split <;> exact refl s
    · exact release s _

/-- `process_reap_zombies` spares the files. -/
theorem reapZombies : Spares s (processReapZombies s) := by
  unfold processReapZombies
  -- The induction is on the slots that have been looked at.
  refine foldl_range_invariant (fun _ u => Spares s u) (refl s) fun k u _ soFar => ?_
  unfold reapStep
  split
  · exact soFar.trans (release u k)
  · exact soFar

/-- Entering a process spares the files. -/
theorem enter (pid : Int) : Spares s (processEnter s pid).2 := by
  -- Refused, or a space is switched to.
  unfold processEnter
  split
  · exact refl s
  · split
    · exact refl s
    · generalize vmmSwitchPageDirectory _ _ = result
      obtain ⟨done, vmm⟩ := result
      cases done <;> exact withVmm s vmm

/-- Leaving a process spares the files. -/
theorem leave (i : Nat) (result : UInt32) : Spares s (processLeave s i result) := by
  -- The kernel's space is switched to.
  have back := withVmm s (vmmSwitchPageDirectory s.kernelPageDirectoryPhys s.toVmm).2
  unfold processLeave
  simp only
  generalize s.withVmm (vmmSwitchPageDirectory s.kernelPageDirectoryPhys s.toVmm).2 = u at back ⊢
  split
  · have yielded := back.trans (setProcess u i { u.processes.get i with state := .ready })
    exact yielded.trans (setCurrent _ 0)
  · have ended := back.trans (setProcess u i { u.processes.get i with exitCode := result, state := .zombie })
    exact (ended.trans (pagesKept (.adoptChildren _ _))).trans (setCurrent _ 0)

/-- A system call that has nothing to do with the record of the demonstration. -/
theorem syscall (builtin : UInt32 → Option (List UInt8)) (frame : InterruptFrame)
    (noReset : frame.eax ≠ sysMemdemoReset) (noReport : frame.eax ≠ sysMemdemoReport) :
    Spares s (usermodeHandleSyscall builtin frame s).2 := by
  -- One case for each number of a call, in the order of the source.
  unfold usermodeHandleSyscall
  by_cases here : (frame.eax == sysWrite) = true
  · rw [if_pos here]
    exact refl s
  rw [if_neg here]
  by_cases here : (frame.eax == sysExit) = true
  · rw [if_pos here]
    exact refl s
  rw [if_neg here]
  by_cases here : (frame.eax == sysYield) = true
  · rw [if_pos here]
    exact pagesKept (processSaveYieldFrame_pagesKept s frame)
  rw [if_neg here]
  by_cases here : (frame.eax == sysMemdemoOp) = true
  · rw [if_pos here]
    exact memory s (.applyOp _ _ _)
  rw [if_neg here]
  by_cases here : (frame.eax == sysMemdemoReset) = true
  · rw [if_pos here]
    exact absurd (beq_iff_eq.mp here) noReset
  rw [if_neg here]
  by_cases here : (frame.eax == sysMemdemoReport) = true
  · rw [if_pos here]
    exact absurd (beq_iff_eq.mp here) noReport
  rw [if_neg here]
  by_cases here : (frame.eax == sysVmAlloc) = true
  · rw [if_pos here]
    exact vmAlloc s frame.ebx
  rw [if_neg here]
  by_cases here : (frame.eax == sysVmSample) = true
  · rw [if_pos here]
    by_cases lru : s.currentAlgorithm = .lru
    · rw [if_pos lru]
      exact withPager s (.sampleUsage _)
    · rw [if_neg lru]
      exact refl s
  rw [if_neg here]
  by_cases here : (frame.eax == sysPagerTraceReset) = true
  · rw [if_pos here]
    exact withPager s (.still (fun _ => rfl) rfl)
  rw [if_neg here]
  by_cases here : (frame.eax == sysSpawnApp) = true
  · rw [if_pos here]
    exact spawnBuiltin s builtin frame.ebx
  · rw [if_neg here]
    exact refl s

end Processes

section Machines

variable (machine)

/-- The processor going to a process spares the files. -/
theorem machineEnter (pid : Int) (selected : Option Nat) :
    Spares machine.kernel (machine.enter pid selected).kernel := by
  -- Whether it is entered or not.
  have entered := enter machine.kernel pid
  unfold Machine.enter
  generalize processEnter machine.kernel pid = result at entered
  obtain ⟨slot, kernel⟩ := result
  cases slot <;> exact entered

/-- The processor coming back spares the files. -/
theorem machineLeave (slot : Nat) (selected : Option Nat) (result : UInt32) :
    Spares machine.kernel (machine.leave slot selected result).kernel := by
  -- Whoever was selected.
  have left := leave machine.kernel slot result
  unfold Machine.leave
  cases selected <;> exact left

/-- What the main loop does while no process runs. -/
theorem kernelStep (event : Event) : Spares machine.kernel (kernelStep machine event).kernel := by
  -- One case for each event.
  cases event with
  | spawn parentPid image imageSize priority => exact spawn machine.kernel parentPid image imageSize priority
  | kill pid => exact kill machine.kernel pid
  | waitChild parentPid childPid => exact waitChild machine.kernel parentPid childPid
  | reapZombies => exact reapZombies machine.kernel
  | setPriority pid priority => exact pagesKept (processSetPriority_pagesKept machine.kernel pid priority)
  | scheduleAuto =>
    unfold MyOS.Kernel.kernelStep
    cases selectNextReadyProcess machine.kernel with
    | none => exact refl _
    | some slot => exact machineEnter machine _ _
  | runPid pid => exact machineEnter machine pid none
  | _ => exact refl _

/-- What happens while a process runs, but for its system calls. -/
theorem userStep (slot : Nat) (selected : Option Nat) (event : Event)
    (quiet : ∀ frame, event ≠ .syscall frame) :
    Spares machine.kernel (userStep builtin machine slot selected event).kernel := by
  -- One case for each event.
  cases event with
  | syscall frame => exact absurd rfl (quiet frame)
  | clock scheduleEvent frame =>
    have preempted := pagesKept (processPreemptIfNeeded_pagesKept scheduleEvent frame machine.kernel)
    simp only [MyOS.Kernel.userStep]
    generalize processPreemptIfNeeded scheduleEvent frame machine.kernel = result at preempted
    obtain ⟨taken, kernel⟩ := result
    cases taken with
    | false => exact preempted
    | true => exact preempted.trans (machineLeave { machine with kernel } slot selected _)
  | pageFault faultAddr errCode =>
    have swaps := Swaps.fault machine.kernel.toPager faultAddr errCode
    simp only [MyOS.Kernel.userStep]
    generalize pagerHandlePageFault machine.kernel.toPager faultAddr errCode = result at swaps
    obtain ⟨done, pager⟩ := result
    cases done <;> exact withPager machine.kernel swaps
  | read virtAddr => exact withVmm machine.kernel _
  | write virtAddr value => exact withVmm machine.kernel _
  | _ => exact refl _

end Machines

end Spares

namespace HoldsFiles

/-- Files stay what they are in a step that spares them. -/
theorem spared (holds : HoldsFiles must a m) (spares : SparesFiles m m') : HoldsFiles must a m' := by
  obtain ⟨placed, only⟩ := spares.swaps holds.placed
  have sound := only.sound holds.sound
  refine ⟨sound, placed, fun mounted => ?_, fun needed => spares.files ▸ holds.mounted needed⟩
  rw [spares.files] at mounted ⊢
  -- The places of pages lie in front of the volume.
  apply Fs.Mirrors.on (holds.mirrors mounted)
  exact ⟨sound, fun lba low _ => only.sectors lba (Or.inr (by omega))⟩

section Record

/-- A call that writes to the file with the record. -/
theorem withFiles {call : SimpleFs → Bool × SimpleFs} {expected : Bool × Store}
    (holds : HoldsFiles must a m) (agrees : ∀ {v}, Fs.Mirrors v a → Agrees (call v) expected)
    (clear : (withFiles m call).files.blocksExhausted = false) :
    HoldsFiles must (if m.files.fsMounted then expected.2 else a) (withFiles m call) := by
  unfold MyOS.Kernel.withFiles at clear ⊢
  cases mounted : m.files.fsMounted with
  | false =>
    -- Without a volume nothing is called.
    rw [if_neg nofun, if_neg nofun]
    exact holds
  | true =>
    rw [mounted, if_pos rfl] at clear
    rw [if_pos rfl, if_pos rfl]
    have mirrors : Agrees (call { m.files with ata := m.disk }) expected := agrees (holds.mirrors mounted)
    generalize call { m.files with ata := m.disk } = result at clear mirrors ⊢
    obtain ⟨done, files⟩ := result
    obtain ⟨-, after⟩ := mirrors clear
    exact ⟨after.mounted.sound, holds.placed, fun _ => after, fun _ => after.fsMounted⟩

/-- The file with the record is written anew. -/
theorem written (holds : HoldsFiles must a m) (bytes : List UInt8)
    (clear : (logBytes m simplefsWriteFile bytes).files.blocksExhausted = false) :
    HoldsFiles must (if m.files.fsMounted then (a.write memdemoLogName bytes).2 else a)
      (logBytes m simplefsWriteFile bytes) := by
  -- The lines of the record are written as one file.
  refine holds.withFiles (fun {v} mirrors => ?_) clear
  have agrees := simplefsWriteFile_agrees mirrors memdemoLogName (bytes.getD · 0) bytes.length
  rw [map_getD_range] at agrees
  exact agrees

/-- A line is added to it. -/
theorem appended (holds : HoldsFiles must a m) (bytes : List UInt8)
    (clear : (logBytes m simplefsAppendFile bytes).files.blocksExhausted = false) :
    HoldsFiles must (if m.files.fsMounted then (a.append memdemoLogName bytes).2 else a)
      (logBytes m simplefsAppendFile bytes) :=
  -- The line goes behind what the file holds.
  holds.withFiles (fun {_} mirrors => simplefsAppendFile_agrees mirrors memdemoLogName bytes) clear

/-- `memdemo_reset` begins the file with the record anew. -/
theorem reset (holds : HoldsFiles must a m) (clear : (memdemoReset m).files.blocksExhausted = false) :
    HoldsFiles must (if m.files.fsMounted then recordBegun a else a) (memdemoReset m) := by
  unfold memdemoReset at clear ⊢
  have emptied : SparesFiles m
      ((List.range memdemoPageCount).foldl (fun s i => (s.freeSlot i).clearSlot i) m) :=
    -- The induction is on the slots that have been looked at.
    foldl_range_invariant (fun _ m' => SparesFiles m m') (.refl m) fun k m' _ soFar =>
      (soFar.trans (.freeSlot m' k)).trans (.clearSlot _ k)
  generalize (List.range memdemoPageCount).foldl (fun s i => (s.freeSlot i).clearSlot i) m = final
    at emptied clear ⊢
  have anew : SparesFiles m { final with
      events := FixedArray.fill emptyEvent, activePages := 0, sequence := 0 } :=
    emptied.trans ⟨rfl, .refl _⟩
  -- The slots had nothing to do with whether there is a volume.
  rw [← emptied.files]
  exact (holds.spared anew).written memdemoLogHeader clear

/-- `memdemo_report_event` adds a line to it, for an event that was not reported before. -/
theorem report (holds : HoldsFiles must a m) (requestedSequence : UInt32)
    (clear : (memdemoReportEvent m requestedSequence).2.files.blocksExhausted = false) :
    HoldsFiles must (if m.files.fsMounted then recordReported m requestedSequence a else a)
      (memdemoReportEvent m requestedSequence).2 := by
  have nothing : HoldsFiles must (if m.files.fsMounted then a else a) m := by
    rw [ite_self]
    exact holds
  unfold recordReported reportedLine
  unfold memdemoReportEvent at clear ⊢
  by_cases outside : requestedSequence.toNat = 0 ∨ requestedSequence.toNat > memdemoEventCount
  · simp only [if_pos outside]
    exact nothing
  simp only [if_neg outside] at clear ⊢
  generalize (buildEventLine (m.events.get (requestedSequence.toNat - 1)) ++ textBytes "\n").take 163 =
    line at clear ⊢
  cases valid : (m.events.get (requestedSequence.toNat - 1)).valid with
  | false => exact nothing
  | true =>
    cases reported : (m.events.get (requestedSequence.toNat - 1)).reported with
    | true => exact nothing
    | false =>
      rw [valid, reported] at clear
      -- The mark on the event is kept in memory.
      exact (holds.appended line clear).spared ⟨rfl, .refl _⟩

end Record

section Steps

/-- A system call of the process that runs. -/
theorem syscall (holds : HoldsFiles must a s.toMemDemo) (frame : InterruptFrame)
    (clear : (usermodeHandleSyscall builtin frame s).2.files.blocksExhausted = false) :
    HoldsFiles must (filesSyscall s frame a) (usermodeHandleSyscall builtin frame s).2.toMemDemo := by
  unfold filesSyscall
  by_cases anew : frame.eax = sysMemdemoReset
  · have call : (usermodeHandleSyscall builtin frame s).2 = s.withMemDemo (memdemoReset s.toMemDemo) := by
      unfold usermodeHandleSyscall
      rw [anew]
      rfl
    rw [call] at clear ⊢
    have begun := holds.reset clear
    change HoldsFiles must _ (memdemoReset s.toMemDemo)
    cases mounted : s.files.fsMounted <;> simpa [mounted, anew] using begun
  · by_cases line : frame.eax = sysMemdemoReport
    · have call : (usermodeHandleSyscall builtin frame s).2 =
          s.withMemDemo (memdemoReportEvent s.toMemDemo frame.ebx).2 := by
        unfold usermodeHandleSyscall
        rw [line]
        rfl
      rw [call] at clear ⊢
      have reported := holds.report frame.ebx clear
      have other : sysMemdemoReport ≠ sysMemdemoReset := by decide
      change HoldsFiles must _ (memdemoReportEvent s.toMemDemo frame.ebx).2
      cases mounted : s.files.fsMounted <;> simpa [mounted, other, line] using reported
    · -- The other calls leave the files alone.
      have spared := holds.spared (Spares.syscall s builtin frame anew line)
      simpa [anew, line] using spared

/-- What the shell does between two processes. -/
theorem act (holds : HoldsFiles must a s.toMemDemo) (act : Act)
    (onFiles : ∀ call, act = .call call → call.onFiles = true)
    (clear : (s.act act).files.blocksExhausted = false) :
    HoldsFiles must (filesStep ⟨s, .kernel⟩ act a) (s.act act).toMemDemo := by
  -- Calls that only read leave the store that there is.
  have reads : ∀ {files : SimpleFs}, (s.files.fsMounted = true → Alike s.volume files) →
      (s.files.fsMounted = false → files = s.volume) →
      HoldsFiles must a (s.withVolume files).toMemDemo := by
    intro files alike same
    cases mounted : s.files.fsMounted with
    | true =>
      have mirrors := Fs.Mirrors.alike (holds.mirrors mounted) (alike mounted)
      exact ⟨mirrors.mounted.sound, holds.placed, fun _ => mirrors, fun _ => mirrors.fsMounted⟩
    | false =>
      rw [same mounted]
      exact ⟨holds.sound, holds.placed, (fun other => nomatch mounted.symm.trans other),
        holds.mounted⟩
  cases act with
  | event event => exact holds
  | call call =>
    simp only [filesStep]
    unfold KernelState.act at clear ⊢
    cases mounted : s.files.fsMounted with
    | true =>
      rw [if_pos rfl]
      simp only [mounted, Bool.not_true, Bool.and_false] at clear ⊢
      obtain ⟨-, mirrors⟩ := fsStep_agrees (holds.mirrors mounted) (onFiles call rfl) clear
      exact ⟨mirrors.mounted.sound, holds.placed, fun _ => mirrors, fun _ => mirrors.fsMounted⟩
    | false =>
      rw [if_neg nofun]
      cases call with
      | close fd =>
        -- A file can be closed without a volume, and none is open.
        have served := Served.close (s := s.volume) (fun other => nomatch mounted.symm.trans other) fd
        have same : (fsStep s.volume (.close fd)).2.fsMounted = s.files.fsMounted := by
          change (simplefsClose fd s.volume).2.fsMounted = _
          unfold simplefsClose
          split <;> rfl
        exact ⟨served.disk.sound holds.sound, holds.placed,
          (fun other => nomatch mounted.symm.trans (same.symm.trans other)),
          fun needed => same.trans (holds.mounted needed)⟩
      | _ =>
        simp only [asksForVolume, Bool.not_false, Bool.and_true]
        exact holds
  | makeFs =>
    obtain ⟨t, format, formatted⟩ := simplefsFormat_sound (s := s.volume) holds.sound
    have made : s.act .makeFs = s.withVolume t := congrArg (fun r : Bool × SimpleFs => s.withVolume r.2) format
    rw [made]
    have mirrors := formatted.mirrors
    exact ⟨mirrors.mounted.sound, holds.placed, fun _ => mirrors, fun _ => mirrors.fsMounted⟩
  | list =>
    refine reads (fun mounted => ?_) fun unmounted => ?_
    · exact simplefsList_alike (Fs.Mirrors.mounted (holds.mirrors mounted))
    · have mounted : s.volume.fsMounted = false := unmounted
      unfold simplefsList
      rw [if_pos (by simp [mounted])]
  | printWorkingDirectory =>
    refine reads (fun mounted => ?_) fun unmounted => ?_
    · exact simplefsPrintWorkingDirectory_alike (Fs.Mirrors.mounted (holds.mirrors mounted))
    · have mounted : s.volume.fsMounted = false := unmounted
      unfold simplefsPrintWorkingDirectory
      rw [if_pos (by simp [mounted])]
      rfl
  | memdemo => exact holds.reset clear
  | setAlgorithm algorithm => exact holds.spared (Spares.withPager s (.still (fun _ => rfl) rfl))
  | setBanker banker => exact holds

/-- Every act makes of the files what it should. -/
theorem step (holds : HoldsFiles must a machine.kernel.toMemDemo) (act : Act)
    (onFiles : ∀ call, act = .call call → call.onFiles = true)
    (clear : (systemStep builtin machine act).kernel.files.blocksExhausted = false) :
    HoldsFiles must (filesStep machine act a) (systemStep builtin machine act).kernel.toMemDemo := by
  obtain ⟨s, mode⟩ := machine
  have shell : (∀ event, act ≠ .event event) → systemStep builtin ⟨s, mode⟩ act =
        (if mode = .kernel then ⟨s.act act, mode⟩ else ⟨s, mode⟩) →
      HoldsFiles must (filesStep ⟨s, mode⟩ act a) (systemStep builtin ⟨s, mode⟩ act).kernel.toMemDemo := by
    intro other step
    rw [step] at clear ⊢
    by_cases kernel : mode = .kernel
    · subst kernel
      exact holds.act act onFiles clear
    · rw [if_neg kernel]
      -- The shell does nothing while a process runs.
      have nothing : filesStep ⟨s, mode⟩ act a = a := by
        cases mode with
        | kernel => exact absurd rfl kernel
        | user slot selected =>
          cases act with
          | event event => exact absurd rfl (other event)
          | _ => rfl
        | halted => rfl
      rw [nothing]
      exact holds
  cases act with
  | event event =>
    change HoldsFiles must _ (machineStep builtin ⟨s, mode⟩ event).kernel.toMemDemo
    change (machineStep builtin ⟨s, mode⟩ event).kernel.files.blocksExhausted = false at clear
    unfold machineStep at clear ⊢
    cases mode with
    | halted => exact holds
    | kernel => exact holds.spared (Spares.kernelStep ⟨s, .kernel⟩ event)
    | user slot selected =>
      by_cases calls : ∃ frame, event = .syscall frame
      · obtain ⟨frame, rfl⟩ := calls
        simp only [MyOS.Kernel.userStep] at clear ⊢
        -- What follows a system call has nothing to do with files.
        have onward : ∀ {t : KernelState} {after : MemDemo}, (t.files.blocksExhausted = false →
              HoldsFiles must (filesSyscall s frame a) t.toMemDemo) → SparesFiles t.toMemDemo after →
            after.files.blocksExhausted = false → HoldsFiles must (filesSyscall s frame a) after := by
          intro t after served spares clear
          rw [spares.files] at clear
          exact (served clear).spared spares
        have served := @HoldsFiles.syscall must s a builtin holds frame
        generalize usermodeHandleSyscall builtin frame s = result at served clear ⊢
        obtain ⟨outcome, t⟩ := result
        cases outcome with
        | resume frame' => exact served clear
        | leave value => exact onward served (Spares.machineLeave ⟨t, _⟩ slot selected value) clear
      · have spares : Spares s (userStep builtin ⟨s, .user slot selected⟩ slot selected event).kernel :=
          .userStep ⟨s, .user slot selected⟩ slot selected event fun frame same => calls ⟨frame, same⟩
        cases event with
        | syscall frame => exact absurd ⟨frame, rfl⟩ calls
        | _ => exact holds.spared spares
  | _ => exact shell (fun _ same => by cases same) rfl

/-- So it is after a whole run, as long as the volume has room for what is written. -/
theorem run (holds : HoldsFiles must a machine.kernel.toMemDemo) (acts : List Act)
    (onFiles : ∀ call, Act.call call ∈ acts → call.onFiles = true)
    (clear : ∀ before, before <+: acts →
      (systemRun builtin machine before).kernel.files.blocksExhausted = false) :
    HoldsFiles must (filesRun builtin machine a acts) (systemRun builtin machine acts).kernel.toMemDemo := by
  -- By induction on the acts, from whatever machine they begin with.
  induction acts generalizing machine a with
  | nil => exact holds
  | cons act rest ih =>
    have first := clear [act] (List.prefix_append [act] rest)
    have next := holds.step act (fun call same => onFiles call (same ▸ List.mem_cons_self)) first
    exact ih next (fun call member => onFiles call (List.mem_cons_of_mem _ member))
      fun before inside => clear (act :: before) ((List.prefix_cons_inj act).mpr inside)

end Steps

end HoldsFiles

/-- The name of a file. -/
def noteName : CString := ⟨[110], by decide⟩

/-- A file is written and opened, and between that and reading it a process runs and ends. -/
def interrupted : List Act :=
  [.makeFs, .call (.writeFile noteName [1, 2, 3]), .call (.open_ noteName), .event (.spawnByte 0 5),
    .event (.runPid 1), .event (.pageFault processUserStackPage 6),
    .event (.write processUserStackPage 7), .event (.call sysVmAlloc 0), .event (.call sysExit 0),
    .event .reapZombies]

end MyOS.Kernel
