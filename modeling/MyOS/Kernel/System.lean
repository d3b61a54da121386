import MyOS.Fs.Sessions
import MyOS.Kernel.Usermode

/-!
The machine together with what the shell does to it besides making and running processes.

The shell looks for a volume before most of its calls on files, and acts only between two processes.
-/

namespace MyOS.Kernel

open MyOS.Mm MyOS.Fs

/-- What happens to the system. -/
inductive Act where
  | event (event : Event)
  | call (call : FsCall)
  | makeFs
  | list
  | printWorkingDirectory
  /-- The pages of the memory demonstration are taken back before its programs start. -/
  | memdemo
  | setAlgorithm (algorithm : PagerAlgorithm)
  | setBanker (banker : Banker)

/-- Whether the shell asks for a volume before a call. -/
def asksForVolume : FsCall → Bool
  | .close _ => false
  | _ => true

namespace KernelState

variable (s : KernelState)

/-- The file system with the disk that the pager swaps to. -/
def volume : SimpleFs := { s.files with ata := s.disk }

/-- The kernel with a file system that has worked on its disk. -/
def withVolume (files : SimpleFs) : KernelState :=
  -- The disk is taken back with what the file system wrote to it.
  s.withMemDemo { s.toMemDemo with files := files, disk := files.ata }

/-- What the shell does between two processes. -/
def act : Act → KernelState
  | .event _ => s
  | .call call =>
    -- Without a volume most commands only say so.
    if asksForVolume call && !s.files.fsMounted then s
    else s.withVolume (fsStep s.volume call).2
  | .makeFs => s.withVolume (simplefsFormat s.volume).2
  | .list => s.withVolume (simplefsList s.volume).2
  | .printWorkingDirectory =>
    s.withVolume (((simplefsPrintWorkingDirectory s.volume).map Prod.snd).getD s.volume)
  | .memdemo => s.withMemDemo (memdemoReset s.toMemDemo)
  | .setAlgorithm algorithm => s.withPager (pagerSetAlgorithm s.toPager algorithm)
  | .setBanker banker => { s with banker }

end KernelState

section Steps

variable (builtin : UInt32 → Option (List UInt8))

/-- One act. The shell acts while no process runs. -/
def systemStep (m : Machine) (act : Act) : Machine :=
  match act with
  | .event event => machineStep builtin m event
  | act =>
    -- A process that runs keeps the processor from the shell.
    if m.mode = .kernel then { m with kernel := m.kernel.act act } else m

/-- A whole run. -/
def systemRun (m : Machine) (acts : List Act) : Machine := acts.foldl (systemStep builtin) m

end Steps

end MyOS.Kernel
