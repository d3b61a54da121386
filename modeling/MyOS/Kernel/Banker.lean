import MyOS.Lib.FixedArray
import Mathlib.Data.Fintype.Pi

/-! The banker: who has claimed how much of three kinds of resources, and who holds how much. -/

namespace MyOS.Kernel

/-- The kinds of resources. -/
def bankerResourceCount : Nat := 3

/-- The rows of the table. -/
def bankerMaxProcesses : Nat := 8

/-- So much of each kind of resource. -/
abbrev Resources := Fin bankerResourceCount → UInt32

/-- What a call reports. -/
inductive BankerResult where
  | ok
  | errNotReady
  | errNoSlot
  | errNoProcess
  | errOverNeed
  | errOverAvailable
  | errUnsafe
  | errOverAllocated
  deriving DecidableEq

/-- A row of the table. -/
structure BankerProcess where
  used : Bool
  pid : Int
  max : Resources
  allocation : Resources
  need : Resources
  deriving DecidableEq

/-- A row that is not in use. -/
def BankerProcess.empty : BankerProcess :=
  { used := false, pid := 0, max := fun _ => 0, allocation := fun _ => 0, need := fun _ => 0 }

/-- A row that is read before it is written is empty. -/
instance : Inhabited BankerProcess := ⟨.empty⟩

/-- The static variables of the banker. -/
structure Banker where
  ready : Bool
  available : Resources
  processes : FixedArray 8 BankerProcess

/-- `find_slot_by_pid`: the first row in use for a process. -/
def findSlotByPid (pid : Int) (s : Banker) : Option Nat :=
  (List.range bankerMaxProcesses).find? fun i =>
    -- A row that is not in use has a number as well, and does not count.
    (s.processes.get i).used && (s.processes.get i).pid == pid

/-- `find_free_slot`: the first row that is not in use. -/
def findFreeSlot (s : Banker) : Option Nat :=
  (List.range bankerMaxProcesses).find? fun i => !(s.processes.get i).used

/-- `vector_leq`: no more of any kind. -/
def vectorLeq (left right : Resources) : Bool := decide (∀ r, left r ≤ right r)

/-- What `banker_state_is_safe` keeps: the resources at hand, and which rows are finished. -/
structure SafetyScan where
  work : Resources
  finish : FixedArray 8 Bool
  progress : Bool

/-- Look at one row: if what it needs is at hand, it finishes and gives back what it holds. -/
def scanRow (s : Banker) (scan : SafetyScan) (i : Nat) : SafetyScan :=
  let row := s.processes.get i
  -- The rows are looked at in the order of the table, and what one gives back counts at once.
  if row.used && !scan.finish.get i && vectorLeq row.need scan.work then
    { work := fun r => scan.work r + row.allocation r
      finish := scan.finish.set i true
      progress := true }
  else scan

/-- One round of the loop: look at every row in turn. -/
def scanRound (s : Banker) (scan : SafetyScan) : SafetyScan :=
  (List.range bankerMaxProcesses).foldl (scanRow s) { scan with progress := false }

/-- Rounds until one makes no progress, as long as the fuel lasts. -/
def scanRounds (s : Banker) : Nat → SafetyScan → SafetyScan
  | 0, scan => scan
  | fuel + 1, scan =>
    let scan := scanRound s scan
    -- A round without progress is the last one.
    if scan.progress then scanRounds s fuel scan else scan

/-- What the scan starts with. -/
def scanStart (s : Banker) : SafetyScan :=
  -- Rows that are not in use count as finished.
  { work := s.available, finish := .ofFn fun i => !(s.processes.get i).used, progress := true }

/--
`banker_state_is_safe`: whether the scan finishes every row.

Every round but the last finishes a row, so there are no more than nine.
-/
def bankerStateIsSafe (s : Banker) : Bool :=
  let scan := scanRounds s (bankerMaxProcesses + 1) (scanStart s)
  -- The state is safe if no row in use is left over.
  (List.range bankerMaxProcesses).all fun i =>
    !((s.processes.get i).used && !scan.finish.get i)

/-- `banker_init`: so much is there, and nobody has claimed anything. -/
def bankerInit (initialAvailable : Resources) : Banker :=
  { ready := true, available := initialAvailable, processes := .fill .empty }

/-- `banker_register_process`: enter a claim, in the row of the process or in a free one. -/
def bankerRegisterProcess (pid : Int) (max : Resources) (s : Banker) : BankerResult × Banker :=
  -- Before `banker_init` every call is refused.
  if !s.ready then (.errNotReady, s)
  else
    match (findSlotByPid pid s).orElse fun _ => findFreeSlot s with
    -- All rows are in use by other processes.
    | none => (.errNoSlot, s)
    | some slot =>
      -- A process that comes again loses what its row held.
      let row := { used := true, pid := pid, max := max, allocation := fun _ => 0, need := max }
      (.ok, { s with processes := s.processes.set slot row })

/-- `banker_unregister_process`: strike out a claim, and take back what was held. -/
def bankerUnregisterProcess (pid : Int) (s : Banker) : Banker :=
  if !s.ready then s
  else
    match findSlotByPid pid s with
    -- A process that never claimed anything has nothing to give back.
    | none => s
    | some slot =>
      { s with
        -- What the row held is at hand again.
        available := fun r => s.available r + (s.processes.get slot).allocation r
        processes := s.processes.set slot .empty }

/-- The table after so much has gone to a row, checked or not. -/
def Banker.grant (s : Banker) (slot : Nat) (request : Resources) : Banker :=
  -- The differences are those of 32-bit variables.
  let row := s.processes.get slot
  { s with
    available := fun r => s.available r - request r
    processes := s.processes.set slot
      { row with
        allocation := fun r => row.allocation r + request r
        need := fun r => row.need r - request r } }

/-- The table after so much has come back from a row. -/
def Banker.takeBack (s : Banker) (slot : Nat) (release : Resources) : Banker :=
  -- What comes back can be asked for again.
  let row := s.processes.get slot
  { s with
    available := fun r => s.available r + release r
    processes := s.processes.set slot
      { row with
        allocation := fun r => row.allocation r - release r
        need := fun r => row.need r + release r } }

/-- `banker_request`: grant what is asked for, and undo that if it turns out unsafe. -/
def bankerRequest (pid : Int) (request : Resources) (s : Banker) : BankerResult × Banker :=
  if !s.ready then (.errNotReady, s)
  else
    match findSlotByPid pid s with
    -- Only a process with a claim may ask.
    | none => (.errNoProcess, s)
    | some slot =>
      -- The request is measured against the claim, then against what is at hand.
      if !vectorLeq request (s.processes.get slot).need then (.errOverNeed, s)
      else if !vectorLeq request s.available then (.errOverAvailable, s)
      else
        -- The grant is made for real, and the scan looks at the table it leaves.
        let granted := s.grant slot request
        if !bankerStateIsSafe granted then (.errUnsafe, granted.takeBack slot request)
        else (.ok, granted)

/-- `banker_release`: take back part of what a process holds. -/
def bankerRelease (pid : Int) (release : Resources) (s : Banker) : BankerResult × Banker :=
  if !s.ready then (.errNotReady, s)
  else
    match findSlotByPid pid s with
    | none => (.errNoProcess, s)
    | some slot =>
      -- Nothing is taken back that is not held.
      if !vectorLeq release (s.processes.get slot).allocation then (.errOverAllocated, s)
      else (.ok, s.takeBack slot release)

/-- The calls on the banker. -/
inductive BankerCall where
  | register (pid : Int) (max : Resources)
  | unregister (pid : Int)
  | request (pid : Int) (request : Resources)
  | release (pid : Int) (release : Resources)

/-- One call. Striking out a claim reports nothing. -/
def bankerStep (s : Banker) : BankerCall → BankerResult × Banker
  | .register pid max => bankerRegisterProcess pid max s
  | .unregister pid => (.ok, bankerUnregisterProcess pid s)
  | .request pid request => bankerRequest pid request s
  | .release pid release => bankerRelease pid release s

end MyOS.Kernel
