import MyOS.Kernel.BankerLaws
import MyOS.Lib.Bitmap

/-! The banker's check finds an order whenever there is one, and its numbers never wrap around. -/

namespace MyOS.Kernel

open Banker

variable {s : Banker} {T : Resources} {pid : Int} {slot i : Nat} {scan : SafetyScan}

section Complete

/-- How many rows in use the scan has not finished. -/
def openRows (s : Banker) (scan : SafetyScan) : Nat :=
  (List.range bankerMaxProcesses).countP fun i =>
    (s.processes.get i).used && !scan.finish.get i

/-- A row that the scan has finished, or for which there is not enough at hand. -/
def Stuck (s : Banker) (scan : SafetyScan) (i : Nat) : Prop :=
  (s.processes.get i).used = true → scan.finish.get i = false →
    vectorLeq (s.processes.get i).need scan.work = false

/-- Looking at a row finishes it, or finds that it cannot be. -/
theorem scanRow_cases (inside : i < bankerMaxProcesses) :
    (scanRow s scan i = scan ∧ Stuck s scan i) ∨
      ((scanRow s scan i).progress = true ∧
        openRows s scan = openRows s (scanRow s scan i) + 1) := by
  -- The row is skipped, its need is too great, or it finishes.
  unfold scanRow
  simp only
  split
  · next finishes =>
    simp only [Bool.and_eq_true, Bool.not_eq_eq_eq_not, Bool.not_true] at finishes
    obtain ⟨⟨used, unfinished⟩, -⟩ := finishes
    refine Or.inr ⟨rfl, ?_⟩
    unfold openRows
    refine countP_range_raise inside ?_ ?_ fun j small other => ?_
    · rw [FixedArray.get_set_same _ _ (show i < 8 from inside)]
      simp
    · simp [used, unfinished]
    · rw [FixedArray.get_set_ne _ _ other]
  · next not_ =>
    refine Or.inl ⟨rfl, fun used unfinished => ?_⟩
    rw [used, unfinished] at not_
    simpa using not_

/-- Looking at several rows finishes some of them, or none of them can be. -/
theorem scanRows_cases (rows : List Nat) (inside : ∀ i ∈ rows, i < bankerMaxProcesses)
    (scan : SafetyScan) :
    (rows.foldl (scanRow s) scan = scan ∧ ∀ i ∈ rows, Stuck s scan i) ∨
      ((rows.foldl (scanRow s) scan).progress = true ∧
        openRows s (rows.foldl (scanRow s) scan) < openRows s scan) := by
  -- Induction on the rows: once one finishes there is progress.
  induction rows generalizing scan with
  | nil => exact Or.inl ⟨rfl, nofun⟩
  | cons i rest ih =>
    rw [List.foldl_cons]
    have later := ih (fun j member => inside j (List.mem_cons_of_mem _ member)) (scanRow s scan i)
    rcases scanRow_cases (inside i List.mem_cons_self) with ⟨same, stuck⟩ | ⟨progress, fewer⟩
    · rw [same] at later ⊢
      rcases later with ⟨still, others⟩ | finished
      · exact Or.inl ⟨still, List.forall_mem_cons.mpr ⟨stuck, others⟩⟩
      · exact Or.inr finished
    · right
      rcases later with ⟨still, -⟩ | ⟨progress', fewer'⟩
      · rw [still]
        exact ⟨progress, by omega⟩
      · exact ⟨progress', by omega⟩

/-- With a round for every row, and one more, the rounds end where no row can finish. -/
theorem scanRounds_stuck (fuel : Nat) (scan : SafetyScan) (enough : openRows s scan < fuel)
    (inside : i < bankerMaxProcesses) : Stuck s (scanRounds s fuel scan) i := by
  -- Induction on the fuel: a round with progress leaves fewer rows open.
  induction fuel generalizing scan with
  | zero => omega
  | succ fuel ih =>
    unfold scanRounds scanRound
    simp only
    rcases scanRows_cases (s := s) (List.range bankerMaxProcesses)
      (fun j member => List.mem_range.mp member) { scan with progress := false } with
      ⟨same, stuck⟩ | ⟨progress, fewer⟩
    · rw [same]
      exact stuck i (List.mem_range.mpr inside)
    · rw [if_pos progress]
      refine ih _ ?_
      change _ < openRows s scan at fewer
      omega

/-- A table that is safe passes the check. -/
theorem bankerStateIsSafe_complete (balanced : s.Balanced T) (safe : s.Safe) :
    bankerStateIsSafe s = true := by
  -- The scan ends stuck, and along the safe order no row can be the first one left.
  obtain ⟨order, nodup, rows, completes⟩ := safe
  obtain ⟨done, so⟩ := scanRounds_finishing balanced (bankerMaxProcesses + 1) scanStart_finishing
  have few : openRows s (scanStart s) < bankerMaxProcesses + 1 := by
    have bound := List.countP_le_length (l := List.range bankerMaxProcesses)
      (p := fun i => (s.processes.get i).used && !(scanStart s).finish.get i)
    rw [List.length_range] at bound
    exact Nat.lt_succ_of_le bound
  have all : ∀ i ∈ order, i ∈ done := by
    refine fun i member => completes.exhausts nodup so.nodup (fun j member' missing enough => ?_) member
    obtain ⟨inside, used⟩ := (rows j).mp member'
    have unfinished : (scanRounds s (bankerMaxProcesses + 1) (scanStart s)).finish.get j = false := by
      by_contra finished
      exact missing ((so.finished j inside used).mp (Bool.not_eq_false _ ▸ finished))
    have stuck := scanRounds_stuck _ _ few inside used unfinished
    refine Bool.eq_false_iff.mp stuck (vectorLeq_iff.mpr fun r => ?_)
    rw [so.work r]
    exact enough r
  unfold bankerStateIsSafe
  refine List.all_eq_true.mpr fun i member => ?_
  have inside := List.mem_range.mp member
  cases used : (s.processes.get i).used with
  | false => rfl
  | true =>
    rw [(so.finished i inside used).mpr (all i ((rows i).mpr ⟨inside, used⟩))]
    rfl

/-- The check passes exactly the tables that are safe. -/
theorem bankerStateIsSafe_iff (balanced : s.Balanced T) : bankerStateIsSafe s = true ↔ s.Safe :=
  ⟨bankerStateIsSafe_sound balanced, bankerStateIsSafe_complete balanced⟩

end Complete

/-- A table of any kind in which no number is out of proportion. -/
structure Banker.Consistent (s : Banker) : Prop where
  claims : ∀ {i}, i < bankerMaxProcesses → (s.processes.get i).used = true → ∀ r,
    ((s.processes.get i).need r).toNat + ((s.processes.get i).allocation r).toNat =
      ((s.processes.get i).max r).toNat
  bounded : ∀ r, s.total r < 2 ^ 32

/-- Such a table is balanced with as much as there can be of everything. -/
theorem Banker.Consistent.balanced (consistent : s.Consistent) (ready : s.ready = true) :
    s.Balanced fun _ => 0xFFFFFFFF :=
  ⟨ready, fun r => Nat.le_of_lt_succ (consistent.bounded r), consistent.claims⟩

/-- A balanced table is consistent. -/
theorem Banker.Balanced.consistent (balanced : s.Balanced T) : s.Consistent :=
  ⟨balanced.claims, fun r => (balanced.bounded r).trans_lt (T r).toNat_lt⟩

/-- A run leads to a table like that. -/
theorem bankerRun_consistent (T : Resources) (calls : List BankerCall) :
    (runState bankerStep (bankerInit T) calls).Consistent := by
  -- Balance is kept by every call.
  have balanced : (runState bankerStep (bankerInit T) calls).Balanced T :=
    runState_invariant bankerStep (Balanced T)
      (fun _ call (_ : True) balanced => (bankerStep_balanced balanced call).1) (fun _ _ => trivial)
      (bankerInit_balanced T).1
  exact balanced.consistent

section Request

/-- So much has gone from what is available to a row, which needs so much less. -/
structure Moved (s t : Banker) (slot : Nat) (request : Resources) : Prop where
  ready : t.ready = s.ready
  available : ∀ r, (t.available r).toNat = (s.available r).toNat - (request r).toNat
  allocation : ∀ r, ((t.processes.get slot).allocation r).toNat =
    ((s.processes.get slot).allocation r).toNat + (request r).toNat
  need : ∀ r, ((t.processes.get slot).need r).toNat =
    ((s.processes.get slot).need r).toNat - (request r).toNat
  row : (t.processes.get slot).used = (s.processes.get slot).used ∧
    (t.processes.get slot).pid = (s.processes.get slot).pid ∧
    (t.processes.get slot).max = (s.processes.get slot).max
  others : ∀ i, i ≠ slot → t.processes.get i = s.processes.get i

/-- A grant within what is needed and available moves so much. -/
theorem grant_moved (consistent : s.Consistent) (inside : slot < bankerMaxProcesses)
    (used : (s.processes.get slot).used = true) {request : Resources}
    (needed : ∀ r, request r ≤ (s.processes.get slot).need r)
    (enough : ∀ r, request r ≤ s.available r) : Moved s (s.grant slot request) slot request := by
  -- Within its bounds each subtraction and each addition is exact.
  have here : (s.grant slot request).processes.get slot = _ := FixedArray.get_set_same _ _ inside
  refine ⟨rfl, fun r => ?_, fun r => ?_, fun r => ?_, ?_, fun i other => ?_⟩
  · exact UInt32.toNat_sub_of_le _ _ (enough r)
  · rw [here]
    have claim := consistent.claims inside used r
    have part := UInt32.le_iff_toNat_le.mp (needed r)
    have small := ((s.processes.get slot).max r).toNat_lt
    simp only [UInt32.toNat_add]
    omega
  · rw [here]
    exact UInt32.toNat_sub_of_le _ _ (needed r)
  · rw [here]
    exact ⟨rfl, rfl, rfl⟩
  · exact FixedArray.get_set_ne _ _ other

/-- What it takes for a request to be granted. -/
structure Grantable (s : Banker) (pid : Int) (request : Resources) (slot : Nat) : Prop where
  ready : s.ready = true
  row : findSlotByPid pid s = some slot
  needed : ∀ r, request r ≤ (s.processes.get slot).need r
  enough : ∀ r, request r ≤ s.available r
  /-- Everyone can finish once the request is granted. -/
  safe : (s.grant slot request).Safe

/-- An answer to a request, with the table it leaves. -/
structure Decided (s : Banker) (pid : Int) (request : Resources) (answer : BankerResult × Banker) :
    Prop where
  granted : answer.1 = .ok ↔ ∃ slot, Grantable s pid request slot
  /-- What is granted moves from what is available to the row of the process. -/
  moved : ∀ slot, Grantable s pid request slot →
    answer.2 = s.grant slot request ∧ Moved s answer.2 slot request
  /-- Whatever else the answer is, nothing has changed. -/
  kept : answer.1 ≠ .ok → answer.2 = s

/-- A request that cannot be granted may be refused. -/
theorem Decided.refused {request : Resources} (cannot : ∀ slot, ¬ Grantable s pid request slot)
    {result : BankerResult} (other : result ≠ .ok) : Decided s pid request (result, s) :=
  -- There is no slot for which a grant was due.
  ⟨⟨fun granted => absurd granted other, fun ⟨slot, so⟩ => absurd so (cannot slot)⟩,
    fun slot so => absurd so (cannot slot), fun _ => rfl⟩

/-- A request is granted exactly when everyone can still finish then, and else changes nothing. -/
theorem bankerRequest_exact (s : Banker) (consistent : s.Consistent) (pid : Int)
    (request : Resources) : Decided s pid request (bankerRequest pid request s) := by
  unfold bankerRequest
  cases ready : s.ready with
  | false => exact .refused (fun _ so => absurd (ready.symm.trans so.ready) nofun) nofun
  | true =>
    rw [if_neg (by decide)]
    cases row : findSlotByPid pid s with
    | none => exact .refused (fun _ so => absurd (row.symm.trans so.row) nofun) nofun
    | some slot =>
      obtain ⟨inside, used⟩ := findSlotByPid_some row
      have only : ∀ {other}, Grantable s pid request other → other = slot := fun so =>
        Option.some.inj (so.row.symm.trans row)
      simp only
      cases needed : vectorLeq request (s.processes.get slot).need with
      | false =>
        -- More is asked for than was claimed.
        refine .refused (fun other so => ?_) nofun
        obtain rfl := only so
        exact Bool.eq_false_iff.mp needed (decide_eq_true so.needed)
      | true =>
        rw [if_neg (by decide)]
        cases enough : vectorLeq request s.available with
        | false =>
          -- More is asked for than there is.
          exact .refused (fun _ so => Bool.eq_false_iff.mp enough (decide_eq_true so.enough)) nofun
        | true =>
          rw [if_neg (by decide)]
          have moved := grant_moved consistent inside used (of_decide_eq_true needed)
            (of_decide_eq_true enough)
          have balanced := (grant_balanced (consistent.balanced ready) inside used
            (vectorLeq_iff.mp needed) (vectorLeq_iff.mp enough)).2
          have check := bankerStateIsSafe_iff balanced
          cases passes : bankerStateIsSafe (s.grant slot request) with
          | false =>
            -- Someone could not finish, so the grant is undone.
            rw [if_pos (by decide), takeBack_grant inside request]
            refine .refused (fun other so => ?_) nofun
            obtain rfl := only so
            exact Bool.eq_false_iff.mp passes (check.mpr so.safe)
          | true =>
            rw [if_neg (by decide)]
            refine ⟨⟨fun _ => ⟨slot, ready, row, of_decide_eq_true needed, of_decide_eq_true enough,
              check.mp passes⟩, fun _ => rfl⟩, fun other so => ?_, fun not_ => absurd rfl not_⟩
            obtain rfl := only so
            exact ⟨rfl, moved⟩

/-- Of five units three are claimed, of which two are asked for. -/
theorem bankerRequest_exact_claim :
    Decided (runState bankerStep (bankerInit fun _ => 5) [.register 1 fun _ => 3]) 1 (fun _ => 2)
      (bankerRequest 1 (fun _ => 2)
        (runState bankerStep (bankerInit fun _ => 5) [.register 1 fun _ => 3])) :=
  -- The claim was registered on a new banker, so its table is consistent.
  bankerRequest_exact _ (bankerRun_consistent _ _) 1 fun _ => 2

end Request

section GivingBack

/-- Whatever is given back, and whoever leaves, everyone who is left can still finish. -/
theorem giveBack_safe (s : Banker) (consistent : s.Consistent) (safe : s.Safe) (pid : Int)
    (release : Resources) :
    (bankerRelease pid release s).2.Safe ∧ (bankerUnregisterProcess pid s).Safe := by
  -- Without a table nothing happens, with one each call is safe by its own lemma.
  cases ready : s.ready with
  | false =>
    unfold bankerRelease bankerUnregisterProcess
    rw [ready]
    exact ⟨safe, safe⟩
  | true =>
    have balanced := consistent.balanced ready
    exact ⟨@bankerStep_safe _ _ balanced safe (.release pid release) trivial,
      @bankerStep_safe _ _ balanced safe (.unregister pid) trivial⟩

/-- A process that has claimed three units, and holds two, gives one of them back. -/
theorem giveBack_safe_claim :
    (bankerRelease 1 (fun _ => 1) (runState bankerStep (bankerInit fun _ => 5)
      [.register 1 fun _ => 3, .request 1 fun _ => 2])).2.Safe := by
  -- The first row holds two of the five units and may finish at once.
  refine (giveBack_safe _ (bankerRun_consistent _ _) ?_ 1 fun _ => 1).1
  refine ⟨[0], by simp, fun i => ?_, fun r => ?_, trivial⟩
  · by_cases inside : i < 8
    · have rows : ∀ i, i < 8 → (i ∈ [0] ↔ i < bankerMaxProcesses ∧
          ((runState bankerStep (bankerInit fun _ => 5)
            [.register 1 fun _ => 3, .request 1 fun _ => 2]).processes.get i).used = true) := by
        decide +kernel
      exact rows i inside
    · simp only [List.mem_singleton]
      exact ⟨fun zero => absurd zero (by omega), fun both => absurd both.1 inside⟩
  · have enough : ∀ r, (runState bankerStep (bankerInit fun _ => 5)
        [.register 1 fun _ => 3, .request 1 fun _ => 2]).needs 0 r ≤
          (runState bankerStep (bankerInit fun _ => 5)
            [.register 1 fun _ => 3, .request 1 fun _ => 2]).atHand r := by
      decide +kernel
    exact enough r

end GivingBack

section Arithmetic

/-- Sums of numbers of 32 bits, where none of them wraps around. -/
def addExact (left right : Resources) : Option Resources :=
  if ∀ r, (left r).toNat + (right r).toNat < 2 ^ 32 then some fun r => left r + right r else none

/-- Differences of numbers of 32 bits, where none of them wraps around. -/
def subExact (left right : Resources) : Option Resources :=
  if ∀ r, (right r).toNat ≤ (left r).toNat then some fun r => left r - right r else none

/-- `scanRow`, stopping at a number that wraps around. -/
def scanRowExact (s : Banker) (scan : SafetyScan) (i : Nat) : Option SafetyScan :=
  let row := s.processes.get i
  if row.used && !scan.finish.get i && vectorLeq row.need scan.work then
    (addExact scan.work row.allocation).map fun work =>
      { work := work, finish := scan.finish.set i true, progress := true }
  else some scan

/-- `scanRounds`, stopping at a number that wraps around. -/
def scanRoundsExact (s : Banker) : Nat → SafetyScan → Option SafetyScan
  | 0, scan => some scan
  | fuel + 1, scan => do
    let scan ← (List.range bankerMaxProcesses).foldlM (scanRowExact s) { scan with progress := false }
    if scan.progress then scanRoundsExact s fuel scan else some scan

/-- `bankerStateIsSafe`, stopping at a number that wraps around. -/
def bankerStateIsSafeExact (s : Banker) : Option Bool :=
  (scanRoundsExact s (bankerMaxProcesses + 1) (scanStart s)).map fun scan =>
    (List.range bankerMaxProcesses).all fun i =>
      !((s.processes.get i).used && !scan.finish.get i)

/-- `grant`, stopping at a number that wraps around. -/
def Banker.grantExact (s : Banker) (slot : Nat) (request : Resources) : Option Banker := do
  let row := s.processes.get slot
  let available ← subExact s.available request
  let allocation ← addExact row.allocation request
  let need ← subExact row.need request
  some { s with available, processes := s.processes.set slot { row with allocation, need } }

/-- `takeBack`, stopping at a number that wraps around. -/
def Banker.takeBackExact (s : Banker) (slot : Nat) (release : Resources) : Option Banker := do
  let row := s.processes.get slot
  let available ← addExact s.available release
  let allocation ← subExact row.allocation release
  let need ← addExact row.need release
  some { s with available, processes := s.processes.set slot { row with allocation, need } }

/-- One call, stopping at a number that wraps around. -/
def bankerStepExact (s : Banker) : BankerCall → Option (BankerResult × Banker)
  | .register pid max => some (bankerRegisterProcess pid max s)
  | .unregister pid =>
    if !s.ready then some (.ok, s)
    else
      match findSlotByPid pid s with
      | none => some (.ok, s)
      | some slot =>
        (addExact s.available (s.processes.get slot).allocation).map fun available =>
          (.ok, { s with available, processes := s.processes.set slot .empty })
  | .request pid request =>
    if !s.ready then some (.errNotReady, s)
    else
      match findSlotByPid pid s with
      | none => some (.errNoProcess, s)
      | some slot =>
        if !vectorLeq request (s.processes.get slot).need then some (.errOverNeed, s)
        else if !vectorLeq request s.available then some (.errOverAvailable, s)
        else do
          let granted ← s.grantExact slot request
          let safe ← bankerStateIsSafeExact granted
          if !safe then (granted.takeBackExact slot request).map fun s => (.errUnsafe, s)
          else some (.ok, granted)
  | .release pid release =>
    if !s.ready then some (.errNotReady, s)
    else
      match findSlotByPid pid s with
      | none => some (.errNoProcess, s)
      | some slot =>
        if !vectorLeq release (s.processes.get slot).allocation then some (.errOverAllocated, s)
        else (s.takeBackExact slot release).map fun s => (.ok, s)

/-- A sum that fits is the sum of the words. -/
theorem addExact_eq {left right : Resources}
    (fits : ∀ r, (left r).toNat + (right r).toNat < 2 ^ 32) :
    addExact left right = some fun r => left r + right r :=
  -- The guard holds.
  if_pos fits

/-- A difference within bounds is the difference of the words. -/
theorem subExact_eq {left right : Resources} (within : ∀ r, (right r).toNat ≤ (left r).toNat) :
    subExact left right = some fun r => left r - right r :=
  if_pos within

/-- Looking at a row adds what it holds to what is at hand without wrapping around. -/
theorem scanRowExact_eq (balanced : s.Balanced T) {done : List Nat} (so : Finishing s scan done)
    (inside : i < bankerMaxProcesses) : scanRowExact s scan i = some (scanRow s scan i) := by
  -- What the row gives back fits beside what is at hand.
  unfold scanRowExact scanRow
  simp only
  split
  · next finishes =>
    simp only [Bool.and_eq_true, Bool.not_eq_eq_eq_not, Bool.not_true] at finishes
    obtain ⟨⟨used, unfinished⟩, -⟩ := finishes
    rw [addExact_eq (so.room balanced inside used unfinished)]
    rfl
  · rfl

/-- So does looking at several rows. -/
theorem scanRowsExact_eq (balanced : s.Balanced T) (rows : List Nat)
    (inside : ∀ i ∈ rows, i < bankerMaxProcesses) {done : List Nat} (so : Finishing s scan done) :
    rows.foldlM (scanRowExact s) scan = some (rows.foldl (scanRow s) scan) := by
  -- Induction on the rows.
  induction rows generalizing scan done with
  | nil => rfl
  | cons i rest ih =>
    have here := inside i List.mem_cons_self
    obtain ⟨next, soNext⟩ := scanRow_finishing balanced so here
    rw [List.foldlM_cons, scanRowExact_eq balanced so here, List.foldl_cons]
    exact ih (fun j member => inside j (List.mem_cons_of_mem _ member)) soNext

/-- So do any number of rounds. -/
theorem scanRoundsExact_eq (balanced : s.Balanced T) (fuel : Nat) {done : List Nat}
    (so : Finishing s scan done) : scanRoundsExact s fuel scan = some (scanRounds s fuel scan) := by
  -- Induction on the rounds.
  induction fuel generalizing scan done with
  | zero => rfl
  | succ fuel ih =>
    have reset : Finishing s { scan with progress := false } done :=
      ⟨so.nodup, so.rows, so.finished, so.completes, so.work⟩
    have rows : ∀ i ∈ List.range bankerMaxProcesses, i < bankerMaxProcesses :=
      fun i member => List.mem_range.mp member
    obtain ⟨next, soNext⟩ := scanRows_finishing balanced _ rows reset
    unfold scanRoundsExact scanRounds scanRound
    rw [scanRowsExact_eq balanced _ rows reset]
    simp only [Option.bind_eq_bind, Option.bind_some]
    split
    · exact ih soNext
    · rfl

/-- So does the check. -/
theorem bankerStateIsSafeExact_eq (balanced : s.Balanced T) :
    bankerStateIsSafeExact s = some (bankerStateIsSafe s) := by
  -- The rounds of both are the same.
  unfold bankerStateIsSafeExact bankerStateIsSafe
  rw [scanRoundsExact_eq balanced _ scanStart_finishing]
  rfl

/-- A grant within what is needed and available does not wrap around. -/
theorem grantExact_eq (balanced : s.Balanced T) (inside : slot < bankerMaxProcesses)
    (used : (s.processes.get slot).used = true) {request : Resources}
    (needed : ∀ r, (request r).toNat ≤ ((s.processes.get slot).need r).toNat)
    (enough : ∀ r, (request r).toNat ≤ (s.available r).toNat) :
    s.grantExact slot request = some (s.grant slot request) := by
  -- The sum is within the claim, the differences are within what is needed and available.
  have fits : ∀ r, ((s.processes.get slot).allocation r).toNat + (request r).toNat < 2 ^ 32 := by
    intro r
    have claim := balanced.claims inside used r
    have part := needed r
    have small := ((s.processes.get slot).max r).toNat_lt
    omega
  simp only [Banker.grantExact, subExact_eq enough, addExact_eq fits, subExact_eq needed]
  rfl

/-- Taking back part of what a row holds does not wrap around. -/
theorem takeBackExact_eq (balanced : s.Balanced T) (inside : slot < bankerMaxProcesses)
    (used : (s.processes.get slot).used = true) {release : Resources}
    (enough : ∀ r, (release r).toNat ≤ ((s.processes.get slot).allocation r).toNat) :
    s.takeBackExact slot release = some (s.takeBack slot release) := by
  -- The sum is within the claim, the difference within what the row holds.
  have fits : ∀ r, ((s.processes.get slot).need r).toNat + (release r).toNat < 2 ^ 32 := by
    intro r
    have claim := balanced.claims inside used r
    have part := enough r
    have small := ((s.processes.get slot).max r).toNat_lt
    omega
  have together : ∀ r, (s.available r).toNat + (release r).toNat < 2 ^ 32 := by
    intro r
    have noWrap := balanced.available_add inside used r
    have part := enough r
    omega
  simp only [Banker.takeBackExact, addExact_eq together, subExact_eq enough, addExact_eq fits]
  rfl

/-- No number wraps around in a call on a balanced table. -/
theorem bankerStepExact_eq (balanced : s.Balanced T) (call : BankerCall) :
    bankerStepExact s call = some (bankerStep s call) := by
  have started : ¬ (!s.ready) = true := by simp [balanced.ready]
  cases call with
  | register pid max => rfl
  | unregister pid =>
    simp only [bankerStepExact, bankerStep, bankerUnregisterProcess, if_neg started]
    cases row : findSlotByPid pid s with
    | none => rfl
    | some slot =>
      obtain ⟨inside, used⟩ := findSlotByPid_some row
      simp only [addExact_eq (balanced.available_add inside used)]
      rfl
  | request pid request =>
    simp only [bankerStepExact, bankerStep, bankerRequest, if_neg started]
    cases row : findSlotByPid pid s with
    | none => rfl
    | some slot =>
      obtain ⟨inside, used⟩ := findSlotByPid_some row
      simp only
      cases needed_ : vectorLeq request (s.processes.get slot).need with
      | false => rfl
      | true =>
        cases enough_ : vectorLeq request s.available with
        | false => rfl
        | true =>
          have needed := vectorLeq_iff.mp needed_
          have enough := vectorLeq_iff.mp enough_
          have after := (grant_balanced balanced inside used needed enough).2
          have moved : (s.grant slot request).processes.get slot = _ :=
            FixedArray.get_set_same _ _ inside
          -- What was granted is there to be taken back.
          have back : (s.grant slot request).takeBackExact slot request =
              some ((s.grant slot request).takeBack slot request) := by
            refine takeBackExact_eq after inside (by rw [moved]; exact used) fun r => ?_
            rw [moved]
            have claim := balanced.claims inside used r
            have part := needed r
            have small := ((s.processes.get slot).max r).toNat_lt
            simp only [UInt32.toNat_add]
            omega
          simp only [Bool.not_true, Bool.false_eq_true, if_false,
            grantExact_eq balanced inside used needed enough, Option.bind_eq_bind, Option.bind_some,
            bankerStateIsSafeExact_eq after, back]
          cases bankerStateIsSafe (s.grant slot request) <;> rfl
  | release pid release =>
    simp only [bankerStepExact, bankerStep, bankerRelease, if_neg started]
    cases row : findSlotByPid pid s with
    | none => rfl
    | some slot =>
      obtain ⟨inside, used⟩ := findSlotByPid_some row
      simp only
      cases enough : vectorLeq release (s.processes.get slot).allocation with
      | false => rfl
      | true =>
        simp only [takeBackExact_eq balanced inside used (vectorLeq_iff.mp enough)]
        rfl

end Arithmetic

section Runs

/-- No process has two rows. -/
def Banker.Distinct (s : Banker) : Prop :=
  ∀ i j, i < bankerMaxProcesses → j < bankerMaxProcesses → (s.processes.get i).used = true →
    (s.processes.get j).used = true → (s.processes.get i).pid = (s.processes.get j).pid → i = j

/-- The row found for a process bears its number. -/
theorem findSlotByPid_pid (found : findSlotByPid pid s = some slot) :
    (s.processes.get slot).pid = pid := by
  -- The search compares the numbers.
  have holds := List.find?_some found
  simp only [Bool.and_eq_true, beq_iff_eq] at holds
  exact holds.2

/-- Without a row for it no row bears its number. -/
theorem findSlotByPid_none (missing : findSlotByPid pid s = none) (inside : i < bankerMaxProcesses)
    (used : (s.processes.get i).used = true) : (s.processes.get i).pid ≠ pid := by
  -- The search went over every row.
  have absent := List.find?_eq_none.mp missing i (List.mem_range.mpr inside)
  simpa [used] using absent

/-- A row that is replaced by one for a process without another row, or for none. -/
theorem Banker.Distinct.replace (distinct : s.Distinct) (inside : slot < bankerMaxProcesses)
    {row : BankerProcess} {available : Resources}
    (alone : row.used = true → ∀ i, i < bankerMaxProcesses → i ≠ slot →
      (s.processes.get i).used = true → (s.processes.get i).pid ≠ row.pid) :
    (s.replace slot row available).Distinct := by
  -- A pair of rows that are not the one replaced is as before.
  intro i j small small' used used' same
  by_cases here : i = slot <;> by_cases here' : j = slot
  · rw [here, here']
  · rw [here, replace_same inside] at used same
    rw [replace_other here'] at used' same
    exact absurd same.symm (alone used j small' here' used')
  · rw [here', replace_same inside] at used' same
    rw [replace_other here] at used same
    exact absurd same (alone used' i small here used)
  · rw [replace_other here] at used same
    rw [replace_other here'] at used' same
    exact distinct i j small small' used used' same

/-- No call gives a process a second row. -/
theorem bankerStep_distinct (ready : s.ready = true) (distinct : s.Distinct) (call : BankerCall) :
    (bankerStep s call).2.Distinct := by
  -- A row keeps its process while resources move.
  have same : ∀ {slot pid}, findSlotByPid pid s = some slot → ∀ i, i < bankerMaxProcesses → i ≠ slot →
      (s.processes.get i).used = true → (s.processes.get i).pid ≠ (s.processes.get slot).pid := by
    intro slot pid row i small other used equal
    obtain ⟨inside, usedRow⟩ := findSlotByPid_some row
    exact other (distinct i slot small inside used usedRow equal)
  have moves := bankerStep_moves ready call
  generalize (bankerStep s call).2 = t at moves
  cases moves with
  | refused => exact distinct
  | @registered pid max slot row =>
    refine distinct.replace (rowFor_some row) fun _ i small other used => ?_
    unfold rowFor at row
    cases found : findSlotByPid pid s with
    | none => exact findSlotByPid_none found small used
    | some there =>
      rw [found] at row
      cases row
      have apart := same found i small other used
      rwa [findSlotByPid_pid found] at apart
  | struckOut row => exact distinct.replace (findSlotByPid_some row).1 nofun
  | granted row needed enough safe =>
    exact distinct.replace (findSlotByPid_some row).1 fun _ => same row
  | takenBack row enough =>
    exact distinct.replace (findSlotByPid_some row).1 fun _ => same row

/-- What is true of the numbers of the banker wherever a run has led. -/
structure Banker.Exact (T : Resources) (s : Banker) : Prop where
  distinct : s.Distinct
  claims : ∀ i, i < bankerMaxProcesses → (s.processes.get i).used = true → ∀ r,
    ((s.processes.get i).need r).toNat + ((s.processes.get i).allocation r).toNat =
      ((s.processes.get i).max r).toNat
  bounded : ∀ r, (s.available r).toNat + ∑ i ∈ Finset.range bankerMaxProcesses, s.holdings i r ≤
    (T r).toNat
  /-- Whatever is called next, no sum and no difference wraps around. -/
  exact_ : ∀ call, bankerStepExact s call = some (bankerStep s call)

/-- The numbers of the banker are those of arithmetic all along every run. -/
theorem bankerRun_exact (T : Resources) (calls : List BankerCall) :
    (runState bankerStep (bankerInit T) calls).Exact T := by
  -- Distinct rows and balance are kept together by every call.
  have start : (bankerInit T).Distinct := by
    intro i j inside _ used
    rw [bankerInit, FixedArray.get_fill _ (show i < 8 from inside)] at used
    cases used
  have both : (runState bankerStep (bankerInit T) calls).Balanced T ∧
      (runState bankerStep (bankerInit T) calls).Distinct :=
    runState_invariant bankerStep (fun s => s.Balanced T ∧ s.Distinct)
      (fun s call (_ : True) both => ⟨(bankerStep_balanced both.1 call).1,
        bankerStep_distinct both.1.ready both.2 call⟩) (fun _ _ => trivial)
      ⟨(bankerInit_balanced T).1, start⟩
  obtain ⟨balanced, distinct⟩ := both
  exact ⟨distinct, fun _ => balanced.claims, balanced.bounded, bankerStepExact_eq balanced⟩

end Runs

end MyOS.Kernel
