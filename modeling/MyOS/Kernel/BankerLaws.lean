import MyOS.Kernel.Banker
import MyOS.Lib.Run
import MyOS.Lib.SafeOrder
import Mathlib.Algebra.BigOperators.Pi
import Mathlib.Algebra.Order.Pi

/-! What the banker keeps: the resources there are, and an order in which everyone can finish. -/

namespace MyOS.Kernel

namespace Banker

/-- What is available, as numbers. -/
def atHand (s : Banker) : Fin bankerResourceCount → Nat := fun r => (s.available r).toNat

/-- What a row holds. A row that is not in use holds nothing. -/
def holdings (s : Banker) (i : Nat) : Fin bankerResourceCount → Nat := fun r =>
  if (s.processes.get i).used then ((s.processes.get i).allocation r).toNat else 0

/-- What a row may still ask for. -/
def needs (s : Banker) (i : Nat) : Fin bankerResourceCount → Nat := fun r =>
  ((s.processes.get i).need r).toNat

/-- All there is of a kind of resource: what is available, and what the rows in use hold. -/
def total (s : Banker) (r : Fin bankerResourceCount) : Nat :=
  (s.available r).toNat + ∑ i ∈ Finset.range bankerMaxProcesses, s.holdings i r

/-- There is an order in which all rows in use can finish. -/
def Safe (s : Banker) : Prop :=
  ∃ order : List Nat, order.Nodup ∧
    (∀ i, i ∈ order ↔ i < bankerMaxProcesses ∧ (s.processes.get i).used = true) ∧
    Completes s.needs s.holdings s.atHand order

/-- No row holds or needs what was never there, so that no sum wraps around. -/
structure Balanced (T : Resources) (s : Banker) : Prop where
  ready : s.ready = true
  bounded : ∀ r, s.total r ≤ (T r).toNat
  claims : ∀ {i}, i < bankerMaxProcesses → (s.processes.get i).used = true → ∀ r,
    ((s.processes.get i).need r).toNat + ((s.processes.get i).allocation r).toNat =
      ((s.processes.get i).max r).toNat

end Banker

open Banker

variable {s : Banker} {T : Resources} {pid : Int} {slot i : Nat}

/-- The row of a process is one in use. -/
theorem findSlotByPid_some (found : findSlotByPid pid s = some slot) :
    slot < bankerMaxProcesses ∧ (s.processes.get slot).used = true := by
  -- The search looks for a row in use below the end.
  have member := List.mem_of_find?_eq_some found
  have holds := List.find?_some found
  simp only [Bool.and_eq_true] at holds
  exact ⟨List.mem_range.mp member, holds.1⟩

/-- The row found for a new process is a free one. -/
theorem findFreeSlot_some (found : findFreeSlot s = some slot) :
    slot < bankerMaxProcesses ∧ (s.processes.get slot).used = false := by
  -- The search looks for a free row below the end.
  have member := List.mem_of_find?_eq_some found
  have holds := List.find?_some found
  simp only [Bool.not_eq_eq_eq_not, Bool.not_true] at holds
  exact ⟨List.mem_range.mp member, holds⟩

/-- One vector is within another if it is so for every resource. -/
theorem vectorLeq_iff {left right : Resources} :
    vectorLeq left right = true ↔ ∀ r, (left r).toNat ≤ (right r).toNat := by
  simp [vectorLeq, UInt32.le_iff_toNat_le]

/-- The table with one row replaced and other resources available. -/
def Banker.replace (s : Banker) (slot : Nat) (row : BankerProcess) (available : Resources) :
    Banker :=
  { s with available := available, processes := s.processes.set slot row }

section Replace

variable {row : BankerProcess} {available : Resources}

/-- The row replaced is the new one. -/
theorem replace_same (inside : slot < bankerMaxProcesses) :
    (s.replace slot row available).processes.get slot = row :=
  FixedArray.get_set_same _ _ inside

/-- The other rows are as before. -/
theorem replace_other (apart : i ≠ slot) :
    (s.replace slot row available).processes.get i = s.processes.get i :=
  FixedArray.get_set_ne _ _ apart

/-- They hold as much. -/
theorem holdings_other (apart : i ≠ slot) :
    (s.replace slot row available).holdings i = s.holdings i := by
  -- The row is the same.
  unfold holdings
  rw [replace_other apart]

/-- They need as much. -/
theorem needs_other (apart : i ≠ slot) :
    (s.replace slot row available).needs i = s.needs i := by
  -- The row is the same.
  unfold needs
  rw [replace_other apart]

/-- What replacing a row adds to or takes from all there is. -/
theorem total_replace (inside : slot < bankerMaxProcesses) (r : Fin bankerResourceCount) :
    (s.replace slot row available).total r + ((s.available r).toNat + s.holdings slot r) =
      s.total r +
        ((available r).toNat + (s.replace slot row available).holdings slot r) := by
  -- Of the sum over the rows only one summand changes.
  have moved := @sum_replaced Nat Nat _ _ (Finset.range bankerMaxProcesses)
    (fun i => s.holdings i r) (fun i => (s.replace slot row available).holdings i r) slot
    (Finset.mem_range.mpr inside) fun i _ apart => congrFun (holdings_other apart) r
  unfold total
  change (available r).toNat + _ + _ = _
  omega

/-- Rows other than the one replaced keep their claims. -/
theorem Banker.Balanced.replace (balanced : s.Balanced T) (inside : slot < bankerMaxProcesses)
    (bounded : ∀ r, (s.replace slot row available).total r ≤ (T r).toNat)
    (claims : row.used = true → ∀ r,
      (row.need r).toNat + (row.allocation r).toNat = (row.max r).toNat) :
    (s.replace slot row available).Balanced T := by
  -- The bound and the claim of the replaced row are assumed.
  refine ⟨balanced.ready, bounded, fun {i} small used => ?_⟩
  by_cases same : i = slot
  · subst same
    rw [replace_same inside] at used ⊢
    exact claims used
  · rw [replace_other same] at used ⊢
    exact balanced.claims small used

end Replace

/-- A row and what is available hold together at most all there is. -/
theorem available_add_holdings_le (inside : slot < bankerMaxProcesses)
    (r : Fin bankerResourceCount) :
    (s.available r).toNat + s.holdings slot r ≤ s.total r := by
  -- A summand is no more than the sum.
  have part := Finset.single_le_sum (f := fun i => s.holdings i r) (fun _ _ => Nat.zero_le _)
    (Finset.mem_range.mpr inside)
  unfold total
  omega

/-- The claim a registration enters. -/
def claimRow (pid : Int) (max : Resources) : BankerProcess :=
  { used := true, pid := pid, max := max, allocation := fun _ => 0, need := max }

/-- The row a registration goes to. -/
def rowFor (pid : Int) (s : Banker) : Option Nat :=
  (findSlotByPid pid s).orElse fun _ => findFreeSlot s

/-- What a call can do to the table. -/
inductive BankerMoves (s : Banker) : BankerCall → Banker → Prop where
  /-- The call was refused, or there was nothing to do. -/
  | refused {call : BankerCall} (row : ∀ pid max, call = .register pid max → rowFor pid s = none) :
    BankerMoves s call s
  | registered {pid : Int} {max : Resources} {slot : Nat} (row : rowFor pid s = some slot) :
    BankerMoves s (.register pid max) (s.replace slot (claimRow pid max) s.available)
  | struckOut {pid : Int} {slot : Nat} (row : findSlotByPid pid s = some slot) :
    BankerMoves s (.unregister pid)
      (s.replace slot .empty fun r => s.available r + (s.processes.get slot).allocation r)
  | granted {pid : Int} {request : Resources} {slot : Nat} (row : findSlotByPid pid s = some slot)
    (needed : ∀ r, (request r).toNat ≤ ((s.processes.get slot).need r).toNat)
    (enough : ∀ r, (request r).toNat ≤ (s.available r).toNat)
    (safe : bankerStateIsSafe (s.grant slot request) = true) :
    BankerMoves s (.request pid request) (s.grant slot request)
  | takenBack {pid : Int} {release : Resources} {slot : Nat} (row : findSlotByPid pid s = some slot)
    (enough : ∀ r, (release r).toNat ≤ ((s.processes.get slot).allocation r).toNat) :
    BankerMoves s (.release pid release) (s.takeBack slot release)

/-- The row of a registration is in the table. -/
theorem rowFor_some (found : rowFor pid s = some slot) : slot < bankerMaxProcesses := by
  -- It is the row of the process, or a free one.
  unfold rowFor at found
  cases row : findSlotByPid pid s with
  | none =>
    rw [row] at found
    exact (findFreeSlot_some found).1
  | some other =>
    rw [row] at found
    cases found
    exact (findSlotByPid_some row).1

/-- Resources that move between a row and what is available stay as many. -/
theorem Banker.Balanced.moved (balanced : s.Balanced T) (inside : slot < bankerMaxProcesses)
    (used : (s.processes.get slot).used = true) {row : BankerProcess} {available : Resources}
    (usedAfter : row.used = true)
    (sum : ∀ r, (available r).toNat + (row.allocation r).toNat =
      (s.available r).toNat + ((s.processes.get slot).allocation r).toNat)
    (claims : ∀ r, (row.need r).toNat + (row.allocation r).toNat = (row.max r).toNat) :
    (s.replace slot row available).total = s.total ∧
      (s.replace slot row available).Balanced T := by
  -- What the row gains is what is no longer available.
  have totals : ∀ r, (s.replace slot row available).total r = s.total r := by
    intro r
    have moved := @total_replace s slot row available inside r
    have both := sum r
    unfold holdings at moved
    rw [if_pos used, replace_same inside, if_pos usedAfter] at moved
    omega
  exact ⟨funext totals, balanced.replace inside
    (fun r => (totals r).le.trans (balanced.bounded r)) fun _ => claims⟩

/-- What a row in use holds is within all there is, and so does not wrap around when added. -/
theorem Banker.Balanced.available_add (balanced : s.Balanced T) (inside : slot < bankerMaxProcesses)
    (used : (s.processes.get slot).used = true) (r : Fin bankerResourceCount) :
    (s.available r).toNat + ((s.processes.get slot).allocation r).toNat < 2 ^ 32 := by
  -- Both together are within the total, which fits a word.
  have here := available_add_holdings_le (s := s) inside r
  unfold holdings at here
  rw [if_pos used] at here
  exact (here.trans (balanced.bounded r)).trans_lt (T r).toNat_lt

/-- Taking resources back moves them from a row to what is available. -/
theorem takeBack_balanced (balanced : s.Balanced T) (inside : slot < bankerMaxProcesses)
    (used : (s.processes.get slot).used = true) {release : Resources}
    (enough : ∀ r, (release r).toNat ≤ ((s.processes.get slot).allocation r).toNat) :
    (s.takeBack slot release).total = s.total ∧ (s.takeBack slot release).Balanced T := by
  -- What is taken back is within what is held, so both sides are exact.
  have taken : ∀ r, ((s.processes.get slot).allocation r - release r).toNat =
      ((s.processes.get slot).allocation r).toNat - (release r).toNat := fun r =>
    UInt32.toNat_sub_of_le _ _ (UInt32.le_iff_toNat_le.mpr (enough r))
  refine balanced.moved inside used (by exact used) (fun r => ?_) fun r => ?_
  · have noWrap := balanced.available_add inside used r
    have part := enough r
    simp only [taken, UInt32.toNat_add]
    omega
  · have claim := balanced.claims inside used r
    have part := enough r
    have small := ((s.processes.get slot).max r).toNat_lt
    simp only [taken, UInt32.toNat_add]
    omega

/-- Granting resources moves them from what is available to a row. -/
theorem grant_balanced (balanced : s.Balanced T) (inside : slot < bankerMaxProcesses)
    (used : (s.processes.get slot).used = true) {request : Resources}
    (needed : ∀ r, (request r).toNat ≤ ((s.processes.get slot).need r).toNat)
    (enough : ∀ r, (request r).toNat ≤ (s.available r).toNat) :
    (s.grant slot request).total = s.total ∧ (s.grant slot request).Balanced T := by
  -- The request is within what is needed and available, so both sides are exact.
  have left : ∀ r, (s.available r - request r).toNat =
      (s.available r).toNat - (request r).toNat := fun r =>
    UInt32.toNat_sub_of_le _ _ (UInt32.le_iff_toNat_le.mpr (enough r))
  have open_ : ∀ r, ((s.processes.get slot).need r - request r).toNat =
      ((s.processes.get slot).need r).toNat - (request r).toNat := fun r =>
    UInt32.toNat_sub_of_le _ _ (UInt32.le_iff_toNat_le.mpr (needed r))
  refine balanced.moved inside used (by exact used) (fun r => ?_) fun r => ?_
  · have noWrap := balanced.available_add inside used r
    have part := enough r
    simp only [left, UInt32.toNat_add]
    omega
  · have claim := balanced.claims inside used r
    have part := needed r
    have small := ((s.processes.get slot).max r).toNat_lt
    simp only [open_, UInt32.toNat_add]
    omega

/-- A grant that is undone leaves no trace. -/
theorem takeBack_grant (inside : slot < bankerMaxProcesses) (request : Resources) :
    (s.grant slot request).takeBack slot request = s := by
  -- Adding and subtracting the same word gives the word back.
  have row : (s.grant slot request).processes.get slot = _ := FixedArray.get_set_same _ _ inside
  unfold Banker.takeBack
  rw [row]
  simp only [Banker.grant, UInt32.sub_add_cancel, UInt32.add_sub_cancel, FixedArray.set_set]
  rw [FixedArray.set_get]

/-- Striking a row out makes what it held available. -/
theorem strikeOut_balanced (balanced : s.Balanced T) (inside : slot < bankerMaxProcesses)
    (used : (s.processes.get slot).used = true) :
    (s.replace slot .empty fun r => s.available r + (s.processes.get slot).allocation r).total =
        s.total ∧
      (s.replace slot .empty fun r =>
        s.available r + (s.processes.get slot).allocation r).Balanced T := by
  -- What the row held is added to what is available, and an empty row holds nothing.
  have totals : ∀ r, (s.replace slot .empty fun r =>
      s.available r + (s.processes.get slot).allocation r).total r = s.total r := by
    intro r
    have moved := @total_replace s slot .empty
      (fun r => s.available r + (s.processes.get slot).allocation r) inside r
    have noWrap := balanced.available_add inside used r
    unfold holdings at moved
    rw [if_pos used, replace_same inside, if_neg (by decide), UInt32.toNat_add] at moved
    omega
  exact ⟨funext totals, balanced.replace inside
    (fun r => (totals r).le.trans (balanced.bounded r)) nofun⟩

/-- The calls that register a process anew while it holds something. -/
def Forfeits (s : Banker) : BankerCall → Prop
  | .register pid _ => ∃ slot, findSlotByPid pid s = some slot ∧
      ∃ r, (s.processes.get slot).allocation r ≠ 0
  | _ => False

/-- What the row of a registration held. -/
theorem rowFor_holdings (found : rowFor pid s = some slot) (max : Resources) :
    (∃ r, s.holdings slot r ≠ 0) ↔ Forfeits s (.register pid max) := by
  -- The row found is that of the process, or a free one, which holds nothing.
  unfold rowFor at found
  unfold Forfeits holdings
  cases row : findSlotByPid pid s with
  | none =>
    rw [row] at found
    simp [(findFreeSlot_some found).2, row]
  | some other =>
    rw [row] at found
    cases found
    simp [(findSlotByPid_some row).2, row, ← UInt32.toNat_inj]

/-- Every call does one of these things. -/
theorem bankerStep_moves (ready : s.ready = true) (call : BankerCall) :
    BankerMoves s call (bankerStep s call).2 := by
  have started : ¬ (!s.ready) = true := by simp [ready]
  cases call with
  | register pid max =>
    simp only [bankerStep, bankerRegisterProcess, if_neg started]
    split
    · next full => exact .refused fun _ _ same => by cases same; exact full
    · next slot row => exact .registered row
  | unregister pid =>
    simp only [bankerStep, bankerUnregisterProcess, if_neg started]
    split
    · exact .refused nofun
    · next slot row => exact .struckOut row
  | request pid request =>
    simp only [bankerStep, bankerRequest, if_neg started]
    split
    · exact .refused nofun
    · next slot row =>
      split
      · exact .refused nofun
      · next needed =>
        split
        · exact .refused nofun
        · next enough =>
          split
          · -- Undone, the grant has changed nothing.
            simp only [takeBack_grant (findSlotByPid_some row).1]
            exact .refused nofun
          · next safe =>
            simp only [Bool.not_eq_eq_eq_not, Bool.not_true, Bool.not_eq_false] at needed enough safe
            exact .granted row (vectorLeq_iff.mp needed) (vectorLeq_iff.mp enough) safe
  | release pid release =>
    simp only [bankerStep, bankerRelease, if_neg started]
    split
    · exact .refused nofun
    · next slot row =>
      split
      · exact .refused nofun
      · next enough =>
        simp only [Bool.not_eq_eq_eq_not, Bool.not_true, Bool.not_eq_false] at enough
        exact .takenBack row (vectorLeq_iff.mp enough)

/-- A registration loses what its row held, and is otherwise as good as before. -/
theorem register_balanced (balanced : s.Balanced T) (row : rowFor pid s = some slot)
    (max : Resources) :
    (s.replace slot (claimRow pid max) s.available).Balanced T ∧
      ∀ r, (s.replace slot (claimRow pid max) s.available).total r + s.holdings slot r =
        s.total r := by
  -- The new row holds nothing and claims `max`.
  have inside := rowFor_some row
  have lost : ∀ r, (s.replace slot (claimRow pid max) s.available).total r + s.holdings slot r =
      s.total r := by
    intro r
    have moved := @total_replace s slot (claimRow pid max) s.available inside r
    have nothing : (s.replace slot (claimRow pid max) s.available).holdings slot r = 0 := by
      unfold holdings
      rw [replace_same inside]
      rfl
    omega
  refine ⟨balanced.replace inside (fun r => ?_) fun _ r => Nat.add_zero _, lost⟩
  exact (Nat.le_of_add_right_le (lost r).le).trans (balanced.bounded r)

/-- Every call keeps the table balanced, and all there is, unless it forfeits something. -/
theorem bankerStep_balanced (balanced : s.Balanced T) (call : BankerCall) :
    (bankerStep s call).2.Balanced T ∧
      ((bankerStep s call).2.total = s.total ↔ ¬ Forfeits s call) := by
  have moves := bankerStep_moves balanced.ready call
  generalize (bankerStep s call).2 = t at moves
  cases moves with
  | refused row =>
    refine ⟨balanced, iff_of_true rfl ?_⟩
    cases call with
    | register pid max =>
      -- There is not even a row for the process.
      rintro ⟨slot, found, -⟩
      have none_ := row pid max rfl
      rw [rowFor, found] at none_
      cases none_
    | _ => exact id
  | @registered pid max slot row =>
    obtain ⟨after, lost⟩ := register_balanced balanced row max
    refine ⟨after, ?_⟩
    rw [← rowFor_holdings row, funext_iff, not_exists]
    refine forall_congr' fun r => ?_
    have := lost r
    simp only [ne_eq, not_not]
    omega
  | struckOut row =>
    obtain ⟨inside, used⟩ := findSlotByPid_some row
    obtain ⟨same, after⟩ := strikeOut_balanced balanced inside used
    exact ⟨after, iff_of_true same id⟩
  | granted row needed enough _ =>
    obtain ⟨inside, used⟩ := findSlotByPid_some row
    obtain ⟨same, after⟩ := grant_balanced balanced inside used needed enough
    exact ⟨after, iff_of_true same id⟩
  | takenBack row enough =>
    obtain ⟨inside, used⟩ := findSlotByPid_some row
    obtain ⟨same, after⟩ := takeBack_balanced balanced inside used enough
    exact ⟨after, iff_of_true same id⟩

/-- A new table is balanced, and all there is is available. -/
theorem bankerInit_balanced (T : Resources) :
    (bankerInit T).Balanced T ∧ (bankerInit T).total = fun r => (T r).toNat := by
  -- Every row is empty.
  have row : ∀ {i}, i < bankerMaxProcesses → (bankerInit T).processes.get i = .empty :=
    fun inside => FixedArray.get_fill _ inside
  have totals : ∀ r, (bankerInit T).total r = (T r).toNat := by
    intro r
    have nothing : ∑ i ∈ Finset.range bankerMaxProcesses, (bankerInit T).holdings i r = 0 := by
      refine Finset.sum_eq_zero fun i member => ?_
      unfold holdings
      rw [row (Finset.mem_range.mp member)]
      rfl
    unfold total
    rw [nothing]
    rfl
  refine ⟨⟨rfl, fun r => (totals r).le, fun inside used => ?_⟩, funext totals⟩
  rw [row inside] at used
  cases used

/--
Resources are conserved exactly as long as nothing is forfeited.

In every state of a run the resources are those the banker began with, if and only if no call of
the run registers a process anew while it holds something.
-/
theorem run_conserves_iff (T : Resources) (calls : List BankerCall) :
    (∀ before after, calls = before ++ after → ∀ r,
      (runState bankerStep (bankerInit T) before).total r = (T r).toNat) ↔
    ∀ before call after, calls = before ++ call :: after →
      ¬ Forfeits (runState bankerStep (bankerInit T) before) call := by
  -- A call that forfeits something makes the total smaller for good, any other keeps it.
  obtain ⟨balanced, whole⟩ := bankerInit_balanced T
  have along := runState_invariant_iff bankerStep (Balanced T)
    (fun s => s.total = fun r => (T r).toNat) (fun s call => ¬ Forfeits s call)
    (fun s call base => (bankerStep_balanced base call).1)
    (fun s call base whole => by rw [← whole]; exact (bankerStep_balanced base call).2)
    calls balanced whole
  simpa only [funext_iff] using along

/-- Registering a process that holds two units of something loses them for good. -/
theorem register_again_loses :
    ¬ ∀ (T : Resources) (calls : List BankerCall) (r : Fin bankerResourceCount),
      (runState bankerStep (bankerInit T) calls).total r = (T r).toNat := by
  -- Two of the five units are gone after the second registration.
  intro conserved
  have lost := conserved (fun _ => 5)
    [.register 1 fun _ => 3, .request 1 fun _ => 2, .register 1 fun _ => 3] ⟨0, by decide⟩
  exact absurd lost (by decide +kernel)

section Safety

/-- What the scan has done: the rows it has finished, in the order in which they were. -/
structure Finishing (s : Banker) (scan : SafetyScan) (done : List Nat) : Prop where
  nodup : done.Nodup
  rows : ∀ i ∈ done, i < bankerMaxProcesses ∧ (s.processes.get i).used = true
  finished : ∀ i, i < bankerMaxProcesses → (s.processes.get i).used = true →
    (scan.finish.get i = true ↔ i ∈ done)
  completes : Completes s.needs s.holdings s.atHand done
  work : ∀ r, (scan.work r).toNat = (s.available r).toNat + heldBy s.holdings done r

/-- Distinct rows hold no more than there is beyond what is available. -/
theorem heldBy_le_total {order : List Nat} (nodup : order.Nodup)
    (rows : ∀ i ∈ order, i < bankerMaxProcesses) (r : Fin bankerResourceCount) :
    (s.available r).toNat + heldBy s.holdings order r ≤ s.total r := by
  -- The rows of the order are among those of the table.
  have part : heldBy s.holdings order ≤ _ := Completes.heldBy_le_sum nodup fun i member =>
    Finset.mem_range.mpr (rows i member)
  have here : heldBy s.holdings order r ≤ _ := part r
  rw [Finset.sum_apply] at here
  exact Nat.add_le_add_left here _

/-- A row that is not finished, behind those that are. -/
theorem Finishing.next {scan : SafetyScan} {done : List Nat} (so : Finishing s scan done)
    (inside : i < bankerMaxProcesses) (used : (s.processes.get i).used = true)
    (unfinished : scan.finish.get i = false) :
    (done ++ [i]).Nodup ∧
      ∀ j ∈ done ++ [i], j < bankerMaxProcesses ∧ (s.processes.get j).used = true := by
  -- A finished row is not open, so this one is new.
  have fresh : i ∉ done := fun member => by
    rw [(so.finished i inside used).mpr member] at unfinished
    cases unfinished
  refine ⟨List.nodup_append.mpr ⟨so.nodup, List.nodup_singleton i, fun j before k last equal =>
    fresh (by rwa [← List.mem_singleton.mp last, ← equal])⟩, fun j member => ?_⟩
  rcases List.mem_append.mp member with before | last
  · exact so.rows j before
  · rw [List.mem_singleton.mp last]
    exact ⟨inside, used⟩

/-- What a row gives back when it finishes is within all there is, with what is at hand then. -/
theorem Finishing.room (balanced : s.Balanced T) {scan : SafetyScan} {done : List Nat}
    (so : Finishing s scan done) (inside : i < bankerMaxProcesses)
    (used : (s.processes.get i).used = true) (unfinished : scan.finish.get i = false)
    (r : Fin bankerResourceCount) :
    (scan.work r).toNat + ((s.processes.get i).allocation r).toNat < 2 ^ 32 := by
  -- The rows finished so far and this one are different rows of the table.
  obtain ⟨nodup, rows⟩ := so.next inside used unfinished
  have bound := (heldBy_le_total nodup (fun j member => (rows j member).1) r).trans
    (balanced.bounded r)
  have small := (T r).toNat_lt
  have held : heldBy s.holdings (done ++ [i]) = heldBy s.holdings done + s.holdings i := by
    simp [heldBy]
  have row : s.holdings i r = ((s.processes.get i).allocation r).toNat := if_pos used
  rw [held, Pi.add_apply, row] at bound
  rw [so.work r]
  omega

/-- Looking at a row keeps the account. -/
theorem scanRow_finishing (balanced : s.Balanced T) {scan : SafetyScan} {done : List Nat}
    (so : Finishing s scan done) (inside : i < bankerMaxProcesses) :
    ∃ done', Finishing s (scanRow s scan i) done' := by
  unfold scanRow
  simp only
  split
  · next finishes =>
    simp only [Bool.and_eq_true, Bool.not_eq_eq_eq_not, Bool.not_true] at finishes
    obtain ⟨⟨used, unfinished⟩, enough⟩ := finishes
    obtain ⟨nodup, rows⟩ := so.next inside used unfinished
    refine ⟨done ++ [i], nodup, rows, fun j small usedJ => ?_, ?_, fun r => ?_⟩
    · have inTable : j < 8 := small
      rw [FixedArray.get_set _ _ inTable, List.mem_append, List.mem_singleton]
      by_cases same : j = i
      · simp [same]
      · rw [if_neg same, so.finished j small usedJ]
        simp [same]
    · rw [Completes.append]
      refine ⟨so.completes, fun r => ?_, trivial⟩
      have here := vectorLeq_iff.mp enough r
      rw [so.work r] at here
      exact here
    · -- The sum does not wrap around.
      have room := so.room balanced inside used unfinished r
      have held : heldBy s.holdings (done ++ [i]) = heldBy s.holdings done + s.holdings i := by
        simp [heldBy]
      have row : s.holdings i r = ((s.processes.get i).allocation r).toNat := if_pos used
      rw [so.work r] at room
      rw [held, Pi.add_apply, row, UInt32.toNat_add, so.work r]
      omega
  · exact ⟨done, so⟩

/-- Looking at several rows keeps the account. -/
theorem scanRows_finishing (balanced : s.Balanced T) (rows : List Nat)
    (inside : ∀ i ∈ rows, i < bankerMaxProcesses) {scan : SafetyScan} {done : List Nat}
    (so : Finishing s scan done) : ∃ done', Finishing s (rows.foldl (scanRow s) scan) done' := by
  -- Induction on the rows.
  induction rows generalizing scan done with
  | nil => exact ⟨done, so⟩
  | cons i rest ih =>
    obtain ⟨next, soNext⟩ := scanRow_finishing balanced so (inside i List.mem_cons_self)
    exact ih (fun j member => inside j (List.mem_cons_of_mem _ member)) soNext

/-- So do any number of rounds. -/
theorem scanRounds_finishing (balanced : s.Balanced T) (fuel : Nat) {scan : SafetyScan}
    {done : List Nat} (so : Finishing s scan done) :
    ∃ done', Finishing s (scanRounds s fuel scan) done' := by
  -- Induction on the rounds.
  induction fuel generalizing scan done with
  | zero => exact ⟨done, so⟩
  | succ fuel ih =>
    have reset : Finishing s { scan with progress := false } done :=
      ⟨so.nodup, so.rows, so.finished, so.completes, so.work⟩
    obtain ⟨next, soNext⟩ := scanRows_finishing balanced (List.range bankerMaxProcesses)
      (fun i member => List.mem_range.mp member) reset
    unfold scanRounds
    simp only
    split
    · exact ih soNext
    · exact ⟨next, soNext⟩

/-- The scan starts out with no row finished. -/
theorem scanStart_finishing : Finishing s (scanStart s) [] := by
  -- Every row in use is open, and nothing was given back yet.
  refine ⟨List.nodup_nil, nofun, fun i inside used => ?_, trivial, fun r => rfl⟩
  have inTable : i < 8 := inside
  have open_ : (scanStart s).finish.get i = !(s.processes.get i).used :=
    FixedArray.get_ofFn (fun i => !(s.processes.get i).used) inTable
  simp [open_, used]

/-- A table that passes the check is safe. -/
theorem bankerStateIsSafe_sound (balanced : s.Balanced T) (passes : bankerStateIsSafe s = true) :
    s.Safe := by
  -- All rows are finished, in the order in which the scan finished them.
  obtain ⟨order, so⟩ := scanRounds_finishing balanced (bankerMaxProcesses + 1) scanStart_finishing
  refine ⟨order, so.nodup, fun i => ⟨so.rows i, fun ⟨inside, used⟩ => ?_⟩, so.completes⟩
  rw [← so.finished i inside used]
  have all := List.all_eq_true.mp passes i (List.mem_range.mpr inside)
  simpa [used] using all

/-- The calls after which everyone can still finish: claims are within what there is. -/
def Covered (s : Banker) : BankerCall → Prop
  -- A registration that finds no row is refused.
  | .register pid max => rowFor pid s = none ∨
      ¬ Forfeits s (.register pid max) ∧ ∀ r, (max r).toNat ≤ s.total r
  | _ => True

/-- An order of all rows in use holds all there is beyond what is available. -/
theorem heldBy_all {order : List Nat} (nodup : order.Nodup)
    (rows : ∀ i, i ∈ order ↔ i < bankerMaxProcesses ∧ (s.processes.get i).used = true)
    (r : Fin bankerResourceCount) :
    (s.available r).toNat + heldBy s.holdings order r = s.total r := by
  have listed : heldBy s.holdings order = ∑ i ∈ order.toFinset, s.holdings i :=
    (List.sum_toFinset _ nodup).symm
  rw [listed, Finset.sum_apply]
  unfold total
  congr 1
  refine Finset.sum_subset (fun i member => ?_) fun i member other => ?_
  · exact Finset.mem_range.mpr ((rows i).mp (List.mem_toFinset.mp member)).1
  · -- A row that is not in use holds nothing.
    rw [List.mem_toFinset, rows i, not_and] at other
    unfold holdings
    rw [if_neg (other (Finset.mem_range.mp member))]

/-- Registering a process that holds nothing, for no more than there is, is safe. -/
theorem register_safe (balanced : s.Balanced T) (safe : s.Safe) (row : rowFor pid s = some slot)
    {max : Resources} (keeps : ¬ Forfeits s (.register pid max))
    (within : ∀ r, (max r).toNat ≤ s.total r) :
    (s.replace slot (claimRow pid max) s.available).Safe := by
  obtain ⟨order, nodup, rows, completes⟩ := safe
  have inside := rowFor_some row
  have nothing : s.holdings slot = 0 := by
    rw [← rowFor_holdings row max] at keeps
    funext r
    by_contra some_
    exact keeps ⟨r, some_⟩
  obtain ⟨-, lost⟩ := register_balanced balanced row max
  generalize replaced : s.replace slot (claimRow pid max) s.available = t at lost ⊢
  have here : t.processes.get slot = claimRow pid max := by rw [← replaced]; exact replace_same inside
  have other : ∀ {i}, i ≠ slot → t.processes.get i = s.processes.get i := by
    rw [← replaced]
    exact replace_other
  -- The claim goes last, where everything has come back.
  have nodupT : (order.erase slot ++ [slot]).Nodup := by
    refine List.nodup_append.mpr ⟨nodup.erase slot, List.nodup_singleton slot, ?_⟩
    intro i before j last equal
    rw [List.mem_singleton.mp last] at equal
    exact nodup.not_mem_erase (equal ▸ before)
  have rowsT : ∀ i, i ∈ order.erase slot ++ [slot] ↔
      i < bankerMaxProcesses ∧ (t.processes.get i).used = true := by
    intro i
    rw [List.mem_append, List.mem_singleton, nodup.mem_erase_iff, rows]
    by_cases same : i = slot
    · subst same
      simp [here, claimRow, inside]
    · simp [same, other same]
  have all := fun r => heldBy_all nodupT rowsT r
  refine ⟨order.erase slot ++ [slot], nodupT, rowsT, ?_⟩
  have sameAtHand : t.atHand = s.atHand := by rw [← replaced]; rfl
  have needsT : ∀ i ∈ order.erase slot, t.needs i = s.needs i := fun i member => by
    rw [← replaced]
    exact needs_other (nodup.mem_erase_iff.mp member).1
  have holdingsT : ∀ i ∈ order.erase slot, t.holdings i = s.holdings i := fun i member => by
    rw [← replaced]
    exact holdings_other (nodup.mem_erase_iff.mp member).1
  rw [Completes.append, sameAtHand, Completes.congr needsT holdingsT]
  constructor
  · by_cases member : slot ∈ order
    · have left := completes.erase member
      rwa [nothing, add_zero] at left
    · rwa [List.erase_of_not_mem member]
  · refine ⟨fun r => ?_, trivial⟩
    have sum := all r
    have before := lost r
    have bound := within r
    have split : heldBy t.holdings (order.erase slot ++ [slot]) =
        heldBy t.holdings (order.erase slot) + t.holdings slot := by simp [heldBy]
    have last : t.holdings slot r = 0 := by
      unfold holdings
      rw [here]
      rfl
    have none_ : s.holdings slot r = 0 := congrFun nothing r
    have available : (t.available r).toNat = s.atHand r := congrFun sameAtHand r
    rw [split, Pi.add_apply, last] at sum
    change (((t.processes.get slot).need r).toNat) ≤ s.atHand r + heldBy t.holdings _ r
    rw [here]
    change (max r).toNat ≤ _
    omega

/-- Striking a claim out is safe: the others have what it held at hand. -/
theorem strikeOut_safe (balanced : s.Balanced T) (safe : s.Safe) (inside : slot < bankerMaxProcesses)
    (used : (s.processes.get slot).used = true) :
    (s.replace slot .empty fun r =>
      s.available r + (s.processes.get slot).allocation r).Safe := by
  -- Leave the row out of the order: whoever comes later has as much at hand.
  obtain ⟨order, nodup, rows, completes⟩ := safe
  have member : slot ∈ order := (rows slot).mpr ⟨inside, used⟩
  refine ⟨order.erase slot, nodup.erase slot, fun i => ?_, ?_⟩
  · rw [nodup.mem_erase_iff, rows]
    by_cases same : i = slot
    · subst same
      rw [replace_same inside]
      simp [BankerProcess.empty]
    · rw [replace_other same]
      simp [same]
  · have left := completes.erase member
    have atHand : (s.replace slot .empty fun r =>
        s.available r + (s.processes.get slot).allocation r).atHand = s.atHand + s.holdings slot := by
      funext r
      have noWrap := balanced.available_add inside used r
      have held : s.holdings slot r = ((s.processes.get slot).allocation r).toNat := if_pos used
      rw [Pi.add_apply, held]
      change (s.available r + (s.processes.get slot).allocation r).toNat = _
      rw [UInt32.toNat_add]
      exact Nat.mod_eq_of_lt noWrap
    rw [atHand, Completes.congr
      (fun i before => needs_other (nodup.mem_erase_iff.mp before).1)
      (fun i before => holdings_other (nodup.mem_erase_iff.mp before).1)]
    exact left

/-- Taking resources back is safe: the row can still have what it gave. -/
theorem takeBack_safe (balanced : s.Balanced T) (safe : s.Safe) (inside : slot < bankerMaxProcesses)
    (used : (s.processes.get slot).used = true) {release : Resources}
    (enough : ∀ r, (release r).toNat ≤ ((s.processes.get slot).allocation r).toNat) :
    (s.takeBack slot release).Safe := by
  -- The same order: the row needs more, and just as much more is at hand.
  obtain ⟨order, nodup, rows, completes⟩ := safe
  obtain ⟨row, replaced⟩ : ∃ row, s.takeBack slot release =
      s.replace slot row (fun r => s.available r + release r) := ⟨_, rfl⟩
  have here : (s.takeBack slot release).processes.get slot = _ :=
    FixedArray.get_set_same _ _ inside
  have atHand : (s.takeBack slot release).atHand = s.atHand + fun r => (release r).toNat := by
    funext r
    have noWrap := balanced.available_add inside used r
    have part := enough r
    change (s.available r + release r).toNat = (s.available r).toNat + (release r).toNat
    rw [UInt32.toNat_add]
    omega
  refine ⟨order, nodup, fun i => ?_, ?_⟩
  · rw [rows]
    by_cases same : i = slot
    · rw [same, here]
    · rw [replaced, replace_other same]
  · rw [atHand]
    refine completes.giveBack (k := slot) nodup (fun i apart => ?_) (fun i apart => ?_) ?_ ?_
    · rw [replaced, needs_other apart]
    · rw [replaced, holdings_other apart]
    · funext r
      have claim := balanced.claims inside used r
      have part := enough r
      have small := ((s.processes.get slot).max r).toNat_lt
      unfold needs
      rw [here]
      change ((s.processes.get slot).need r + release r).toNat =
        ((s.processes.get slot).need r).toNat + (release r).toNat
      rw [UInt32.toNat_add]
      omega
    · funext r
      have part := enough r
      unfold holdings
      rw [here, if_pos used]
      change _ = (if (s.processes.get slot).used = true then
        ((s.processes.get slot).allocation r - release r).toNat else 0) + (release r).toNat
      rw [if_pos used, UInt32.toNat_sub_of_le _ _ (UInt32.le_iff_toNat_le.mpr part)]
      omega

/-- A call that is covered leaves a safe table safe. -/
theorem bankerStep_safe (balanced : s.Balanced T) (safe : s.Safe) {call : BankerCall}
    (covered : Covered s call) : (bankerStep s call).2.Safe := by
  have moves := bankerStep_moves balanced.ready call
  generalize (bankerStep s call).2 = t at moves
  cases moves with
  | refused => exact safe
  | registered row =>
    rcases covered with full | ⟨keeps, within⟩
    · exact nomatch full.symm.trans row
    · exact register_safe balanced safe row keeps within
  | struckOut row =>
    obtain ⟨inside, used⟩ := findSlotByPid_some row
    exact strikeOut_safe balanced safe inside used
  | granted row needed enough passes =>
    -- This is the call that checks.
    obtain ⟨inside, used⟩ := findSlotByPid_some row
    exact bankerStateIsSafe_sound (grant_balanced balanced inside used needed enough).2 passes
  | takenBack row enough =>
    obtain ⟨inside, used⟩ := findSlotByPid_some row
    exact takeBack_safe balanced safe inside used enough

/--
The banker keeps everyone able to finish, as long as claims are within what there is.

Every registration that is not refused must be of a process that holds nothing, for no more than the
resources the banker has, given out or not.
-/
theorem run_safe (T : Resources) (calls : List BankerCall)
    (covered : ∀ before call after, calls = before ++ call :: after →
      Covered (runState bankerStep (bankerInit T) before) call) :
    (runState bankerStep (bankerInit T) calls).Safe := by
  -- A new table is safe, and each covered call keeps it so.
  obtain ⟨balanced, -⟩ := bankerInit_balanced T
  have start : (bankerInit T).Safe := by
    refine ⟨[], List.nodup_nil, fun i => ?_, trivial⟩
    simp only [List.not_mem_nil, false_iff, not_and]
    intro inside used
    rw [bankerInit, FixedArray.get_fill _ (show i < 8 from inside)] at used
    cases used
  exact (runState_invariant_along bankerStep (fun s => s.Balanced T ∧ s.Safe) Covered
    (fun s call permitted ⟨base, safe⟩ =>
      ⟨(bankerStep_balanced base call).1, bankerStep_safe base safe permitted⟩)
    covered ⟨balanced, start⟩).2

/-- A claim within what there is, and a request within the claim. -/
theorem run_safe_claim :
    (runState bankerStep (bankerInit fun _ => 5)
      [.register 1 fun _ => 3, .request 1 fun _ => 2]).Safe := by
  -- Three units are claimed of five, two of them asked for.
  refine run_safe _ _ fun before call after split => ?_
  match before, split with
  | [], split =>
    cases split
    refine Or.inr ⟨?_, by decide⟩
    rintro ⟨slot, found, -⟩
    have unknown : findSlotByPid 1 (bankerInit fun _ => 5) = none := by decide
    exact nomatch unknown.symm.trans found
  | [_], split =>
    cases split
    trivial
  | _ :: _ :: _, split => simp at split

/-- A claim beyond what there is can never be met, and yet it is entered. -/
theorem register_too_much_unsafe :
    ¬ ∀ (T : Resources) (calls : List BankerCall),
      (runState bankerStep (bankerInit T) calls).Safe := by
  intro always
  have inTable : 0 < bankerMaxProcesses := by decide
  have used : ((runState bankerStep (bankerInit fun _ => 1)
      [.register 1 fun _ => 2]).processes.get 0).used = true := by decide
  have few : (runState bankerStep (bankerInit fun _ => 1)
      [.register 1 fun _ => 2]).total ⟨0, by decide⟩ = 1 := by decide
  have much : (runState bankerStep (bankerInit fun _ => 1)
      [.register 1 fun _ => 2]).needs 0 ⟨0, by decide⟩ = 2 := by decide
  have safe := always (fun _ => 1) [.register 1 fun _ => 2]
  generalize runState bankerStep (bankerInit fun _ => 1) [.register 1 fun _ => 2] = s
    at used few much safe
  obtain ⟨order, nodup, rows, completes⟩ := safe
  obtain ⟨before, after, rfl⟩ := List.append_of_mem ((rows 0).mpr ⟨inTable, used⟩)
  -- Whatever finished before it, there is not enough for the claim.
  have enough : s.needs 0 ⟨0, by decide⟩ ≤ _ :=
    Completes.iff_split.mp completes before 0 after rfl ⟨0, by decide⟩
  have bound := heldBy_le_total (s := s) (List.nodup_append.mp nodup).1
    (fun i member => ((rows i).mp (List.mem_append_left _ member)).1) ⟨0, by decide⟩
  rw [few] at bound
  rw [much] at enough
  exact absurd (enough.trans bound) (by decide)

end Safety

end MyOS.Kernel
