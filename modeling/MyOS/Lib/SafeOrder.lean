import Mathlib.Algebra.Order.Monoid.Canonical.Defs
import Mathlib.Algebra.Order.BigOperators.Group.Finset
import Mathlib.Data.List.Perm.Basic

/-! Orders in which claimants of shared resources can all finish, each after those before it. -/

namespace MyOS

section Definitions

variable {ι M : Type} [AddCommMonoid M] [LE M]

/--
The claimants of a list can finish one after the other.

Each finds what it still needs among the resources at hand, and gives back what it holds.
-/
def Completes (need held : ι → M) : M → List ι → Prop
  | _, [] => True
  | work, i :: rest => need i ≤ work ∧ Completes need held (work + held i) rest

/-- What the claimants of an order hold together. -/
def heldBy (held : ι → M) (order : List ι) : M := (order.map held).sum

variable {need held : ι → M} {work : M}

/-- The first claimant finds enough, and the rest have what it gives back too. -/
theorem completes_cons {i : ι} {rest : List ι} :
    Completes need held work (i :: rest) ↔
      need i ≤ work ∧ Completes need held (work + held i) rest :=
  -- This is how the order is defined.
  Iff.rfl

omit [LE M] in
/-- The first claimant's part is added to that of the others. -/
@[simp] theorem heldBy_cons (held : ι → M) (i : ι) (rest : List ι) :
    heldBy held (i :: rest) = held i + heldBy held rest := by
  simp only [heldBy, List.map_cons, List.sum_cons]

end Definitions

namespace Completes

variable {ι M : Type} [AddCommMonoid M] [PartialOrder M] {need held need' held' : ι → M}
  {work work' : M} {order : List ι}

/-- Only the claimants in the order matter. -/
theorem congr (sameNeed : ∀ i ∈ order, need' i = need i) (sameHeld : ∀ i ∈ order, held' i = held i) :
    Completes need' held' work order ↔ Completes need held work order := by
  -- By induction on the order, each claimant by itself.
  induction order generalizing work with
  | nil => rfl
  | cons i rest ih =>
    have later := fun work => @ih work (fun j member => sameNeed j (List.mem_cons_of_mem _ member))
      (fun j member => sameHeld j (List.mem_cons_of_mem _ member))
    rw [completes_cons, completes_cons, sameNeed i List.mem_cons_self,
      sameHeld i List.mem_cons_self, later]

/-- One order after another, with what the first one gives back. -/
theorem append {second : List ι} :
    Completes need held work (order ++ second) ↔
      Completes need held work order ∧ Completes need held (work + heldBy held order) second := by
  -- By induction on the first order, with more at hand at every step.
  induction order generalizing work with
  | nil => simp [Completes, heldBy]
  | cons i rest ih =>
    rw [List.cons_append, completes_cons, completes_cons, ih, and_assoc, heldBy_cons, add_assoc]

/-- The order, read off at each claimant in it. -/
theorem iff_split :
    Completes need held work order ↔
      ∀ before i after, order = before ++ i :: after → need i ≤ work + heldBy held before := by
  constructor
  · -- The claimants in front have given back what they hold.
    rintro completes before i after rfl
    exact (append.mp completes).2.1
  · -- By induction on the order, the first of which has nobody in front.
    intro enough
    induction order generalizing work with
    | nil => trivial
    | cons i rest ih =>
      refine ⟨by simpa [heldBy] using enough [] i rest rfl, ih fun before j after split => ?_⟩
      have later := enough (i :: before) j after (by rw [split]; rfl)
      rwa [heldBy_cons, ← add_assoc] at later

variable [IsOrderedAddMonoid M]

variable [CanonicallyOrderedAdd M]

/-- A claimant that gives part of what it holds back, to need it again, endangers nobody. -/
theorem giveBack {k : ι} {given : M} (nodup : order.Nodup) (sameNeed : ∀ i, i ≠ k → need' i = need i)
    (sameHeld : ∀ i, i ≠ k → held' i = held i) (again : need' k = need k + given)
    (part : held k = held' k + given) (completes : Completes need held work order) :
    Completes need' held' (work + given) order := by
  -- By induction on the order, up to the claimant that gives back.
  induction order generalizing work with
  | nil => trivial
  | cons i rest ih =>
    obtain ⟨enough, after⟩ := completes
    obtain ⟨fresh, nodup⟩ := List.nodup_cons.mp nodup
    by_cases same : i = k
    · -- From here on as much is at hand as before.
      subst same
      have others : ∀ j ∈ rest, j ≠ i := fun j member equal => fresh (equal ▸ member)
      refine ⟨by rw [again]; exact add_le_add_left enough _, ?_⟩
      rw [congr (fun j member => sameNeed j (others j member))
        fun j member => sameHeld j (others j member), add_assoc, add_comm given, ← part]
      exact after
    · -- A claimant before it has more at hand than it had.
      refine ⟨by rw [sameNeed i same]; exact enough.trans le_self_add, ?_⟩
      rw [sameHeld i same, add_right_comm]
      exact ih nodup after

variable [DecidableEq ι]

omit [IsOrderedAddMonoid M] in
/-- A claimant that leaves with what it holds does not keep the others from finishing. -/
theorem erase {i : ι} (completes : Completes need held work order) (member : i ∈ order) :
    Completes need held (work + held i) (order.erase i) := by
  -- By induction on the order, up to the claimant that leaves.
  induction order generalizing work with
  | nil => cases member
  | cons j rest ih =>
    obtain ⟨enough, after⟩ := completes
    -- Behind it as much is at hand as before.
    by_cases same : j = i
    · subst same
      rw [List.erase_cons_head]
      exact after
    · rw [List.erase_cons_tail (by simpa using same)]
      have rest' := (List.mem_cons.mp member).resolve_left (Ne.symm same)
      refine ⟨enough.trans le_self_add, ?_⟩
      rw [add_right_comm]
      exact ih after rest'

omit [IsOrderedAddMonoid M] in
/-- Some of the claimants hold no more than all of them. -/
theorem heldBy_le_sum {all : Finset ι} (nodup : order.Nodup) (inside : ∀ i ∈ order, i ∈ all) :
    heldBy held order ≤ ∑ i ∈ all, held i := by
  -- The order has no claimant twice, so the sum over it is one over a set.
  have listed : heldBy held order = ∑ i ∈ order.toFinset, held i :=
    (List.sum_toFinset held nodup).symm
  rw [listed]
  exact Finset.sum_le_sum_of_subset fun i member => inside i (List.mem_toFinset.mp member)

/--
Whoever finishes first come first served loses nothing by it.

Where some order completes, claimants that have finished and found nobody else with enough at hand
are all there are.
-/
theorem exhausts {done : List ι} (completes : Completes need held work order) (nodup : order.Nodup)
    (distinct : done.Nodup)
    (stuck : ∀ i ∈ order, i ∉ done → ¬ need i ≤ work + heldBy held done) {i : ι} (member : i ∈ order) :
    i ∈ done := by
  -- The part of the order that has finished grows claimant by claimant.
  have grows : ∀ before after, order = before ++ after → ∀ j ∈ before, j ∈ done := by
    intro before
    induction before using List.reverseRecOn with
    | nil => exact fun _ _ _ => nofun
    | append_singleton before k ih =>
      intro after split j inside
      have split' : order = before ++ k :: after := by
        rw [split, List.append_assoc]
        rfl
      have earlier := ih (k :: after) split'
      rcases List.mem_append.mp inside with there | last
      · exact earlier j there
      · rw [List.mem_singleton.mp last]
        by_contra missing
        rw [split'] at nodup
        have part : heldBy held before ≤ heldBy held done := by
          have listed : heldBy held done = ∑ i ∈ done.toFinset, held i :=
            (List.sum_toFinset held distinct).symm
          rw [listed]
          exact heldBy_le_sum (List.nodup_append.mp nodup).1 fun m within =>
            List.mem_toFinset.mpr (earlier m within)
        refine stuck k (by rw [split']; simp) missing ?_
        exact (iff_split.mp completes before k after split').trans (add_le_add_right part work)
  exact grows order [] (List.append_nil _).symm i member

end Completes

/-- A sum in which one summand is replaced. -/
theorem sum_replaced {ι M : Type} [AddCommMonoid M] [DecidableEq ι] {all : Finset ι}
    {before after : ι → M} {k : ι} (member : k ∈ all) (others : ∀ i ∈ all, i ≠ k → after i = before i) :
    (∑ i ∈ all, after i) + before k = (∑ i ∈ all, before i) + after k := by
  -- The other summands are the same.
  have rest : ∑ i ∈ all.erase k, after i = ∑ i ∈ all.erase k, before i :=
    Finset.sum_congr rfl fun i inside =>
      others i (Finset.mem_of_mem_erase inside) (Finset.ne_of_mem_erase inside)
  rw [← Finset.sum_erase_add _ _ member, ← Finset.sum_erase_add all before member, rest]
  exact add_right_comm _ _ _

end MyOS
