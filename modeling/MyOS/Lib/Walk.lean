import Mathlib.Algebra.BigOperators.Intervals
import Mathlib.Data.Fintype.Pigeonhole
import Mathlib.Logic.Function.Iterate

/-! When a walk that always goes on in the same way comes to an end. -/

namespace MyOS

/-- A walk comes back to a state it has been in, and goes on at every step up to there. -/
def Revisits {σ : Type} (next : σ → σ) (goes : σ → Prop) (s : σ) : Prop :=
  ∃ i j, i < j ∧ (∀ k, k ≤ j → goes (next^[k] s)) ∧ next^[i] s = next^[j] s

variable {σ : Type} {next : σ → σ} {goes : σ → Prop} {s : σ}

/-- A walk that has come back goes on for ever. -/
theorem Revisits.forever (revisits : Revisits next goes s) (n : Nat) : goes (next^[n] s) := by
  obtain ⟨i, j, before, going, same⟩ := revisits
  -- A step behind the second visit is one that was made behind the first.
  induction n using Nat.strong_induction_on with
  | _ n ih =>
    rcases Nat.lt_or_ge j n with late | early
    · have again : next^[n] s = next^[n - j + i] s := by
        rw [Function.iterate_add_apply, same, ← Function.iterate_add_apply,
          Nat.sub_add_cancel (Nat.le_of_lt late)]
      rw [again]
      exact ih _ (by omega)
    · exact going n early

/-- A walk through finitely many states ends exactly where it does not come back before its end. -/
theorem walk_ends_iff {β : Type} [Finite β] (view : σ → β)
    (tells : ∀ i j, view (next^[i] s) = view (next^[j] s) → next^[i] s = next^[j] s) :
    (∃ n, ¬ goes (next^[n] s)) ↔ ¬ Revisits next goes s := by
  constructor
  · -- A walk that comes back never ends.
    rintro ⟨n, stops⟩ revisits
    exact stops (revisits.forever n)
  · -- An endless walk through finitely many views has two steps with the same view.
    intro fresh
    by_contra endless
    have going : ∀ n, goes (next^[n] s) := fun n => by_contra fun stops => endless ⟨n, stops⟩
    obtain ⟨i, j, apart, same⟩ := Finite.exists_ne_map_eq_of_infinite fun n => view (next^[n] s)
    have same := tells i j same
    rcases Nat.lt_or_gt_of_ne apart with before | after
    · exact fresh ⟨i, j, before, fun k _ => going k, same⟩
    · exact fresh ⟨j, i, after, fun k _ => going k, same.symm⟩

/-- Two walks end together if they agree on going on as long as one of them does. -/
theorem ends_congr {p q : Nat → Prop} (agree : ∀ n, (∀ i, i < n → q i) → (p n ↔ q n)) :
    (∃ n, ¬ p n) ↔ ∃ n, ¬ q n := by
  classical
  constructor
  · -- If the second walk went on for ever, the first would agree with it everywhere.
    rintro ⟨n, stops⟩
    by_contra endless
    have going : ∀ i, q i := fun i => by_contra fun stops => endless ⟨i, stops⟩
    exact stops ((agree n fun i _ => going i).mpr (going n))
  · -- Up to its first stop the second walk goes on, and there the first one agrees.
    intro ends
    refine ⟨Nat.find ends, fun goes => Nat.find_spec ends ?_⟩
    exact (agree _ fun i before => by_contra (Nat.find_min ends before)).mp goes

section Strides

variable {cursor : σ → UInt32} {stride : σ → Nat}

/-- Where a cursor is, from the strides it has made. -/
theorem cursor_walk (moves : ∀ a, cursor (next a) = cursor a + UInt32.ofNat (stride a)) (n : Nat) :
    (cursor (next^[n] s)).toNat =
      ((cursor s).toNat + ∑ k ∈ Finset.range n, stride (next^[k] s)) % 2 ^ 32 := by
  -- By induction on the steps, each of which adds its stride in 32 bits.
  induction n with
  | zero => exact (Nat.mod_eq_of_lt (UInt32.toNat_lt _)).symm
  | succ n ih =>
    rw [Function.iterate_succ_apply', moves, UInt32.toNat_add, UInt32.toNat_ofNat', ih,
      Finset.sum_range_succ]
    omega

/-- A cursor comes back exactly where the strides in between add up to a multiple of 2^32. -/
theorem cursor_returns_iff (moves : ∀ a, cursor (next a) = cursor a + UInt32.ofNat (stride a))
    {i j : Nat} (before : i ≤ j) :
    cursor (next^[i] s) = cursor (next^[j] s) ↔
      2 ^ 32 ∣ ∑ k ∈ Finset.Ico i j, stride (next^[k] s) := by
  rw [← UInt32.toNat_inj, cursor_walk moves, cursor_walk moves,
    ← Finset.sum_range_add_sum_Ico _ before, ← Nat.add_assoc]
  -- The strides up to the first visit cancel.
  generalize (cursor s).toNat + ∑ k ∈ Finset.range i, stride (next^[k] s) = first
  omega

end Strides

end MyOS
