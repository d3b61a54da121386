import Mathlib.Data.List.Basic

/-! How long ago something last happened, in a history that is told from its end. -/

namespace MyOS

variable {α : Type} [DecidableEq α]

/-- When something last happened, counted from the beginning of a history, or `0` if it never did. -/
def lastAt : List α → α → Nat
  | [], _ => 0
  | latest :: earlier, a => if latest = a then earlier.length + 1 else lastAt earlier a

/-- In an empty history nothing happened. -/
@[simp] theorem lastAt_nil (a : α) : lastAt [] a = 0 := rfl

/-- What happened last has the greatest time. -/
@[simp] theorem lastAt_cons_self (a : α) (earlier : List α) :
    lastAt (a :: earlier) a = earlier.length + 1 :=
  if_pos rfl

/-- What happened last leaves the times of the others alone. -/
theorem lastAt_cons_other {latest a : α} (other : latest ≠ a) (earlier : List α) :
    lastAt (latest :: earlier) a = lastAt earlier a :=
  if_neg other

/-- Nothing happened after the end of the history. -/
theorem lastAt_le (history : List α) (a : α) : lastAt history a ≤ history.length := by
  -- By induction on the history: the latest comes at its end, and the others before.
  induction history with
  | nil => exact Nat.le_refl 0
  | cons latest earlier ih =>
    unfold lastAt
    rw [List.length_cons]
    split
    · exact Nat.le_refl _
    · omega

/-- At one time only one thing happened. -/
theorem lastAt_injective {history : List α} {a b : α} (same : lastAt history a = lastAt history b)
    (happened : 0 < lastAt history a) : a = b := by
  -- By induction on the history: the latest is one of the two, both, or neither.
  induction history with
  | nil => cases happened
  | cons latest earlier ih =>
    have leA := lastAt_le earlier a
    have leB := lastAt_le earlier b
    unfold lastAt at same happened
    by_cases isA : latest = a
    · by_cases isB : latest = b
      · exact isA.symm.trans isB
      · rw [if_pos isA, if_neg isB] at same
        omega
    · by_cases isB : latest = b
      · rw [if_neg isA, if_pos isB] at same
        omega
      · rw [if_neg isA, if_neg isB] at same
        rw [if_neg isA] at happened
        exact ih same happened

end MyOS
