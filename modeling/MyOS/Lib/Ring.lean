import Mathlib.Data.Nat.ModEq
import Mathlib.Logic.Function.Basic

/-! A queue kept in a ring of cells, between two positions that go round. -/

namespace MyOS

/-- The cells from one position up to another hold the waiting elements, and one cell stays empty. -/
structure InRing {α : Type} (n : Nat) (cells : Nat → α) (tail head : Nat) (waiting : List α) : Prop where
  within : tail < n
  place : head = (tail + waiting.length) % n
  room : waiting.length < n
  stored : ∀ i (inside : i < waiting.length), cells ((tail + i) % n) = waiting[i]

namespace InRing

variable {α : Type} {n tail head : Nat} {cells cells' : Nat → α} {waiting : List α} {a : α}

/-- Two places at different distances from a position are different. -/
theorem place_inj {i j : Nat} (near : i < n) (near' : j < n) (same : (tail + i) % n = (tail + j) % n) :
    i = j :=
  Nat.ModEq.eq_of_lt_of_lt (Nat.ModEq.add_left_cancel' tail same) near near'

/-- Where both positions are the same, nothing waits. -/
theorem nil (inside : tail < n) (cells : Nat → α) : InRing n cells tail tail [] := by
  refine ⟨inside, ?_, by change 0 < n; omega, nofun⟩
  rw [List.length_nil, Nat.add_zero, Nat.mod_eq_of_lt inside]

/-- The head is a position of the ring. -/
theorem head_lt (ring : InRing n cells tail head waiting) : head < n := by
  rw [ring.place]
  exact Nat.mod_lt _ (Nat.lt_of_le_of_lt (Nat.zero_le _) ring.within)

/-- The two positions meet exactly where nothing waits. -/
theorem eq_iff (ring : InRing n cells tail head waiting) : head = tail ↔ waiting = [] := by
  -- Both positions are the same at a distance of less than the ring, which is none.
  constructor
  · intro same
    have here : (tail + waiting.length) % n = (tail + 0) % n := by
      rw [← ring.place, same, Nat.add_zero, Nat.mod_eq_of_lt ring.within]
    have none_ := place_inj ring.room (by have := ring.room; omega) here
    exact List.eq_nil_of_length_eq_zero none_
  · rintro rfl
    rw [ring.place, List.length_nil, Nat.add_zero, Nat.mod_eq_of_lt ring.within]

/-- The position behind the head is the tail exactly where all cells but one are taken. -/
theorem next_eq_iff (ring : InRing n cells tail head waiting) :
    (head + 1) % n = tail ↔ waiting.length + 1 = n := by
  have room := ring.room
  -- The position behind the head is one further from the tail.
  have behind : (head + 1) % n = (tail + (waiting.length + 1)) % n := by
    rw [ring.place, Nat.mod_add_mod, Nat.add_assoc]
  rw [behind]
  constructor
  · intro same
    by_contra more
    have here : (tail + (waiting.length + 1)) % n = (tail + 0) % n := by
      rw [same, Nat.add_zero, Nat.mod_eq_of_lt ring.within]
    have := place_inj (by omega) (by omega) here
    omega
  · intro full
    rw [full, Nat.add_mod_right, Nat.mod_eq_of_lt ring.within]

/-- An element is put in behind those that wait. -/
theorem push (ring : InRing n cells tail head waiting) (space : waiting.length + 1 < n)
    (here : cells' head = a) (others : ∀ k, k ≠ head → cells' k = cells k) :
    InRing n cells' tail ((head + 1) % n) (waiting ++ [a]) := by
  -- The new element is in the cell of the head, behind the others.
  refine ⟨ring.within, ?_, ?_, fun i inside => ?_⟩
  · rw [ring.place, Nat.mod_add_mod, List.length_append, List.length_singleton, Nat.add_assoc]
  · rw [List.length_append, List.length_singleton]
    exact space
  · rw [List.length_append, List.length_singleton] at inside
    by_cases last : i = waiting.length
    · subst last
      rw [← ring.place, here]
      simp
    · have before : i < waiting.length := by omega
      rw [List.getElem_append_left before, others, ring.stored i before]
      intro same
      rw [ring.place] at same
      exact last (place_inj (by omega) (by omega) same)

/-- The first element that waits is in the cell of the tail, and is taken by moving the tail. -/
theorem pop (ring : InRing n cells tail head (a :: waiting)) :
    cells tail = a ∧ InRing n cells ((tail + 1) % n) head waiting := by
  -- The elements behind the first one are one closer to the new tail.
  have room := ring.room
  rw [List.length_cons] at room
  constructor
  · have first := ring.stored 0 (Nat.succ_pos _)
    rwa [Nat.add_zero, Nat.mod_eq_of_lt ring.within] at first
  · refine ⟨Nat.mod_lt _ (by omega), ?_, by omega, fun i inside => ?_⟩
    · rw [ring.place, List.length_cons, Nat.mod_add_mod]
      congr 1
      omega
    · have next := ring.stored (i + 1) (Nat.succ_lt_succ inside)
      rw [List.getElem_cons_succ] at next
      rw [Nat.mod_add_mod, ← next]
      congr 2
      omega

end InRing

end MyOS
