import Mathlib.Data.List.Induction

/-! Runs of a system that answers one request after another. -/

namespace MyOS

/-- What each round of a counting loop keeps, moving on by one, holds after the last round. -/
theorem foldl_range_invariant {σ : Type} {f : σ → Nat → σ} (P : Nat → σ → Prop) {s : σ} {n : Nat}
    (start : P 0 s) (round : ∀ i s, i < n → P i s → P (i + 1) (f s i)) :
    P n ((List.range n).foldl f s) := by
  -- By induction on the rounds, from the last one back.
  induction n with
  | zero => exact start
  | succ n ih =>
    rw [List.range_succ, List.foldl_append]
    exact round n _ (Nat.lt_succ_self n) (ih fun i s below => round i s (Nat.lt_succ_of_lt below))

section Runs

variable {σ τ ι ο : Type} (step : σ → ι → ο × σ)

/-- The answers to a sequence of requests, with the state after the last of them. -/
def runAll : σ → List ι → List ο × σ
  | s, [] => ([], s)
  | s, request :: rest =>
    let (answer, s') := step s request
    let (answers, final) := runAll s' rest
    (answer :: answers, final)

/-- The state a sequence of requests leads to. -/
def runState (s : σ) (requests : List ι) : σ := (runAll step s requests).2

/-- An empty run leads nowhere. -/
@[simp] theorem runState_nil (s : σ) : runState step s [] = s := rfl

/-- A run begins with its first request. -/
@[simp] theorem runState_cons (s : σ) (request : ι) (rest : List ι) :
    runState step s (request :: rest) = runState step (step s request).2 rest := rfl

/-- A run of two sequences of requests runs one after the other. -/
theorem runState_append (s : σ) (first second : List ι) :
    runState step s (first ++ second) = runState step (runState step s first) second := by
  -- By induction on the first sequence.
  induction first generalizing s with
  | nil => rfl
  | cons request rest ih => exact ih (step s request).2

/-- A property each allowed request preserves holds after every run of allowed requests. -/
theorem runState_invariant (Inv : σ → Prop) {Allowed : ι → Prop}
    (preserved : ∀ s request, Allowed request → Inv s → Inv (step s request).2)
    {s : σ} {requests : List ι} (allowed : ∀ request ∈ requests, Allowed request) (start : Inv s) :
    Inv (runState step s requests) := by
  -- By induction on the requests, the first of which is allowed at the start.
  induction requests generalizing s with
  | nil => exact start
  | cons request rest ih =>
    refine ih (fun r member => allowed r (List.mem_cons_of_mem _ member)) ?_
    exact preserved s request (allowed request List.mem_cons_self) start

/-- A property kept by each request that is allowed where it is made holds after the whole run. -/
theorem runState_invariant_along (Inv : σ → Prop) (Allowed : σ → ι → Prop)
    (preserved : ∀ s request, Allowed s request → Inv s → Inv (step s request).2)
    {s : σ} {requests : List ι}
    (allowed : ∀ before request after, requests = before ++ request :: after →
      Allowed (runState step s before) request)
    (start : Inv s) : Inv (runState step s requests) := by
  -- The later requests are allowed where the first one leads.
  induction requests generalizing s with
  | nil => exact start
  | cons request rest ih =>
    refine ih ?_ (preserved s request (allowed [] request rest rfl) start)
    intro before request' after split
    exact allowed (request :: before) request' after (by rw [split]; rfl)

/-- Whether each request of a run is allowed where it is made. -/
def allowedAlong (allowed : σ → ι → Bool) : σ → List ι → Bool
  | _, [] => true
  | s, request :: rest => allowed s request && allowedAlong allowed (step s request).2 rest

/-- The test along a run tells what is allowed at each of its requests. -/
theorem allowedAlong_spec {allowed : σ → ι → Bool} {s : σ} {requests : List ι}
    (holds : allowedAlong step allowed s requests = true) {before after : List ι} {request : ι}
    (split : requests = before ++ request :: after) :
    allowed (runState step s before) request = true := by
  -- By induction on the requests in front of the one in question.
  subst split
  induction before generalizing s with
  | nil => exact (Bool.and_eq_true_iff.mp holds).1
  | cons first rest ih => exact ih (Bool.and_eq_true_iff.mp holds).2

/--
A property that a request keeps exactly when it is allowed holds all along a run exactly when
every request of the run is.
-/
theorem runState_invariant_iff (Base Inv : σ → Prop) (Allowed : σ → ι → Prop)
    (kept : ∀ s request, Base s → Base (step s request).2)
    (preserved : ∀ s request, Base s → Inv s → (Inv (step s request).2 ↔ Allowed s request))
    {s : σ} (requests : List ι) (base : Base s) (start : Inv s) :
    (∀ before after, requests = before ++ after → Inv (runState step s before)) ↔
      ∀ before request after, requests = before ++ request :: after →
        Allowed (runState step s before) request := by
  constructor
  · -- Before and behind a request the property holds, so the request is one of those allowed.
    rintro holds before request after rfl
    have now := holds before (request :: after) rfl
    have next := holds (before ++ [request]) after (by simp)
    rw [runState_append] at next
    refine (preserved _ request ?_ now).mp next
    exact runState_invariant step Base (fun s r (_ : True) => kept s r) (fun _ _ => trivial) base
  · -- Every beginning of the run has allowed requests only.
    rintro allowed before after rfl
    refine (runState_invariant_along step (fun s => Base s ∧ Inv s) Allowed ?_ ?_ ⟨base, start⟩).2
    · exact fun s request permitted ⟨base, inv⟩ =>
        ⟨kept s request base, (preserved s request base inv).mpr permitted⟩
    · rintro first request second rfl
      exact allowed first request (second ++ after) (by simp)

/--
What holds at the end of a run, and did not at its start, began with some request of the run
and has held ever since.
-/
theorem runState_since (Inv Holds : σ → Prop) (Begins : σ → ι → Prop)
    (kept : ∀ s request, Inv s → Inv (step s request).2)
    (traced : ∀ s request, Inv s → Holds (step s request).2 → Holds s ∨ Begins s request)
    {s : σ} (inv : Inv s) (fresh : ¬ Holds s) (requests : List ι)
    (holds : Holds (runState step s requests)) :
    ∃ before request after, requests = before ++ request :: after ∧
      Begins (runState step s before) request ∧
      ∀ part, part <+: after → Holds (runState step s (before ++ request :: part)) := by
  -- By induction on the requests, from the last one back.
  induction requests using List.reverseRecOn with
  | nil => exact absurd holds fresh
  | append_singleton front last ih =>
    have now : Inv (runState step s front) :=
      runState_invariant step Inv (fun s r (_ : True) => kept s r) (fun _ _ => trivial) inv
    have next : Holds (step (runState step s front) last).2 := by
      rw [runState_append] at holds
      exact holds
    rcases traced _ last now next with earlier | begins
    · -- It held before the last request already.
      obtain ⟨before, request, after, rfl, begins, since⟩ := ih earlier
      refine ⟨before, request, after ++ [last], by simp, begins, fun part inside => ?_⟩
      rcases List.prefix_concat_iff.mp inside with rfl | inside
      · simpa using holds
      · exact since part inside
    · refine ⟨front, last, [], rfl, begins, fun part inside => ?_⟩
      rw [List.prefix_nil.mp inside]
      exact holds

/--
Two systems related by a simulation give the same answers along every run.

Each request need only be simulated where it is allowed.
-/
theorem runAll_simulates_along {abstract : τ → ι → ο × τ} (Related : σ → τ → Prop)
    (Allowed : σ → ι → Prop)
    (simulates : ∀ s a request, Allowed s request → Related s a →
      (step s request).1 = (abstract a request).1 ∧
        Related (step s request).2 (abstract a request).2)
    {s : σ} {a : τ} {requests : List ι}
    (allowed : ∀ before request after, requests = before ++ request :: after →
      Allowed (runState step s before) request)
    (start : Related s a) : (runAll step s requests).1 = (runAll abstract a requests).1 := by
  -- By induction on the requests, which are simulated one by one.
  induction requests generalizing s a with
  | nil => rfl
  | cons request rest ih =>
    obtain ⟨answer, related⟩ := simulates s a request (allowed [] request rest rfl) start
    have tail := ih (s := (step s request).2) (fun before request' after split =>
      allowed (request :: before) request' after (by rw [split]; rfl)) related
    simp only [runAll, answer, tail]

section Flag

variable {Base : σ → Prop} {flag : σ → Bool}
  (kept : ∀ s request, Base s → Base (step s request).2)
  (raised : ∀ s request, Base s → flag s = true → flag (step s request).2 = true)

include kept raised

/--
A flag no request lowers, seen lowered at the end of a run, was lowered all along.

The flag is how a run records that some resource it was promised gave out.
-/
theorem runState_flag {s : σ} {requests : List ι} (base : Base s)
    (clear : flag (runState step s requests) = false) : flag s = false := by
  induction requests generalizing s with
  | nil => exact clear
  | cons request rest ih =>
    -- Were the flag up now, it would be up after the first request too.
    have next : flag (step s request).2 = false := ih (kept s request base) clear
    cases now : flag s with
    | false => rfl
    | true => rw [raised s request base now] at next; exact next

/--
An invariant kept by each request that leaves the flag lowered holds after a whole run
that ends with it lowered.
-/
theorem runState_invariant_flag (Inv : σ → Prop) (Allowed : σ → ι → Prop)
    (preserved : ∀ s request, Allowed s request → Inv s → flag (step s request).2 = false →
      Inv (step s request).2)
    {s : σ} {requests : List ι}
    (allowed : ∀ before request after, requests = before ++ request :: after →
      Allowed (runState step s before) request)
    (base : Base s) (start : Inv s) (clear : flag (runState step s requests) = false) :
    Inv (runState step s requests) := by
  -- By induction on the requests: the flag is low at the end, so it was low all along.
  induction requests generalizing s with
  | nil => exact start
  | cons request rest ih =>
    rw [runState_cons] at clear ⊢
    have next := kept s request base
    have now : flag (step s request).2 = false := runState_flag step kept raised next clear
    refine ih ?_ next (preserved s request (allowed [] request rest rfl) start now) clear
    intro before request' after split
    exact allowed (request :: before) request' after (by rw [split]; rfl)

/--
Two systems related by a simulation give the same answers along every run.

The relation need only be carried over requests that leave the flag lowered.
-/
theorem runAll_simulates {abstract : τ → ι → ο × τ} {Related : σ → τ → Prop} {Allowed : ι → Prop}
    (simulates : ∀ s a request, Allowed request → Related s a → flag (step s request).2 = false →
      (step s request).1 = (abstract a request).1 ∧
        Related (step s request).2 (abstract a request).2)
    {s : σ} {a : τ} {requests : List ι} (allowed : ∀ request ∈ requests, Allowed request)
    (base : Base s) (start : Related s a) (clear : flag (runState step s requests) = false) :
    (runAll step s requests).1 = (runAll abstract a requests).1 := by
  -- By induction on the requests, with the relation carried along.
  induction requests generalizing s a with
  | nil => rfl
  | cons request rest ih =>
    rw [runState_cons] at clear
    have next := kept s request base
    have now : flag (step s request).2 = false := runState_flag step kept raised next clear
    obtain ⟨answer, related⟩ :=
      simulates s a request (allowed request List.mem_cons_self) start now
    have tail := ih (fun r member => allowed r (List.mem_cons_of_mem _ member)) next related clear
    simp only [runAll, answer, tail]

end Flag

end Runs

end MyOS
