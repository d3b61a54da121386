import MyOS.Lib.Run
import Mathlib.Algebra.Group.Nat.Defs

/-! The timer that counts time slices, and that no slice is lost or counted twice. -/

namespace MyOS.Timer

/-- The variables of the timer. -/
structure TimerState where
  timerTicks : UInt32
  timerFrequency : UInt32
  timesliceTicks : UInt32
  sliceRemaining : UInt32
  scheduleEventPending : UInt32
  deriving DecidableEq, Repr

/-- The variables as they are loaded. -/
def loadedTimer : TimerState := ⟨0, 100, 10, 10, 0⟩

section Code

variable (s : TimerState)

/-- A tick of the clock takes one off the slice, and an empty slice is an event and starts anew. -/
def timerIrqHandler : TimerState :=
  let s := { s with timerTicks := s.timerTicks + 1 }
  let s := if s.sliceRemaining > 0 then { s with sliceRemaining := s.sliceRemaining - 1 } else s
  if s.sliceRemaining == 0 then
    { s with
      scheduleEventPending := s.scheduleEventPending + 1
      sliceRemaining := s.timesliceTicks }
  else s

/-- `timer_init`: the clock is set, and the slice begins anew. -/
def timerInit (frequencyHz : UInt32) : TimerState :=
  -- A frequency of zero would not do, and the usual one is taken.
  let frequencyHz := if frequencyHz == 0 then 100 else frequencyHz
  { s with
    timerFrequency := frequencyHz
    timerTicks := 0
    scheduleEventPending := 0
    sliceRemaining := s.timesliceTicks }

/-- The length of a slice is set with interrupts off, and is never zero. -/
def timerSetTimeslice (ticks : UInt32) : TimerState :=
  -- A slice without ticks would never end.
  let ticks := if ticks == 0 then 1 else ticks
  { s with
    timesliceTicks := ticks
    sliceRemaining := ticks
    scheduleEventPending := 0 }

/-- The check and the use of an event are one step, since interrupts are off in between. -/
def timerTakeScheduleEvent : Bool × TimerState :=
  -- Without an event there is nothing to take.
  if s.scheduleEventPending == 0 then (false, s)
  else (true, { s with scheduleEventPending := s.scheduleEventPending - 1 })

/-- `timer_has_schedule_event`: whether an event waits. -/
def timerHasScheduleEvent : Bool := s.scheduleEventPending != 0

end Code

/-- What happens to the timer. -/
inductive TimerEvent where
  | irq
  | init (frequencyHz : UInt32)
  | setTimeslice (ticks : UInt32)
  | takeScheduleEvent
  deriving DecidableEq, Repr

/-- What has been seen since the slice was last set: its length, the ticks, and the events taken. -/
structure Tally where
  slice : Nat
  ticks : Nat
  taken : Nat
  deriving DecidableEq, Repr

namespace Tally

/-- The slices that have run out and were not taken yet. -/
def owed (tally : Tally) : Nat := tally.ticks / tally.slice - tally.taken

/-- The tally after an event, with what the timer answered. -/
def next (tally : Tally) (answer : Bool) : TimerEvent → Tally
  | .irq => { tally with ticks := tally.ticks + 1 }
  | .init _ => { tally with ticks := 0, taken := 0 }
  | .setTimeslice ticks => ⟨max ticks.toNat 1, 0, 0⟩
  | .takeScheduleEvent => if answer then { tally with taken := tally.taken + 1 } else tally

end Tally

/-- One event, with the answer of the timer. -/
def timerStep (s : TimerState) : TimerEvent → Bool × TimerState
  | .irq => (false, timerIrqHandler s)
  | .init frequencyHz => (false, timerInit s frequencyHz)
  | .setTimeslice ticks => (false, timerSetTimeslice s ticks)
  | .takeScheduleEvent => timerTakeScheduleEvent s

/-- One event on the timer, and on the tally that is kept of it. -/
def talliedStep (s : TimerState × Tally) (event : TimerEvent) : Bool × (TimerState × Tally) :=
  -- The tally hears what the timer answers.
  let (answer, timer) := timerStep s.1 event
  (answer, timer, s.2.next answer event)

/-- The timer after it was started and events happened, with the tally of them. -/
def timerRun (frequencyHz : UInt32) (events : List TimerEvent) : TimerState × Tally :=
  runState talliedStep (timerInit loadedTimer frequencyHz, ⟨10, 0, 0⟩) events

/-- The timer is as the tally says. -/
structure Counts (s : TimerState) (tally : Tally) : Prop where
  slice : s.timesliceTicks.toNat = tally.slice
  positive : 0 < tally.slice
  remaining : s.sliceRemaining.toNat = tally.slice - tally.ticks % tally.slice
  pending : s.scheduleEventPending.toNat = tally.owed
  taken : tally.taken ≤ tally.ticks / tally.slice

variable {s : TimerState} {tally : Tally}

/-- With no tick counted yet the whole slice is left. -/
theorem Counts.fresh {slice : Nat} (length : s.timesliceTicks.toNat = slice) (positive : 0 < slice)
    (remaining : s.sliceRemaining = s.timesliceTicks) (pending : s.scheduleEventPending = 0) :
    Counts s ⟨slice, 0, 0⟩ := by
  -- Nothing was counted, so nothing is owed.
  refine ⟨length, positive, ?_, ?_, Nat.zero_le _⟩
  · rw [remaining, length]
    simp
  · rw [pending]
    simp [Tally.owed]

/-- A count goes on within a slice, or ends it. -/
theorem succ_div_mod (ticks : Nat) {slice : Nat} (positive : 0 < slice) :
    (ticks % slice + 1 = slice ∧ (ticks + 1) / slice = ticks / slice + 1 ∧ (ticks + 1) % slice = 0) ∨
      (ticks % slice + 1 < slice ∧ (ticks + 1) / slice = ticks / slice ∧
        (ticks + 1) % slice = ticks % slice + 1) := by
  -- The count is what is in whole slices, and a rest.
  have parts : ticks + 1 = ticks % slice + 1 + slice * (ticks / slice) := by
    have := Nat.div_add_mod ticks slice
    omega
  have small := Nat.mod_lt ticks positive
  -- The rest with one more is still less than a slice, or is one.
  rcases Nat.lt_or_ge (ticks % slice + 1) slice with within | ends
  · refine Or.inr ⟨within, ?_, ?_⟩
    · rw [parts, Nat.add_mul_div_left _ _ positive, Nat.div_eq_of_lt within, Nat.zero_add]
    · rw [parts, Nat.add_mul_mod_self_left, Nat.mod_eq_of_lt within]
  · have whole : ticks % slice + 1 = slice := by omega
    refine Or.inl ⟨whole, ?_, ?_⟩
    · rw [parts, Nat.add_mul_div_left _ _ positive, whole, Nat.div_self positive, Nat.add_comm]
    · rw [parts, Nat.add_mul_mod_self_left, whole, Nat.mod_self]

/-- A tick counts, as long as the pending events can be counted. -/
theorem timerIrqHandler_counts (counts : Counts s tally)
    (few : (tally.next false .irq).owed < 2 ^ 32) :
    Counts (timerIrqHandler s) (tally.next false .irq) := by
  -- A tick is left of the slice, since the rest of the ticks is less than a slice.
  have remaining := counts.remaining
  have left := Nat.mod_lt tally.ticks counts.positive
  have goes : s.sliceRemaining > 0 := by
    rw [gt_iff_lt, UInt32.lt_iff_toNat_lt]
    change 0 < _
    omega
  have less : (s.sliceRemaining - 1).toNat = s.sliceRemaining.toNat - 1 :=
    UInt32.toNat_sub_of_le _ _ (UInt32.le_iff_toNat_le.mpr (by change 1 ≤ _; omega))
  have pending := counts.pending
  have taken := counts.taken
  unfold timerIrqHandler
  simp only [if_pos goes, beq_iff_eq]
  rcases succ_div_mod tally.ticks counts.positive with ⟨ends, quotient, rest⟩ | ⟨within, quotient, rest⟩
  · -- The last tick of a slice makes an event, and the next slice begins.
    have empty : s.sliceRemaining - 1 = 0 := by
      apply UInt32.toNat_inj.mp
      rw [less]
      change _ = 0
      omega
    have owed : (tally.next false .irq).owed = tally.owed + 1 := by
      change (tally.ticks + 1) / tally.slice - tally.taken = tally.ticks / tally.slice - tally.taken + 1
      omega
    rw [if_pos empty]
    refine ⟨counts.slice, counts.positive, ?_, ?_, ?_⟩
    · change s.timesliceTicks.toNat = tally.slice - (tally.ticks + 1) % tally.slice
      rw [rest, counts.slice, Nat.sub_zero]
    · rw [owed] at few ⊢
      change (s.scheduleEventPending + 1).toNat = _
      rw [UInt32.toNat_add, pending]
      exact Nat.mod_eq_of_lt few
    · change tally.taken ≤ (tally.ticks + 1) / tally.slice
      omega
  · -- The slice goes on, and no event is made.
    have some_ : ¬ s.sliceRemaining - 1 = 0 := by
      intro empty
      have zero := congrArg UInt32.toNat empty
      rw [less] at zero
      change _ = 0 at zero
      omega
    rw [if_neg some_]
    refine ⟨counts.slice, counts.positive, ?_, ?_, ?_⟩
    · change (s.sliceRemaining - 1).toNat = tally.slice - (tally.ticks + 1) % tally.slice
      omega
    · change s.scheduleEventPending.toNat = (tally.ticks + 1) / tally.slice - tally.taken
      rw [quotient]
      exact pending
    · change tally.taken ≤ (tally.ticks + 1) / tally.slice
      omega

/-- An event can be taken exactly where one is owed, and one less is owed then. -/
theorem timerTakeScheduleEvent_counts (counts : Counts s tally) :
    ((timerTakeScheduleEvent s).1 = true ↔ 0 < tally.owed) ∧
      Counts (timerTakeScheduleEvent s).2
        (tally.next (timerTakeScheduleEvent s).1 .takeScheduleEvent) := by
  -- There is an event or there is none, and the tally says so too.
  have pending := counts.pending
  unfold timerTakeScheduleEvent
  by_cases none_ : s.scheduleEventPending = 0
  · rw [if_pos (beq_iff_eq.mpr none_)]
    rw [none_] at pending
    change 0 = _ at pending
    exact ⟨⟨nofun, fun some_ => by omega⟩, counts⟩
  · -- An event waits, so that one is owed, and one less afterwards.
    have some_ : 0 < tally.owed := by
      rw [← pending]
      exact Nat.pos_of_ne_zero fun zero => none_ (UInt32.toNat_inj.mp zero)
    rw [if_neg (fun same => none_ (beq_iff_eq.mp same))]
    refine ⟨iff_of_true rfl some_, counts.slice, counts.positive, counts.remaining, ?_, ?_⟩
    · change (s.scheduleEventPending - 1).toNat = tally.ticks / tally.slice - (tally.taken + 1)
      rw [UInt32.toNat_sub_of_le _ _ (UInt32.le_iff_toNat_le.mpr (by change 1 ≤ _; omega)), pending]
      change tally.ticks / tally.slice - tally.taken - 1 = _
      omega
    · change tally.taken + 1 ≤ tally.ticks / tally.slice
      unfold Tally.owed at some_
      omega

/-- Every event keeps the count, as long as the pending events can be counted. -/
theorem talliedStep_counts (event : TimerEvent) (counts : Counts s tally)
    (few : (talliedStep (s, tally) event).2.2.owed < 2 ^ 32) :
    Counts (talliedStep (s, tally) event).2.1 (talliedStep (s, tally) event).2.2 := by
  -- Each event is counted, or begins a new count.
  cases event with
  | irq => exact timerIrqHandler_counts counts few
  | init frequencyHz => exact .fresh counts.slice counts.positive rfl rfl
  | setTimeslice ticks =>
    -- A length of zero is taken as one.
    have length : (if ticks == 0 then 1 else ticks).toNat = max ticks.toNat 1 := by
      by_cases zero : ticks = 0
      · rw [if_pos (beq_iff_eq.mpr zero), zero]
        rfl
      · have positive : ticks.toNat ≠ 0 := fun same => zero (UInt32.toNat_inj.mp same)
        rw [if_neg (fun same => zero (beq_iff_eq.mp same))]
        omega
    exact .fresh length (by omega) rfl rfl
  | takeScheduleEvent => exact (timerTakeScheduleEvent_counts counts).2

/--
After every run in which there are never too many pending events to count, the ticks that are left
of the slice and the pending events are those that the ticks so far call for.
-/
theorem timerRun_counts (frequencyHz : UInt32) (events : List TimerEvent)
    (few : ∀ i, i ≤ events.length → (timerRun frequencyHz (events.take i)).2.owed < 2 ^ 32) :
    let (timer, tally) := timerRun frequencyHz events
    timer.timesliceTicks.toNat = tally.slice ∧
      (1 ≤ timer.sliceRemaining.toNat ∧ timer.sliceRemaining.toNat ≤ tally.slice) ∧
      tally.taken ≤ tally.ticks / tally.slice ∧
      timer.scheduleEventPending.toNat = tally.ticks / tally.slice - tally.taken ∧
      ((timerTakeScheduleEvent timer).1 = true ↔ 0 < tally.ticks / tally.slice - tally.taken) := by
  -- The start is a fresh count of slices with ten ticks.
  have start : Counts (timerInit loadedTimer frequencyHz) ⟨10, 0, 0⟩ := .fresh rfl (by decide) rfl rfl
  have counts : Counts (timerRun frequencyHz events).1 (timerRun frequencyHz events).2 := by
    refine runState_invariant_along talliedStep (fun s => Counts s.1 s.2)
      (fun s event => (talliedStep s event).2.2.owed < 2 ^ 32)
      (fun s event fits counts => talliedStep_counts event counts fits) ?_ start
    -- The bound on pending events holds before every event of the run.
    rintro before event after rfl
    have here := few (before.length + 1) (by simp)
    rw [List.take_length_add_append] at here
    unfold timerRun at here
    rw [runState_append] at here
    exact here
  generalize timerRun frequencyHz events = final at counts
  obtain ⟨timer, tally⟩ := final
  -- What the timer holds is read off the count.
  have left : tally.ticks % tally.slice < tally.slice := Nat.mod_lt _ counts.positive
  have remaining : timer.sliceRemaining.toNat = tally.slice - tally.ticks % tally.slice := counts.remaining
  exact ⟨counts.slice, ⟨by omega, by omega⟩, counts.taken, counts.pending,
    (timerTakeScheduleEvent_counts counts).1⟩

/-- A slice of two ticks, three ticks, and one event that can be taken once. -/
def smallTicks : List TimerEvent := [.setTimeslice 2, .irq, .irq, .takeScheduleEvent, .irq]

/-- Three ticks in slices of two owe one event, which was taken. -/
theorem timerRun_counts_small :
    (timerRun 100 smallTicks).2 = ⟨2, 3, 1⟩ ∧
      (timerRun 100 smallTicks).1.scheduleEventPending.toNat = 3 / 2 - 1 := by
  have counts := timerRun_counts 100 smallTicks (by decide)
  exact ⟨by decide, counts.2.2.2.1⟩

end MyOS.Timer
