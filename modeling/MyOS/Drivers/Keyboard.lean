import MyOS.Lib.FixedArray
import MyOS.Lib.Ring
import MyOS.Lib.Run

/-! The keyboard driver, whose interrupt puts keys into a ring while the main loop takes them out. -/

namespace MyOS.Drivers

/-- How many places the ring has. -/
def keyboardBufferSize : Nat := 128

/-- The key with the arrow up, which has no character. -/
def keyboardKeyUp : UInt16 := 0x0100

/-- The key with the arrow down, which has no character. -/
def keyboardKeyDown : UInt16 := 0x0101

/-- The variables of the driver, with a log of the keys that were put into the ring. -/
structure Keyboard where
  shiftPressed : Bool
  extendedPrefix : Bool
  keyBuffer : FixedArray 128 UInt16
  keyHead : UInt8
  keyTail : UInt8
  /-- Every key put in so far, oldest first. The driver does not keep this log. -/
  accepted : List UInt16

/-- The characters of the scancodes, from zero on. -/
def normalMap : List UInt8 :=
  [0, 27, 49, 50, 51, 52, 53, 54, 55, 56, 57, 48, 45, 61, 8,
    9, 113, 119, 101, 114, 116, 121, 117, 105, 111, 112, 91, 93, 10,
    0, 97, 115, 100, 102, 103, 104, 106, 107, 108, 59, 39, 96,
    0, 92, 122, 120, 99, 118, 98, 110, 109, 44, 46, 47, 0,
    42, 0, 32, 0]

/-- The characters of the scancodes while a shift key is held. -/
def shiftMap : List UInt8 :=
  [0, 27, 33, 64, 35, 36, 37, 94, 38, 42, 40, 41, 95, 43, 8,
    9, 81, 87, 69, 82, 84, 89, 85, 73, 79, 80, 123, 125, 10,
    0, 65, 83, 68, 70, 71, 72, 74, 75, 76, 58, 34, 126,
    0, 124, 90, 88, 67, 86, 66, 78, 77, 60, 62, 63, 0,
    42, 0, 32, 0]

/-- The position behind another one in the ring. -/
def nextKey (position : UInt8) : UInt8 := UInt8.ofNat ((position.toNat + 1) % keyboardBufferSize)

section Code

variable (s : Keyboard)

/-- A key goes in at the head, and is dropped where the ring is full. -/
def keyboardBufferPush (key : UInt16) : Keyboard :=
  let next := nextKey s.keyHead
  -- One place stays free, or a full ring would look like an empty one.
  if next == s.keyTail then s
  else
    { s with
      keyBuffer := s.keyBuffer.set s.keyHead.toNat key
      keyHead := next
      accepted := s.accepted ++ [key] }

/-- `keyboard_irq_handler`: a scancode comes in, and becomes a key or a mark of the driver. -/
def keyboardIrqHandler (scancode : UInt8) : Keyboard :=
  if scancode == 0xE0 then { s with extendedPrefix := true }
  -- The byte behind a prefix is looked at apart, and ends the prefix.
  else if s.extendedPrefix then
    let s := { s with extendedPrefix := false }
    -- Keys that are let go are of no interest.
    if scancode &&& 0x80 != 0 then s
    else if scancode == 0x48 then keyboardBufferPush s keyboardKeyUp
    else if scancode == 0x50 then keyboardBufferPush s keyboardKeyDown
    else s
  -- The two shift keys are held, and then let go.
  else if scancode == 0x2A || scancode == 0x36 then { s with shiftPressed := true }
  else if scancode == 0xAA || scancode == 0xB6 then { s with shiftPressed := false }
  else if scancode &&& 0x80 != 0 then s
  else
    let c := (if s.shiftPressed then shiftMap else normalMap).getD scancode.toNat 0
    -- Scancodes behind the tables have no character either.
    if c == 0 then s else keyboardBufferPush s c.toUInt16

/-- `keyboard_init`: no key is held, and none waits. -/
def keyboardInit : Keyboard :=
  { s with
    shiftPressed := false
    extendedPrefix := false
    keyHead := 0
    keyTail := 0 }

/-- `keyboard_has_key`: whether a key waits. -/
def keyboardHasKey : Bool := s.keyHead != s.keyTail

/-- What `keyboard_read_key` does when no interrupt comes in between. -/
def keyboardReadKey : Option UInt16 × Keyboard :=
  if s.keyHead == s.keyTail then (none, s)
  else (some (s.keyBuffer.get s.keyTail.toNat), { s with keyTail := nextKey s.keyTail })

end Code

/-- Where `keyboard_read_key` stands, between its accesses to what the interrupt uses too. -/
inductive ReadStage where
  | idle
  /-- The head was read, and is to be compared with the tail. -/
  | sawHead (head : UInt8)
  | notEmpty
  /-- The key was read, and the tail is to be moved. -/
  | loaded (key : UInt16)
  | removed (key : UInt16)
  deriving DecidableEq

/-- The driver with a reader in the middle of its work, and what that has done so far. -/
structure KeyRun where
  keyboard : Keyboard
  stage : ReadStage
  /-- How often the tail was moved. -/
  removed : Nat
  returned : List UInt16

/-- An interrupt with a scancode, or the next access of the reader. -/
inductive KeyEvent where
  | irq (scancode : UInt8)
  | reader
  deriving DecidableEq, Repr

/-- The next access of `keyboard_read_key`, which is called again once it has returned. -/
def readerStep (s : KeyRun) : KeyRun :=
  match s.stage with
  -- The head is read first, and may move on before it is compared.
  | .idle => { s with stage := .sawHead s.keyboard.keyHead }
  -- The call returns without a key, and the next one begins.
  | .sawHead head => { s with stage := if head == s.keyboard.keyTail then .idle else .notEmpty }
  | .notEmpty => { s with stage := .loaded (s.keyboard.keyBuffer.get s.keyboard.keyTail.toNat) }
  -- The place of the key is free from here on.
  | .loaded key =>
    { s with
      keyboard := { s.keyboard with keyTail := nextKey s.keyboard.keyTail }
      stage := .removed key
      removed := s.removed + 1 }
  | .removed key => { s with stage := .idle, returned := s.returned ++ [key] }

/-- One event, which gives no answer of its own. -/
def keyStep (s : KeyRun) : KeyEvent → Unit × KeyRun
  | .irq scancode => ((), { s with keyboard := keyboardIrqHandler s.keyboard scancode })
  | .reader => ((), readerStep s)

/-- A run of the driver from its start, with interrupts and accesses of the reader in any order. -/
def keyRun (loaded : Keyboard) (events : List KeyEvent) : KeyRun :=
  runState keyStep ⟨keyboardInit { loaded with accepted := [] }, .idle, 0, []⟩ events

section Laws

variable {s : Keyboard} {waiting : List UInt16} {key : UInt16}

/-- The keys between the tail and the head are those that wait. -/
def Keyboard.Waits (s : Keyboard) (waiting : List UInt16) : Prop :=
  InRing 128 s.keyBuffer.get s.keyTail.toNat s.keyHead.toNat waiting

/-- The position behind another one is the next number around the ring. -/
theorem toNat_nextKey (position : UInt8) : (nextKey position).toNat = (position.toNat + 1) % 128 := by
  -- The buffer has 128 places, so the position fits in its type.
  unfold nextKey keyboardBufferSize
  rw [UInt8.toNat_ofNat']
  omega

/-- A key is dropped exactly where all places of the ring but one are taken. -/
theorem full_iff (waits : s.Waits waiting) : nextKey s.keyHead = s.keyTail ↔ waiting.length = 127 := by
  -- The next place is the tail when one place less than all is taken.
  rw [← UInt8.toNat_inj, toNat_nextKey, waits.next_eq_iff]
  omega

/-- A key that is put in waits behind the others. -/
theorem keyboardBufferPush_waits (waits : s.Waits waiting) (space : waiting.length ≠ 127) (key : UInt16) :
    (keyboardBufferPush s key).Waits (waiting ++ [key]) ∧
      (keyboardBufferPush s key).accepted = s.accepted ++ [key] := by
  -- There is room for one more key, or the head would have been held back.
  have room := waits.room
  have free : ¬ (nextKey s.keyHead == s.keyTail) = true := fun same =>
    space ((full_iff waits).mp (beq_iff_eq.mp same))
  unfold keyboardBufferPush
  simp only [if_neg free, and_true]
  unfold Keyboard.Waits
  rw [toNat_nextKey]
  exact waits.push (by omega) (FixedArray.get_set_same _ _ waits.head_lt)
    fun k other => FixedArray.get_set_ne _ _ other

/-- Where the ring is full, nothing is done. -/
theorem keyboardBufferPush_full (waits : s.Waits waiting) (full : waiting.length = 127) (key : UInt16) :
    keyboardBufferPush s key = s :=
  if_pos (beq_iff_eq.mpr ((full_iff waits).mpr full))

/-- A step that puts at most one more key into the ring, and leaves the tail alone. -/
def Puts (s t : Keyboard) : Prop :=
  t.keyTail = s.keyTail ∧ ∀ {waiting}, s.Waits waiting →
    ∃ more, t.Waits (waiting ++ more) ∧ t.accepted = s.accepted ++ more

/-- A key that comes in is put behind the others or dropped. -/
theorem keyboardBufferPush_puts (s : Keyboard) (key : UInt16) : Puts s (keyboardBufferPush s key) := by
  -- Putting a key in moves the head only.
  constructor
  · unfold keyboardBufferPush
    simp only
    split <;> rfl
  · -- The ring is full, or has room for the key.
    intro waiting waits
    by_cases full : waiting.length = 127
    · refine ⟨[], ?_, ?_⟩
      · rw [keyboardBufferPush_full waits full, List.append_nil]
        exact waits
      · rw [keyboardBufferPush_full waits full, List.append_nil]
    · exact ⟨[key], keyboardBufferPush_waits waits full key⟩

/-- A step that only sets the marks of the driver puts no key into the ring. -/
theorem Puts.of_marks (s : Keyboard) (shift extended : Bool) :
    Puts s { s with shiftPressed := shift, extendedPrefix := extended } :=
  ⟨rfl, fun waits => ⟨[], by rw [List.append_nil]; exact waits, (List.append_nil _).symm⟩⟩

/-- The interrupt puts at most one key into the ring. -/
theorem keyboardIrqHandler_puts (s : Keyboard) (scancode : UInt8) :
    Puts s (keyboardIrqHandler s scancode) := by
  -- The branches of the handler set marks, put one key in, or do nothing.
  have pushes : ∀ key, Puts s (keyboardBufferPush { s with extendedPrefix := false } key) := fun key =>
    keyboardBufferPush_puts { s with extendedPrefix := false } key
  unfold keyboardIrqHandler
  by_cases first : (scancode == 0xE0) = true
  · rw [if_pos first]
    exact .of_marks s _ _
  rw [if_neg first]
  by_cases extended : s.extendedPrefix = true
  · -- The second byte of a key behind a prefix.
    rw [if_pos extended]
    simp only
    split
    · exact .of_marks s _ _
    · split
      · exact pushes _
      · split
        · exact pushes _
        · exact .of_marks s _ _
  · rw [if_neg extended]
    split
    · exact .of_marks s _ _
    · split
      · exact .of_marks s _ _
      · split
        · exact .of_marks s _ _
        · simp only
          generalize (if s.shiftPressed then shiftMap else normalMap).getD scancode.toNat 0 = c
          split
          · exact .of_marks s _ _
          · exact keyboardBufferPush_puts s _

end Laws

section Runs

variable {s : KeyRun} {waiting more : List UInt16}

/-- The key that was taken out of the ring and is not returned yet. -/
def ReadStage.inHand : ReadStage → List UInt16
  | .removed key => [key]
  | _ => []

/-- What the reader has seen is still so. -/
def ReadStage.Sees (tail : UInt8) (waiting : List UInt16) : ReadStage → Prop
  | .sawHead head => head ≠ tail → waiting ≠ []
  | .notEmpty => waiting ≠ []
  | .loaded key => waiting.head? = some key
  | _ => True

/-- Every key that was put in was returned, or is in the hand of the reader, or waits, in this order. -/
structure KeyRun.Ok (s : KeyRun) (waiting : List UInt16) : Prop where
  waits : s.keyboard.Waits waiting
  accepted : s.keyboard.accepted = s.returned ++ s.stage.inHand ++ waiting
  removed : s.removed = s.returned.length + s.stage.inHand.length
  sees : s.stage.Sees s.keyboard.keyTail waiting

/-- More keys behind those that wait do not change what the reader has seen. -/
theorem ReadStage.Sees.append {stage : ReadStage} {tail : UInt8} (sees : stage.Sees tail waiting)
    (more : List UInt16) : stage.Sees tail (waiting ++ more) := by
  -- The reader has seen the first of the keys at most.
  cases stage with
  | idle => trivial
  | sawHead head => exact fun other => List.append_ne_nil_of_left_ne_nil (sees other) more
  | notEmpty => exact List.append_ne_nil_of_left_ne_nil sees more
  | loaded key =>
    -- The key in its hand is still the first one that waits.
    obtain ⟨rest, rfl⟩ : ∃ rest, waiting = key :: rest := List.head?_eq_some_iff.mp sees
    rfl
  | removed key => trivial

/-- An interrupt at any point keeps the keys in order. -/
theorem KeyRun.Ok.irq (ok : s.Ok waiting) (scancode : UInt8) :
    ∃ more, (keyStep s (.irq scancode)).2.Ok (waiting ++ more) := by
  -- The key is put behind those that wait, which the reader does not look at.
  obtain ⟨tail, puts⟩ := keyboardIrqHandler_puts s.keyboard scancode
  obtain ⟨more, waits, accepted⟩ := puts ok.waits
  refine ⟨more, waits, ?_, ok.removed, ?_⟩
  · change (keyboardIrqHandler s.keyboard scancode).accepted = s.returned ++ s.stage.inHand ++ _
    rw [accepted, ok.accepted, List.append_assoc _ waiting]
  · change s.stage.Sees (keyboardIrqHandler s.keyboard scancode).keyTail _
    rw [tail]
    exact ok.sees.append more

/-- An access of the reader keeps the keys in order. -/
theorem KeyRun.Ok.reader (ok : s.Ok waiting) : ∃ waiting', (readerStep s).Ok waiting' := by
  -- The cases are the accesses of the reader, in their order.
  obtain ⟨keyboard, stage, removed, returned⟩ := s
  obtain ⟨waits, accepted, count, sees⟩ := ok
  cases stage with
  | idle =>
    -- The head that is read differs from the tail only where a key waits.
    refine ⟨waiting, waits, accepted, count, fun other => ?_⟩
    rintro rfl
    exact other (UInt8.toNat_inj.mp (waits.eq_iff.mpr rfl))
  -- An empty ring ends the call, or the reader knows that a key waits.
  | sawHead head =>
    unfold readerStep
    -- The head is as it was when it was read, or further on.
    by_cases empty : head = keyboard.keyTail
    · simp only [empty, beq_self_eq_true, if_true]
      exact ⟨waiting, waits, accepted, count, trivial⟩
    · simp only [beq_eq_false_iff_ne.mpr empty]
      exact ⟨waiting, waits, accepted, count, sees empty⟩
  | notEmpty =>
    -- The cell of the tail holds the first key that waits, whatever comes in behind it.
    obtain ⟨key, rest, rfl⟩ := List.exists_cons_of_ne_nil sees
    refine ⟨key :: rest, waits, accepted, count, ?_⟩
    change some key = some (keyboard.keyBuffer.get keyboard.keyTail.toNat)
    rw [waits.pop.1]
  -- The tail moves, and the key that waited first is in the hand of the reader.
  | loaded key =>
    obtain ⟨rest, rfl⟩ : ∃ rest, waiting = key :: rest := List.head?_eq_some_iff.mp sees
    refine ⟨rest, ?_, ?_, ?_, trivial⟩
    · change InRing 128 keyboard.keyBuffer.get (nextKey keyboard.keyTail).toNat _ rest
      rw [toNat_nextKey]
      exact waits.pop.2
    · change keyboard.accepted = returned ++ [key] ++ rest
      rw [accepted]
      simp [ReadStage.inHand]
    · change removed = returned.length + 0 at count
      change removed + 1 = returned.length + 1
      omega
  -- The key is returned, and counts as returned instead of as in hand.
  | removed key =>
    refine ⟨waiting, waits, ?_, ?_, trivial⟩
    · change keyboard.accepted = returned ++ [key] ++ [] ++ waiting
      rw [accepted, List.append_nil]
      rfl
    · change removed = returned.length + 1 at count
      change removed = (returned ++ [key]).length + 0
      rw [count, List.length_append, List.length_singleton]

/-- Every event keeps the keys in order. -/
theorem keyStep_ok (s : KeyRun) (event : KeyEvent) (ok : ∃ waiting, s.Ok waiting) :
    ∃ waiting, (keyStep s event).2.Ok waiting := by
  obtain ⟨waiting, ok⟩ := ok
  -- An event is an interrupt or an access of the reader.
  cases event with
  | irq scancode =>
    obtain ⟨more, ok⟩ := ok.irq scancode
    exact ⟨_, ok⟩
  | reader => exact ok.reader

/-- After every run the keys are in order. -/
theorem keyRun_ok (loaded : Keyboard) (events : List KeyEvent) :
    ∃ waiting, (keyRun loaded events).Ok waiting :=
  runState_invariant keyStep (fun s => ∃ waiting, s.Ok waiting)
    -- At the start nothing is in the ring, and the reader has seen nothing.
    (fun s event (_ : True) ok => keyStep_ok s event ok) (fun _ _ => trivial)
    ⟨[], .nil (show (0 : Nat) < 128 by decide) _, rfl, rfl, trivial⟩

section Progress

/-- How many accesses the reader is away from returning a key, if one waits. -/
def KeyRun.remaining (s : KeyRun) : Nat :=
  match s.stage with
  | .idle => 5
  -- A head that was read while the ring was empty costs the call, and another one begins.
  | .sawHead head => if head == s.keyboard.keyTail then 6 else 4
  | .notEmpty => 3
  | .loaded _ => 2
  | .removed _ => 1

/-- The reader is never at a key already, nor more than six accesses away. -/
theorem KeyRun.remaining_bounds (s : KeyRun) : 0 < s.remaining ∧ s.remaining ≤ 6 := by
  unfold KeyRun.remaining
  -- Only one of the stages depends on the ring.
  split
  case h_2 => split <;> decide
  all_goals decide

/-- As long as a key is missing the reader returns one, or comes closer to it. -/
theorem KeyRun.Ok.closer (ok : s.Ok waiting)
    (missing : s.returned.length < s.keyboard.accepted.length) :
    (readerStep s).returned.length = s.returned.length + 1 ∨
      (readerStep s).returned = s.returned ∧ (readerStep s).keyboard.accepted = s.keyboard.accepted ∧
        (readerStep s).remaining + 1 = s.remaining := by
  obtain ⟨keyboard, stage, removed, returned⟩ := s
  -- The cases are the accesses of the reader, in their order.
  cases stage with
  | idle =>
    right
    have accepted : keyboard.accepted = returned ++ [] ++ waiting := ok.accepted
    -- The key that is missing waits in the ring.
    have other : keyboard.keyHead ≠ keyboard.keyTail := by
      intro same
      obtain rfl : waiting = [] := ok.waits.eq_iff.mp (congrArg UInt8.toNat same)
      rw [accepted] at missing
      simp at missing
    refine ⟨rfl, rfl, ?_⟩
    simp [readerStep, KeyRun.remaining, other]
  | sawHead head =>
    right
    refine ⟨rfl, rfl, ?_⟩
    by_cases empty : head = keyboard.keyTail
    · simp [readerStep, KeyRun.remaining, empty]
    · simp [readerStep, KeyRun.remaining, empty]
  | notEmpty => exact Or.inr ⟨rfl, rfl, rfl⟩
  | loaded key => exact Or.inr ⟨rfl, rfl, rfl⟩
  | removed key => exact Or.inl (List.length_append ..)

/-- No event takes a key back that was returned. -/
theorem keyStep_returned (s : KeyRun) (event : KeyEvent) :
    s.returned.length ≤ (keyStep s event).2.returned.length := by
  cases event with
  | irq scancode => exact Nat.le_refl _
  | reader =>
    -- Only the last access adds to the list.
    change _ ≤ (readerStep s).returned.length
    obtain ⟨keyboard, stage, removed, returned⟩ := s
    cases stage with
    | removed key => exact (List.length_append ▸ Nat.le_add_right _ _)
    | _ => exact Nat.le_refl _

/-- No run takes a key back that was returned. -/
theorem runState_returned (s : KeyRun) (events : List KeyEvent) :
    s.returned.length ≤ (runState keyStep s events).returned.length :=
  runState_invariant keyStep (fun t => s.returned.length ≤ t.returned.length)
    -- Each event keeps what there is.
    (fun t event (_ : True) before => Nat.le_trans before (keyStep_returned t event))
    (fun _ _ => trivial) (Nat.le_refl _)

/-- As long as a key is missing, enough accesses of the reader return one. -/
theorem runState_returns (more : List KeyEvent) (ok : ∃ waiting, s.Ok waiting)
    (missing : s.returned.length < s.keyboard.accepted.length)
    (enough : s.remaining ≤ more.count .reader) :
    s.returned.length < (runState keyStep s more).returned.length := by
  -- By induction on the events, of which interrupts neither help nor hinder.
  induction more generalizing s with
  | nil =>
    have some_ := s.remaining_bounds.1
    rw [List.count_nil] at enough
    omega
  | cons event more ih =>
    have next := keyStep_ok s event ok
    rw [runState_cons]
    cases event with
    | irq scancode =>
      rw [List.count_cons_of_ne (show KeyEvent.irq scancode ≠ .reader from nofun)] at enough
      obtain ⟨tail, puts⟩ := keyboardIrqHandler_puts s.keyboard scancode
      obtain ⟨waiting, ok⟩ := ok
      obtain ⟨keys, -, accepted⟩ := puts ok.waits
      -- The tail stays, and so does the distance.
      have same : (keyStep s (.irq scancode)).2.remaining = s.remaining := by
        change KeyRun.remaining ⟨keyboardIrqHandler s.keyboard scancode, s.stage, _, _⟩ = _
        unfold KeyRun.remaining
        simp only [tail]
      refine ih next ?_ (by rw [same]; exact enough)
      change s.returned.length < (keyboardIrqHandler s.keyboard scancode).accepted.length
      rw [accepted, List.length_append]
      omega
    | reader =>
      rw [List.count_cons_self] at enough
      obtain ⟨waiting, ok⟩ := ok
      rcases ok.closer missing with returns | ⟨same, accepted, closer⟩
      · have later := runState_returned (keyStep s .reader).2 more
        change (readerStep s).returned.length ≤ _ at later
        omega
      · have fewer := @ih (keyStep s .reader).2 next
        change (readerStep s).returned.length < (readerStep s).keyboard.accepted.length →
          (readerStep s).remaining ≤ _ → (readerStep s).returned.length < _ at fewer
        rw [same, accepted] at fewer
        exact fewer missing (by omega)

end Progress

/--
After every run the keys that were returned are the first of those that were put in, in their order.

A key is dropped exactly where 127 keys were put in that the tail has not passed. As long as keys
are missing, six accesses of the reader return another one, whatever interrupts come in between.
-/
theorem keyRun_keys (loaded : Keyboard) (events : List KeyEvent) :
    let s := keyRun loaded events
    s.returned <+: s.keyboard.accepted ∧
      (s.stage = .idle → keyboardHasKey s.keyboard = false → s.returned = s.keyboard.accepted) ∧
      (∀ key, (keyboardBufferPush s.keyboard key = s.keyboard ∧
          s.keyboard.accepted.length = s.removed + 127) ∨
        ((keyboardBufferPush s.keyboard key).accepted = s.keyboard.accepted ++ [key] ∧
          s.keyboard.accepted.length < s.removed + 127)) ∧
      ∀ more, s.returned.length < s.keyboard.accepted.length → 6 ≤ more.count .reader →
        s.returned.length < (keyRun loaded (events ++ more)).returned.length := by
  obtain ⟨waiting, ok⟩ := keyRun_ok loaded events
  have later : ∀ more, keyRun loaded (events ++ more) = runState keyStep (keyRun loaded events) more :=
    fun more => runState_append keyStep _ events more
  -- The keys accepted are those returned, the one in hand, and those that wait.
  generalize keyRun loaded events = s at ok later
  have split : s.keyboard.accepted.length = s.removed + waiting.length := by
    rw [ok.accepted, ok.removed, List.length_append, List.length_append]
  have room : waiting.length < 128 := ok.waits.room
  refine ⟨?_, fun idle none_ => ?_, fun key => ?_, fun more missing enough => ?_⟩
  · rw [ok.accepted, List.append_assoc]
    exact List.prefix_append _ _
  · -- Nothing is in the hand of the reader, and nothing waits.
    have same : s.keyboard.keyHead = s.keyboard.keyTail := by
      simpa [keyboardHasKey] using none_
    have empty : waiting = [] := ok.waits.eq_iff.mp (congrArg UInt8.toNat same)
    have accepted := ok.accepted
    rw [idle, empty, List.append_nil] at accepted
    exact ((List.append_nil _).symm.trans accepted.symm)
  · -- The ring is full, or it is not.
    by_cases full : waiting.length = 127
    · exact Or.inl ⟨keyboardBufferPush_full ok.waits full key, by omega⟩
    · exact Or.inr ⟨(keyboardBufferPush_waits ok.waits full key).2, by omega⟩
  · -- The reader is never farther than six accesses away.
    rw [later]
    exact runState_returns more ⟨waiting, ok⟩ missing (Nat.le_trans s.remaining_bounds.2 enough)

/-- A key comes in between the reading of another one and the move of the tail, and both are returned. -/
theorem keyRun_keys_interrupted :
    let front : List KeyEvent := [.irq 0x1E, .reader, .reader, .reader, .irq 0x30, .reader, .reader]
    let s := keyRun ⟨false, false, .fill 0, 0, 0, []⟩ front
    s.returned = [97] ∧ s.keyboard.accepted = [97, 98] ∧
      1 < (keyRun ⟨false, false, .fill 0, 0, 0, []⟩
        (front ++ List.replicate 6 .reader)).returned.length := by
  -- Both runs are computed, and the general theorem gives the further key.
  intro front s
  have returned : s.returned = [97] := by decide
  have accepted : s.keyboard.accepted = [97, 98] := by decide
  obtain ⟨-, -, -, progress⟩ := keyRun_keys ⟨false, false, .fill 0, 0, 0, []⟩ front
  have more := progress (List.replicate 6 .reader) (by decide) (by decide)
  exact ⟨returned, accepted, more⟩

end Runs

end MyOS.Drivers
