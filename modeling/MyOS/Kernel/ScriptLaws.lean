import MyOS.Kernel.Scripts

/-! What the image of a script holds, byte by byte, however it was put together. -/

namespace MyOS.Kernel

open MyOS.Mm MyOS.Ia32

/-- An image holds some bytes from its start on, as far as they fit, and the next byte goes behind them. -/
structure Emitter.Holds (e : Emitter) (bytes : List UInt8) : Prop where
  offset : e.offset = bytes.length
  image : ∀ k, k < 4096 → e.image.get k = bytes.getD k 0

/-- Reading a list behind its first part. -/
theorem getD_middle {α : Type} (before after : List α) (value default : α) {k : Nat} :
    (before ++ value :: after).getD k default =
      if k = before.length then value else (before ++ default :: after).getD k default := by
  -- The three places of an index: in the first part, at the value, and behind it.
  rcases Nat.lt_trichotomy k before.length with below | rfl | above
  · rw [if_neg (by omega), List.getD_append _ _ _ _ below, List.getD_append _ _ _ _ below]
  · rw [if_pos rfl, List.getD_append_right _ _ _ _ (le_refl _), Nat.sub_self, List.getD_cons_zero]
  · rw [if_neg (by omega), List.getD_append_right _ _ _ _ (by omega),
      List.getD_append_right _ _ _ _ (by omega)]
    obtain ⟨j, shifted⟩ : ∃ j, k - before.length = j + 1 := ⟨k - before.length - 1, by omega⟩
    rw [shifted, List.getD_cons_succ, List.getD_cons_succ]

namespace Emitter.Holds

variable {e e' : Emitter} {bytes before after : List UInt8}

/-- Nothing has been put into a new image. -/
theorem start : Emitter.start.Holds [] :=
  ⟨rfl, fun _ inside => FixedArray.get_fill 0 inside⟩

/-- The bytes determine the image. -/
theorem unique (holds : e.Holds bytes) (holds' : e'.Holds bytes) : e = e' := by
  -- Both images hold the same bytes, and both end behind the last.
  obtain ⟨image, offset⟩ := e
  obtain ⟨image', offset'⟩ := e'
  obtain rfl : offset = offset' := holds.offset.trans holds'.offset.symm
  congr
  exact FixedArray.ext_get fun k inside => (holds.image k inside).trans (holds'.image k inside).symm

/-- One more byte. -/
theorem emitU8 (holds : e.Holds bytes) (value : UInt8) : (e.emitU8 value).Holds (bytes ++ [value]) := by
  refine ⟨by rw [List.length_append, ← holds.offset]; rfl, fun k inside => ?_⟩
  change (e.image.set e.offset value).get k = _
  rw [FixedArray.get_set _ _ inside, holds.offset, holds.image k inside, getD_middle]
  -- Behind the bytes there are zeros, as there were before.
  split
  · rfl
  · rcases Nat.lt_or_ge k bytes.length with below | above
    · rw [List.getD_append _ _ _ _ below]
    · rw [List.getD_append_right _ _ _ _ above, List.getD_eq_default _ _ above]
      rcases k - bytes.length with _ | j <;> rfl

/-- Any number of bytes. -/
theorem emitMessage (holds : e.Holds bytes) (message : List UInt8) :
    (e.emitMessage message).Holds (bytes ++ message) := by
  -- By induction on the message, whose first byte goes behind those that are there.
  induction message generalizing e bytes with
  | nil => rwa [List.append_nil]
  | cons first rest ih =>
    have next := ih (holds.emitU8 first)
    rwa [List.append_assoc] at next

/-- A byte inside the image replaced. -/
theorem setByte {at_ : Nat} {old : UInt8} (holds : e.Holds bytes)
    (split : bytes = before ++ old :: after) (place : at_ = before.length) (value : UInt8) :
    (e.setByte at_ value).Holds (before ++ value :: after) := by
  -- The byte replaced keeps its place, the others are before or behind it.
  subst split place
  refine ⟨holds.offset.trans (by simp), fun k inside => ?_⟩
  change (e.image.set before.length value).get k = _
  rw [FixedArray.get_set _ _ inside, holds.image k inside, getD_middle before after old,
    getD_middle before after value]
  split <;> rfl

/-- A word inside the image replaced. -/
theorem setWord {at_ : Nat} {old : UInt32} (holds : e.Holds bytes)
    (split : bytes = before ++ imm32 old ++ after) (place : at_ = before.length) (word : UInt32) :
    (e.setWord at_ word).Holds (before ++ imm32 word ++ after) := by
  -- The bytes are replaced one by one, each behind the ones replaced before.
  have first := holds.setByte (show bytes = before ++ byteOf32 old 0 :: (byteOf32 old 1 ::
    byteOf32 old 2 :: byteOf32 old 3 :: after) by simp [split, imm32]) place (byteOf32 word 0)
  have second := first.setByte (show _ = (before ++ [byteOf32 word 0]) ++ byteOf32 old 1 ::
    (byteOf32 old 2 :: byteOf32 old 3 :: after) by simp)
    (show at_ + 1 = _ by simp [place]) (byteOf32 word 1)
  have third := second.setByte (show _ = (before ++ [byteOf32 word 0, byteOf32 word 1]) ++
    byteOf32 old 2 :: (byteOf32 old 3 :: after) by simp)
    (show at_ + 2 = _ by simp [place]) (byteOf32 word 2)
  have fourth := third.setByte (show _ = (before ++ [byteOf32 word 0, byteOf32 word 1,
    byteOf32 word 2]) ++ byteOf32 old 3 :: after by simp)
    (show at_ + 3 = _ by simp [place]) (byteOf32 word 3)
  simpa [imm32, Emitter.setWord] using fourth

end Emitter.Holds

/-- A program that waits for the record of an event jumps over its second part, or back to its start. -/
theorem emitWaitMemdemoReport_eq {e : Emitter} {bytes : List UInt8} (holds : e.Holds bytes)
    (sequence : UInt32) :
    e.emitWaitMemdemoReport sequence =
      e.emitMessage (encodeAll ((Statement.await sequence).code 0)) := by
  -- The code up to the first distance, the code up to the second one, and the two distances.
  let front := encodeAll (loads [(.eax, sysMemdemoReport), (.ebx, sequence)] ++
    [.int 0x80, .cmpImm .eax 1]) ++ [0x74]
  let middle := encodeAll (loads [(.eax, sysYield)] ++ [.int 0x80]) ++ [0xE9]
  let raw := e.emitMessage (front ++ 0 :: (middle ++ imm32 0))
  have shape : e.emitWaitMemdemoReport sequence =
      (raw.setByte (e.offset + 16) (UInt8.ofNat (e.offset + 29 - (e.offset + 16 + 1)))).setWord
        (e.offset + 25) (UInt32.ofInt ((e.offset : Int) - ((e.offset + 25 : Nat) + 4))) := rfl
  -- The first distance leads behind the whole, the second one back to the start.
  have ahead : UInt8.ofNat (e.offset + 29 - (e.offset + 16 + 1)) = 12 := by
    rw [show e.offset + 29 - (e.offset + 16 + 1) = 12 by omega]
    rfl
  have back : (e.offset : Int) - ((e.offset + 25 : Nat) + 4) = -29 := by omega
  have first := (holds.emitMessage (front ++ 0 :: (middle ++ imm32 0))).setByte
    (List.append_assoc bytes front _).symm
    (show e.offset + 16 = _ by rw [List.length_append, ← holds.offset]; rfl) 12
  have second := first.setWord (show _ = (bytes ++ front ++ 12 :: middle) ++ imm32 0 ++ [] by simp)
    (show e.offset + 25 = _ by
      rw [List.length_append, List.length_append, ← holds.offset, Nat.add_assoc]
      rfl) (UInt32.ofInt (-29))
  have whole := holds.emitMessage (encodeAll ((Statement.await sequence).code 0))
  rw [shape, ahead, back]
  refine second.unique ?_
  simpa [front, middle, encodeAll, Statement.code, loads, Instr.encode] using whole

/-- A statement puts its code into the image, with a zero for the address of its message. -/
theorem Statement.emit_eq {e : Emitter} {bytes : List UInt8} (holds : e.Holds bytes)
    (statement : Statement) :
    (statement.emit e).1 = e.emitMessage (encodeAll (statement.code 0)) ∧
      (statement.emit e).2 = statement.text?.toList.map fun message => (bytes.length + 5, message) := by
  rw [← holds.offset]
  cases statement with
  | write message => exact ⟨rfl, rfl⟩
  | ask service => cases service <;> exact ⟨rfl, rfl⟩
  | storeAnswer value => exact ⟨rfl, rfl⟩
  | busy count => exact ⟨rfl, rfl⟩
  -- The only statement whose code is completed after it was put there.
  | await sequence => exact ⟨emitWaitMemdemoReport_eq holds sequence, rfl⟩

/-- A statement that writes nothing has the same code wherever messages are. -/
theorem Statement.code_of_silent {statement : Statement} (silent : statement.text? = none)
    (address : UInt32) : statement.code address = statement.code 0 := by
  -- One case for each statement, only a message has an address.
  cases statement with
  | write message => cases silent
  | ask service | storeAnswer value | busy count | await sequence => rfl

/-- A statement that writes a message is the statement to write it. -/
theorem Statement.eq_write {statement : Statement} {message : List UInt8}
    (writes : statement.text? = some message) : statement = .write message := by
  -- No other statement has a text.
  cases statement with
  | write text =>
    cases writes
    rfl
  | ask service | storeAnswer value | busy count | await sequence => cases writes

/-- The length of the code of a statement does not depend on the place of its message. -/
theorem Statement.code_length (statement : Statement) (address : UInt32) :
    (encodeAll (statement.code address)).length = (encodeAll (statement.code 0)).length := by
  cases statement <;> rfl

/-- The length of the code does not depend on where the messages are. -/
theorem laid_length (place : Option Nat) (statements : List Statement) :
    (laid place statements).length = (laid none statements).length := by
  -- By induction on the statements.
  induction statements generalizing place with
  | nil => rfl
  | cons statement rest ih =>
    rw [laid, laid, List.length_append, List.length_append, ih, ih (Option.map _ none),
      statement.code_length]
    rfl

/-- Where the addresses of the messages of some statements are missing, with the messages. -/
def missing : Nat → List Statement → List (Nat × List UInt8)
  | _, [] => []
  | at_, statement :: rest =>
    (statement.text?.toList.map fun message => (at_ + 5, message)) ++
      missing (at_ + (encodeAll (statement.code 0)).length) rest

/-- Where the addresses of messages are missing, with the places of the messages. -/
def patches : Nat → Nat → List Statement → List (Nat × Nat)
  | _, _, [] => []
  | at_, place, statement :: rest =>
    (statement.text?.toList.map fun _ => (at_ + 5, place)) ++
      patches (at_ + (encodeAll (statement.code 0)).length) (place + statement.message.length) rest

/-- Statements put their code into the image, and all addresses of messages are missing. -/
theorem emitStatements_eq {e : Emitter} {bytes : List UInt8} (holds : e.Holds bytes)
    (statements : List Statement) :
    (emitStatements statements e).1.Holds (bytes ++ laid none statements) ∧
      (emitStatements statements e).2 = missing bytes.length statements := by
  -- By induction on the statements, the first of which is put behind the bytes that are there.
  induction statements generalizing e bytes with
  | nil => exact ⟨by rwa [laid, List.append_nil], rfl⟩
  | cons statement rest ih =>
    obtain ⟨code, patches⟩ := statement.emit_eq holds
    have next := holds.emitMessage (encodeAll (statement.code 0))
    rw [← code] at next
    obtain ⟨image, later⟩ := ih next
    refine ⟨?_, ?_⟩
    · rw [List.append_assoc] at image
      exact image
    · change (statement.emit e).2 ++ (emitStatements rest (statement.emit e).1).2 = _
      rw [patches, later, List.length_append]
      rfl

/-- Messages are put one behind the other. -/
theorem emitMessages_eq {e : Emitter} {bytes : List UInt8} (holds : e.Holds bytes) (at_ : Nat)
    (statements : List Statement) :
    (emitMessages (missing at_ statements) e).1.Holds (bytes ++ messages statements) ∧
      (emitMessages (missing at_ statements) e).2 = patches at_ bytes.length statements := by
  -- By induction on the statements, of which only some bring a message along.
  induction statements generalizing e bytes at_ with
  | nil => exact ⟨by rwa [messages, List.flatMap_nil, List.append_nil], rfl⟩
  | cons statement rest ih =>
    rw [missing, patches, messages, List.flatMap_cons, Statement.message]
    cases statement.text? with
    | none => exact ih holds _
    | some message =>
      obtain ⟨image, later⟩ := ih (holds.emitMessage message)
        (at_ + (encodeAll (statement.code 0)).length)
      refine ⟨by rwa [List.append_assoc] at image, ?_⟩
      change (at_ + 5, e.offset) :: (emitMessages
        (missing (at_ + (encodeAll (statement.code 0)).length) rest) (e.emitMessage message)).2 = _
      rw [later, List.length_append, holds.offset]
      rfl

/-- The address of a message is completed. -/
theorem Emitter.Holds.patch {e : Emitter} {before after message : List UInt8}
    (holds : e.Holds (before ++ encodeAll ((Statement.write message).code 0) ++ after)) (place : Nat) :
    (e.patchMessageAddress (before.length + 5) place).Holds (before ++
      encodeAll ((Statement.write message).code (processUserCodeBase + UInt32.ofNat place)) ++
        after) := by
  -- The address is between the operation and the rest of the call.
  let head := encodeAll [.movImm .eax sysWrite] ++ [0xBB]
  let tail := encodeAll [.movImm .ecx (UInt32.ofNat message.length), .int 0x80]
  have code : ∀ address, encodeAll ((Statement.write message).code address) =
      head ++ imm32 address ++ tail := fun _ => rfl
  rw [code] at holds ⊢
  have patched := holds.setWord
    (show _ = (before ++ head) ++ imm32 0 ++ (tail ++ after) by simp)
    (show before.length + 5 + 1 = _ by rw [List.length_append]; rfl)
    (processUserCodeBase + UInt32.ofNat place)
  simpa [Emitter.patchMessageAddress] using patched

/-- Completing the addresses turns the code without places into that with places. -/
theorem patchMessages_eq {e : Emitter} {before after : List UInt8} (place : Nat)
    {statements : List Statement} (holds : e.Holds (before ++ laid none statements ++ after)) :
    (patchMessages e (patches before.length place statements)).Holds
      (before ++ laid (some place) statements ++ after) := by
  -- By induction on the statements; the code of the first one belongs to what is before the others.
  induction statements generalizing e before place with
  | nil => exact holds
  | cons statement rest ih =>
    have holds : e.Holds (before ++ encodeAll (statement.code 0) ++ (laid none rest ++ after)) := by
      simpa [laid] using holds
    rw [laid, patches, ← List.append_assoc before]
    cases text : statement.text? with
    | none =>
      have done := ih (place + statement.message.length) (by rwa [List.append_assoc] : e.Holds
        ((before ++ encodeAll (statement.code 0)) ++ laid none rest ++ after))
      rw [List.length_append] at done
      simp only [Option.elim_some, Statement.code_of_silent text (_ + _)]
      exact done
    | some message =>
      obtain rfl := Statement.eq_write text
      have patched := holds.patch place
      rw [← List.append_assoc] at patched
      have done := ih (place + message.length) patched
      rw [List.length_append, Statement.code_length] at done
      exact done

/-- The image of a script holds its code, the code with which it ends, and its messages. -/
theorem assemble_holds (script : Script) : (assemble script).Holds script.bytes := by
  obtain ⟨code, absent⟩ := emitStatements_eq .start script.statements
  have ending := code.emitMessage (encodeAll (exitInstrs script.exitCode))
  have length : ([] ++ laid none script.statements ++
      encodeAll (exitInstrs script.exitCode)).length = script.codeLength := List.length_append
  -- The messages go behind the code, and their addresses into it.
  obtain ⟨texts, places⟩ := emitMessages_eq ending 0 script.statements
  rw [length] at places
  rw [List.nil_append, List.append_assoc, ← List.nil_append (laid _ _)] at texts
  have done := patchMessages_eq script.codeLength texts
  change (patchMessages (emitMessages (emitStatements script.statements Emitter.start).2
    ((emitStatements script.statements Emitter.start).1.emitExit script.exitCode)).1
    (emitMessages (emitStatements script.statements Emitter.start).2
      ((emitStatements script.statements Emitter.start).1.emitExit script.exitCode)).2).Holds _
  have exits : ∀ e : Emitter, e.emitExit script.exitCode =
      e.emitMessage (encodeAll (exitInstrs script.exitCode)) := fun _ => rfl
  rw [absent, exits, List.length_nil, places, Script.bytes, List.append_assoc]
  exact done

end MyOS.Kernel
