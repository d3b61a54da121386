import MyOS.Lib.Bytes
import MyOS.Lib.Words
import Mathlib.Logic.Function.Iterate

/-! A part of the 32-bit Intel instruction set: how its instructions are encoded, and what they do. -/

namespace MyOS.Ia32

/-- The general registers, in the order of their numbers. -/
inductive Reg where
  | eax
  | ecx
  | edx
  | ebx
  | esp
  | ebp
  | esi
  | edi
  deriving DecidableEq

/-- The number of a register inside an instruction. -/
def Reg.number : Reg → UInt8
  | eax => 0
  | ecx => 1
  | edx => 2
  | ebx => 3
  | esp => 4
  | ebp => 5
  | esi => 6
  | edi => 7

/-- The register that the low three bits of a byte name. -/
def Reg.ofByte (byte : UInt8) : Reg :=
  -- A byte carries the number of a register below other bits.
  match (byte &&& 7).toNat with
  | 0 => eax
  | 1 => ecx
  | 2 => edx
  | 3 => ebx
  | 4 => esp
  | 5 => ebp
  | 6 => esi
  | _ => edi

/-- An instruction. Distances of jumps count from the instruction behind them. -/
inductive Instr where
  | movImm (reg : Reg) (value : UInt32)
  | dec (reg : Reg)
  | cmpImm (reg : Reg) (value : UInt8)
  /-- Store a word where a register points to. -/
  | storeImm (base : Reg) (value : UInt32)
  | jmpShort (distance : UInt8)
  | jmpNear (distance : UInt32)
  | je (distance : UInt8)
  | jne (distance : UInt8)
  | int (vector : UInt8)
  deriving DecidableEq

/-- The four bytes of a word, the lowest first. -/
def imm32 (value : UInt32) : List UInt8 :=
  [byteOf32 value 0, byteOf32 value 1, byteOf32 value 2, byteOf32 value 3]

namespace Instr

/-- The bytes of an instruction. -/
def encode : Instr → List UInt8
  -- One byte names the operation, and where the number of a register fits it is part of it.
  | movImm reg value => (0xB8 + reg.number) :: imm32 value
  | dec reg => [0x48 + reg.number]
  -- Otherwise the register is in a byte behind the operation.
  | cmpImm reg value => [0x83, 0xF8 + reg.number, value]
  | storeImm base value => 0xC7 :: base.number :: imm32 value
  | jmpShort distance => [0xEB, distance]
  | jmpNear distance => 0xE9 :: imm32 distance
  | je distance => [0x74, distance]
  | jne distance => [0x75, distance]
  | int vector => [0xCD, vector]

/-- Two registers cannot be the base of a store: their numbers stand for other forms of address. -/
def Valid : Instr → Prop
  | storeImm base _ => base ≠ .esp ∧ base ≠ .ebp
  | _ => True

end Instr

/-- The word that four fetched bytes spell. -/
def fetch32 (fetch : Nat → Option UInt8) (at_ : Nat) : Option UInt32 := do
  return word32 (← fetch at_) (← fetch (at_ + 1)) (← fetch (at_ + 2)) (← fetch (at_ + 3))

/-- The instruction at a place, with its length. -/
def decode (fetch : Nat → Option UInt8) : Option (Instr × Nat) := do
  let opcode ← fetch 0
  if opcode &&& 0xF8 = 0xB8 then return (.movImm (.ofByte opcode) (← fetch32 fetch 1), 5)
  else if opcode &&& 0xF8 = 0x48 then return (.dec (.ofByte opcode), 1)
  else if opcode = 0x83 then
    let modrm ← fetch 1
    -- Only the comparison of a register is among the instructions of this part.
    if modrm &&& 0xF8 = 0xF8 then return (.cmpImm (.ofByte modrm) (← fetch 2), 3) else none
  else if opcode = 0xC7 then
    let modrm ← fetch 1
    if modrm &&& 0xF8 = 0 ∧ modrm ≠ 4 ∧ modrm ≠ 5 then
      return (.storeImm (.ofByte modrm) (← fetch32 fetch 2), 6)
    else none
  else if opcode = 0xEB then return (.jmpShort (← fetch 1), 2)
  else if opcode = 0xE9 then return (.jmpNear (← fetch32 fetch 1), 5)
  else if opcode = 0x74 then return (.je (← fetch 1), 2)
  else if opcode = 0x75 then return (.jne (← fetch 1), 2)
  else if opcode = 0xCD then return (.int (← fetch 1), 2)
  else none

/-- The registers of the processor. -/
structure State where
  reg : Reg → UInt32
  eip : UInt32
  eflags : UInt32

/-- The place of the flag that tells a zero. -/
def zeroFlag : Nat := 6

/-- The flags that a subtraction sets, but for the carry. -/
def subtractionFlags (a b : UInt32) : UInt32 :=
  -- Parity of the low byte, carry out of the low digit, zero, sign and overflow.
  (if ((List.range 8).countP fun k => flagOf (a - b) k) % 2 = 0 then 0x4 else 0) |||
  (if a &&& 0xF < b &&& 0xF then 0x10 else 0) |||
  (if a - b = 0 then 0x40 else 0) |||
  (if flagOf (a - b) 31 then 0x80 else 0) |||
  (if flagOf ((a ^^^ b) &&& (a ^^^ (a - b))) 31 then 0x800 else 0)

/-- The flags after a comparison. -/
def compareFlags (a b eflags : UInt32) : UInt32 :=
  (eflags &&& ~~~0x8D5) ||| subtractionFlags a b ||| if a < b then 1 else 0

/-- The flags after a decrement, which leaves the carry alone. -/
def decrementFlags (a eflags : UInt32) : UInt32 := (eflags &&& ~~~0x8D4) ||| subtractionFlags a 1

/-- A byte as a number with a sign, in a word. -/
def signExtend (byte : UInt8) : UInt32 :=
  if byte < 0x80 then byte.toUInt32 else byte.toUInt32 ||| 0xFFFFFF00

/-- What an instruction leads to. -/
inductive Action where
  /-- Only registers change. -/
  | next (s : State)
  /-- A word is to be stored in memory, if it can be: an address without a writable page faults. -/
  | store (address value : UInt32) (s : State)
  /-- The program calls for an interrupt, behind which it goes on. -/
  | trap (vector : UInt8) (s : State)
  /-- There is no instruction of this part here. -/
  | fault

namespace State

variable (s : State)

/-- Replace a register. -/
def setReg (reg : Reg) (value : UInt32) : State := { s with reg := Function.update s.reg reg value }

/-- Go on a distance away. -/
def jump (distance : UInt32) : State := { s with eip := s.eip + distance }

/-- What an instruction does, once the processor is behind it. -/
def perform : Instr → Action
  | .movImm reg value => .next (s.setReg reg value)
  | .dec reg =>
    .next { s.setReg reg (s.reg reg - 1) with eflags := decrementFlags (s.reg reg) s.eflags }
  | .cmpImm reg value =>
    .next { s with eflags := compareFlags (s.reg reg) (signExtend value) s.eflags }
  | .storeImm base value => .store (s.reg base) value s
  | .jmpShort distance => .next (s.jump (signExtend distance))
  | .jmpNear distance => .next (s.jump distance)
  -- A jump on a condition goes on behind itself when the condition does not hold.
  | .je distance => .next (if flagOf s.eflags zeroFlag then s.jump (signExtend distance) else s)
  | .jne distance => .next (if flagOf s.eflags zeroFlag then s else s.jump (signExtend distance))
  | .int vector => .trap vector s

/-- What the processor does next, with the memory it fetches instructions from. -/
def act (fetch : UInt32 → Option UInt8) : Action :=
  match decode fun k => fetch (s.eip + UInt32.ofNat k) with
  | none => .fault
  | some (instr, length) => (s.jump (UInt32.ofNat length)).perform instr

end State

/-- The bytes of a piece of code lie in memory from an address on. -/
def CodeAt (fetch : UInt32 → Option UInt8) (address : UInt32) (code : List UInt8) : Prop :=
  ∀ k, k < code.length → fetch (address + UInt32.ofNat k) = some (code.getD k 0)

section Laws

/-- A register that was replaced. -/
@[simp] theorem State.setReg_reg_same (s : State) (reg : Reg) (value : UInt32) :
    (s.setReg reg value).reg reg = value := by
  simp [State.setReg]

/-- The number of a register is found again below an operation that leaves three bits for it. -/
theorem Reg.ofByte_add {operation : UInt8} (of : operation ∈ [0xB8, 0x48, 0xF8]) (reg : Reg) :
    (operation + reg.number) &&& 0xF8 = operation ∧ Reg.ofByte (operation + reg.number) = reg := by
  -- There are only a few operations and registers, so each pair can be looked at.
  simp only [List.mem_cons, List.not_mem_nil, or_false] at of
  rcases of with rfl | rfl | rfl <;> cases reg <;> decide

/-- A word is fetched from its four bytes. -/
theorem fetch32_imm32 {fetch : Nat → Option UInt8} {at_ : Nat} {value : UInt32}
    (stored : ∀ k, k < 4 → fetch (at_ + k) = some ((imm32 value).getD k 0)) :
    fetch32 fetch at_ = some value := by
  -- Each byte is fetched from its own address.
  have h0 := stored 0 (by omega)
  have h1 := stored 1 (by omega)
  have h2 := stored 2 (by omega)
  have h3 := stored 3 (by omega)
  simp only [Nat.add_zero, imm32, List.getD_cons_zero, List.getD_cons_succ] at h0 h1 h2 h3
  rw [fetch32, h0, h1, h2, h3]
  simp only [Option.bind_eq_bind, Option.bind_some, word32_byteOf32]
  rfl

/-- Decoding an instruction gives it back, with the length of its code. -/
theorem decode_encode {fetch : Nat → Option UInt8} (instr : Instr) (valid : instr.Valid)
    (stored : ∀ k, k < instr.encode.length → fetch k = some (instr.encode.getD k 0)) :
    decode fetch = some (instr, instr.encode.length) := by
  -- The first byte tells the operation, and the others the register and the word.
  have first := stored 0 (by cases instr <;> exact Nat.succ_pos _)
  cases instr with
  | movImm reg value =>
    have word : fetch32 fetch 1 = some value :=
      fetch32_imm32 fun k small => (stored (1 + k) (by simp [Instr.encode, imm32]; omega)).trans
        (by rw [Nat.add_comm]; rfl)
    obtain ⟨operation, register⟩ := Reg.ofByte_add (by simp : (0xB8 : UInt8) ∈ _) reg
    simp [decode, first, word, Instr.encode, operation, register, imm32]
  | dec reg =>
    obtain ⟨operation, register⟩ := Reg.ofByte_add (by simp : (0x48 : UInt8) ∈ _) reg
    simp [decode, first, Instr.encode, operation, register]
  | cmpImm reg value =>
    have modrm := stored 1 (by simp [Instr.encode])
    have byte := stored 2 (by simp [Instr.encode])
    obtain ⟨operation, register⟩ := Reg.ofByte_add (by simp : (0xF8 : UInt8) ∈ _) reg
    simp [decode, first, modrm, byte, Instr.encode, operation, register]
    rfl
  | storeImm base value =>
    have modrm := stored 1 (by simp [Instr.encode])
    have word : fetch32 fetch 2 = some value :=
      fetch32_imm32 fun k small => (stored (2 + k) (by simp [Instr.encode, imm32]; omega)).trans
        (by rw [Nat.add_comm]; rfl)
    -- The two registers that stand for other forms of address are excluded.
    have plain : base.number &&& 0xF8 = 0 ∧ ¬ base.number = 4 ∧ ¬ base.number = 5 ∧
        Reg.ofByte base.number = base := by
      obtain ⟨stack, frame⟩ := valid
      cases base <;> first | exact absurd rfl stack | exact absurd rfl frame | decide
    simp [decode, first, modrm, word, Instr.encode, plain, imm32]
    rfl
  | jmpNear distance =>
    have word : fetch32 fetch 1 = some distance :=
      fetch32_imm32 fun k small => (stored (1 + k) (by simp [Instr.encode, imm32]; omega)).trans
        (by rw [Nat.add_comm]; rfl)
    simp [decode, first, word, Instr.encode, imm32]
    rfl
  | jmpShort distance =>
    have byte := stored 1 (by simp [Instr.encode])
    simp [decode, first, byte, Instr.encode]
    rfl
  | je distance =>
    have byte := stored 1 (by simp [Instr.encode])
    simp [decode, first, byte, Instr.encode]
    rfl
  | jne distance =>
    have byte := stored 1 (by simp [Instr.encode])
    simp [decode, first, byte, Instr.encode]
    rfl
  | int vector =>
    have byte := stored 1 (by simp [Instr.encode])
    simp [decode, first, byte, Instr.encode]
    rfl

variable {fetch : UInt32 → Option UInt8} {address : UInt32} {first second : List UInt8}

/-- Pieces of code lie one behind the other. -/
theorem codeAt_append :
    CodeAt fetch address (first ++ second) ↔
      CodeAt fetch address first ∧ CodeAt fetch (address + UInt32.ofNat first.length) second := by
  constructor
  · intro stored
    refine ⟨fun k small => ?_, fun k small => ?_⟩
    · rw [stored k (by rw [List.length_append]; omega), List.getD_append _ _ _ _ small]
    · -- A place in the second piece is behind the whole first one.
      have here := stored (first.length + k) (by rw [List.length_append]; omega)
      rw [List.getD_append_right _ _ _ _ (by omega), Nat.add_sub_cancel_left, UInt32.ofNat_add,
        ← UInt32.add_assoc] at here
      exact here
  · rintro ⟨before, behind⟩ k small
    rw [List.length_append] at small
    by_cases inside : k < first.length
    · rw [before k inside, List.getD_append _ _ _ _ inside]
    · have here := behind (k - first.length) (by omega)
      rw [UInt32.add_assoc, ← UInt32.ofNat_add, Nat.add_sub_cancel' (by omega)] at here
      rw [here, List.getD_append_right _ _ _ _ (by omega)]

/-- The processor performs the instruction it stands at. -/
theorem State.act_of_code {s : State} {instr : Instr} (valid : instr.Valid)
    (stored : CodeAt fetch s.eip instr.encode) :
    s.act fetch = (s.jump (UInt32.ofNat instr.encode.length)).perform instr := by
  -- What is decoded is the instruction that is stored.
  rw [State.act, decode_encode instr valid stored]

/-- Of the flags of a subtraction, the one for zero tells whether the numbers are equal. -/
theorem flagOf_subtractionFlags (a b : UInt32) :
    flagOf (subtractionFlags a b) zeroFlag = decide (a = b) := by
  -- Each of the other flags is a digit of its own.
  have digit : ∀ (c : Prop) [Decidable c] (mask : UInt32), flagOf mask zeroFlag = false →
      flagOf (if c then mask else 0) zeroFlag = false := by
    intro c _ mask other
    split
    · exact other
    · rfl
  unfold subtractionFlags
  simp only [flagOf_or]
  rw [digit _ 0x4 rfl, digit _ 0x10 rfl, digit _ 0x80 rfl, digit _ 0x800 rfl]
  have same : a - b = 0 ↔ a = b := by grind
  by_cases equal : a = b
  · rw [if_pos (same.mpr equal), decide_eq_true equal]
    rfl
  · rw [if_neg (mt same.mp equal), decide_eq_false equal]
    rfl

/-- A comparison raises the flag for zero exactly for equal numbers. -/
theorem flagOf_compareFlags (a b eflags : UInt32) :
    flagOf (compareFlags a b eflags) zeroFlag = decide (a = b) := by
  -- The result is zero exactly where the numbers are equal, and the other masks leave the flag
  -- alone.
  have carry : flagOf (if a < b then 1 else 0) zeroFlag = false := by split <;> rfl
  have cleared : flagOf (~~~0x8D5) zeroFlag = false := rfl
  rw [compareFlags, flagOf_or, flagOf_or, flagOf_and, flagOf_subtractionFlags, carry, cleared]
  simp

/-- A decrement raises the flag for zero exactly where it arrives at zero. -/
theorem flagOf_decrementFlags (a eflags : UInt32) :
    flagOf (decrementFlags a eflags) zeroFlag = decide (a = 1) := by
  -- The result is zero exactly where the number was one, and the other masks leave the flag alone.
  have cleared : flagOf (~~~0x8D4) zeroFlag = false := rfl
  rw [decrementFlags, flagOf_or, flagOf_and, flagOf_subtractionFlags, cleared]
  simp

end Laws

end MyOS.Ia32
