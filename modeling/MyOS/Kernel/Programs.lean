import MyOS.Kernel.Usermode

/-! The programs of the kernel, which it puts together instruction by instruction. -/

namespace MyOS.Kernel

open MyOS.Mm

/-- The number of the program that says hello. -/
def processAppHello : UInt32 := 1

/-- The number of the program that counts. -/
def processAppCounter : UInt32 := 2

/-- The number of the program that keeps the processor busy. -/
def processAppBusy : UInt32 := 3

/-- An image that is being put together, with the place of its next byte. -/
structure Emitter where
  image : FixedArray 4096 UInt8
  offset : Nat

namespace Emitter

/-- The image as `memset` leaves it, before the first byte. -/
def start : Emitter := ⟨FixedArray.fill 0, 0⟩

variable (e : Emitter)

/-- One byte of the image replaced. -/
def setByte (at_ : Nat) (value : UInt8) : Emitter := { e with image := e.image.set at_ value }

/-- Four bytes of the image replaced by those of a word, the lowest first. -/
def setWord (at_ : Nat) (word : UInt32) : Emitter :=
  (((e.setByte at_ (byteOf32 word 0)).setByte (at_ + 1) (byteOf32 word 1)).setByte (at_ + 2)
    (byteOf32 word 2)).setByte (at_ + 3) (byteOf32 word 3)

/-- `emit_u8` -/
def emitU8 (value : UInt8) : Emitter := ⟨e.image.set e.offset value, e.offset + 1⟩

/-- `emit_u32`: the lowest byte goes first. -/
def emitU32 (value : UInt32) : Emitter :=
  (((e.emitU8 (byteOf32 value 0)).emitU8 (byteOf32 value 1)).emitU8 (byteOf32 value 2)).emitU8
    (byteOf32 value 3)

/-- The loop that copies a message behind the code. -/
def emitMessage (message : List UInt8) : Emitter := message.foldl emitU8 e

/-- `patch_message_address`: complete an instruction that loads the address of a message. -/
def patchMessageAddress (instructionOffset msgOffset : Nat) : Emitter :=
  -- The operation takes one byte, and the address the four behind it.
  e.setWord (instructionOffset + 1) (processUserCodeBase + UInt32.ofNat msgOffset)

/-- A number moved to the register of the call. -/
def emitMovEax (value : UInt32) : Emitter := (e.emitU8 0xB8).emitU32 value

/-- A number moved to the register of the first argument. -/
def emitMovEbx (value : UInt32) : Emitter := (e.emitU8 0xBB).emitU32 value

/-- A number moved to the register of the second argument, which also counts. -/
def emitMovEcx (value : UInt32) : Emitter := (e.emitU8 0xB9).emitU32 value

/-- The interrupt with which a program calls the kernel. -/
def emitInt80 : Emitter := (e.emitU8 0xCD).emitU8 0x80

/-- `emit_write_string`: the call that writes a message, with the place where its address is missing. -/
def emitWriteString (message : List UInt8) : Emitter × Nat :=
  let e := e.emitMovEax sysWrite
  ((((e.emitMovEbx 0).emitMovEcx (UInt32.ofNat message.length)).emitInt80), e.offset)

/-- `emit_yield` -/
def emitYield : Emitter := (e.emitMovEax sysYield).emitInt80

/-- `emit_memdemo_op` -/
def emitMemdemoOp (op page : UInt32) : Emitter :=
  (((e.emitMovEax sysMemdemoOp).emitMovEbx op).emitMovEcx page).emitInt80

/-- `emit_user_write_eax`: a word is stored where the last answer points to. -/
def emitUserWriteEax (value : UInt32) : Emitter := ((e.emitU8 0xC7).emitU8 0x00).emitU32 value

/-- `emit_memdemo_reset` -/
def emitMemdemoReset : Emitter := (e.emitMovEax sysMemdemoReset).emitInt80

/-- `emit_vm_alloc` -/
def emitVmAlloc (page : UInt32) : Emitter := ((e.emitMovEax sysVmAlloc).emitMovEbx page).emitInt80

/-- `emit_vm_sample` -/
def emitVmSample : Emitter := (e.emitMovEax sysVmSample).emitInt80

/-- `emit_spawn_app` -/
def emitSpawnApp (appId : UInt32) : Emitter :=
  ((e.emitMovEax sysSpawnApp).emitMovEbx appId).emitInt80

/-- `emit_pager_trace_reset` -/
def emitPagerTraceReset : Emitter := (e.emitMovEax sysPagerTraceReset).emitInt80

/-- `emit_rel32`: complete a jump whose distance was not known. -/
def emitRel32 (patchOffset : Nat) (rel : Int) : Emitter := e.setWord patchOffset (UInt32.ofInt rel)

/-- `emit_wait_memdemo_report`: ask for the record of an event again and again, until it is there. -/
def emitWaitMemdemoReport (sequence : UInt32) : Emitter :=
  let loopStart := e.offset
  let e := ((e.emitMovEax sysMemdemoReport).emitMovEbx sequence).emitInt80
  -- The answer is compared with 1.
  let e := ((e.emitU8 0x83).emitU8 0xF8).emitU8 0x01
  let e := e.emitU8 0x74
  let jePatch := e.offset
  let e := e.emitU8 0x00
  -- The event has not happened yet, and others run before the next try.
  let e := e.emitYield
  let e := e.emitU8 0xE9
  let jmpPatch := e.offset
  let e := e.emitU32 0
  let readyOffset := e.offset
  let e := e.setByte jePatch (UInt8.ofNat (readyOffset - (jePatch + 1)))
  e.emitRel32 jmpPatch ((loopStart : Int) - ((jmpPatch : Int) + 4))

/-- `emit_exit`: should the call come back, the program stays where it is. -/
def emitExit (exitCode : UInt32) : Emitter :=
  ((((e.emitMovEax sysExit).emitMovEbx exitCode).emitInt80).emitU8 0xEB).emitU8 0xFE

/-- The loop of the busy program, which counts down to zero. -/
def emitBusyLoop (count : UInt32) : Emitter :=
  (((e.emitMovEcx count).emitU8 0x49).emitU8 0x75).emitU8 0xFD

end Emitter

/-- `build_hello_image`, with its size as the place behind it. -/
def buildHelloImage : Emitter :=
  let message := textBytes "hello from user process\n"
  let e := Emitter.start.emitMovEax sysWrite
  let e := ((e.emitMovEbx 0).emitMovEcx (UInt32.ofNat message.length)).emitInt80
  let e := (((e.emitMovEax sysExit).emitMovEbx 0).emitInt80.emitU8 0xEB).emitU8 0xFE
  let msgOffset := e.offset
  let e := e.emitMessage message
  -- The address is written at a place that is known in advance.
  e.setWord 6 (processUserCodeBase + UInt32.ofNat msgOffset)

/-- `build_busy_image` -/
def buildBusyImage : Emitter :=
  let msg1 := textBytes "busy step 1\n"
  let msg2 := textBytes "busy step 2\n"
  let msg3 := textBytes "busy step 3\n"
  let (e, patch1) := Emitter.start.emitWriteString msg1
  let e := e.emitBusyLoop 0x02000000
  let (e, patch2) := e.emitWriteString msg2
  let e := e.emitBusyLoop 0x02000000
  let (e, patch3) := e.emitWriteString msg3
  let e := e.emitExit 0
  let msg1Offset := e.offset
  let e := e.emitMessage msg1
  let msg2Offset := e.offset
  let e := e.emitMessage msg2
  let msg3Offset := e.offset
  let e := e.emitMessage msg3
  ((e.patchMessageAddress patch1 msg1Offset).patchMessageAddress patch2 msg2Offset).patchMessageAddress
    patch3 msg3Offset

/-- `build_counter_image` -/
def buildCounterImage : Emitter :=
  let msg1 := textBytes "counter step 1\n"
  let msg2 := textBytes "counter step 2\n"
  let msg3 := textBytes "counter step 3\n"
  let (e, patch1) := Emitter.start.emitWriteString msg1
  let e := e.emitYield
  let (e, patch2) := e.emitWriteString msg2
  let e := e.emitYield
  let (e, patch3) := e.emitWriteString msg3
  let e := e.emitExit 0
  let msg1Offset := e.offset
  let e := e.emitMessage msg1
  let msg2Offset := e.offset
  let e := e.emitMessage msg2
  let msg3Offset := e.offset
  let e := e.emitMessage msg3
  ((e.patchMessageAddress patch1 msg1Offset).patchMessageAddress patch2 msg2Offset).patchMessageAddress
    patch3 msg3Offset

/-- `build_spawner_image` -/
def buildSpawnerImage : Emitter :=
  let msg1 := textBytes "spawner: hello child created\n"
  let msg2 := textBytes "spawner: exiting\n"
  let e := Emitter.start.emitSpawnApp processAppHello
  let (e, patch1) := e.emitWriteString msg1
  let e := e.emitYield
  let (e, patch2) := e.emitWriteString msg2
  let e := e.emitExit 0
  let msg1Offset := e.offset
  let e := e.emitMessage msg1
  let msg2Offset := e.offset
  let e := e.emitMessage msg2
  (e.patchMessageAddress patch1 msg1Offset).patchMessageAddress patch2 msg2Offset

/-- What `build_memalloc_image` does in each of its steps, and to which page. -/
def memallocOps : List (UInt32 × UInt32) :=
  [(memdemoOpAlloc, 0), (memdemoOpAlloc, 1), (memdemoOpTouch, 0), (memdemoOpAlloc, 3),
    (memdemoOpFree, 1), (memdemoOpAlloc, 2), (memdemoOpTouch, 3), (memdemoOpFree, 0)]

/-- `build_memalloc_image` -/
def buildMemallocImage : Emitter :=
  let e := Emitter.start.emitMemdemoReset
  let e := (List.range memdemoEventCount).foldl (fun e i =>
    let (op, page) := memallocOps.getD i (0, 0)
    let e := e.emitMemdemoOp op page
    -- A page that was given back cannot be written to.
    let e := if op != memdemoOpFree then
        e.emitUserWriteEax ((0xA1100000 : UInt32) ||| (UInt32.ofNat i <<< 8) ||| page)
      else e
    e.emitYield) e
  e.emitExit 0

/-- `build_memtrack_image` -/
def buildMemtrackImage : Emitter :=
  let e := (List.range memdemoEventCount).foldl (fun e i =>
    (e.emitWaitMemdemoReport (UInt32.ofNat (i + 1))).emitYield) Emitter.start
  e.emitExit 0

/-- `build_pagerdemo_image` -/
def buildPagerdemoImage : Emitter :=
  let startMsg := textBytes "pagerdemo: user process starts\n"
  let doneMsg := textBytes "pagerdemo: done, run pager to inspect victim trace\n"
  let (e, startPatch) := Emitter.start.emitWriteString startMsg
  let e := e.emitPagerTraceReset
  -- One page more than there are frames.
  let e := (List.range (pagerFrameLimit + 1)).foldl (fun e i => e.emitVmAlloc (UInt32.ofNat i)) e
  let e := (List.range (pagerFrameLimit - 1)).foldl (fun e i =>
    (e.emitVmAlloc (UInt32.ofNat i)).emitUserWriteEax ((0xD0A00000 : UInt32) ||| UInt32.ofNat i)) e
  let e := e.emitVmSample
  let e := (e.emitVmAlloc 0).emitUserWriteEax 0xD0A01000
  let e := (e.emitVmAlloc (UInt32.ofNat (pagerFrameLimit - 1))).emitUserWriteEax
    (0xD0A02000 ||| UInt32.ofNat (pagerFrameLimit - 1))
  let e := (e.emitVmAlloc (UInt32.ofNat pagerFrameLimit)).emitUserWriteEax
    (0xD0A03000 ||| UInt32.ofNat pagerFrameLimit)
  let (e, donePatch) := e.emitWriteString doneMsg
  let e := e.emitExit 0
  let startMsgOffset := e.offset
  let e := e.emitMessage startMsg
  let doneMsgOffset := e.offset
  let e := e.emitMessage doneMsg
  (e.patchMessageAddress startPatch startMsgOffset).patchMessageAddress donePatch doneMsgOffset

/-- The programs of the kernel. -/
inductive Builtin where
  | hello
  | counter
  | busy
  | spawner
  | memalloc
  | memtrack
  | pagerdemo
  deriving DecidableEq

/-- The names that `process_build_builtin_image` compares with, in its order. -/
def builtinNames : List (String × Builtin) :=
  [("hello", .hello), ("counter", .counter), ("busy", .busy), ("spawner", .spawner),
    ("memalloc", .memalloc), ("memtrack", .memtrack), ("pagerdemo", .pagerdemo)]

/-- The image of a program, with its size. -/
def Builtin.image : Builtin → Emitter
  | hello => buildHelloImage
  | counter => buildCounterImage
  | busy => buildBusyImage
  | spawner => buildSpawnerImage
  | memalloc => buildMemallocImage
  | memtrack => buildMemtrackImage
  | pagerdemo => buildPagerdemoImage

/-- `process_build_builtin_image`, for a buffer that is there and takes a whole image. -/
def processBuildBuiltinImage (name : List UInt8) : Option Emitter :=
  -- A name that no program has builds nothing.
  (builtinNames.find? fun entry => textBytes entry.1 == name).map fun entry => entry.2.image

end MyOS.Kernel
