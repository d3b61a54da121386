import MyOS.Kernel.ScriptLaws

/-! The processor runs the image of a script: it does what the script says, whatever it is answered. -/

namespace MyOS.Kernel

open MyOS.Mm MyOS.Ia32

variable {fetch : UInt32 → Option UInt8} {s t u : Session} {cpu : State} {answers : List UInt32}
  {trace deeds : List Deed}

/-- A memory in which every store goes through. -/
def anywhere (_ : List Deed) (_ : UInt32) : Bool := true

/-- A step of a program whose stores all go through. -/
def freeStep (fetch : UInt32 → Option UInt8) : Session → Session := sessionStep fetch anywhere

/-- A program gets from one point to another, if its stores go through. -/
def Leads (fetch : UInt32 → Option UInt8) (s t : Session) : Prop := ∃ n, (freeStep fetch)^[n] s = t

/-- A program comes to rest, and has done what a trace says, if its stores go through. -/
def Settles (fetch : UInt32 → Option UInt8) (s : Session) (trace : List Deed) : Prop :=
  ∃ t, Leads fetch s t ∧ freeStep fetch t = t ∧ t.trace = trace ∧ t.phase ≠ .faulted

namespace Leads

/-- Doing nothing leads nowhere else. -/
theorem refl (s : Session) : Leads fetch s s := ⟨0, rfl⟩

/-- One step. -/
theorem step (next : freeStep fetch s = t) : Leads fetch s t := ⟨1, next⟩

/-- What leads to a session leads to what that leads to. -/
theorem trans (first : Leads fetch s t) (second : Leads fetch t u) : Leads fetch s u := by
  -- The numbers of steps add up.
  obtain ⟨n, rfl⟩ := first
  obtain ⟨m, rfl⟩ := second
  exact ⟨m + n, Function.iterate_add_apply _ _ _ _⟩

/-- What comes to rest later comes to rest. -/
theorem settles (first : Leads fetch s t) (settles : Settles fetch t trace) : Settles fetch s trace := by
  obtain ⟨u, second, rest, done, sound⟩ := settles
  exact ⟨u, first.trans second, rest, done, sound⟩

end Leads

/-- At rest a program stays as it is, if its stores go through. -/
theorem Settles.eventually (settles : Settles fetch s trace) :
    (∃ n, ∀ m, n ≤ m → ((freeStep fetch)^[m] s).trace = trace) ∧
      ∀ m, ((freeStep fetch)^[m] s).phase ≠ .faulted := by
  obtain ⟨t, ⟨n, leads⟩, rest, done, sound⟩ := settles
  have later : ∀ m, n ≤ m → (freeStep fetch)^[m] s = t := by
    intro m late
    obtain ⟨k, rfl⟩ := Nat.exists_eq_add_of_le' late
    rw [Function.iterate_add_apply, leads]
    exact Function.iterate_fixed rest k
  refine ⟨⟨n, fun m late => by rw [later m late, done]⟩, fun m faulted => ?_⟩
  -- A program that has faulted would still be so when it comes to rest.
  have stuck : freeStep fetch ((freeStep fetch)^[m] s) = (freeStep fetch)^[m] s := by
    unfold freeStep at faulted ⊢
    rw [sessionStep, faulted]
  have same := later (n + m) (Nat.le_add_right _ _)
  rw [Function.iterate_add_apply, Function.iterate_fixed stuck] at same
  exact sound (same ▸ faulted)

section Granted

variable {writable : List Deed → UInt32 → Bool}

/-- What goes through comes first. -/
theorem granted_prefix (writable : List Deed → UInt32 → Bool) (done todo : List Deed) :
    granted writable done todo <+: todo := by
  -- By induction on what is to be done, of which a store may be the last thing.
  induction todo generalizing done with
  | nil => exact List.prefix_refl _
  | cons deed rest ih =>
    cases deed with
    | asked request => exact List.cons_prefix_cons.mpr ⟨rfl, ih _⟩
    | stored address value =>
      unfold granted
      split
      · exact List.cons_prefix_cons.mpr ⟨rfl, ih _⟩
      · exact List.nil_prefix

/-- Where all goes through, it is followed by what goes through behind it. -/
theorem granted_append {done first : List Deed} (all : granted writable done first = first)
    (second : List Deed) :
    granted writable done (first ++ second) = first ++ granted writable (done ++ first) second := by
  -- By induction on the first part, none of which is held up.
  induction first generalizing done with
  | nil => rw [List.append_nil]; rfl
  | cons deed rest ih =>
    cases deed with
    | asked request =>
      have rest_ := ih (List.cons.inj all).2
      rw [List.append_assoc] at rest_
      exact congrArg (List.cons _) rest_
    | stored address value =>
      unfold granted at all
      split at all
      · next goes =>
        have rest_ := ih (List.cons.inj all).2
        rw [List.append_assoc] at rest_
        rw [List.cons_append, granted, if_pos goes, rest_]
        rfl
      · cases all

/-- Behind a store that does not go through nothing is done. -/
theorem granted_append_stopped {done first : List Deed} (stopped : granted writable done first ≠ first)
    (second : List Deed) : granted writable done (first ++ second) = granted writable done first := by
  -- By induction on the first part, up to the store.
  induction first generalizing done with
  | nil => exact absurd rfl stopped
  | cons deed rest ih =>
    cases deed with
    | asked request =>
      have later : granted writable (done ++ [.asked request]) rest ≠ rest :=
        fun all => stopped (congrArg (List.cons _) all)
      exact congrArg (List.cons _) (ih later)
    | stored address value =>
      rw [List.cons_append]
      unfold granted at stopped ⊢
      split
      · next goes =>
        rw [if_pos goes] at stopped
        exact congrArg (List.cons _) (ih fun all => stopped (congrArg (List.cons _) all))
      · rfl

/-- A step is that of a program whose stores go through, or the store that does not. -/
theorem sessionStep_cases (fetch : UInt32 → Option UInt8) (writable : List Deed → UInt32 → Bool)
    (s : Session) :
    (sessionStep fetch writable s = freeStep fetch s ∧ ∃ more,
      (freeStep fetch s).trace = s.trace ++ more ∧ granted writable s.trace more = more) ∨
    ∃ address value, sessionStep fetch writable s = { s with phase := .pageFault address } ∧
      (freeStep fetch s).trace = s.trace ++ [.stored address value] ∧
      writable s.trace address = false := by
  have still : ∀ t : Session, t.trace = s.trace → ∃ more, t.trace = s.trace ++ more ∧
      granted writable s.trace more = more := fun t same => ⟨[], by rw [same, List.append_nil], rfl⟩
  obtain ⟨phase, answers, trace⟩ := s
  cases phase with
  | running cpu =>
    unfold freeStep sessionStep
    simp only
    -- Only a store depends on memory.
    cases cpu.act fetch with
    | next cpu => exact Or.inl ⟨rfl, still _ rfl⟩
    | fault => exact Or.inl ⟨rfl, still _ rfl⟩
    | trap vector cpu =>
      left
      simp only [Session.obey]
      split
      · exact ⟨trivial, [.asked (requestOf fetch cpu)], rfl, rfl⟩
      · exact ⟨trivial, still _ rfl⟩
    | store address value cpu =>
      simp only [Session.obey]
      cases goes : writable trace address with
      | true =>
        refine Or.inl ⟨rfl, [.stored address value], rfl, ?_⟩
        simp only [granted, goes, if_true]
      | false => exact Or.inr ⟨address, value, rfl, rfl, goes⟩
  | asking cpu =>
    left
    cases answers with
    | nil => exact ⟨rfl, still _ rfl⟩
    | cons answer rest => exact ⟨rfl, still _ rfl⟩
  | ended | pageFault | faulted => exact Or.inl ⟨rfl, still _ rfl⟩

/-- A program whose stores go through does more and more. -/
theorem freeRun_trace (fetch : UInt32 → Option UInt8) (s : Session) (n : Nat) :
    s.trace <+: ((freeStep fetch)^[n] s).trace := by
  -- By induction on the steps, each of which adds to what was done.
  induction n with
  | zero => exact List.prefix_refl _
  | succ n ih =>
    rw [Function.iterate_succ_apply']
    refine ih.trans ?_
    rcases sessionStep_cases fetch anywhere ((freeStep fetch)^[n] s) with
      ⟨-, more, trace, -⟩ | ⟨address, value, -, trace, -⟩
    · exact ⟨more, trace.symm⟩
    · exact ⟨_, trace.symm⟩

/-- Where every store goes through there is no page fault. -/
theorem freeRun_phase {s : Session} (sound : ∀ address, s.phase ≠ .pageFault address) (n : Nat)
    (address : UInt32) : ((freeStep fetch)^[n] s).phase ≠ .pageFault address := by
  -- By induction on the steps: no action leads to a page fault.
  induction n with
  | zero => exact sound address
  | succ n ih =>
    rw [Function.iterate_succ_apply']
    generalize (freeStep fetch)^[n] s = t at ih
    obtain ⟨phase, answers, trace⟩ := t
    intro faults
    cases phase with
    | running cpu =>
      change (Session.obey fetch anywhere ⟨.running cpu, answers, trace⟩ (cpu.act fetch)).phase = _ at faults
      cases here : cpu.act fetch with
      | trap vector cpu =>
        rw [here] at faults
        simp only [Session.obey, Session.ask] at faults
        split at faults
        · split at faults <;> cases faults
        · cases faults
      | next | store | fault =>
        rw [here] at faults
        cases faults
    | asking cpu => cases answers <;> cases faults
    | pageFault => exact ih faults
    | ended | faulted => cases faults

/--
A program does what it does with stores that all go through, up to the first that does not.

There it stops with a page fault.
-/
theorem run_follows (writable : List Deed → UInt32 → Bool) {s : Session} (fresh : s.trace = [])
    (n : Nat) :
    (granted writable [] ((freeStep fetch)^[n] s).trace = ((freeStep fetch)^[n] s).trace ∧
      (sessionStep fetch writable)^[n] s = (freeStep fetch)^[n] s) ∨
    (granted writable [] ((freeStep fetch)^[n] s).trace ≠ ((freeStep fetch)^[n] s).trace ∧
      ((sessionStep fetch writable)^[n] s).trace = granted writable [] ((freeStep fetch)^[n] s).trace ∧
      ∃ address, ((sessionStep fetch writable)^[n] s).phase = .pageFault address) := by
  -- By induction on the steps, one of which may be the store that does not go through.
  induction n with
  | zero =>
    left
    refine ⟨?_, rfl⟩
    rw [Function.iterate_zero_apply, fresh]
    rfl
  | succ n ih =>
    rw [Function.iterate_succ_apply', Function.iterate_succ_apply']
    generalize (freeStep fetch)^[n] s = free at ih ⊢
    generalize (sessionStep fetch writable)^[n] s = real at ih ⊢
    rcases ih with ⟨all, rfl⟩ | ⟨stopped, trace, address, phase⟩
    · rcases sessionStep_cases fetch writable real with
        ⟨same, more, trace, goes⟩ | ⟨address, value, stops, trace, held⟩
      · left
        rw [trace, granted_append all, List.nil_append, goes]
        exact ⟨rfl, same⟩
      · right
        have nothing : granted writable real.trace [.stored address value] = [] := by
          unfold granted
          rw [if_neg (by rw [held]; exact Bool.false_ne_true)]
        rw [trace, granted_append all, List.nil_append, nothing, List.append_nil, stops]
        exact ⟨by simp, rfl, address, rfl⟩
    · -- The program has stopped, and whatever would follow is not done.
      right
      obtain ⟨more, further⟩ := freeRun_trace fetch free 1
      have stays : sessionStep fetch writable real = real := by
        rw [sessionStep, phase]
      change free.trace ++ more = (freeStep fetch free).trace at further
      rw [← further, granted_append_stopped stopped, stays]
      refine ⟨fun all => stopped ?_, trace, address, phase⟩
      have whole := granted_prefix writable [] free.trace
      rw [all] at whole
      obtain rfl : more = [] := by
        have short := whole.length_le
        rw [List.length_append] at short
        exact List.length_eq_zero_iff.mp (by omega)
      rw [all, List.append_nil]

/-- A program that comes to rest with stores that go through does the same up to a store that does not. -/
theorem Settles.granted (settles : Settles fetch ⟨.running cpu, answers, []⟩ deeds)
    (writable : List Deed → UInt32 → Bool) :
    (∃ n, ∀ m, n ≤ m → ((sessionStep fetch writable)^[m] ⟨.running cpu, answers, []⟩).trace =
      granted writable [] deeds) ∧
    (∀ m, ((sessionStep fetch writable)^[m] ⟨.running cpu, answers, []⟩).phase ≠ .faulted) ∧
    ((∃ m address, ((sessionStep fetch writable)^[m] ⟨.running cpu, answers, []⟩).phase =
      .pageFault address) ↔ MyOS.Kernel.granted writable [] deeds ≠ deeds) := by
  obtain ⟨⟨n, rest⟩, sound⟩ := settles.eventually
  have follows := fun m => @run_follows fetch writable ⟨.running cpu, answers, []⟩ rfl m
  refine ⟨⟨n, fun m late => ?_⟩, fun m faulted => ?_, ?_⟩
  · rcases follows m with ⟨all, same⟩ | ⟨-, trace, -⟩
    · rw [same, ← rest m late, all]
    · rw [trace, rest m late]
  · -- Neither a program whose stores went through nor one that has stopped is in that state.
    rcases follows m with ⟨-, same⟩ | ⟨-, -, address, phase⟩
    · exact sound m (same ▸ faulted)
    · rw [phase] at faulted
      cases faulted
  · constructor
    · rintro ⟨m, address, faults⟩ all
      rcases follows m with ⟨-, same⟩ | ⟨stopped, -⟩
      · rw [same] at faults
        exact freeRun_phase (by rintro _ ⟨⟩) m address faults
      · -- What was done by then is a part of the whole, and would have gone through.
        obtain ⟨more, whole⟩ : ((freeStep fetch)^[m] ⟨.running cpu, answers, []⟩).trace <+: deeds := by
          rw [← rest (n + m) (Nat.le_add_right _ _), Function.iterate_add_apply]
          exact freeRun_trace fetch _ n
        have part := granted_prefix writable [] ((freeStep fetch)^[m] ⟨.running cpu, answers, []⟩).trace
        rw [← granted_append_stopped stopped more, whole, all] at part
        exact stopped (by rw [← granted_append_stopped stopped more, whole, all]; exact
          part.eq_of_length_le (List.IsPrefix.length_le ⟨more, whole⟩))
    · intro stopped
      rcases follows n with ⟨all, -⟩ | ⟨-, -, address, phase⟩
      · rw [rest n (le_refl _)] at all
        exact absurd all stopped
      · exact ⟨n, address, phase⟩

end Granted

section Code

/-- The code of an instruction and of those behind it. -/
theorem codeAt_cons {address : UInt32} {instr : Instr} {code : List Instr} :
    CodeAt fetch address (encodeAll (instr :: code)) ↔
      CodeAt fetch address instr.encode ∧
        CodeAt fetch (address + UInt32.ofNat instr.encode.length) (encodeAll code) := by
  -- The encoding of a list is that of its first and of the rest.
  rw [encodeAll, List.flatMap_cons, codeAt_append]
  rfl

/-- One instruction after the other. -/
theorem encodeAll_append (first second : List Instr) :
    encodeAll (first ++ second) = encodeAll first ++ encodeAll second := List.flatMap_append

/-- The program performs the instruction it stands at. -/
theorem freeStep_of_code {instr : Instr} (code : CodeAt fetch cpu.eip instr.encode)
    (valid : instr.Valid) :
    freeStep fetch ⟨.running cpu, answers, trace⟩ =
      Session.obey fetch anywhere ⟨.running cpu, answers, trace⟩
        ((cpu.jump (UInt32.ofNat instr.encode.length)).perform instr) := by
  -- The bytes at the program counter decode to the instruction.
  rw [← State.act_of_code valid code]
  rfl

/-- The registers after some loads. -/
def loaded (cpu : State) : List (Reg × UInt32) → State
  | [] => cpu
  | (reg, value) :: rest => loaded ((cpu.jump 5).setReg reg value) rest

/-- Loads leave the processor behind them. -/
theorem loaded_eip (cpu : State) (values : List (Reg × UInt32)) :
    (loaded cpu values).eip = cpu.eip + UInt32.ofNat (encodeAll (loads values)).length := by
  -- By induction on the loads, each of which takes five bytes.
  induction values generalizing cpu with
  | nil => exact (UInt32.add_zero _).symm
  | cons entry rest ih =>
    have length : (encodeAll (loads (entry :: rest))).length = 5 + (encodeAll (loads rest)).length := by
      rw [loads, List.map_cons, encodeAll, List.flatMap_cons, List.length_append]
      rfl
    rw [loaded, ih, length, UInt32.ofNat_add, ← UInt32.add_assoc]
    rfl

/-- Loads lead to the registers they load. -/
theorem loads_lead (values : List (Reg × UInt32))
    (code : CodeAt fetch cpu.eip (encodeAll (loads values))) :
    Leads fetch ⟨.running cpu, answers, trace⟩ ⟨.running (loaded cpu values), answers, trace⟩ := by
  -- Induction on the loads.
  induction values generalizing cpu with
  | nil => exact .refl _
  | cons entry rest ih =>
    obtain ⟨here, behind⟩ := codeAt_cons.mp code
    exact (Leads.step (freeStep_of_code here trivial)).trans (ih behind)

/-- A call leads to the request that its registers spell. -/
theorem call_leads (values : List (Reg × UInt32))
    (code : CodeAt fetch cpu.eip (encodeAll (loads values ++ [.int 0x80]))) :
    Leads fetch ⟨.running cpu, answers, trace⟩
      (Session.ask ⟨.running cpu, answers, trace⟩ (requestOf fetch ((loaded cpu values).jump 2))
        ((loaded cpu values).jump 2)) := by
  -- The loads come first, then the trap.
  rw [encodeAll_append, codeAt_append, ← loaded_eip] at code
  obtain ⟨before, trap⟩ := code
  refine (loads_lead values before).trans (.step ?_)
  rw [freeStep_of_code (codeAt_cons.mp trap).1 trivial]
  rfl

/-- A call that is answered. -/
theorem call_answered {values : List (Reg × UInt32)} {request : Request} (answer : UInt32)
    (answers : List UInt32) (trace : List Deed)
    (code : CodeAt fetch cpu.eip (encodeAll (loads values ++ [.int 0x80])))
    (asks : requestOf fetch ((loaded cpu values).jump 2) = request) (goes : request.ends = false) :
    Leads fetch ⟨.running cpu, answer :: answers, trace⟩
      ⟨.running (((loaded cpu values).jump 2).setReg .eax answer), answers,
        trace ++ [.asked request]⟩ := by
  -- The request is asked, and the next answer is taken.
  refine (call_leads values code).trans (.step ?_)
  rw [asks, Session.ask, goes]
  rfl

/-- A call that is never answered. -/
theorem call_unanswered {values : List (Reg × UInt32)} {request : Request} (trace : List Deed)
    (code : CodeAt fetch cpu.eip (encodeAll (loads values ++ [.int 0x80])))
    (asks : requestOf fetch ((loaded cpu values).jump 2) = request) (goes : request.ends = false) :
    Settles fetch ⟨.running cpu, [], trace⟩ (trace ++ [.asked request]) := by
  -- The request is asked, and there is no answer to take.
  refine ⟨_, call_leads values code, ?_, ?_, ?_⟩
  · rw [asks, Session.ask, goes]
    rfl
  · rw [asks]
    rfl
  · rw [asks, Session.ask, goes]
    simp

/-- A call that ends the program. -/
theorem call_ends {values : List (Reg × UInt32)} {request : Request} (answers : List UInt32)
    (trace : List Deed) (code : CodeAt fetch cpu.eip (encodeAll (loads values ++ [.int 0x80])))
    (asks : requestOf fetch ((loaded cpu values).jump 2) = request) (ends : request.ends = true) :
    Settles fetch ⟨.running cpu, answers, trace⟩ (trace ++ [.asked request]) := by
  -- The request is asked, and it is the last one.
  refine ⟨_, call_leads values code, ?_, ?_, ?_⟩
  · rw [asks, Session.ask, ends]
    rfl
  · rw [asks]
    rfl
  · rw [asks, Session.ask, ends]
    simp

/-- The kernel reads a service off the registers that a program loads for it. -/
theorem requestOf_service (service : Service) (cpu : State) :
    requestOf fetch ((loaded cpu ((.eax, service.number) :: service.arguments)).jump 2) =
      .service service := by
  -- One case for each service.
  cases service <;> rfl

/-- The kernel reads the text of a message off the memory of the program. -/
theorem requestOf_write {address : UInt32} {message : List UInt8} (small : message.length < 2 ^ 32)
    (text : CodeAt fetch address message) (cpu : State) :
    requestOf fetch ((loaded cpu [(.eax, sysWrite), (.ebx, address),
      (.ecx, UInt32.ofNat message.length)]).jump 2) = .write ((message.take 512).map some) := by
  have shown : requestOf fetch ((loaded cpu [(.eax, sysWrite), (.ebx, address),
      (.ecx, UInt32.ofNat message.length)]).jump 2) = .write ((List.range (min
        (UInt32.ofNat message.length).toNat 512)).map fun i => fetch (address + UInt32.ofNat i)) := rfl
  rw [shown, UInt32.toNat_ofNat_of_lt' small]
  congr 1
  -- The characters are compared one by one.
  refine List.ext_getElem (by simp [Nat.min_comm]) fun i inside inside' => ?_
  have below : i < message.length := by
    simp only [List.length_map, List.length_range] at inside
    omega
  rw [List.getElem_map, List.getElem_range, text i below, List.getElem_map, List.getElem_take,
    List.getD_eq_getElem _ _ below]

end Code

section Statements

/-- One round of counting down: the program goes back to its start, unless it arrived at zero. -/
theorem countdown_round (answers : List UInt32) (trace : List Deed)
    (code : CodeAt fetch cpu.eip (encodeAll [.dec .ecx, .jne 0xFD])) :
    ∃ cpu', cpu'.eip = (if cpu.reg .ecx = 1 then cpu.eip + 3 else cpu.eip) ∧
      cpu'.reg .ecx = cpu.reg .ecx - 1 ∧ cpu'.reg .eax = cpu.reg .eax ∧
      Leads fetch ⟨.running cpu, answers, trace⟩ ⟨.running cpu', answers, trace⟩ := by
  obtain ⟨decrement, behind⟩ := codeAt_cons.mp code
  let down : State := { (cpu.jump 1).setReg .ecx (cpu.reg .ecx - 1) with
    eflags := decrementFlags (cpu.reg .ecx) cpu.eflags }
  have first : Leads fetch ⟨.running cpu, answers, trace⟩ ⟨.running down, answers, trace⟩ :=
    .step (freeStep_of_code decrement trivial)
  have jump : CodeAt fetch down.eip (Instr.jne 0xFD).encode := (codeAt_cons.mp behind).1
  let after : State := if flagOf down.eflags zeroFlag then down.jump 2
    else (down.jump 2).jump (signExtend 0xFD)
  have second : Leads fetch ⟨.running down, answers, trace⟩ ⟨.running after, answers, trace⟩ :=
    .step (freeStep_of_code jump trivial)
  have flag : flagOf down.eflags zeroFlag = decide (cpu.reg .ecx = 1) :=
    flagOf_decrementFlags _ _
  refine ⟨after, ?_, ?_, ?_, first.trans second⟩
  · -- Three bytes back from behind the jump is the decrement.
    have ahead : (down.jump 2).eip = cpu.eip + 3 := UInt32.add_assoc _ _ _
    have back : ((down.jump 2).jump (signExtend 0xFD)).eip = cpu.eip := by
      change (down.jump 2).eip + 0xFFFFFFFD = cpu.eip
      rw [ahead, UInt32.add_assoc]
      exact UInt32.add_zero _
    simp only [after, flag, decide_eq_true_eq]
    split
    · exact ahead
    · exact back
  · simp only [after]
    split <;> rfl
  · simp only [after]
    split <;> rfl

/-- A program that counts down arrives at zero, however far it counts. -/
theorem countdown_leads {n : Nat} {cpu : State} (answers : List UInt32) (trace : List Deed)
    (count : cpu.reg .ecx = UInt32.ofNat n + 1) (small : n < 2 ^ 32)
    (code : CodeAt fetch cpu.eip (encodeAll [.dec .ecx, .jne 0xFD])) :
    ∃ cpu', cpu'.eip = cpu.eip + 3 ∧ cpu'.reg .eax = cpu.reg .eax ∧
      Leads fetch ⟨.running cpu, answers, trace⟩ ⟨.running cpu', answers, trace⟩ := by
  -- By induction on the rounds that are left behind the first one.
  induction n generalizing cpu with
  | zero =>
    obtain ⟨next, eip, -, eax, leads⟩ := countdown_round answers trace code
    rw [if_pos (by rw [count]; rfl)] at eip
    exact ⟨next, eip, eax, leads⟩
  | succ n ih =>
    obtain ⟨next, eip, ecx, eax, leads⟩ := countdown_round answers trace code
    have more : ¬ cpu.reg .ecx = 1 := by
      rw [count, ← UInt32.toNat_inj, UInt32.toNat_add, UInt32.toNat_ofNat_of_lt' small]
      change ¬ (n + 1 + 1) % 4294967296 = 1
      omega
    rw [if_neg more] at eip
    -- The next round counts from one less, at the same place.
    have count' : next.reg .ecx = UInt32.ofNat n + 1 := by
      rw [ecx, count, UInt32.add_sub_cancel, UInt32.ofNat_add]
      rfl
    obtain ⟨last, eip', eax', leads'⟩ := ih count' (by omega) (by rwa [eip])
    exact ⟨last, by rw [eip', eip], eax'.trans eax, leads.trans leads'⟩

/-- Storing a word where the last answer points to. -/
theorem storeAnswer_leads {value : UInt32} (code : CodeAt fetch cpu.eip (encodeAll [.storeImm .eax value])) :
    Leads fetch ⟨.running cpu, answers, trace⟩
      ⟨.running (cpu.jump 6), answers, trace ++ [.stored (cpu.reg .eax) value]⟩ :=
  -- One step.
  .step (freeStep_of_code (codeAt_cons.mp code).1 (by simp [Instr.Valid]))

/-- The comparison with 1 and the jump behind it, once an event was asked for. -/
theorem compare_leads {answer : UInt32} (answers : List UInt32) (trace : List Deed)
    (last : cpu.reg .eax = answer)
    (code : CodeAt fetch cpu.eip (encodeAll [.cmpImm .eax 1, .je 12])) :
    ∃ cpu', cpu'.eip = (if answer = 1 then cpu.eip + 17 else cpu.eip + 5) ∧
      cpu'.reg .eax = answer ∧
      Leads fetch ⟨.running cpu, answers, trace⟩ ⟨.running cpu', answers, trace⟩ := by
  -- The flags are those of the difference, and the jump looks at the zero flag.
  obtain ⟨compare, behind⟩ := codeAt_cons.mp code
  let compared : State := { cpu.jump 3 with
    eflags := compareFlags (cpu.reg .eax) (signExtend 1) cpu.eflags }
  have first : Leads fetch ⟨.running cpu, answers, trace⟩ ⟨.running compared, answers, trace⟩ :=
    .step (freeStep_of_code compare trivial)
  have jump : CodeAt fetch compared.eip (Instr.je 12).encode := (codeAt_cons.mp behind).1
  let after : State := if flagOf compared.eflags zeroFlag then
    (compared.jump 2).jump (signExtend 12) else compared.jump 2
  have second : Leads fetch ⟨.running compared, answers, trace⟩ ⟨.running after, answers, trace⟩ :=
    .step (freeStep_of_code jump trivial)
  have flag : flagOf compared.eflags zeroFlag = decide (answer = 1) := by
    rw [← last]
    exact flagOf_compareFlags _ _ _
  have ahead : (compared.jump 2).eip = cpu.eip + 5 := UInt32.add_assoc _ _ _
  refine ⟨after, ?_, ?_, first.trans second⟩
  · simp only [after, flag, decide_eq_true_eq]
    split
    · change (compared.jump 2).eip + 12 = _
      rw [ahead, UInt32.add_assoc]
      rfl
    · exact ahead
  · simp only [after]
    split <;> exact last

/-- The code of a program that waits: it asks, compares, lets others run and goes back to its start. -/
theorem await_code {sequence : UInt32} {address : UInt32} :
    CodeAt fetch address (encodeAll ((Statement.await sequence).code 0)) ↔
      CodeAt fetch address
        (encodeAll (loads [(.eax, sysMemdemoReport), (.ebx, sequence)] ++ [.int 0x80])) ∧
      CodeAt fetch (address + 12) (encodeAll [.cmpImm .eax 1, .je 12]) ∧
      CodeAt fetch (address + 17) (encodeAll (loads [(.eax, sysYield)] ++ [.int 0x80])) ∧
      CodeAt fetch (address + 24) (encodeAll [.jmpNear (UInt32.ofInt (-29))]) := by
  -- The bytes of the statement, in the parts it is made of.
  have split : encodeAll ((Statement.await sequence).code 0) =
      encodeAll (loads [(.eax, sysMemdemoReport), (.ebx, sequence)] ++ [.int 0x80]) ++
        (encodeAll [.cmpImm .eax 1, .je 12] ++ (encodeAll (loads [(.eax, sysYield)] ++ [.int 0x80]) ++
          encodeAll [.jmpNear (UInt32.ofInt (-29))])) := rfl
  have first : (encodeAll (loads [(.eax, sysMemdemoReport), (.ebx, sequence)] ++
      [.int 0x80])).length = 12 := rfl
  have second : (encodeAll [.cmpImm .eax 1, .je 12]).length = 5 := rfl
  have third : (encodeAll (loads [(.eax, sysYield)] ++ [.int 0x80])).length = 7 := rfl
  rw [split, codeAt_append, codeAt_append, codeAt_append, first, second, third,
    UInt32.add_assoc address (UInt32.ofNat 12), ← UInt32.ofNat_add,
    UInt32.add_assoc address (UInt32.ofNat (12 + 5)), ← UInt32.ofNat_add]
  exact Iff.rfl

/-- A program that waits gets an answer, and looks at it. -/
theorem await_asks {sequence answer : UInt32} (answers : List UInt32) (trace : List Deed)
    (code : CodeAt fetch cpu.eip (encodeAll ((Statement.await sequence).code 0))) :
    ∃ cpu', cpu'.eip = (if answer = 1 then cpu.eip + 29 else cpu.eip + 17) ∧ cpu'.reg .eax = answer ∧
      Leads fetch ⟨.running cpu, answer :: answers, trace⟩
        ⟨.running cpu', answers, trace ++ [.asked (.service (.memdemoReport sequence))]⟩ := by
  -- The question is answered, then the comparison decides how far to go.
  obtain ⟨asks, compares, -⟩ := await_code.mp code
  have asked := call_answered answer answers trace asks
    (requestOf_service (.memdemoReport sequence) cpu) rfl
  generalize behind : ((loaded cpu [(.eax, sysMemdemoReport), (.ebx, sequence)]).jump 2).setReg .eax
    answer = cpu' at asked
  have eip : cpu'.eip = cpu.eip + 12 := by
    rw [← behind]
    change (loaded cpu [(.eax, sysMemdemoReport), (.ebx, sequence)]).eip + 2 = _
    rw [loaded_eip, UInt32.add_assoc]
    rfl
  have eax : cpu'.reg .eax = answer := by
    rw [← behind]
    exact State.setReg_reg_same _ _ _
  rw [← eip] at compares
  obtain ⟨after, eip', eax', looks⟩ := compare_leads answers _ eax compares
  refine ⟨after, ?_, eax', asked.trans looks⟩
  rw [eip', eip, UInt32.add_assoc, UInt32.add_assoc]
  rfl

/-- A program that waits lets others run, and starts again. -/
theorem await_yields {sequence start : UInt32} (answer : UInt32) (answers : List UInt32) (trace : List Deed)
    (code : CodeAt fetch start (encodeAll ((Statement.await sequence).code 0)))
    (eip : cpu.eip = start + 17) :
    ∃ cpu', cpu'.eip = start ∧ Leads fetch ⟨.running cpu, answer :: answers, trace⟩
      ⟨.running cpu', answers, trace ++ [.asked (.service .yield)]⟩ := by
  obtain ⟨-, -, yields, back⟩ := await_code.mp code
  rw [← eip] at yields
  have asked := call_answered answer answers trace yields
    (requestOf_service .yield cpu) rfl
  generalize behind : ((loaded cpu [(.eax, sysYield)]).jump 2).setReg .eax answer = cpu' at asked
  have eip' : cpu'.eip = start + 24 := by
    rw [← behind]
    change (loaded cpu [(.eax, sysYield)]).eip + 2 = _
    rw [loaded_eip, eip, UInt32.add_assoc, UInt32.add_assoc]
    rfl
  rw [← eip'] at back
  refine ⟨_, ?_, asked.trans (.step (freeStep_of_code (codeAt_cons.mp back).1 trivial))⟩
  -- Behind the jump is 29 bytes behind the start.
  change cpu'.eip + 5 + UInt32.ofInt (-29) = start
  rw [eip', UInt32.add_assoc, UInt32.add_assoc]
  exact UInt32.add_zero _

/-- Where a program that waits gets: it comes to rest, or goes on with the answers that remain. -/
def Awaited (fetch : UInt32 → Option UInt8) (s : Session) (address : UInt32) :
    List Deed × Option (List UInt32) → Prop
  | (deeds, none) => Settles fetch s (s.trace ++ deeds)
  | (deeds, some rest) => ∃ cpu, cpu.eip = address ∧ cpu.reg .eax = 1 ∧
    Leads fetch s ⟨.running cpu, rest, s.trace ++ deeds⟩

/-- A program that waits for the record of an event goes on once the answer is 1. -/
theorem await_leads (sequence : UInt32) (answers : List UInt32) (trace : List Deed) (cpu : State)
    (code : CodeAt fetch cpu.eip (encodeAll ((Statement.await sequence).code 0))) :
    Awaited fetch ⟨.running cpu, answers, trace⟩ (cpu.eip + 29) (awaitTrace sequence answers) := by
  -- By induction on the answers, two of which go into a round.
  induction answers using awaitTrace.induct sequence generalizing cpu trace with
  | case1 =>
    exact call_unanswered trace (await_code.mp code).1 (requestOf_service (.memdemoReport sequence) cpu) rfl
  | case2 rest =>
    obtain ⟨after, eip, eax, leads⟩ := await_asks rest trace code
    rw [if_pos rfl] at eip
    have ready : awaitTrace sequence (1 :: rest) =
        ([.asked (.service (.memdemoReport sequence))], some rest) := by
      rw [awaitTrace.eq_def]
      exact if_pos rfl
    rw [ready]
    exact ⟨after, eip, eax, leads⟩
  | case3 answer early =>
    obtain ⟨after, eip, -, leads⟩ := await_asks [] trace code
    rw [if_neg early] at eip
    have yields := (await_code.mp code).2.2.1
    rw [← eip] at yields
    -- Nobody answers the call that lets others run.
    have rests := call_unanswered (trace ++ [.asked (.service (.memdemoReport sequence))]) yields
      (requestOf_service .yield after) rfl
    rw [List.append_assoc] at rests
    rw [awaitTrace, if_neg early]
    exact leads.settles rests
  | case4 answer early second rest deeds remaining later ih =>
    obtain ⟨after, eip, -, leads⟩ := await_asks (second :: rest) trace code
    rw [if_neg early] at eip
    let asked := trace ++ [.asked (.service (.memdemoReport sequence))]
    obtain ⟨again, start, leads'⟩ := await_yields second rest asked code eip
    rw [← start] at code
    have waits := ih (asked ++ [.asked (.service .yield)]) again code
    have joined : asked ++ [.asked (.service .yield)] ++ deeds =
        trace ++ (.asked (.service (.memdemoReport sequence)) :: .asked (.service .yield) :: deeds) := by
      simp [asked]
    rw [start, later] at waits
    rw [awaitTrace, if_neg early, later]
    cases remaining with
    | none =>
      have waits : Settles fetch _ (asked ++ [.asked (.service .yield)] ++ deeds) := waits
      rw [joined] at waits
      exact (leads.trans leads').settles waits
    | some remaining =>
      obtain ⟨last, eip, eax, leads''⟩ := waits
      have leads'' : Leads fetch _ ⟨_, _, asked ++ [.asked (.service .yield)] ++ deeds⟩ := leads''
      rw [joined] at leads''
      exact ⟨last, eip, eax, (leads.trans leads').trans leads''⟩

/-- The code with which a program ends. -/
theorem exit_settles {exitCode : UInt32} (answers : List UInt32) (trace : List Deed)
    (code : CodeAt fetch cpu.eip (encodeAll (exitInstrs exitCode))) :
    Settles fetch ⟨.running cpu, answers, trace⟩ (trace ++ [.asked (.exit exitCode)]) := by
  -- The loads and the trap, the jump behind them is never reached.
  have split : encodeAll (exitInstrs exitCode) =
      encodeAll (loads [(.eax, sysExit), (.ebx, exitCode)] ++ [.int 0x80]) ++
        encodeAll [.jmpShort 0xFE] := rfl
  rw [split, codeAt_append] at code
  exact call_ends answers trace code.1 rfl rfl

/-- What a program goes on with once its first call is answered. -/
def afterAnswer (more : UInt32 → List UInt32 → List Deed) : List UInt32 → List Deed
  | [] => []
  | answer :: answers => more answer answers

/-- A program that calls goes on with the answer, if there is one. -/
theorem call_settles {values : List (Reg × UInt32)} {request : Request} (answers : List UInt32)
    (trace : List Deed) (more : UInt32 → List UInt32 → List Deed)
    (code : CodeAt fetch cpu.eip (encodeAll (loads values ++ [.int 0x80])))
    (asks : requestOf fetch ((loaded cpu values).jump 2) = request) (goes : request.ends = false)
    (next : ∀ (cpu' : State) (answers : List UInt32),
      cpu'.eip = cpu.eip + UInt32.ofNat (encodeAll (loads values ++ [.int 0x80])).length →
      Settles fetch ⟨.running cpu', answers, trace ++ [.asked request]⟩
        (trace ++ [.asked request] ++ more (cpu'.reg .eax) answers)) :
    Settles fetch ⟨.running cpu, answers, trace⟩
      (trace ++ .asked request :: afterAnswer more answers) := by
  -- Without an answer it ends here, with one the rest follows.
  cases answers with
  | nil => exact call_unanswered trace code asks goes
  | cons answer answers =>
    have goesOn := next (((loaded cpu values).jump 2).setReg .eax answer) answers (by
      change (loaded cpu values).eip + 2 = _
      rw [loaded_eip, encodeAll_append, List.length_append, UInt32.ofNat_add, UInt32.add_assoc]
      rfl)
    rw [State.setReg_reg_same, List.append_assoc] at goesOn
    exact (call_answered answer answers trace code asks goes).settles goesOn

end Statements

/--
The processor does what a script says, when it stands at the code of it.

The code is followed by the code with which the program ends, and the messages are where the code
says they are.
-/
theorem script_settles {exitCode : UInt32} (statements : List Statement) (place : Nat)
    (answers : List UInt32) (trace : List Deed) (cpu : State)
    (small : (messages statements).length < 2 ^ 32)
    (code : CodeAt fetch cpu.eip (laid (some place) statements ++ encodeAll (exitInstrs exitCode)))
    (texts : CodeAt fetch (processUserCodeBase + UInt32.ofNat place) (messages statements)) :
    Settles fetch ⟨.running cpu, answers, trace⟩
      (trace ++ scriptTrace exitCode statements (cpu.reg .eax) answers) := by
  -- By induction on the statements, the first of which the processor stands at.
  induction statements generalizing place answers trace cpu with
  | nil => exact exit_settles answers trace code
  | cons statement rest ih =>
    rw [laid, List.append_assoc, codeAt_append] at code
    obtain ⟨here, behind⟩ := code
    rw [messages, List.flatMap_cons] at small texts
    rw [List.length_append] at small
    rw [codeAt_append, UInt32.add_assoc, ← UInt32.ofNat_add] at texts
    obtain ⟨text, texts⟩ := texts
    -- Behind the statement the rest goes on.
    have next : ∀ (cpu' : State) (answers : List UInt32) (trace : List Deed),
        cpu'.eip = cpu.eip + UInt32.ofNat (encodeAll (statement.code
          (processUserCodeBase + UInt32.ofNat place))).length →
        Settles fetch ⟨.running cpu', answers, trace⟩
          (trace ++ scriptTrace exitCode rest (cpu'.reg .eax) answers) := fun cpu' answers trace eip =>
      ih (place + statement.message.length) answers trace cpu' (Nat.lt_of_le_of_lt
        (Nat.le_add_left _ _) small) (by rw [eip]; exact behind) texts
    cases statement with
    | write message =>
      have text : CodeAt fetch (processUserCodeBase + UInt32.ofNat place) message := text
      have bound : message.length < 2 ^ 32 := Nat.lt_of_le_of_lt (Nat.le_add_right _ _) small
      have whole := call_settles answers trace (scriptTrace exitCode rest) here
        (requestOf_write bound text cpu) rfl fun cpu' answers eip => next cpu' answers _ eip
      cases answers <;> exact whole
    | ask service =>
      have whole := call_settles answers trace (scriptTrace exitCode rest) here
        (requestOf_service service cpu) rfl fun cpu' answers eip => next cpu' answers _ eip
      cases answers <;> exact whole
    | storeAnswer value =>
      have goesOn := next (cpu.jump 6) answers (trace ++ [.stored (cpu.reg .eax) value]) rfl
      rw [List.append_assoc] at goesOn
      exact (storeAnswer_leads here).settles goesOn
    | busy count =>
      -- The counter is loaded, and then counted down.
      obtain ⟨load, count_⟩ := codeAt_cons.mp here
      let start := (cpu.jump 5).setReg .ecx count
      have first : Leads fetch ⟨.running cpu, answers, trace⟩ ⟨.running start, answers, trace⟩ :=
        .step (freeStep_of_code load trivial)
      have rounds : start.reg .ecx = UInt32.ofNat (count - 1).toNat + 1 := by
        rw [State.setReg_reg_same, UInt32.ofNat_toNat, UInt32.sub_add_cancel]
      obtain ⟨last, eip, eax, counts⟩ := countdown_leads answers trace rounds
        (UInt32.toNat_lt _) count_
      have goesOn := next last answers trace (by
        rw [eip]
        exact UInt32.add_assoc _ _ _)
      rw [eax] at goesOn
      exact (first.trans counts).settles goesOn
    | await sequence =>
      have waits := await_leads sequence answers trace cpu here
      rw [scriptTrace]
      generalize awaitTrace sequence answers = result at waits ⊢
      obtain ⟨deeds, remaining⟩ := result
      cases remaining with
      | none => exact waits
      | some remaining =>
        obtain ⟨after, eip, eax, leads⟩ := waits
        have goesOn := next after remaining (trace ++ deeds) eip
        rw [eax, List.append_assoc] at goesOn
        exact leads.settles goesOn

/-- The memory of a process whose page of code holds an image. -/
def Holding (fetch : UInt32 → Option UInt8) (e : Emitter) : Prop :=
  ∀ k, k < 4096 → fetch (processUserCodeBase + UInt32.ofNat k) = some (e.image.get k)

/-- An image that fits into its page is found there byte by byte. -/
theorem Holding.codeAt {e : Emitter} {bytes : List UInt8} (holding : Holding fetch e)
    (holds : e.Holds bytes) (fits : bytes.length ≤ 4096) : CodeAt fetch processUserCodeBase bytes := by
  -- Every byte of the image is one of its page.
  intro k inside
  rw [holding k (by omega), holds.image k (by omega)]

/-- The image of a script does what the script says, from its entry on. -/
theorem assemble_settles (script : Script) (fits : script.bytes.length ≤ 4096)
    (holding : Holding fetch (assemble script)) (entry : cpu.eip = processUserCodeBase)
    (answers : List UInt32) :
    Settles fetch ⟨.running cpu, answers, []⟩
      (scriptTrace script.exitCode script.statements (cpu.reg .eax) answers) := by
  -- The instructions stand first and the texts behind them, where the instructions say.
  have code := holding.codeAt (assemble_holds script) fits
  rw [Script.bytes, codeAt_append] at code
  obtain ⟨instrs, texts⟩ := code
  have place : (laid (some script.codeLength) script.statements ++
      encodeAll (exitInstrs script.exitCode)).length = script.codeLength := by
    rw [List.length_append, laid_length]
    rfl
  rw [place] at texts
  have small : (messages script.statements).length < 2 ^ 32 := by
    rw [Script.bytes, List.length_append] at fits
    omega
  rw [← entry] at instrs
  exact script_settles script.statements script.codeLength answers [] cpu small instrs texts

section Images

variable {memory : UserMemory}

/-- Where a process may write in these examples: a page that it was given. -/
def givenPage (_ : List Deed) (address : UInt32) : Bool :=
  decide (0x40000000 ≤ address.toNat ∧ address.toNat + 4 ≤ 0x40001000)

/-- A memory with the page of code of a process and a page that it may write to. -/
def codeMemory (e : Emitter) : UserMemory where
  fetch address :=
    if (address - processUserCodeBase).toNat < 4096 then
      some (e.image.get (address - processUserCodeBase).toNat) else none
  writable := givenPage
  readOnly := by
    -- The page lies behind the page of the code.
    intro deeds address k given small
    obtain ⟨low, high⟩ := of_decide_eq_true given
    have base : processUserCodeBase.toNat = 0x800000 := rfl
    have sum : (address + UInt32.ofNat k).toNat = address.toNat + k := by
      rw [UInt32.toNat_add, UInt32.toNat_ofNat']
      omega
    rw [UInt32.toNat_sub_of_le _ _ (by rw [UInt32.le_iff_toNat_le]; omega), sum]
    omega

/-- A memory with a page of code holds what is on it. -/
theorem holding_codeMemory (e : Emitter) : Holding (codeMemory e).fetch e := by
  -- The page begins where the image does.
  intro k inside
  have back : processUserCodeBase + UInt32.ofNat k - processUserCodeBase = UInt32.ofNat k := by
    rw [UInt32.add_comm, UInt32.add_sub_cancel]
  simp only [codeMemory]
  rw [back, UInt32.toNat_ofNat_of_lt' (by change k < 4294967296; omega), if_pos inside]

/-- A processor at the entry of a program. -/
def atEntry : State := ⟨fun _ => 0, processUserCodeBase, 0x202⟩

/-- Every program of the kernel fits into the page of its code. -/
theorem Builtin.fits (builtin : Builtin) : builtin.script.bytes.length ≤ 4096 := by
  rw [← (assemble_holds builtin.script).offset, ← builtin.image_eq]
  -- The seven images are measured.
  cases builtin <;> decide +kernel

/--
Every program of the kernel does what its script says, with whatever answers.

A store that goes to an address without a writable page stops it, and nothing else does.
-/
theorem builtin_program_runs (builtin : Builtin) (holding : Holding memory.fetch builtin.image)
    (cpu : State) (entry : cpu.eip = processUserCodeBase) (answers : List UInt32) :
    let deeds := scriptTrace builtin.script.exitCode builtin.script.statements (cpu.reg .eax) answers
    let run := fun m => (sessionStep memory.fetch memory.writable)^[m] ⟨.running cpu, answers, []⟩
    (∃ n, ∀ m, n ≤ m → (run m).trace = granted memory.writable [] deeds) ∧
    (∀ m, (run m).phase ≠ .faulted) ∧
    ((∃ m address, (run m).phase = .pageFault address) ↔ granted memory.writable [] deeds ≠ deeds) :=
  -- It is assembled from its script, which fits into a page.
  (assemble_settles builtin.script builtin.fits (builtin.image_eq ▸ holding) entry answers).granted
    memory.writable

/--
The program that counts writes its first two messages when it is answered three times, and the one
that allocates stops at its first store when it is given no page.
-/
theorem builtin_program_runs_counter :
    (∃ n, ∀ m, n ≤ m → ((sessionStep (codeMemory Builtin.counter.image).fetch
        (codeMemory Builtin.counter.image).writable)^[m] ⟨.running atEntry, [15, 0, 15], []⟩).trace =
      [.asked (.write ((textBytes "counter step 1\n").map some)), .asked (.service .yield),
        .asked (.write ((textBytes "counter step 2\n").map some)), .asked (.service .yield)]) ∧
    ∃ m address, ((sessionStep (codeMemory Builtin.memalloc.image).fetch
      (codeMemory Builtin.memalloc.image).writable)^[m] ⟨.running atEntry, [0, 0], []⟩).phase =
        .pageFault address := by
  -- Three answers are enough for two messages, and the address 0 is not writable.
  refine ⟨(builtin_program_runs .counter (holding_codeMemory _) atEntry rfl [15, 0, 15]).1,
    (builtin_program_runs .memalloc (holding_codeMemory _) atEntry rfl [0, 0]).2.2.mpr ?_⟩
  decide +kernel

end Images

end MyOS.Kernel
