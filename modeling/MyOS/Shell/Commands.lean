import MyOS.Kernel.Memdemo
import MyOS.Kernel.Process
import MyOS.Shell.Arguments
import Mathlib.Data.List.TakeWhile

/-! The commands of the shell, and the numbers in them. -/

namespace MyOS.Shell

open MyOS.Kernel (textBytes wrapInt)

/-- What a command line asks for, with numbers of some kind. -/
inductive Command (ν : Type) where
  | nothing
  | clear
  | help
  | ticks
  | mem
  | mkfs
  | ls
  | fsstat
  | pwd
  | mkdir (name : List UInt8)
  | rmdir (name : List UInt8)
  | cd (name : List UInt8)
  | touch (name : List UInt8)
  | rm (name : List UInt8)
  | cat (name : List UInt8)
  | write (name text : List UInt8)
  | append (name text : List UInt8)
  | bigfiletestSuite
  | bigfiletest (size : ν)
  | installapps
  | exec (name : List UInt8)
  | execp (priority : ν) (name : List UInt8)
  | spawn (parentPid : ν) (name : List UInt8)
  | openFile (name : List UInt8)
  | close (fd : ν)
  | fds
  | read (fd : ν)
  | writefd (fd : ν) (text : List UInt8)
  | seek (fd offset : ν)
  | ps
  | bankerShow
  | bankerInit (r0 r1 r2 : ν)
  | bankerAdd (pid r0 r1 r2 : ν)
  | bankerReq (pid r0 r1 r2 : ν)
  | bankerRel (pid r0 r1 r2 : ν)
  | wait (parentPid : ν) (childPid : Option ν)
  | kill (pid : ν)
  | prio (pid priority : ν)
  | sched
  | autosched
  | autoschedOn
  | autoschedOff
  | reap
  | uservm
  | ring3
  | pager
  | pageralgo
  | pageralgoClock
  | pageralgoLru
  | pagertest
  | memdemo
  | slice
  | sliceSet (length : ν)
  /-- The arguments are not those of the command. -/
  | usage
  | unknown
  deriving DecidableEq

/-- A number that a command hands to the kernel, as the type of the parameter has it. -/
inductive Argument (ν : Type) where
  /-- Processes, descriptors and priorities, which are cast to `int`. -/
  | int (number : ν)
  /-- Sizes, offsets, amounts and ticks, which stay `uint32_t`. -/
  | uint (number : ν)
  deriving DecidableEq

namespace Argument

variable {ν μ : Type}

/-- The same parameter with another number. -/
def map (f : ν → μ) : Argument ν → Argument μ
  | int number => int (f number)
  | uint number => uint (f number)

/-- The value that the function of the kernel gets for a number that was read. -/
def passed : Argument UInt32 → Int
  -- The cast keeps the 32 bits, and the highest one is the sign.
  | int number => wrapInt number.toNat
  | uint number => number.toNat

/-- The value that was typed. -/
def typed : Argument Nat → Int
  | int number => number
  | uint number => number

/-- The number has room in its parameter. -/
def Fits : Argument Nat → Prop
  | int number => number < 2 ^ 31
  | uint number => number < 2 ^ 32

/-- A number gets to the kernel as it was typed exactly where it has room. -/
theorem passed_iff (argument : Argument Nat) :
    (argument.map UInt32.ofNat).passed = argument.typed ↔ argument.Fits := by
  -- Reading keeps the number modulo 2^32, and the cast takes the upper half for negative numbers.
  cases argument with
  | int number =>
    change wrapInt (UInt32.ofNat number).toNat = (number : Int) ↔ number < 2 ^ 31
    unfold wrapInt
    rw [UInt32.toNat_ofNat']
    omega
  | uint number =>
    change ((UInt32.ofNat number).toNat : Int) = number ↔ number < 2 ^ 32
    rw [UInt32.toNat_ofNat']
    omega

end Argument

namespace Command

variable {ν μ : Type}

/-- The numbers a command acts on, each with the parameter that it is handed to. -/
def numbers : Command ν → List (Argument ν)
  | bigfiletest size => [.uint size]
  | execp priority _ => [.int priority]
  | spawn parentPid _ => [.int parentPid]
  | close fd => [.int fd]
  | read fd => [.int fd]
  | writefd fd _ => [.int fd]
  | seek fd offset => [.int fd, .uint offset]
  | bankerInit r0 r1 r2 => [.uint r0, .uint r1, .uint r2]
  | bankerAdd pid r0 r1 r2 => [.int pid, .uint r0, .uint r1, .uint r2]
  | bankerReq pid r0 r1 r2 => [.int pid, .uint r0, .uint r1, .uint r2]
  | bankerRel pid r0 r1 r2 => [.int pid, .uint r0, .uint r1, .uint r2]
  -- Without a child there is no number for it.
  | wait parentPid childPid => .int parentPid :: childPid.toList.map .int
  | kill pid => [.int pid]
  | prio pid priority => [.int pid, .int priority]
  | sliceSet length => [.uint length]
  | _ => []

/-- The same command with other numbers. -/
def map (f : ν → μ) : Command ν → Command μ
  | nothing => nothing
  | clear => clear
  | help => help
  | ticks => ticks
  | mem => mem
  | mkfs => mkfs
  | ls => ls
  | fsstat => fsstat
  | pwd => pwd
  | mkdir name => mkdir name
  | rmdir name => rmdir name
  | cd name => cd name
  | touch name => touch name
  | rm name => rm name
  | cat name => cat name
  | write name text => write name text
  | append name text => append name text
  | bigfiletestSuite => bigfiletestSuite
  | bigfiletest size => bigfiletest (f size)
  | installapps => installapps
  | exec name => exec name
  | execp priority name => execp (f priority) name
  | spawn parentPid name => spawn (f parentPid) name
  | openFile name => openFile name
  | close fd => close (f fd)
  | fds => fds
  | read fd => read (f fd)
  | writefd fd text => writefd (f fd) text
  | seek fd offset => seek (f fd) (f offset)
  | ps => ps
  | bankerShow => bankerShow
  | bankerInit r0 r1 r2 => bankerInit (f r0) (f r1) (f r2)
  | bankerAdd pid r0 r1 r2 => bankerAdd (f pid) (f r0) (f r1) (f r2)
  | bankerReq pid r0 r1 r2 => bankerReq (f pid) (f r0) (f r1) (f r2)
  | bankerRel pid r0 r1 r2 => bankerRel (f pid) (f r0) (f r1) (f r2)
  | wait parentPid childPid => wait (f parentPid) (childPid.map f)
  | kill pid => kill (f pid)
  | prio pid priority => prio (f pid) (f priority)
  | sched => sched
  | autosched => autosched
  | autoschedOn => autoschedOn
  | autoschedOff => autoschedOff
  | reap => reap
  | uservm => uservm
  | ring3 => ring3
  | pager => pager
  | pageralgo => pageralgo
  | pageralgoClock => pageralgoClock
  | pageralgoLru => pageralgoLru
  | pagertest => pagertest
  | memdemo => memdemo
  | slice => slice
  | sliceSet length => sliceSet (f length)
  | usage => usage
  | unknown => unknown

/-- The numbers of a command go with it into the other form. -/
theorem numbers_map (f : ν → μ) (command : Command ν) :
    (command.map f).numbers = command.numbers.map (Argument.map f) := by
  -- Only one command may lack a number.
  cases command with
  | wait parentPid childPid => cases childPid <;> rfl
  | _ => rfl

end Command

/-- A way to read the numbers of a command line. -/
structure NumberReader (ν : Type) where
  uint : List UInt8 → Option ν
  leadingUint : List UInt8 → Option (ν × List UInt8)

/-- How the shell reads numbers. -/
def shellNumbers : NumberReader UInt32 := ⟨parseUint, parseLeadingUint⟩

/-- The numbers as they are typed. -/
def typedNumbers : NumberReader Nat := ⟨typedUint, typedLeadingUint⟩

section Arguments

variable {ν : Type} (numbers : NumberReader ν)

/-- `split_name_and_text`, for a name of at most 27 characters. -/
def splitNameAndText (args : List UInt8) : Option (List UInt8 × List UInt8) :=
  let args := skipSpaces args
  -- The name goes up to the first space.
  if args.isEmpty then none
  else
    let name := args.takeWhile (· != 32)
    -- The buffer for the name has room for twenty-seven characters and a zero.
    if name.length ≥ 28 then none else some (name, skipSpaces (args.dropWhile (· != 32)))

/-- A name and a text behind the command. -/
def nameAndText (make : List UInt8 → List UInt8 → Command ν) (args : List UInt8) : Command ν :=
  match splitNameAndText args with
  -- A line without a name, or with one too long, asks for nothing.
  | none => .usage
  | some (name, text) => make name text

/-- One number and nothing else. -/
def oneNumber (make : ν → Command ν) (args : List UInt8) : Command ν :=
  match numbers.uint args with
  | none => .usage
  | some number => make number

/-- A number, and the rest of the line behind it. -/
def numberAndText (make : ν → List UInt8 → Command ν) (args : List UInt8) : Command ν :=
  match numbers.leadingUint args with
  -- The text may be missing, but not the number.
  | none => .usage
  | some (number, args) => make number (skipSpaces args)

/-- A number, and a file name that may not be missing. -/
def numberAndName (make : ν → List UInt8 → Command ν) (args : List UInt8) : Command ν :=
  numberAndText numbers (fun number name => if name.isEmpty then .usage else make number name) args

/-- Two numbers. -/
def twoNumbers (make : ν → ν → Command ν) (args : List UInt8) : Command ν :=
  match numbers.leadingUint args with
  | none => .usage
  | some (first, args) =>
    match numbers.leadingUint args with
    | none => .usage
    -- What stands behind the second number is not looked at.
    | some (second, _) => make first second

/-- `parse_three_resources` -/
def threeResources (make : ν → ν → ν → Command ν) (args : List UInt8) : Command ν :=
  match numbers.leadingUint args with
  | none => .usage
  | some (r0, args) => twoNumbers numbers (make r0) args

/-- A process and three resources. -/
def pidAndResources (make : ν → ν → ν → ν → Command ν) (args : List UInt8) : Command ν :=
  match numbers.leadingUint args with
  | none => .usage
  | some (pid, args) => threeResources numbers (make pid) args

/-- A parent, and a child if one is given. -/
def waitArguments (args : List UInt8) : Command ν :=
  match numbers.leadingUint args with
  | none => .usage
  | some (parentPid, args) =>
    let args := skipSpaces args
    -- Without a child any child is waited for.
    if args.isEmpty then .wait parentPid none
    else
      match numbers.leadingUint args with
      | none => .usage
      | some (childPid, _) => .wait parentPid (some childPid)

/-- The algorithm to be set. -/
def algorithmArgument (args : List UInt8) : Command ν :=
  -- The word must be one of the two to the last character.
  let algorithm := skipSpaces args
  if algorithm == textBytes "clock" then .pageralgoClock
  else if algorithm == textBytes "lru" then .pageralgoLru
  else .usage

end Arguments

/-- A word that is a command by itself or has arguments behind it, and what is asked for. -/
inductive Form (ν : Type) where
  | word (text : String) (command : Command ν)
  | before (text : String) (arguments : List UInt8 → Command ν)

/-- What a line asks for, if it has the form. -/
def Form.read {ν : Type} (cmd : List UInt8) : Form ν → Option (Command ν)
  -- A word must be the whole line.
  | word text command => if cmd == textBytes text then some command else none
  | before text arguments =>
    -- A word with a space behind it begins the line, and the rest are its arguments.
    if (textBytes text).isPrefixOf cmd then some (arguments (cmd.drop text.length)) else none

/-- The tests of `run_command`, in their order. -/
def forms {ν : Type} (numbers : NumberReader ν) : List (Form ν) :=
  -- The first test that holds decides, and the longer words do not hide the shorter ones.
  [.word "" .nothing,
    .word "clear" .clear,
    .word "help" .help,
    .word "ticks" .ticks,
    .word "mem" .mem,
    .word "mkfs" .mkfs,
    .word "ls" .ls,
    .word "fsstat" .fsstat,
    .word "pwd" .pwd,
    .before "mkdir " fun args => .mkdir (skipSpaces args),
    .before "rmdir " fun args => .rmdir (skipSpaces args),
    .before "cd " fun args => .cd (skipSpaces args),
    .before "touch " fun args => .touch (skipSpaces args),
    .before "rm " fun args => .rm (skipSpaces args),
    .before "cat " fun args => .cat (skipSpaces args),
    .before "write " (nameAndText .write),
    .before "append " (nameAndText .append),
    .word "bigfiletest" .bigfiletestSuite,
    .before "bigfiletest " fun args => oneNumber numbers .bigfiletest (skipSpaces args),
    .word "installapps" .installapps,
    .before "exec " fun args => .exec (skipSpaces args),
    .before "execp " (numberAndName numbers .execp),
    .before "spawn " (numberAndName numbers .spawn),
    .before "open " fun args => .openFile (skipSpaces args),
    .before "close " fun args => oneNumber numbers .close (skipSpaces args),
    .word "fds" .fds,
    .before "read " fun args => oneNumber numbers .read (skipSpaces args),
    .before "writefd " (numberAndText numbers .writefd),
    .before "seek " (twoNumbers numbers .seek),
    .word "ps" .ps,
    .word "banker" .bankerShow,
    .word "banker show" .bankerShow,
    .before "banker init " (threeResources numbers .bankerInit),
    .before "banker add " (pidAndResources numbers .bankerAdd),
    .before "banker req " (pidAndResources numbers .bankerReq),
    .before "banker rel " (pidAndResources numbers .bankerRel),
    .before "wait " (waitArguments numbers),
    .before "kill " fun args => oneNumber numbers .kill (skipSpaces args),
    .before "prio " (twoNumbers numbers .prio),
    .word "sched" .sched,
    .word "autosched" .autosched,
    .word "autosched on" .autoschedOn,
    .word "autosched off" .autoschedOff,
    .word "reap" .reap,
    .word "uservm" .uservm,
    .word "ring3" .ring3,
    .word "pager" .pager,
    .word "pageralgo" .pageralgo,
    .before "pageralgo " algorithmArgument,
    .word "pagertest" .pagertest,
    .word "memdemo" .memdemo,
    .word "slice" .slice,
    .before "slice " (oneNumber numbers .sliceSet)]

/-- What a command line asks for. -/
def commandOf {ν : Type} (numbers : NumberReader ν) (cmd : List UInt8) : Command ν :=
  -- A line that passes no test is an unknown command.
  ((forms numbers).findSome? (Form.read cmd)).getD .unknown

/-- A reader gives the numbers of another one in a different form, and stops where that does. -/
structure NumberReader.Maps {ν μ : Type} (f : ν → μ) (numbers : NumberReader ν)
    (numbers' : NumberReader μ) : Prop where
  uint : ∀ str, numbers'.uint str = (numbers.uint str).map f
  leadingUint : ∀ str, numbers'.leadingUint str =
    (numbers.leadingUint str).map fun read => (f read.1, read.2)

/-- The shell reads the numbers that are typed, but keeps only 32 bits of them. -/
theorem shellNumbers_maps : NumberReader.Maps UInt32.ofNat typedNumbers shellNumbers :=
  ⟨parseUint_eq, parseLeadingUint_eq⟩

section Maps

variable {ν μ : Type} {f : ν → μ} {numbers : NumberReader ν} {numbers' : NumberReader μ}
  (maps : numbers.Maps f numbers')

/-- A name and a text are read alike in both forms. -/
theorem nameAndText_maps {make : List UInt8 → List UInt8 → Command ν}
    {make' : List UInt8 → List UInt8 → Command μ}
    (same : ∀ name text, make' name text = (make name text).map f) (args : List UInt8) :
    nameAndText make' args = (nameAndText make args).map f := by
  -- No number is in them.
  unfold nameAndText
  cases splitNameAndText args with
  | none => rfl
  | some read => exact same read.1 read.2

/-- The algorithm to be set is read alike in both forms. -/
theorem algorithmArgument_maps (args : List UInt8) :
    (algorithmArgument args : Command μ) = (algorithmArgument args : Command ν).map f := by
  -- The branches do not depend on what numbers are made of.
  unfold algorithmArgument
  simp only
  split
  · rfl
  · split <;> rfl

include maps

/-- A single number is read alike in both forms. -/
theorem oneNumber_maps {make : ν → Command ν} {make' : μ → Command μ}
    (same : ∀ n, make' (f n) = (make n).map f) (args : List UInt8) :
    oneNumber numbers' make' args = (oneNumber numbers make args).map f := by
  unfold oneNumber
  -- The number is missing in both or in none.
  rw [maps.uint]
  cases numbers.uint args with
  | none => rfl
  | some n => exact same n

/-- A number with a text behind it is read alike in both forms. -/
theorem numberAndText_maps {make : ν → List UInt8 → Command ν} {make' : μ → List UInt8 → Command μ}
    (same : ∀ n text, make' (f n) text = (make n text).map f) (args : List UInt8) :
    numberAndText numbers' make' args = (numberAndText numbers make args).map f := by
  unfold numberAndText
  -- The rest of the line does not depend on the number.
  rw [maps.leadingUint]
  cases numbers.leadingUint args with
  | none => rfl
  | some read => exact same read.1 _

/-- A number with a name behind it is read alike in both forms. -/
theorem numberAndName_maps {make : ν → List UInt8 → Command ν} {make' : μ → List UInt8 → Command μ}
    (same : ∀ n name, make' (f n) name = (make n name).map f) (args : List UInt8) :
    numberAndName numbers' make' args = (numberAndName numbers make args).map f := by
  -- A name that is missing is missing in both.
  refine numberAndText_maps maps (fun n name => ?_) args
  cases name.isEmpty with
  | true => rfl
  | false => exact same n name

/-- Two numbers are read alike in both forms. -/
theorem twoNumbers_maps {make : ν → ν → Command ν} {make' : μ → μ → Command μ}
    (same : ∀ n m, make' (f n) (f m) = (make n m).map f) (args : List UInt8) :
    twoNumbers numbers' make' args = (twoNumbers numbers make args).map f := by
  -- The second number is read from what the first one left, which is the same in both.
  unfold twoNumbers
  rw [maps.leadingUint]
  cases numbers.leadingUint args with
  | none => rfl
  | some first =>
    simp only [Option.map_some]
    rw [maps.leadingUint]
    cases numbers.leadingUint first.2 with
    | none => rfl
    | some second => exact same first.1 second.1

/-- Three resources are read alike in both forms. -/
theorem threeResources_maps {make : ν → ν → ν → Command ν} {make' : μ → μ → μ → Command μ}
    (same : ∀ a b c, make' (f a) (f b) (f c) = (make a b c).map f) (args : List UInt8) :
    threeResources numbers' make' args = (threeResources numbers make args).map f := by
  -- The first number is read, and then the other two as before.
  unfold threeResources
  rw [maps.leadingUint]
  cases numbers.leadingUint args with
  | none => rfl
  | some read => exact twoNumbers_maps maps (same read.1) read.2

/-- A process and three resources are read alike in both forms. -/
theorem pidAndResources_maps {make : ν → ν → ν → ν → Command ν} {make' : μ → μ → μ → μ → Command μ}
    (same : ∀ pid a b c, make' (f pid) (f a) (f b) (f c) = (make pid a b c).map f)
    (args : List UInt8) :
    pidAndResources numbers' make' args = (pidAndResources numbers make args).map f := by
  -- The number of the process is read, and then the three resources as before.
  unfold pidAndResources
  rw [maps.leadingUint]
  cases numbers.leadingUint args with
  | none => rfl
  | some read => exact threeResources_maps maps (same read.1) read.2

/-- A parent and a child are read alike in both forms. -/
theorem waitArguments_maps (args : List UInt8) :
    waitArguments numbers' args = (waitArguments numbers args).map f := by
  unfold waitArguments
  -- The child may be missing, and then it is so in both.
  rw [maps.leadingUint]
  cases numbers.leadingUint args with
  | none => rfl
  | some read =>
    simp only [Option.map_some]
    generalize skipSpaces read.2 = rest
    cases rest.isEmpty with
    | true => rfl
    | false =>
      simp only [Bool.false_eq_true, if_false]
      rw [maps.leadingUint]
      cases numbers.leadingUint rest with
      | none => rfl
      | some child => rfl

/-- Every form reads the same command, with the numbers in the other form. -/
theorem forms_map (cmd : List UInt8) :
    (forms numbers').map (Form.read cmd) =
      (forms numbers).map fun form => (form.read cmd).map (Command.map f) := by
  -- A word alone has the same command in both forms.
  have word : ∀ (text : String) {command : Command ν} {command' : Command μ},
      command' = command.map f →
        (Form.word text command').read cmd = ((Form.word text command).read cmd).map (Command.map f) := by
    intro text command command' same
    simp only [Form.read]
    split
    · exact congrArg some same
    · rfl
  -- A word with arguments has them read alike.
  have before : ∀ (text : String) {arguments : List UInt8 → Command ν}
      {arguments' : List UInt8 → Command μ}, (∀ args, arguments' args = (arguments args).map f) →
        (Form.before text arguments').read cmd =
          ((Form.before text arguments).read cmd).map (Command.map f) := by
    intro text arguments arguments' same
    simp only [Form.read]
    split
    · exact congrArg some (same _)
    · rfl
  -- The tests are compared one by one.
  unfold forms
  simp only [List.map_cons, List.map_nil]
  repeat' (first | rfl | refine congrArg₂ List.cons ?_ ?_)
  all_goals
    first
      | exact word _ rfl
      | exact before _ fun args => rfl
      | exact before _ (nameAndText_maps fun _ _ => rfl)
      | exact before _ algorithmArgument_maps
      | exact before _ fun args => oneNumber_maps maps (fun _ => rfl) _
      | exact before _ (numberAndText_maps maps fun _ _ => rfl)
      | exact before _ (numberAndName_maps maps fun _ _ => rfl)
      | exact before _ (twoNumbers_maps maps fun _ _ => rfl)
      | exact before _ (threeResources_maps maps fun _ _ _ => rfl)
      | exact before _ (pidAndResources_maps maps fun _ _ _ _ => rfl)
      | exact before _ (waitArguments_maps maps)

/-- The same command is read, with the numbers in the other form. -/
theorem commandOf_maps (cmd : List UInt8) :
    commandOf numbers' cmd = (commandOf numbers cmd).map f := by
  -- By induction on the tests: the first that holds is the same in both.
  unfold commandOf
  have same := forms_map maps cmd
  generalize forms numbers = forms, forms numbers' = forms' at same ⊢
  induction forms generalizing forms' with
  | nil =>
    obtain rfl : forms' = [] := List.map_eq_nil_iff.mp same
    rfl
  | cons form rest ih =>
    cases forms' with
    | nil => cases same
    | cons form' rest' =>
      obtain ⟨first, others⟩ := List.cons.inj same
      replace first : form'.read cmd = (form.read cmd).map (Command.map f) := first
      rw [List.findSome?_cons, List.findSome?_cons, first]
      cases found : form.read cmd with
      | none => exact ih _ others
      | some command => rfl

end Maps

section Exact

/-- `parse_uint` reads the numbers below 2^32 that are typed, and nothing else. -/
def UintExact (str : List UInt8) : Prop :=
  ∀ n, parseUint str = some n ↔
    str ≠ [] ∧ (∀ c ∈ str, isDigit c = true) ∧ decimalValue str = n.toNat

/-- `parse_leading_uint` reads the number below 2^32 that is typed first, up to its last digit. -/
def LeadingUintExact (str : List UInt8) : Prop :=
  ∀ n rest, parseLeadingUint str = some (n, rest) ↔
    ∃ digits, str.dropWhile (· == 32) = digits ++ rest ∧ digits ≠ [] ∧
      (∀ c ∈ digits, isDigit c = true) ∧ (∀ c ∈ rest.head?, isDigit c = false) ∧
      decimalValue digits = n.toNat

/-- A command acts on the numbers that are typed: they are those that the kernel gets. -/
def ActsAsTyped (cmd : List UInt8) : Prop :=
  (commandOf shellNumbers cmd).numbers.map Argument.passed =
    (commandOf typedNumbers cmd).numbers.map Argument.typed

/-- The digits that a string starts with, behind spaces. -/
def leadingDigits (str : List UInt8) : List UInt8 := (str.dropWhile (· == 32)).takeWhile isDigit

variable {str : List UInt8} {value : Nat}

/-- Thirty-two bits of a number are the number exactly where it fits. -/
theorem ofNat_eq_iff : (∀ n, UInt32.ofNat value = n ↔ value = n.toNat) ↔ value < 2 ^ 32 := by
  constructor
  · -- Both sides are the same number, which has 32 bits.
    intro same
    rw [(same _).mp rfl]
    exact UInt32.toNat_lt _
  · -- The number is its own remainder.
    intro fits n
    rw [← UInt32.toNat_inj, UInt32.toNat_ofNat', Nat.mod_eq_of_lt fits]

/-- A number is read as it is typed exactly where it is below 2^32, or is none. -/
theorem uintExact_iff : UintExact str ↔ ¬ (str.all isDigit = true ∧ 2 ^ 32 ≤ decimalValue str) := by
  unfold UintExact
  rw [parseUint_eq, typedUint]
  -- Either the string is a number, or nothing is read from it.
  by_cases number : str ≠ [] ∧ str.all isDigit = true
  · obtain ⟨some_, digits⟩ := number
    have read : (str.isEmpty || !str.all isDigit) = false := by simp [some_, digits]
    have each : ∀ c ∈ str, isDigit c = true := List.all_eq_true.mp digits
    have number : ∀ n : UInt32, str ≠ [] ∧ (∀ c ∈ str, isDigit c = true) ∧ decimalValue str = n.toNat ↔
        decimalValue str = n.toNat := fun n => ⟨fun typed => typed.2.2, fun same => ⟨some_, each, same⟩⟩
    rw [if_neg (Bool.eq_false_iff.mp read)]
    simp only [Option.map_some, Option.some.injEq, number, digits, true_and, Nat.not_le]
    exact ofNat_eq_iff
  · -- Nothing is read, and nothing is typed that could be.
    have none_ : (str.isEmpty || !str.all isDigit) = true := by
      rw [Bool.or_eq_true, Bool.not_eq_true']
      by_cases empty : str = []
      · exact Or.inl (by rw [empty]; rfl)
      · exact Or.inr (Bool.eq_false_iff.mpr fun digits => number ⟨empty, digits⟩)
    rw [if_pos none_]
    refine iff_of_true (fun n => ⟨nofun, fun typed => ?_⟩) ?_
    · exact absurd ⟨typed.1, List.all_eq_true.mpr typed.2.1⟩ number
    · rintro ⟨digits, large⟩
      refine number ⟨?_, digits⟩
      rintro rfl
      exact absurd large (by decide)

/-- A string is cut in one way into the digits in front and the rest. -/
theorem cut_iff {text digits rest : List UInt8} :
    (text = digits ++ rest ∧ (∀ c ∈ digits, isDigit c = true) ∧ ∀ c ∈ rest.head?, isDigit c = false) ↔
      digits = text.takeWhile isDigit ∧ rest = text.dropWhile isDigit := by
  -- Taking digits as long as there are any finds the place.
  constructor
  · rintro ⟨rfl, front, behind⟩
    rw [List.takeWhile_append_of_pos front, List.dropWhile_append_of_pos front]
    cases rest with
    | nil => exact ⟨(List.append_nil _).symm, rfl⟩
    | cons c rest =>
      have other : ¬ isDigit c = true := Bool.eq_false_iff.mp (behind c rfl)
      rw [List.takeWhile_cons_of_neg other, List.dropWhile_cons_of_neg other]
      exact ⟨(List.append_nil _).symm, rfl⟩
  · -- The rest begins with a character that is no digit.
    rintro ⟨rfl, rfl⟩
    refine ⟨List.takeWhile_append_dropWhile.symm, fun c member => List.mem_takeWhile_imp member, ?_⟩
    intro c first
    have behind := List.head?_dropWhile_not isDigit text
    rw [Option.mem_def.mp first] at behind
    exact behind

/-- The number in front is read as it is typed exactly where it is below 2^32. -/
theorem leadingUintExact_iff : LeadingUintExact str ↔ decimalValue (leadingDigits str) < 2 ^ 32 := by
  unfold LeadingUintExact leadingDigits
  rw [parseLeadingUint_eq, typedLeadingUint]
  generalize str.dropWhile (· == 32) = text
  -- Both readings cut the string at the same place.
  have typed : ∀ (n : UInt32) (rest : List UInt8),
      (∃ digits, text = digits ++ rest ∧ digits ≠ [] ∧ (∀ c ∈ digits, isDigit c = true) ∧
        (∀ c ∈ rest.head?, isDigit c = false) ∧ decimalValue digits = n.toNat) ↔
      text.takeWhile isDigit ≠ [] ∧ rest = text.dropWhile isDigit ∧
        decimalValue (text.takeWhile isDigit) = n.toNat := by
    intro n rest
    constructor
    · rintro ⟨digits, whole, some_, front, behind, value⟩
      obtain ⟨rfl, rest_⟩ := cut_iff.mp ⟨whole, front, behind⟩
      exact ⟨some_, rest_, value⟩
    · rintro ⟨some_, rest_, value⟩
      obtain ⟨whole, front, behind⟩ := cut_iff.mpr ⟨rfl, rest_⟩
      exact ⟨_, whole, some_, front, behind, value⟩
  simp only [typed]
  by_cases empty : text.takeWhile isDigit = []
  · -- No digit is in front, and nothing is read.
    rw [empty]
    exact iff_of_true (fun n rest => ⟨nofun, fun typed => absurd rfl typed.1⟩) (by decide)
  · -- There is a number in front, and 32 bits of it are kept.
    rw [if_neg (by rwa [List.isEmpty_iff]), ← ofNat_eq_iff]
    simp only [Option.map_some, Option.some.injEq, Prod.mk.injEq, ne_eq, empty, not_false_eq_true, true_and]
    constructor
    · intro exact_ n
      have here := exact_ n (text.dropWhile isDigit)
      simpa using here
    · intro exact_ n rest
      rw [exact_ n, eq_comm (a := rest), and_comm]

/-- A command acts on the numbers typed exactly where each of them has room in its parameter. -/
theorem actsAsTyped_iff : ActsAsTyped str ↔ ∀ n ∈ (commandOf typedNumbers str).numbers, n.Fits := by
  unfold ActsAsTyped
  -- Both readings give the same command, with the numbers reduced in one of them.
  rw [commandOf_maps shellNumbers_maps, Command.numbers_map, List.map_map, List.map_inj_left]
  exact forall₂_congr fun n _ => n.passed_iff

/--
Numbers are read exactly as long as they are below 2^32.

Both loops keep 32 bits of a larger number, and the command acts on these. Processes, descriptors
and priorities are cast to `int` besides, and have half the room.
-/
theorem numbers_exact_iff (str : List UInt8) :
    (UintExact str ↔ ¬ (str.all isDigit = true ∧ 2 ^ 32 ≤ decimalValue str)) ∧
      (LeadingUintExact str ↔ decimalValue (leadingDigits str) < 2 ^ 32) ∧
      (ActsAsTyped str ↔ ∀ n ∈ (commandOf typedNumbers str).numbers, n.Fits) :=
  -- One lemma for each of the three loops.
  ⟨uintExact_iff, leadingUintExact_iff, actsAsTyped_iff⟩

example : commandOf shellNumbers (textBytes "banker req  7 1 2 30") = .bankerReq 7 1 2 30 := by
  decide

/-- A number above 2^32 is taken for another one, and another process is ended than the one typed. -/
theorem numbers_wrap :
    ¬ UintExact (textBytes "4294967297") ∧ ¬ LeadingUintExact (textBytes " 4294967297 1") ∧
      ¬ ActsAsTyped (textBytes "kill 4294967297") ∧
      ¬ ActsAsTyped (textBytes "banker req 4294967295 0 0 0") := by
  rw [uintExact_iff, leadingUintExact_iff, actsAsTyped_iff, actsAsTyped_iff]
  refine ⟨by decide, by decide, fun fits => ?_, fun fits => ?_⟩
  · -- The number is above 2^32.
    have typed : (commandOf typedNumbers (textBytes "kill 4294967297")).numbers =
        [.int 4294967297] := by
      decide +kernel
    rw [typed] at fits
    exact absurd (fits _ List.mem_cons_self) (by unfold Argument.Fits; decide)
  · -- The number is below 2^32, but the process it is cast to is -1.
    have typed : (commandOf typedNumbers (textBytes "banker req 4294967295 0 0 0")).numbers =
        [.int 4294967295, .uint 0, .uint 0, .uint 0] := by
      decide +kernel
    rw [typed] at fits
    exact absurd (fits _ List.mem_cons_self) (by unfold Argument.Fits; decide)

end Exact

end MyOS.Shell
