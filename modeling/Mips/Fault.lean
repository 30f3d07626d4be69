import Mips.Machine

/-!
Faults: why an instruction cannot complete, and how the machine continues at its exception handler.
Without a handler the fault is reported and ends the program.
-/

namespace Mips

variable [Generator]

/-- What the machine wanted from an address. -/
inductive Access where
  | fetch
  | load
  | store
  deriving DecidableEq, Repr

def Access.name : Access → String
  | .fetch => "fetch"
  | .load => "load"
  | .store => "store"

/-- Why an instruction cannot complete. -/
inductive Fault where
  | misaligned (address : Address) (access : Access)
  | inaccessible (address : Address) (access : Access)
  | overflow
  | reserved (word : Word)
  | breakpoint (code : Word)
  | trap
  | unknownService (number : Word)
  /-- A service that cannot use its input, with the reason. -/
  | service (reason : String)
  deriving DecidableEq, Repr

namespace Fault

def ofMemory (access : Access) : MemoryError → Fault
  | .misaligned address => .misaligned address access
  | .inaccessible address => .inaccessible address access

def code : Fault → Word
  | .misaligned _ .store | .inaccessible _ .store => 5
  | .misaligned .. | .inaccessible .. => 4
  | .unknownService _ | .service _ => 8
  | .breakpoint _ => 9
  | .reserved _ => 10
  | .overflow => 12
  | .trap => 13

/-- The address that could not be accessed, for faults of an access. -/
def badAddress? : Fault → Option Address
  | .misaligned address _ | .inaccessible address _ => some address
  | _ => none

def message : Fault → String
  | .misaligned address access =>
    access.name ++ " address " ++ Text.hex address ++ " is not aligned on its access width"
  | .inaccessible address access =>
    access.name ++ " address " ++ Text.hex address ++ " is out of range or not accessible"
  | .overflow => "arithmetic overflow"
  | .reserved word => "reserved instruction " ++ Text.hex word
  | .breakpoint code => "break instruction executed (code " ++ Text.natural code.toNat ++ ")"
  | .trap => "trap condition held"
  | .unknownService number =>
    "invalid or unimplemented syscall " ++ Text.natural number.toNat
  | .service reason => "syscall failed: " ++ reason

def help : Fault → Option String
  | .misaligned .. =>
    some "words must be accessed at multiples of 4 and halfwords at multiples of 2"
  | .inaccessible _ .fetch =>
    some ("instructions can only be fetched from the text segments " ++
      "unless self-modifying code is enabled")
  | .inaccessible .. =>
    some "the text segments can only be accessed if self-modifying code is enabled"
  | .overflow => some "use the unsigned variant (e.g., addu) to ignore overflow"
  | .unknownService _ => some "the syscall number is read from $v0"
  | .reserved _ | .breakpoint _ | .trap | .service _ => none

end Fault

/-- What cuts an instruction short: a fault, and the assignments that were made before it. -/
structure Interruption where
  fault : Fault
  assignments : List Assignment
  deriving DecidableEq

/-- A fault that comes before anything is assigned. -/
def Interruption.atOnce (fault : Fault) : Interruption := ⟨fault, []⟩

instance : Coe Interruption Fault := ⟨Interruption.fault⟩

/-- A fault that no handler took over, and the address of its instruction. -/
structure FaultReport where
  fault : Fault
  pc : Address
  deriving DecidableEq, Repr

def FaultReport.message (report : FaultReport) : String :=
  "runtime exception at " ++ Text.hex report.pc ++ ": " ++ report.fault.message

namespace Machine

/-- Whether there is an instruction where execution continues after a fault. -/
def handlerLoaded (machine : Machine) : Bool :=
  (machine.memory.word? machine.memory.layout.exceptionHandler).isSome

/--
The assignments that take the machine to its handler after a fault of the instruction at `pc`. In a delay slot
the address to return to is that of the instruction before, which is the branch.
-/
def handling (machine : Machine) (fault : Fault) (pc : Address) (inDelaySlot : Bool) :
    List Assignment :=
  let branchDelay := if inDelaySlot then Cop0.branchDelay else 0
  [.cop0 Cop0.epc (if inDelaySlot then pc - 4 else pc),
   .cop0 Cop0.cause (branchDelay ||| (fault.code <<< 2))] ++
    (fault.badAddress?.map (.cop0 Cop0.badAddress)).toList ++
    [.cop0 Cop0.status (machine.getCop0 Cop0.status ||| Cop0.exceptionLevel)] ++
    (if machine.pending.isSome then [.pending none] else []) ++
    [.pc machine.memory.layout.exceptionHandler]

/-- The assignments that take the machine to its handler, or the report of the fault if there is none. -/
def dispatch (machine : Machine) (fault : Fault) (pc : Address) (inDelaySlot : Bool) :
    Except FaultReport (List Assignment) :=
  if machine.handlerLoaded then .ok (machine.handling fault pc inDelaySlot)
  else .error ⟨fault, pc⟩

def returning (machine : Machine) : List Assignment :=
  [.cop0 Cop0.status (machine.getCop0 Cop0.status &&& ~~~Cop0.exceptionLevel),
   .pc (machine.getCop0 Cop0.epc)]

end Machine

end Mips
