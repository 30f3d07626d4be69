import Mips.Accesses
import Mips.Service

/-!
The execution of single instructions. An instruction gives the assignments it makes and where execution continues, or a
fault cuts it short, and what it assigned before that stays.
-/

namespace Mips

variable [Generator]

/-- Where execution continues after an instruction. -/
inductive Flow where
  | next
  | branch (target : Address)
  /-- The instruction assigned the address itself. -/
  | assigned
  /-- The service is called that the registers ask for. -/
  | service
  deriving DecidableEq

/-- What an instruction does that does not fault. -/
structure Effect where
  assignments : List Assignment
  flow : Flow := .next
  /-- The address that was loaded or stored, and how. -/
  access : Option (Address × AccessSet) := none

namespace Effect

def set (target : Register) (value : Word) : Except Interruption Effect :=
  .ok { assignments := [.register target value] }

/-- A register is assigned a number, unless it does not fit into a word with a sign. -/
def setChecked (target : Register) (value : Int) : Except Interruption Effect :=
  if -0x80000000 ≤ value ∧ value < 0x80000000 then set target (Word.ofInt value)
  else .error (.atOnce .overflow)

/-- A register is assigned one if the condition holds, and zero otherwise. -/
def setFlag (target : Register) (condition : Bool) : Except Interruption Effect :=
  set target (if condition then 1 else 0)

/-- `HI` and `LO` are assigned the halves of a number. -/
def setPair (value : UInt64) : Except Interruption Effect :=
  .ok { assignments := [.hi (Word.high value), .lo (Word.low value)] }

/-- `HI` is assigned a remainder and `LO` a quotient. -/
def setDivision (remainder quotient : Word) : Except Interruption Effect :=
  .ok { assignments := [.hi remainder, .lo quotient] }

def nothing : Except Interruption Effect := .ok { assignments := [] }

def trapIf (condition : Bool) : Except Interruption Effect := if condition then .error (.atOnce .trap) else nothing

def branchIf (condition : Bool) (target : Address) : Except Interruption Effect :=
  .ok { assignments := [], flow := if condition then .branch target else .next }

/-- A register is assigned the address to return to, and execution branches if the condition holds. -/
def linkIf (condition : Bool) (target : Address) (register : Register) (link : Address) :
    Except Interruption Effect :=
  .ok
    { assignments := [.register register link]
      flow := if condition then .branch target else .next }

/-- Execution jumps to an address in a register, unless it is misaligned. -/
def jumpTo (target : Address) (assignments : List Assignment) : Except Interruption Effect :=
  if Word.isAligned target then .ok { assignments := assignments, flow := .branch target }
  else .error (.atOnce (.misaligned target .fetch))

/-- A register is assigned what a load gives, with its sign copied upwards if `signed` holds. -/
def load (memory : Memory) (width : Width) (signed : Bool) (target : Register) (address : Address) :
    Except Interruption Effect :=
  match memory.read width address with
  | .error error => .error (.atOnce (.ofMemory .load error))
  | .ok value =>
    let extended := if signed then value.signExtend (8 * width.bytes.toNat) else value
    .ok
      { assignments := [.register target extended]
        access := some (address, { read := true }) }

def store (memory : Memory) (width : Width) (address : Address) (value : Word) :
    Except Interruption Effect :=
  match memory.stored width address value with
  | .error error => .error (.atOnce (.ofMemory .store error))
  | .ok (aligned, word) =>
    let modified : Bool := memory.word? address ≠ some word
    .ok
      { assignments := [.memory aligned (some word)]
        access := some (address, { written := true, modified := modified }) }

end Effect

/-- The product of two signed words, modulo `2^64`. -/
def signedProduct (first second : Word) : UInt64 := UInt64.ofInt (first.signed * second.signed)

def unsignedProduct (first second : Word) : UInt64 := first.toUInt64 * second.toUInt64

open Effect in
/--
What the instruction does at `pc`. With `delayed` branching the address to return to lies after the delay slot.
-/
def Instruction.effect (instruction : Instruction) (machine : Machine) (pc : Address)
    (delayed : Bool) : Except Interruption Effect :=
  let rd := instruction.rd
  let rt := instruction.rt
  let source := machine.get instruction.rs
  let value := machine.get rt
  let extended := instruction.extended
  let number := instruction.signedImmediate
  let immediate := instruction.immediate
  let address := source + extended
  let branch := instruction.branchTarget pc
  let jump := instruction.jumpTarget pc
  let link := if delayed then pc + 8 else pc + 4
  let pair := Word.join machine.hi machine.lo
  match instruction.operation with
  | .sll => set rd (value <<< instruction.shamt)
  | .srl => set rd (value >>> instruction.shamt)
  | .sra => set rd (value.shiftRightSigned instruction.shamt.toNat)
  | .sllv => set rd (value <<< (source &&& 0x1F))
  | .srlv => set rd (value >>> (source &&& 0x1F))
  | .srav => set rd (value.shiftRightSigned (source &&& 0x1F).toNat)
  | .j => branchIf true jump
  | .jal => linkIf true jump .ra link
  | .jr => jumpTo source []
  | .jalr => jumpTo source [.register rd link]
  | .movz => if value = 0 then set rd source else nothing
  | .movn => if value ≠ 0 then set rd source else nothing
  | .syscall => .ok { assignments := [], flow := .service }
  | .breakpoint => .error (.atOnce (.breakpoint instruction.code))
  | .mfc0 => set rt (machine.getCop0 rd.number)
  | .mtc0 => .ok { assignments := [.cop0 rd.number value] }
  | .eret => .ok { assignments := machine.returning, flow := .assigned }
  | .mfhi => set rd machine.hi
  | .mflo => set rd machine.lo
  | .mthi => .ok { assignments := [.hi source] }
  | .mtlo => .ok { assignments := [.lo source] }
  | .mult => setPair (signedProduct source value)
  | .multu => setPair (unsignedProduct source value)
  | .madd => setPair (pair + signedProduct source value)
  | .maddu => setPair (pair + unsignedProduct source value)
  | .msub => setPair (pair - signedProduct source value)
  | .msubu => setPair (pair - unsignedProduct source value)
  | .mul =>
    let product := signedProduct source value
    .ok
      { assignments :=
          [.hi (Word.high product), .lo (Word.low product), .register rd (Word.low product)] }
  | .div =>
    if value = 0 then nothing
    else setDivision (Word.ofInt (source.signed.tmod value.signed))
      (Word.ofInt (source.signed.tdiv value.signed))
  | .divu => if value = 0 then nothing else setDivision (source % value) (source / value)
  | .add => setChecked rd (source.signed + value.signed)
  | .addu => set rd (source + value)
  | .sub => setChecked rd (source.signed - value.signed)
  | .subu => set rd (source - value)
  | .and => set rd (source &&& value)
  | .or => set rd (source ||| value)
  | .xor => set rd (source ^^^ value)
  | .nor => set rd (~~~(source ||| value))
  | .slt => setFlag rd (source.signed < value.signed)
  | .sltu => setFlag rd (source < value)
  | .clz => set rd (UInt32.ofNat source.leadingZeros)
  | .clo => set rd (UInt32.ofNat (~~~source).leadingZeros)
  | .addi => setChecked rt (source.signed + number)
  | .addiu => set rt address
  | .slti => setFlag rt (source.signed < number)
  | .sltiu => setFlag rt (source < extended)
  | .andi => set rt (source &&& immediate)
  | .ori => set rt (source ||| immediate)
  | .xori => set rt (source ^^^ immediate)
  | .lui => set rt (immediate <<< 16)
  | .tge => trapIf (value.signed ≤ source.signed)
  | .tgeu => trapIf (value ≤ source)
  | .tlt => trapIf (source.signed < value.signed)
  | .tltu => trapIf (source < value)
  | .teq => trapIf (source = value)
  | .tne => trapIf (source ≠ value)
  | .tgei => trapIf (number ≤ source.signed)
  | .tgeiu => trapIf (extended ≤ source)
  | .tlti => trapIf (source.signed < number)
  | .tltiu => trapIf (source < extended)
  | .teqi => trapIf (source = extended)
  | .tnei => trapIf (source ≠ extended)
  | .beq => branchIf (source = value) branch
  | .bne => branchIf (source ≠ value) branch
  | .blez => branchIf (source.signed ≤ 0) branch
  | .bgtz => branchIf (0 < source.signed) branch
  | .bltz => branchIf (source.signed < 0) branch
  | .bgez => branchIf (0 ≤ source.signed) branch
  | .bltzal => linkIf (source.signed < 0) branch .ra link
  | .bgezal => linkIf (0 ≤ source.signed) branch .ra link
  | .lb => load machine.memory .byte true rt address
  | .lh => load machine.memory .half true rt address
  | .lw => load machine.memory .word false rt address
  | .lbu => load machine.memory .byte false rt address
  | .lhu => load machine.memory .half false rt address
  | .sb => store machine.memory .byte address value
  | .sh => store machine.memory .half address value
  | .sw => store machine.memory .word address value

/-- How the execution of an instruction ended. -/
inductive StepEnd where
  | completed
  /-- A service ended the program with this code. -/
  | exited (code : Int)
  /-- A fault arose that no handler took over. -/
  | faulted (report : FaultReport)

/-- What the execution of an instruction did. -/
structure Step (κ : Type) where
  assignments : List Assignment
  ending : StepEnd
  console : κ
  printed : Option String := none
  /-- The address that was loaded or stored, and how. -/
  access : Option (Address × AccessSet) := none

namespace Step

variable {κ : Type}

/-- A fault after these assignments, which goes to the handler if there is one. -/
def raise (machine : Machine) (assignments : List Assignment) (fault : Fault) (console : κ)
    (printed : Option String) : Step κ :=
  let inDelaySlot := machine.pending.isSome
  match (machine.assignAll assignments).dispatch fault machine.pc inDelaySlot with
  | .ok handling =>
    { assignments := assignments ++ handling, ending := .completed, console, printed }
  | .error report => { assignments, ending := .faulted report, console, printed }

variable [Console κ]

/-- The step of an instruction whose word was fetched; a pending branch is taken before it executes. -/
def ofWord (machine : Machine) (word : Word) (delayed : Bool) (console : κ)
    (surroundings : Surroundings) : Step κ :=
  let taken : List Assignment := if machine.pending.isSome then [.pending none] else []
  let ready := machine.assignAll taken
  let next := machine.pending.getD (machine.pc + 4)
  match Instruction.decode? word with
  | none => raise machine taken (.reserved word) console none
  | some instruction =>
    match instruction.effect ready machine.pc delayed with
    | .error interruption =>
      raise machine (taken ++ interruption.assignments) interruption console none
    | .ok effect =>
      let done := taken ++ effect.assignments
      let access := effect.access
      match effect.flow with
      | .next => { assignments := done ++ [.pc next], ending := .completed, console, access }
      | .branch target =>
        let assigned := if delayed then [.pending (some target), .pc next] else [.pc target]
        { assignments := done ++ assigned, ending := .completed, console, access }
      | .assigned => { assignments := done, ending := .completed, console, access }
      | .service =>
        let result := Service.call ready console surroundings
        match result.ending with
        | .error interruption =>
          raise machine (done ++ interruption.assignments) interruption result.console result.printed
        | .ok (.resume assigned) =>
          { assignments := done ++ assigned ++ [.pc next], ending := .completed,
            console := result.console, printed := result.printed }
        | .ok (.exit code) =>
          { assignments := done ++ [.pc next], ending := .exited code,
            console := result.console, printed := result.printed }

/-- The step of the machine, or nothing if there is no instruction to execute. -/
def ofMachine (machine : Machine) (delayed : Bool) (console : κ) (surroundings : Surroundings) :
    Option (Step κ) :=
  match machine.memory.fetch machine.pc with
  | .error error => some (raise machine [] (.ofMemory .fetch error) console none)
  | .ok none => none
  | .ok (some word) => some (ofWord machine word delayed console surroundings)

end Step

end Mips
