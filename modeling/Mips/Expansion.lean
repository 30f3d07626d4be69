import Mips.Diagnostic
import Mips.Instruction
import Mips.Statement

/-!
What written instructions become. An instruction whose operands fit a machine operation becomes
that operation, and otherwise a short sequence that may compute in `$at`, if such sequences are allowed. How
long the sequence is does not depend on the addresses of labels, so statements can be placed
before any address is known.
-/

namespace Mips

/-- Where and how a written instruction is expanded. -/
structure ExpansionContext where
  /-- The address of the first instruction. -/
  pc : Address
  /-- Whether anything but machine operations may be written. -/
  extended : Bool
  /-- Whether branches have a delay slot. -/
  delayed : Bool
  /-- The addresses of labels, which are not known while statements are placed. -/
  resolve? : Option (Label → Except Problem Address)

/-- Where a branch or jump is to go. -/
inductive Target where
  | number (value : Int)
  | label (label : Label) (addend : Int)

/-- The operand as a target, if it can be one. -/
def Operand.target? : Operand → Option Target
  | .immediate value => some (.number value)
  | .label named addend => some (.label named addend)
  | _ => none

namespace Expansion

/-- Whether the number fits 16 bits with a sign. -/
def fitsSigned (value : Int) : Bool := -0x8000 ≤ value && value ≤ 0x7FFF

/-- Whether the number fits 16 bits without a sign. -/
def fitsUnsigned (value : Int) : Bool := 0 ≤ value && value ≤ 0xFFFF

/-- The low 16 bits of a number. -/
def half (value : Int) : UInt16 := (Word.ofInt value).toUInt16

/-- The number as a signed 16-bit field. -/
def signedHalf (value : Int) : Except Problem UInt16 :=
  if fitsSigned value then .ok (half value) else .error (.immediateOutOfRange value 16 true)

/-- The number as an unsigned 16-bit field. -/
def unsignedHalf (value : Int) : Except Problem UInt16 :=
  if fitsUnsigned value then .ok (half value) else .error (.immediateOutOfRange value 16 false)

def shiftAmount (value : Int) : Except Problem Word :=
  if 0 ≤ value && value ≤ 31 then .ok (Word.ofInt value) else .error (.immediateOutOfRange value 5 false)

/-- The number as a word, whether it is signed or unsigned. -/
def word (value : Int) : Except Problem Word :=
  if Word.holds value then .ok (Word.ofInt value) else .error (.immediateOutOfRange value 32 false)

def upper (address : Address) : UInt16 := (address >>> 16).toUInt16

def lower (address : Address) : UInt16 := address.toUInt16

/-- The upper half of an address to which its lower half is added with its sign. -/
def adjustedUpper (address : Address) : UInt16 := ((address + 0x8000) >>> 16).toUInt16

/-- The address of a label and an addend, if labels are resolved. -/
def address? (context : ExpansionContext) (label : Label) (addend : Int) :
    Except Problem (Option Address) :=
  match context.resolve? with
  | none => .ok none
  | some resolve => (resolve label).map fun address => some (address + Word.ofInt addend)

/-- The address of a label and an addend, or zero while statements are placed. -/
def address (context : ExpansionContext) (label : Label) (addend : Int) : Except Problem Address :=
  (address? context label addend).map (·.getD 0)

/-- The offset field of a branch at `pc`; a number is the offset itself, counted in words. -/
def branchOffset (context : ExpansionContext) (pc : Address) (target : Target) :
    Except Problem UInt16 := do
  let offset ← match target with
    | .number value => pure (some value)
    | .label label addend =>
      match ← address? context label addend with
      | none => pure none
      | some address =>
        if !Word.isAligned address then throw (.misalignedTarget address)
        pure (some (((address.toNat : Int) - pc.toNat - 4) / 4))
  match offset with
  | none => pure 0
  | some offset => if fitsSigned offset then pure (half offset) else throw (.branchOutOfRange offset)

/-- The target field of a jump, which stays in the region of the instruction after it. -/
def jumpIndex (context : ExpansionContext) (target : Target) : Except Problem Word := do
  let address ← match target with
    | .number value => (word value).map some
    | .label label addend => address? context label addend
  match address with
  | none => pure 0
  | some address =>
    if !Word.isAligned address then throw (.misalignedTarget address)
    if context.resolve?.isSome && (address &&& 0xF0000000) ≠ ((context.pc + 4) &&& 0xF0000000) then
      throw (.jumpOutOfRegion address)
    pure ((address >>> 2) &&& 0x03FFFFFF)

/-- The machine instruction of an operation, unless the operands do not have the shape it needs. -/
def encode? (context : ExpansionContext) (operation : Operation) (operands : List Operand) :
    Except Problem (Option Instruction) :=
  let registers := fun rd rs rt => .ok (some (.ofRegisters operation rd rs rt 0))
  let immediate := fun rs rt (field : Except Problem UInt16) =>
    field.map fun field => some (.ofImmediate operation rs rt field)
  match operation.format, operands with
  | .threeRegisters, [.register rd, .register rs, .register rt] => registers rd rs rt
  | .shiftAmount, [.register rd, .register rt, .immediate amount] =>
    (shiftAmount amount).map fun amount => some (.ofRegisters operation rd .zero rt amount)
  | .shiftRegister, [.register rd, .register rt, .register rs] => registers rd rs rt
  | .source, [.register rs] => registers .zero rs .zero
  | .linkRegister, [.register rs] => registers .ra rs .zero
  | .linkRegister, [.register rd, .register rs] => registers rd rs .zero
  | .destination, [.register rd] => registers rd .zero .zero
  | .twoSources, [.register rs, .register rt] => registers .zero rs rt
  | .destinationSource, [.register rd, .register rs] => registers rd rs rd
  | .bare, [] => .ok (some (.ofCode operation 0))
  | .code, [] => .ok (some (.ofCode operation 0))
  | .code, [.immediate code] =>
    if 0 ≤ code && code ≤ 0xFFFFF then .ok (some (.ofCode operation (Word.ofInt code)))
    else .error (.immediateOutOfRange code 20 false)
  | .signedImmediate, [.register rt, .register rs, .immediate value] =>
    immediate rs rt (signedHalf value)
  | .unsignedImmediate, [.register rt, .register rs, .immediate value] =>
    immediate rs rt (unsignedHalf value)
  | .upperImmediate, [.register rt, .immediate value] => immediate .zero rt (unsignedHalf value)
  | .trapImmediate, [.register rs, .immediate value] => immediate rs .zero (signedHalf value)
  | .branchTwo, [.register rs, .register rt, operand] =>
    match operand.target? with
    | some target => immediate rs rt (branchOffset context context.pc target)
    | none => .ok none
  | .branchOne, [.register rs, operand] =>
    match operand.target? with
    | some target => immediate rs .zero (branchOffset context context.pc target)
    | none => .ok none
  | .jump, [operand] =>
    match operand.target? with
    | some target => (jumpIndex context target).map fun index => some (.ofTarget operation index)
    | none => .ok none
  | .memory, [.register rt, .based none offset base] => immediate base rt (signedHalf offset)
  | .cop0Move, [.register rt, .register rd] => registers rd .zero rt
  | _, _ => .ok none

def registers (operation : Operation) (rd rs rt : Register) : Instruction :=
  .ofRegisters operation rd rs rt 0

def immediate (operation : Operation) (rs rt : Register) (field : UInt16) : Instruction :=
  .ofImmediate operation rs rt field

def shift (operation : Operation) (rd value : Register) (amount : Word) : Instruction :=
  .ofRegisters operation rd .zero value amount

/-- The instruction that shifts a register by the amount in another. -/
def shiftBy (operation : Operation) (rd value amount : Register) : Instruction :=
  .ofRegisters operation rd amount value 0

def load (rd : Register) (value : Int) : Except Problem (List Instruction) :=
  if fitsSigned value then .ok [immediate .addiu .zero rd (half value)]
  else if fitsUnsigned value then .ok [immediate .ori .zero rd (half value)]
  else (word value).map fun word =>
    [immediate .lui .zero .scratch (upper word), immediate .ori .scratch rd (lower word)]

/-- A register that holds the operand, and the instructions that load it there first. -/
def source? : Operand → Except Problem (Option (List Instruction × Register))
  | .register register => .ok (some ([], register))
  | .immediate value => (load .scratch value).map fun loading => some (loading, .scratch)
  | _ => .ok none

def thenBranch (context : ExpansionContext) (before : List Instruction) (operation : Operation)
    (rs rt : Register) (target : Target) : Except Problem (List Instruction) :=
  (branchOffset context (context.pc + 4 * UInt32.ofNat before.length) target).map fun offset =>
    before ++ [immediate operation rs rt offset]

/-- The comparison of a pseudo-instruction: whether it is unsigned and whether it swaps its operands. -/
structure Comparison where
  unsigned : Bool
  swapped : Bool

/-- The operation that sets a register if one value is less than another. -/
def Comparison.setLess (comparison : Comparison) : Operation :=
  if comparison.unsigned then .sltu else .slt

def Comparison.compare (comparison : Comparison) (rd rs rt : Register) : Instruction :=
  if comparison.swapped then registers comparison.setLess rd rt rs
  else registers comparison.setLess rd rs rt

/-- How a pseudo-instruction branches on a comparison: on a result of one with `bne`, of zero with `beq`. -/
def branchComparison? : Pseudo → Option (Comparison × Operation)
  | .blt => some (⟨false, false⟩, .bne)
  | .bltu => some (⟨true, false⟩, .bne)
  | .bge => some (⟨false, false⟩, .beq)
  | .bgeu => some (⟨true, false⟩, .beq)
  | .bgt => some (⟨false, true⟩, .bne)
  | .bgtu => some (⟨true, true⟩, .bne)
  | .ble => some (⟨false, true⟩, .beq)
  | .bleu => some (⟨true, true⟩, .beq)
  | _ => none

/-- The instructions that turn a register holding one or zero into the other. -/
def invert (rd : Register) : List Instruction :=
  [immediate .ori .zero .scratch 1, registers .subu rd .scratch rd]

/-- The instructions of a pseudo-instruction that sets a register by a comparison. -/
def setComparison? (pseudo : Pseudo) (rd rs rt : Register) : Option (List Instruction) :=
  match pseudo with
  | .seq => some
      [registers .subu rd rs rt, immediate .ori .zero .scratch 1, registers .sltu rd rd .scratch]
  | .sne => some [registers .subu rd rs rt, registers .sltu rd .zero rd]
  | .sgt => some [registers .slt rd rt rs]
  | .sgtu => some [registers .sltu rd rt rs]
  | .sge => some (registers .slt rd rs rt :: invert rd)
  | .sgeu => some (registers .sltu rd rs rt :: invert rd)
  | .sle => some (registers .slt rd rt rs :: invert rd)
  | .sleu => some (registers .sltu rd rt rs :: invert rd)
  | _ => none

/--
The instructions that divide one register by another, or by a number, and move the result. A register
that holds zero leads to a break, which is skipped otherwise.
-/
def divide (context : ExpansionContext) (division move : Operation) (rd rs : Register) :
    Operand → Except Problem (Option (List Instruction))
  | .register rt =>
    let guard :=
      if context.delayed then [immediate .bne rt .zero 2, .nop, .ofCode .breakpoint 0]
      else [immediate .bne rt .zero 1, .ofCode .breakpoint 0]
    .ok (some (guard ++ [registers division .zero rs rt, registers move rd .zero .zero]))
  | .immediate value => (load .scratch value).map fun loading =>
      some (loading ++ [registers division .zero rs .scratch, registers move rd .zero .zero])
  | _ => .ok none

/-- The instructions that add or subtract a number; `subtraction` is used if its negative does not fit. -/
def subtract (addition subtraction : Operation) (rt rs : Register) (value : Int) :
    Except Problem (List Instruction) :=
  if fitsSigned (-value) then .ok [immediate addition rs rt (half (-value))]
  else (load .scratch value).map fun loading => loading ++ [registers subtraction rt rs .scratch]

/-- The instructions that rotate a register by the amount in another. -/
def rotateBy (first second : Operation) (rd rs rt : Register) : List Instruction :=
  [registers .subu .scratch .zero rt, shiftBy first .scratch rs .scratch, shiftBy second rd rs rt,
   registers .or rd rd .scratch]

def rotate (first second : Operation) (rd rs : Register) (amount : Int) :
    Except Problem (List Instruction) :=
  (shiftAmount amount).map fun amount =>
    [shift first .scratch rs ((32 - amount) &&& 31), shift second rd rs amount,
     registers .or rd rd .scratch]

/-- The instructions of a pseudo-instruction, unless it does not accept the operands. -/
def pseudo? (context : ExpansionContext) (pseudo : Pseudo) (operands : List Operand) :
    Except Problem (Option (List Instruction)) :=
  let branch := fun operation rs rt (operand : Operand) =>
    match operand.target? with
    | some target => (thenBranch context [] operation rs rt target).map some
    | none => .ok none
  match pseudo, operands with
  | .li, [.register rd, .immediate value] => (load rd value).map some
  | .la, [.register rd, .immediate value] => (load rd value).map some
  | .la, [.register rd, .label label addend] => (address context label addend).map fun address =>
      some [immediate .lui .zero .scratch (upper address), immediate .ori .scratch rd (lower address)]
  | .la, [.register rd, .based label offset base] =>
    if label.isNone && fitsSigned offset then .ok (some [immediate .addiu base rd (half offset)])
    else
      (match label with
        | some label => address context label offset
        | none => word offset).map fun address =>
        some [immediate .lui .zero .scratch (upper address),
          immediate .ori .scratch .scratch (lower address), registers .addu rd .scratch base]
  | .move, [.register rd, .register rs] => .ok (some [registers .addu rd .zero rs])
  | .not, [.register rd, .register rs] => .ok (some [registers .nor rd rs .zero])
  | .neg, [.register rd, .register rs] => .ok (some [registers .sub rd .zero rs])
  | .negu, [.register rd, .register rs] => .ok (some [registers .subu rd .zero rs])
  | .abs, [.register rd, .register rs] => .ok (some
      [shift .sra .scratch rs 31, registers .xor rd .scratch rs, registers .subu rd rd .scratch])
  | .b, [operand] => branch .beq .zero .zero operand
  | .bal, [operand] => branch .bgezal .zero .zero operand
  | .beqz, [.register rs, operand] => branch .beq rs .zero operand
  | .bnez, [.register rs, operand] => branch .bne rs .zero operand
  | .subi, [.register rt, .register rs, .immediate value] => (subtract .addi .sub rt rs value).map some
  | .subiu, [.register rt, .register rs, .immediate value] =>
    (subtract .addiu .subu rt rs value).map some
  | .rem, [.register rd, .register rs, divisor] => divide context .div .mfhi rd rs divisor
  | .remu, [.register rd, .register rs, divisor] => divide context .divu .mfhi rd rs divisor
  | .rol, [.register rd, .register rs, .register rt] => .ok (some (rotateBy .srlv .sllv rd rs rt))
  | .ror, [.register rd, .register rs, .register rt] => .ok (some (rotateBy .sllv .srlv rd rs rt))
  | .rol, [.register rd, .register rs, .immediate amount] => (rotate .srl .sll rd rs amount).map some
  | .ror, [.register rd, .register rs, .immediate amount] => (rotate .sll .srl rd rs amount).map some
  | pseudo, [.register first, second, third] =>
    match branchComparison? pseudo with
    | some (comparison, operation) =>
      match third.target? with
      | none => .ok none
      | some target => do
        match ← source? second with
        | none => .ok none
        | some (loading, rt) =>
          (thenBranch context (loading ++ [comparison.compare .scratch first rt]) operation
            .scratch .zero target).map some
    | none =>
      match second with
      | .register rs =>
        if (setComparison? pseudo first rs .zero).isNone then .ok none
        else do
          match ← source? third with
          | none => .ok none
          | some (loading, rt) => .ok ((setComparison? pseudo first rs rt).map (loading ++ ·))
      | _ => .ok none
  | _, _ => .ok none

/-- The operation with an immediate that does the same as one on registers, and whether it is signed. -/
def immediateForm? : Operation → Option (Operation × Bool)
  | .add => some (.addi, true)
  | .addu => some (.addiu, true)
  | .slt => some (.slti, true)
  | .sltu => some (.sltiu, true)
  | .and => some (.andi, false)
  | .or => some (.ori, false)
  | .xor => some (.xori, false)
  | _ => none

/-- The operation on registers that does the same as one with an immediate. -/
def registerForm? : Operation → Option Operation
  | .addi => some .add
  | .addiu => some .addu
  | .slti => some .slt
  | .sltiu => some .sltu
  | .andi => some .and
  | .ori => some .or
  | .xori => some .xor
  | _ => none

/-- The trap with an immediate that does the same as one on registers. -/
def trapForm? : Operation → Option Operation
  | .teq => some .teqi
  | .tne => some .tnei
  | .tge => some .tgei
  | .tgeu => some .tgeiu
  | .tlt => some .tlti
  | .tltu => some .tltiu
  | _ => none

/-- Whether the last operand of an operation on registers may be a number. -/
def acceptsNumber : Operation → Bool
  | .add | .addu | .sub | .subu | .and | .or | .xor | .nor | .slt | .sltu | .mul => true
  | _ => false

/-- The instructions of an operation on registers whose last operand is a number. -/
def withNumber (operation : Operation) (rd rs : Register) (value : Int) :
    Except Problem (List Instruction) :=
  let throughScratch :=
    (load .scratch value).map fun loading => loading ++ [registers operation rd rs .scratch]
  match immediateForm? operation, operation with
  | some (form, true), _ =>
    if fitsSigned value then .ok [immediate form rs rd (half value)] else throughScratch
  | some (form, false), _ =>
    if fitsUnsigned value then .ok [immediate form rs rd (half value)] else throughScratch
  | none, .sub => subtract .addi .sub rd rs value
  | none, .subu => subtract .addiu .subu rd rs value
  | none, _ => throughScratch

/-- The instructions of an extended form of a machine operation with all of its operands. -/
def extended? (context : ExpansionContext) (operation : Operation) (operands : List Operand) :
    Except Problem (Option (List Instruction)) :=
  match operation, operands with
  | .beq, [.register rs, .immediate value, operand] => compareWith .beq rs value operand
  | .bne, [.register rs, .immediate value, operand] => compareWith .bne rs value operand
  | .div, [.register rd, .register rs, divisor] => divide context .div .mflo rd rs divisor
  | .divu, [.register rd, .register rs, divisor] => divide context .divu .mflo rd rs divisor
  | operation, operands =>
    match operation.format, operands with
    | .threeRegisters, [.register rd, .register rs, .immediate value] =>
      if acceptsNumber operation then (withNumber operation rd rs value).map some else .ok none
    | .signedImmediate, [.register rt, .register rs, .immediate value] => largeImmediate rt rs value
    | .unsignedImmediate, [.register rt, .register rs, .immediate value] => largeImmediate rt rs value
    | .twoSources, [.register rs, .immediate value] =>
      match trapForm? operation with
      | none => .ok none
      | some form =>
        if fitsSigned value then .ok (some [immediate form rs .zero (half value)])
        else (load .scratch value).map fun loading =>
          some (loading ++ [registers operation .zero rs .scratch])
    | .memory, [.register rt, .immediate value] => (word value).map fun address =>
        if fitsSigned value then some [immediate operation .zero rt (lower address)]
        else some (throughUpper rt address)
    | .memory, [.register rt, .label label addend] =>
      (address context label addend).map fun address => some (throughUpper rt address)
    | .memory, [.register rt, .based label offset base] =>
      (match label with
        | some label => address context label offset
        | none => word offset).map fun address =>
        some [immediate .lui .zero .scratch (adjustedUpper address),
          registers .addu .scratch .scratch base, immediate operation .scratch rt (lower address)]
    | _, _ => .ok none
where
  compareWith (operation : Operation) (rs : Register) (value : Int) (operand : Operand) :
      Except Problem (Option (List Instruction)) :=
    match operand.target? with
    | none => .ok none
    | some target => do
      let loading ← load .scratch value
      (thenBranch context loading operation rs .scratch target).map some
  largeImmediate (rt rs : Register) (value : Int) : Except Problem (Option (List Instruction)) :=
    match registerForm? operation with
    | none => .ok none
    | some form => (load .scratch value).map fun loading =>
        some (loading ++ [registers form rt rs .scratch])
  throughUpper (rt : Register) (address : Address) : List Instruction :=
    [immediate .lui .zero .scratch (adjustedUpper address),
     immediate operation .scratch rt (lower address)]

/--
The instructions that a direct encoding and an expansion settle on. The direct encoding wins; if it fails for a
reason of its own, that reason is reported unless the expansion is allowed and helps.
-/
def settle (context : ExpansionContext) (mnemonic : Mnemonic)
    (direct : Except Problem (Option Instruction))
    (expanded : Except Problem (Option (List Instruction))) : Except Problem (List Instruction) :=
  match direct with
  | .ok (some instruction) => .ok [instruction]
  | .ok none =>
    match expanded with
    | .ok none => .error (.operandMismatch mnemonic)
    | .ok (some instructions) =>
      if context.extended then .ok instructions else .error (.extendedDisabled mnemonic)
    | .error problem => .error (if context.extended then problem else .extendedDisabled mnemonic)
  | .error reason =>
    if !context.extended then .error reason
    else
      match expanded with
      | .ok none => .error reason
      | .ok (some instructions) => .ok instructions
      | .error problem => .error problem

/-- The operands with the first one repeated, if leaving it out once is allowed. -/
def unabbreviated? (operation : Operation) : List Operand → Option (List Operand)
  | [.register rd, .register rt] =>
    if operation.format = .threeRegisters && acceptsNumber operation then
      some [.register rd, .register rd, .register rt]
    else none
  | [.register rd, .immediate value] =>
    if (operation.format = .threeRegisters && acceptsNumber operation) ||
        operation.format = .signedImmediate || operation.format = .unsignedImmediate then
      some [.register rd, .register rd, .immediate value]
    else none
  | _ => none

/-- The instructions of a machine operation on operands that do not fit it directly. -/
def machine? (context : ExpansionContext) (operation : Operation) (operands : List Operand) :
    Except Problem (Option (List Instruction)) :=
  match unabbreviated? operation operands with
  | some operands =>
    (settle context (.machine operation) (encode? context operation operands)
      (extended? context operation operands)).map some
  | none => extended? context operation operands

end Expansion

def WrittenInstruction.expand (written : WrittenInstruction) (context : ExpansionContext) :
    Except Problem (List Instruction) :=
  match written.mnemonic with
  | .nop => if written.operands.isEmpty then .ok [.nop] else .error (.operandMismatch .nop)
  | .machine operation =>
    Expansion.settle context written.mnemonic (Expansion.encode? context operation written.operands)
      (Expansion.machine? context operation written.operands)
  | .pseudo pseudo =>
    Expansion.settle context written.mnemonic (.ok none)
      (Expansion.pseudo? context pseudo written.operands)

end Mips
