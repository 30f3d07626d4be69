import Mips.Word

/-!
The machine operations: for each its mnemonic, the fields of a word that identify it, the layout of its
operands and its category. Main statement: `operation?_eq_some_iff`, by which an encoding and its operation
determine each other.
-/

namespace Mips

/-- The fields of a word that identify its operation. -/
inductive Encoding where
  /-- Opcode 0, told apart by the function field. -/
  | special (function : UInt8)
  /-- Opcode 1, told apart by the `rt` field. -/
  | regImm (rt : UInt8)
  /-- Told apart by the opcode alone. -/
  | primary (opcode : UInt8)
  /-- Opcode 28, told apart by the function field. -/
  | special2 (function : UInt8)
  /-- Opcode 16, coprocessor 0, told apart by the `rs` field. -/
  | cop0 (rs : UInt8)
  /-- Opcode 16 with the highest bit of `rs` set, told apart by the function field. -/
  | cop0Function (function : UInt8)
  deriving DecidableEq, Repr

/-- The number that tells operations of one kind of encoding apart. -/
def Encoding.selector : Encoding → UInt8
  | .special n | .regImm n | .primary n | .special2 n | .cop0 n | .cop0Function n => n

def Encoding.ofWord (word : Word) : Encoding :=
  let opcode := (word >>> 26).toUInt8
  let rs := ((word >>> 21) &&& 0x1F).toUInt8
  let rt := ((word >>> 16) &&& 0x1F).toUInt8
  let function := (word &&& 0x3F).toUInt8
  if opcode = 0x00 then .special function
  else if opcode = 0x01 then .regImm rt
  else if opcode = 0x1C then .special2 function
  else if opcode = 0x10 then
    if rs &&& 0x10 ≠ 0 then .cop0Function function else .cop0 rs
  else .primary opcode

def Encoding.base : Encoding → Word
  | .special function => function.toUInt32
  | .regImm rt => ((0x01 : Word) <<< 26) ||| (rt.toUInt32 <<< 16)
  | .primary opcode => opcode.toUInt32 <<< 26
  | .special2 function => ((0x1C : Word) <<< 26) ||| function.toUInt32
  | .cop0 rs => ((0x10 : Word) <<< 26) ||| (rs.toUInt32 <<< 21)
  | .cop0Function function => ((0x10 : Word) <<< 26) ||| ((0x10 : Word) <<< 21) ||| function.toUInt32

/-- The layout of an operation's operands in assembly. -/
inductive Format where
  /-- `rd, rs, rt` -/
  | threeRegisters
  /-- `rd, rt, shamt` -/
  | shiftAmount
  /-- `rd, rt, rs` -/
  | shiftRegister
  /-- `rs` -/
  | source
  /-- `rd, rs`, or `rs` alone to link into `$ra`. -/
  | linkRegister
  /-- `rd` -/
  | destination
  /-- `rs, rt` -/
  | twoSources
  /-- `rd, rs` -/
  | destinationSource
  | bare
  /-- A 20-bit code, which may be left out. -/
  | code
  /-- `rt, rs`, and a signed 16-bit number. -/
  | signedImmediate
  /-- `rt, rs`, and an unsigned 16-bit number. -/
  | unsignedImmediate
  /-- `rt`, and an unsigned 16-bit number. -/
  | upperImmediate
  /-- `rs, rt`, and a target. -/
  | branchTwo
  /-- `rs`, and a target. -/
  | branchOne
  /-- `rs`, and a signed 16-bit number. -/
  | trapImmediate
  | jump
  /-- `rt`, and a base register with an offset. -/
  | memory
  /-- `rt`, and a register of coprocessor 0. -/
  | cop0Move
  deriving DecidableEq, Repr

def Format.signature : Format → String
  | .threeRegisters => "$rd, $rs, $rt"
  | .shiftAmount => "$rd, $rt, shamt"
  | .shiftRegister => "$rd, $rt, $rs"
  | .source => "$rs"
  | .linkRegister => "$rd, $rs"
  | .destination => "$rd"
  | .twoSources => "$rs, $rt"
  | .destinationSource => "$rd, $rs"
  | .bare => "no operands"
  | .code => "an optional code"
  | .signedImmediate => "$rt, $rs, signed 16-bit immediate"
  | .unsignedImmediate => "$rt, $rs, unsigned 16-bit immediate"
  | .upperImmediate => "$rt, unsigned 16-bit immediate"
  | .branchTwo => "$rs, $rt, label"
  | .branchOne => "$rs, label"
  | .trapImmediate => "$rs, signed 16-bit immediate"
  | .jump => "label"
  | .memory => "$rt, offset($base)"
  | .cop0Move => "$rt, $cop0 register"

/-- The broad category of an operation. -/
inductive Category where
  | arithmetic | logical | shift | multiplyDivide | compare | branch | jump | load | store | trap | system
  deriving DecidableEq, Repr

/-- A machine operation, named by its mnemonic (`breakpoint` is `break`). -/
inductive Operation where
  | sll | srl | sra | sllv | srlv | srav | jr | jalr | movz | movn | syscall | breakpoint
  | mfhi | mthi | mflo | mtlo | mult | multu | div | divu | add | addu | sub | subu | and | or
  | xor | nor | slt | sltu | tge | tgeu | tlt | tltu | teq | tne | bltz | bgez | tgei | tgeiu
  | tlti | tltiu | teqi | tnei | bltzal | bgezal | j | jal | beq | bne | blez | bgtz | addi
  | addiu | slti | sltiu | andi | ori | xori | lui | lb | lh | lw | lbu | lhu | sb | sh | sw
  | mfc0 | mtc0 | eret | madd | maddu | mul | msub | msubu | clz | clo
  deriving DecidableEq, Repr

namespace Operation

/-- What there is to know about an operation without running it. -/
structure Description where
  mnemonic : String
  encoding : Encoding
  format : Format
  category : Category

def description : Operation → Description
  | .sll => ⟨"sll", .special 0x00, .shiftAmount, .shift⟩
  | .srl => ⟨"srl", .special 0x02, .shiftAmount, .shift⟩
  | .sra => ⟨"sra", .special 0x03, .shiftAmount, .shift⟩
  | .sllv => ⟨"sllv", .special 0x04, .shiftRegister, .shift⟩
  | .srlv => ⟨"srlv", .special 0x06, .shiftRegister, .shift⟩
  | .srav => ⟨"srav", .special 0x07, .shiftRegister, .shift⟩
  | .jr => ⟨"jr", .special 0x08, .source, .jump⟩
  | .jalr => ⟨"jalr", .special 0x09, .linkRegister, .jump⟩
  | .movz => ⟨"movz", .special 0x0A, .threeRegisters, .arithmetic⟩
  | .movn => ⟨"movn", .special 0x0B, .threeRegisters, .arithmetic⟩
  | .syscall => ⟨"syscall", .special 0x0C, .bare, .system⟩
  | .breakpoint => ⟨"break", .special 0x0D, .code, .system⟩
  | .mfhi => ⟨"mfhi", .special 0x10, .destination, .multiplyDivide⟩
  | .mthi => ⟨"mthi", .special 0x11, .source, .multiplyDivide⟩
  | .mflo => ⟨"mflo", .special 0x12, .destination, .multiplyDivide⟩
  | .mtlo => ⟨"mtlo", .special 0x13, .source, .multiplyDivide⟩
  | .mult => ⟨"mult", .special 0x18, .twoSources, .multiplyDivide⟩
  | .multu => ⟨"multu", .special 0x19, .twoSources, .multiplyDivide⟩
  | .div => ⟨"div", .special 0x1A, .twoSources, .multiplyDivide⟩
  | .divu => ⟨"divu", .special 0x1B, .twoSources, .multiplyDivide⟩
  | .add => ⟨"add", .special 0x20, .threeRegisters, .arithmetic⟩
  | .addu => ⟨"addu", .special 0x21, .threeRegisters, .arithmetic⟩
  | .sub => ⟨"sub", .special 0x22, .threeRegisters, .arithmetic⟩
  | .subu => ⟨"subu", .special 0x23, .threeRegisters, .arithmetic⟩
  | .and => ⟨"and", .special 0x24, .threeRegisters, .logical⟩
  | .or => ⟨"or", .special 0x25, .threeRegisters, .logical⟩
  | .xor => ⟨"xor", .special 0x26, .threeRegisters, .logical⟩
  | .nor => ⟨"nor", .special 0x27, .threeRegisters, .logical⟩
  | .slt => ⟨"slt", .special 0x2A, .threeRegisters, .compare⟩
  | .sltu => ⟨"sltu", .special 0x2B, .threeRegisters, .compare⟩
  | .tge => ⟨"tge", .special 0x30, .twoSources, .trap⟩
  | .tgeu => ⟨"tgeu", .special 0x31, .twoSources, .trap⟩
  | .tlt => ⟨"tlt", .special 0x32, .twoSources, .trap⟩
  | .tltu => ⟨"tltu", .special 0x33, .twoSources, .trap⟩
  | .teq => ⟨"teq", .special 0x34, .twoSources, .trap⟩
  | .tne => ⟨"tne", .special 0x36, .twoSources, .trap⟩
  | .bltz => ⟨"bltz", .regImm 0x00, .branchOne, .branch⟩
  | .bgez => ⟨"bgez", .regImm 0x01, .branchOne, .branch⟩
  | .tgei => ⟨"tgei", .regImm 0x08, .trapImmediate, .trap⟩
  | .tgeiu => ⟨"tgeiu", .regImm 0x09, .trapImmediate, .trap⟩
  | .tlti => ⟨"tlti", .regImm 0x0A, .trapImmediate, .trap⟩
  | .tltiu => ⟨"tltiu", .regImm 0x0B, .trapImmediate, .trap⟩
  | .teqi => ⟨"teqi", .regImm 0x0C, .trapImmediate, .trap⟩
  | .tnei => ⟨"tnei", .regImm 0x0E, .trapImmediate, .trap⟩
  | .bltzal => ⟨"bltzal", .regImm 0x10, .branchOne, .branch⟩
  | .bgezal => ⟨"bgezal", .regImm 0x11, .branchOne, .branch⟩
  | .j => ⟨"j", .primary 0x02, .jump, .jump⟩
  | .jal => ⟨"jal", .primary 0x03, .jump, .jump⟩
  | .beq => ⟨"beq", .primary 0x04, .branchTwo, .branch⟩
  | .bne => ⟨"bne", .primary 0x05, .branchTwo, .branch⟩
  | .blez => ⟨"blez", .primary 0x06, .branchOne, .branch⟩
  | .bgtz => ⟨"bgtz", .primary 0x07, .branchOne, .branch⟩
  | .addi => ⟨"addi", .primary 0x08, .signedImmediate, .arithmetic⟩
  | .addiu => ⟨"addiu", .primary 0x09, .signedImmediate, .arithmetic⟩
  | .slti => ⟨"slti", .primary 0x0A, .signedImmediate, .compare⟩
  | .sltiu => ⟨"sltiu", .primary 0x0B, .signedImmediate, .compare⟩
  | .andi => ⟨"andi", .primary 0x0C, .unsignedImmediate, .logical⟩
  | .ori => ⟨"ori", .primary 0x0D, .unsignedImmediate, .logical⟩
  | .xori => ⟨"xori", .primary 0x0E, .unsignedImmediate, .logical⟩
  | .lui => ⟨"lui", .primary 0x0F, .upperImmediate, .logical⟩
  | .lb => ⟨"lb", .primary 0x20, .memory, .load⟩
  | .lh => ⟨"lh", .primary 0x21, .memory, .load⟩
  | .lw => ⟨"lw", .primary 0x23, .memory, .load⟩
  | .lbu => ⟨"lbu", .primary 0x24, .memory, .load⟩
  | .lhu => ⟨"lhu", .primary 0x25, .memory, .load⟩
  | .sb => ⟨"sb", .primary 0x28, .memory, .store⟩
  | .sh => ⟨"sh", .primary 0x29, .memory, .store⟩
  | .sw => ⟨"sw", .primary 0x2B, .memory, .store⟩
  | .mfc0 => ⟨"mfc0", .cop0 0x00, .cop0Move, .system⟩
  | .mtc0 => ⟨"mtc0", .cop0 0x04, .cop0Move, .system⟩
  | .eret => ⟨"eret", .cop0Function 0x18, .bare, .system⟩
  | .madd => ⟨"madd", .special2 0x00, .twoSources, .multiplyDivide⟩
  | .maddu => ⟨"maddu", .special2 0x01, .twoSources, .multiplyDivide⟩
  | .mul => ⟨"mul", .special2 0x02, .threeRegisters, .multiplyDivide⟩
  | .msub => ⟨"msub", .special2 0x04, .twoSources, .multiplyDivide⟩
  | .msubu => ⟨"msubu", .special2 0x05, .twoSources, .multiplyDivide⟩
  | .clz => ⟨"clz", .special2 0x20, .destinationSource, .arithmetic⟩
  | .clo => ⟨"clo", .special2 0x21, .destinationSource, .arithmetic⟩

/-- All operations, in the order of their descriptions. -/
def all : List Operation :=
  [.sll, .srl, .sra, .sllv, .srlv, .srav, .jr, .jalr, .movz, .movn, .syscall, .breakpoint, .mfhi,
   .mthi, .mflo, .mtlo, .mult, .multu, .div, .divu, .add, .addu, .sub, .subu, .and, .or, .xor,
   .nor, .slt, .sltu, .tge, .tgeu, .tlt, .tltu, .teq, .tne, .bltz, .bgez, .tgei, .tgeiu, .tlti,
   .tltiu, .teqi, .tnei, .bltzal, .bgezal, .j, .jal, .beq, .bne, .blez, .bgtz, .addi, .addiu,
   .slti, .sltiu, .andi, .ori, .xori, .lui, .lb, .lh, .lw, .lbu, .lhu, .sb, .sh, .sw, .mfc0,
   .mtc0, .eret, .madd, .maddu, .mul, .msub, .msubu, .clz, .clo]

def mnemonic (operation : Operation) : String := operation.description.mnemonic
def encoding (operation : Operation) : Encoding := operation.description.encoding
def format (operation : Operation) : Format := operation.description.format
def category (operation : Operation) : Category := operation.description.category

theorem mem_all (operation : Operation) : operation ∈ all := by cases operation <;> decide

def ofMnemonic? (name : String) : Option Operation := all.find? fun operation => operation.mnemonic = name

theorem ofMnemonic?_mnemonic (operation : Operation) :
    ofMnemonic? operation.mnemonic = some operation := by
  cases operation <;> decide +kernel

end Operation

namespace Encoding

/-- The operation with this function field of opcode 0. -/
def specialOperation? : UInt8 → Option Operation
  | 0x00 => some .sll
  | 0x02 => some .srl
  | 0x03 => some .sra
  | 0x04 => some .sllv
  | 0x06 => some .srlv
  | 0x07 => some .srav
  | 0x08 => some .jr
  | 0x09 => some .jalr
  | 0x0A => some .movz
  | 0x0B => some .movn
  | 0x0C => some .syscall
  | 0x0D => some .breakpoint
  | 0x10 => some .mfhi
  | 0x11 => some .mthi
  | 0x12 => some .mflo
  | 0x13 => some .mtlo
  | 0x18 => some .mult
  | 0x19 => some .multu
  | 0x1A => some .div
  | 0x1B => some .divu
  | 0x20 => some .add
  | 0x21 => some .addu
  | 0x22 => some .sub
  | 0x23 => some .subu
  | 0x24 => some .and
  | 0x25 => some .or
  | 0x26 => some .xor
  | 0x27 => some .nor
  | 0x2A => some .slt
  | 0x2B => some .sltu
  | 0x30 => some .tge
  | 0x31 => some .tgeu
  | 0x32 => some .tlt
  | 0x33 => some .tltu
  | 0x34 => some .teq
  | 0x36 => some .tne
  | _ => none

/-- The operation with this `rt` field of opcode 1. -/
def regImmOperation? : UInt8 → Option Operation
  | 0x00 => some .bltz
  | 0x01 => some .bgez
  | 0x08 => some .tgei
  | 0x09 => some .tgeiu
  | 0x0A => some .tlti
  | 0x0B => some .tltiu
  | 0x0C => some .teqi
  | 0x0E => some .tnei
  | 0x10 => some .bltzal
  | 0x11 => some .bgezal
  | _ => none

def primaryOperation? : UInt8 → Option Operation
  | 0x02 => some .j
  | 0x03 => some .jal
  | 0x04 => some .beq
  | 0x05 => some .bne
  | 0x06 => some .blez
  | 0x07 => some .bgtz
  | 0x08 => some .addi
  | 0x09 => some .addiu
  | 0x0A => some .slti
  | 0x0B => some .sltiu
  | 0x0C => some .andi
  | 0x0D => some .ori
  | 0x0E => some .xori
  | 0x0F => some .lui
  | 0x20 => some .lb
  | 0x21 => some .lh
  | 0x23 => some .lw
  | 0x24 => some .lbu
  | 0x25 => some .lhu
  | 0x28 => some .sb
  | 0x29 => some .sh
  | 0x2B => some .sw
  | _ => none

/-- The operation with this function field of opcode 28. -/
def special2Operation? : UInt8 → Option Operation
  | 0x00 => some .madd
  | 0x01 => some .maddu
  | 0x02 => some .mul
  | 0x04 => some .msub
  | 0x05 => some .msubu
  | 0x20 => some .clz
  | 0x21 => some .clo
  | _ => none

/-- The operation with this `rs` field of opcode 16. -/
def cop0Operation? : UInt8 → Option Operation
  | 0x00 => some .mfc0
  | 0x04 => some .mtc0
  | _ => none

/-- The operation with this function field of opcode 16. -/
def cop0FunctionOperation? : UInt8 → Option Operation
  | 0x18 => some .eret
  | _ => none

def operation? : Encoding → Option Operation
  | .special n => specialOperation? n
  | .regImm n => regImmOperation? n
  | .primary n => primaryOperation? n
  | .special2 n => special2Operation? n
  | .cop0 n => cop0Operation? n
  | .cop0Function n => cop0FunctionOperation? n

theorem operation?_encoding (operation : Operation) :
    operation.encoding.operation? = some operation := by
  cases operation <;> rfl

theorem encoding_of_operation? {encoding : Encoding} {operation : Operation}
    (found : encoding.operation? = some operation) : operation.encoding = encoding := by
  cases encoding with
  | special n =>
    simp only [operation?] at found
    unfold specialOperation? at found
    split at found <;> cases found <;> rfl
  | regImm n =>
    simp only [operation?] at found
    unfold regImmOperation? at found
    split at found <;> cases found <;> rfl
  | primary n =>
    simp only [operation?] at found
    unfold primaryOperation? at found
    split at found <;> cases found <;> rfl
  | special2 n =>
    simp only [operation?] at found
    unfold special2Operation? at found
    split at found <;> cases found <;> rfl
  | cop0 n =>
    simp only [operation?] at found
    unfold cop0Operation? at found
    split at found <;> cases found <;> rfl
  | cop0Function n =>
    simp only [operation?] at found
    unfold cop0FunctionOperation? at found
    split at found <;> cases found
    rfl

theorem operation?_eq_some_iff {encoding : Encoding} {operation : Operation} :
    encoding.operation? = some operation ↔ operation.encoding = encoding :=
  ⟨encoding_of_operation?, fun same => same ▸ operation?_encoding operation⟩

end Encoding

end Mips
