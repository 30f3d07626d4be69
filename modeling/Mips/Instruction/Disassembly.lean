import Mips.Instruction

/-!
The assembly text of an instruction at an address. The all-zero word is shown as `nop`, branches
show their offset and jumps the address they lead to.
-/

namespace Mips.Instruction

/-- The operands as text, for an instruction at `pc`. -/
def operandTexts (instruction : Instruction) (pc : Address) : List String :=
  let rd := instruction.rd.text
  let rs := instruction.rs.text
  let rt := instruction.rt.text
  let signed := Text.decimal instruction.signedImmediate
  let unsigned := Text.natural instruction.immediate.toNat
  match instruction.operation.format with
  | .threeRegisters => [rd, rs, rt]
  | .shiftAmount => [rd, rt, Text.natural instruction.shamt.toNat]
  | .shiftRegister => [rd, rt, rs]
  | .source => [rs]
  | .linkRegister => [rd, rs]
  | .destination => [rd]
  | .twoSources => [rs, rt]
  | .destinationSource => [rd, rs]
  | .bare => []
  | .code => if instruction.code = 0 then [] else [Text.natural instruction.code.toNat]
  | .signedImmediate => [rt, rs, signed]
  | .unsignedImmediate => [rt, rs, unsigned]
  | .upperImmediate => [rt, unsigned]
  | .branchTwo => [rs, rt, signed]
  | .branchOne => [rs, signed]
  | .trapImmediate => [rs, signed]
  | .jump => [Text.hex (instruction.jumpTarget pc)]
  | .memory => [rt, signed ++ "(" ++ rs ++ ")"]
  | .cop0Move => [rt, "$" ++ Text.natural instruction.rd.number]

def line (mnemonic : String) (operands : List String) : String :=
  if operands.isEmpty then mnemonic else mnemonic ++ " " ++ ", ".intercalate operands

/-- The assembly text of the instruction at `pc`. -/
def disassembly (instruction : Instruction) (pc : Address) : String :=
  if instruction.word = 0 then "nop"
  else line instruction.operation.mnemonic (instruction.operandTexts pc)

end Mips.Instruction
