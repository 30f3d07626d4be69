import Mips.Expansion
import Mips.Proofs.Instruction.Canonical

/-!
The operands that the assembly text of an instruction shows, and what a machine operation with them becomes.
Main statement: `expand_written`, by which a canonical instruction is had again from its text.
-/

namespace Mips

namespace Instruction

/-- The operands that the text of an instruction at `pc` shows. -/
def operands (instruction : Instruction) (pc : Address) : List Operand :=
  let rd : Operand := .register instruction.rd
  let rs : Operand := .register instruction.rs
  let rt : Operand := .register instruction.rt
  let signed : Operand := .immediate instruction.signedImmediate
  let unsigned : Operand := .immediate instruction.immediate.toNat
  match instruction.operation.format with
  | .threeRegisters => [rd, rs, rt]
  | .shiftAmount => [rd, rt, .immediate instruction.shamt.toNat]
  | .shiftRegister => [rd, rt, rs]
  | .source => [rs]
  | .linkRegister => [rd, rs]
  | .destination => [rd]
  | .twoSources => [rs, rt]
  | .destinationSource => [rd, rs]
  | .bare => []
  | .code => if instruction.code = 0 then [] else [.immediate instruction.code.toNat]
  | .signedImmediate => [rt, rs, signed]
  | .unsignedImmediate => [rt, rs, unsigned]
  | .upperImmediate => [rt, unsigned]
  | .branchTwo => [rs, rt, signed]
  | .branchOne => [rs, signed]
  | .trapImmediate => [rs, signed]
  | .jump => [.immediate (instruction.jumpTarget pc).toNat]
  | .memory => [rt, .based none instruction.signedImmediate instruction.rs]
  | .cop0Move => [rt, rd]

theorem signedImmediate_eq (instruction : Instruction) :
    instruction.signedImmediate = (instruction.word.toNat : Int).bmod 0x10000 :=
  Word.signed_signExtend_half instruction.word

end Instruction

namespace Expansion

open Instruction

theorem toNat_half (value : Int) : ((half value).toNat : Int) = value % 0x10000 := by
  have number := Word.toNat_ofInt value
  rw [half, UInt32.toNat_toUInt16]
  omega

/-- A number that is the lowest half of an instruction, with or without its sign, has that half as its field. -/
theorem half_eq {instruction : Instruction} {value : Int}
    (same : value % 0x10000 = instruction.word.toNat % 0x10000) : half value = instruction.half := by
  have number := toNat_half value
  rw [← UInt16.toNat_inj, Instruction.half, UInt32.toNat_toUInt16]
  omega

theorem half_signedImmediate (instruction : Instruction) :
    half instruction.signedImmediate = instruction.half := by
  apply half_eq
  rw [signedImmediate_eq]
  exact Int.bmod_emod

theorem fitsSigned_signedImmediate (instruction : Instruction) :
    fitsSigned instruction.signedImmediate = true := by
  have bounds := Word.bmod_half_bounds instruction.word.toNat
  rw [signedImmediate_eq]
  simpa [fitsSigned] using bounds

theorem signedHalf_signedImmediate (instruction : Instruction) :
    signedHalf instruction.signedImmediate = .ok instruction.half := by
  rw [signedHalf, if_pos (fitsSigned_signedImmediate instruction), half_signedImmediate]

theorem branchOffset_number (context : ExpansionContext) (pc : Address) (value : Int) :
    branchOffset context pc (.number value) =
      if fitsSigned value then .ok (half value) else .error (.branchOutOfRange value) := rfl

theorem branchOffset_signedImmediate (instruction : Instruction) (context : ExpansionContext) (pc : Address) :
    branchOffset context pc (.number instruction.signedImmediate) = .ok instruction.half := by
  rw [branchOffset_number, if_pos (fitsSigned_signedImmediate instruction), half_signedImmediate]

theorem unsignedHalf_immediate (instruction : Instruction) :
    unsignedHalf instruction.immediate.toNat = .ok instruction.half := by
  have number : instruction.immediate.toNat = instruction.word.toNat % 2 ^ 16 :=
    Word.toNat_and_mask instruction.word 16 0xFFFF rfl
  have fits : fitsUnsigned instruction.immediate.toNat = true := by
    simp only [fitsUnsigned, Bool.and_eq_true, decide_eq_true_eq]
    omega
  rw [unsignedHalf, if_pos fits, half_eq]
  omega

theorem shiftAmount_shamt (instruction : Instruction) :
    shiftAmount instruction.shamt.toNat = .ok instruction.shamt := by
  have small := instruction.shamt_lt
  have fits : (0 ≤ (instruction.shamt.toNat : Int) && (instruction.shamt.toNat : Int) ≤ 31) = true := by
    simp only [Bool.and_eq_true, decide_eq_true_eq]
    omega
  rw [shiftAmount, if_pos fits, Word.ofInt_toNat]

theorem code_small (instruction : Instruction) :
    (0 ≤ (instruction.code.toNat : Int) && (instruction.code.toNat : Int) ≤ 0xFFFFF) = true := by
  have small := instruction.code_lt
  simp only [Bool.and_eq_true, decide_eq_true_eq]
  omega

/-- The highest four bits of an address, which tell its region. -/
theorem toNat_region (address : Address) :
    (address &&& 0xF0000000).toNat = 0x10000000 * (address.toNat / 0x10000000) := by
  have bounded := address.toNat_lt
  have high : (address.toNat &&& 0xF0000000) / 2 ^ 28 = address.toNat / 2 ^ 28 := by
    rw [Nat.and_div_two_pow]
    change address.toNat / 2 ^ 28 &&& 2 ^ 4 - 1 = _
    rw [Nat.and_two_pow_sub_one_eq_mod]
    omega
  have low : (address.toNat &&& 0xF0000000) % 2 ^ 28 = 0 := by
    rw [Nat.and_mod_two_pow]
    exact Nat.and_zero _
  rw [UInt32.toNat_and]
  change address.toNat &&& 0xF0000000 = _
  omega

/-- The address that a jump leads to is in the region of the next instruction. -/
theorem toNat_jumpTarget (instruction : Instruction) (pc : Address) :
    (instruction.jumpTarget pc).toNat =
      0x10000000 * ((pc + 4).toNat / 0x10000000) + 4 * instruction.target.toNat := by
  have small := instruction.target_lt
  have index : (instruction.target * 4).toNat = 4 * instruction.target.toNat := by
    rw [UInt32.toNat_mul]
    change _ * 4 % 2 ^ 32 = _
    omega
  rw [jumpTarget, UInt32.toNat_or, toNat_region, index]
  exact (Nat.two_pow_add_eq_or_of_lt (i := 28) (by omega) _).symm

/-- The word index of an aligned address in the region of the next instruction. -/
theorem jumpIndex_of_aligned {context : ExpansionContext} {value : Int} {address : Address}
    (known : word value = .ok address) (aligned : Word.isAligned address = true)
    (region : address &&& 0xF0000000 = (context.pc + 4) &&& 0xF0000000) :
    jumpIndex context (.number value) = .ok ((address >>> 2) &&& 0x03FFFFFF) := by
  simp only [jumpIndex, known, Except.map, bind, Except.bind, aligned, region]
  simp
  rfl

/-- A jump leads to an address in the region of the next instruction, and keeps its word index there. -/
theorem jumpIndex_jumpTarget (instruction : Instruction) (context : ExpansionContext) :
    jumpIndex context (.number (instruction.jumpTarget context.pc).toNat) = .ok instruction.target := by
  have value := toNat_jumpTarget instruction context.pc
  have small := instruction.target_lt
  have bounded := (instruction.jumpTarget context.pc).toNat_lt
  have fits : Word.holds (instruction.jumpTarget context.pc).toNat = true := by
    simp only [Word.holds, Bool.and_eq_true, decide_eq_true_eq]
    omega
  have aligned : Word.isAligned (instruction.jumpTarget context.pc) = true := by
    rw [Word.isAligned, beq_iff_eq, ← UInt32.toNat_inj, UInt32.toNat_mod]
    change _ % 4 = 0
    omega
  have region : instruction.jumpTarget context.pc &&& 0xF0000000 = (context.pc + 4) &&& 0xF0000000 := by
    rw [← UInt32.toNat_inj, toNat_region, toNat_region]
    omega
  have index : (instruction.jumpTarget context.pc >>> 2) &&& 0x03FFFFFF = instruction.target := by
    have masked : ((instruction.jumpTarget context.pc >>> 2) &&& 0x03FFFFFF).toNat = _ % 0x4000000 :=
      Word.toNat_and_mask (instruction.jumpTarget context.pc >>> 2) 26 0x03FFFFFF rfl
    rw [← UInt32.toNat_inj, masked, UInt32.toNat_shiftRight, Nat.shiftRight_eq_div_pow, value]
    change _ / 4 % 0x4000000 = _
    omega
  have known : word (instruction.jumpTarget context.pc).toNat = .ok (instruction.jumpTarget context.pc) := by
    rw [word, if_pos fits, Word.ofInt_toNat]
  rw [jumpIndex_of_aligned known aligned region, index]

/-- The operands that the text shows make up the instruction again, but for the fields that it does not show. -/
theorem encode?_operands (instruction : Instruction) (context : ExpansionContext) :
    encode? context instruction.operation (instruction.operands context.pc) = .ok (some instruction.canonical) := by
  unfold canonical operands
  cases layout : instruction.operation.format
  case code =>
    by_cases zero : instruction.code = 0
    · simp only [if_pos zero, encode?, layout]
      rw [zero]
    · simp only [if_neg zero, encode?, layout]
      rw [if_pos (code_small instruction), Word.ofInt_toNat]
  case shiftAmount =>
    simp only [encode?, layout, shiftAmount_shamt]
    rfl
  case signedImmediate | trapImmediate | memory =>
    simp only [encode?, layout, signedHalf_signedImmediate]
    rfl
  case unsignedImmediate | upperImmediate =>
    simp only [encode?, layout, unsignedHalf_immediate]
    rfl
  case branchTwo | branchOne =>
    simp only [encode?, layout, Operand.target?, branchOffset_signedImmediate]
    rfl
  case jump =>
    simp only [encode?, layout, Operand.target?, jumpIndex_jumpTarget]
    rfl
  all_goals simp only [encode?, layout]

end Expansion

namespace Instruction

/-- What the assembly text of an instruction at `pc` says. -/
def written (instruction : Instruction) (pc : Address) : WrittenInstruction :=
  if instruction.word = 0 then ⟨.nop, []⟩
  else ⟨.machine instruction.operation, instruction.operands pc⟩

theorem base_eq_zero_of_canonical {instruction : Instruction} (zero : instruction.canonical.word = 0) :
    instruction.operation.encoding.base = 0 := by
  unfold canonical at zero
  dsimp only at zero
  split at zero <;>
    simp only [ofRegisters, ofImmediate, ofTarget, ofCode, UInt32.or_eq_zero_iff, and_assoc] at zero <;>
    exact zero.1

/-- The all-zero word is canonical for one operation only. -/
theorem eq_nop_of_isCanonical {instruction : Instruction} (canonical : instruction.IsCanonical)
    (zero : instruction.word = 0) : instruction = nop := by
  have free : instruction.operation.encoding.base = 0 := by
    apply base_eq_zero_of_canonical
    rw [canonical, zero]
  have table : ∀ operation ∈ Operation.all, operation.encoding.base = 0 → operation = .sll := by
    decide +kernel
  obtain ⟨operation, word⟩ := instruction
  have shifts : operation = .sll := table operation operation.mem_all free
  subst shifts
  cases zero
  rfl

/--
A canonical instruction is what its text becomes. Labels play no part in that, nor does it matter whether anything
but machine operations may be written.
-/
theorem expand_written {instruction : Instruction} (canonical : instruction.IsCanonical)
    (context : ExpansionContext) : (instruction.written context.pc).expand context = .ok [instruction] := by
  unfold written
  by_cases zero : instruction.word = 0
  · rw [if_pos zero, eq_nop_of_isCanonical canonical zero]
    rfl
  · rw [if_neg zero]
    simp only [WrittenInstruction.expand, Expansion.encode?_operands, Expansion.settle]
    rw [canonical]

end Instruction

end Mips
