import Mips.Instruction
import Mips.Proofs.Word

/-!
The fields of the words that instructions are built as. A word is built as a union of fields, so reading one of
them reads it from each part of the union. Main statements: the lemmas named after a field and a way of building.
-/

namespace Mips

namespace Instruction

section Width

variable (instruction : Instruction)

theorem shamt_lt : instruction.shamt.toNat < 32 := by
  have number : instruction.shamt.toNat = (instruction.word >>> 6).toNat % 32 :=
    Word.toNat_and_mask (instruction.word >>> 6) 5 0x1F rfl
  omega

theorem target_lt : instruction.target.toNat < 0x4000000 := by
  have number : instruction.target.toNat = instruction.word.toNat % 0x4000000 :=
    Word.toNat_and_mask instruction.word 26 0x03FFFFFF rfl
  omega

theorem code_lt : instruction.code.toNat < 0x100000 := by
  have number : instruction.code.toNat = (instruction.word >>> 6).toNat % 0x100000 :=
    Word.toNat_and_mask (instruction.word >>> 6) 20 0xFFFFF rfl
  omega

end Width

section Operation

variable {operation : Operation} {rd rs rt : Register} {shamt target code : Word} {half : UInt16}

@[simp] theorem operation_ofRegisters : (ofRegisters operation rd rs rt shamt).operation = operation := rfl

@[simp] theorem operation_ofImmediate : (ofImmediate operation rs rt half).operation = operation := rfl

@[simp] theorem operation_ofTarget : (ofTarget operation target).operation = operation := rfl

@[simp] theorem operation_ofCode : (ofCode operation code).operation = operation := rfl

end Operation

theorem ofField_registerField (register : Register) : Register.ofField (registerField register) = register := by
  have table : ∀ number : Fin 32, Register.ofField (registerField ⟨number⟩) = ⟨number⟩ := by decide +kernel
  exact table register.number

/-- Five bits of a word are the field of the register that they select. -/
theorem registerField_ofField (word : Word) :
    registerField (Register.ofField (word &&& 0x1F)) = word &&& 0x1F := by
  have small : (word &&& 0x1F).toNat = word.toNat % 32 := Word.toNat_and_mask word 5 0x1F rfl
  rw [registerField, Register.ofField, ← UInt32.toNat_inj, UInt32.toNat_ofNat', Fin.val_ofNat]
  omega

/-- Where the register fields and the shift amount of a word begin. -/
def fieldPositions : List Word := [6, 11, 16, 21]

/-- A register that was put in one place is read from there, and from no other place. -/
theorem registerField_read (register : Register) {put get : Word} (placed : put ∈ fieldPositions)
    (wanted : get ∈ fieldPositions) :
    ((registerField register <<< put) >>> get) &&& 0x1F = if get = put then registerField register else 0 := by
  obtain ⟨number⟩ := register
  simp only [fieldPositions, List.mem_cons, List.not_mem_nil, or_false] at placed wanted
  -- A bounded statement about words would be decided for all words, so only the register is left to be decided.
  rcases placed with rfl | rfl | rfl | rfl <;> rcases wanted with rfl | rfl | rfl | rfl <;> revert number <;>
    decide +kernel

/-- The bits that identify an operation leave `rd` and the shift amount free. -/
theorem base_read (operation : Operation) {get : Word} (wanted : get = 6 ∨ get = 11) :
    (operation.encoding.base >>> get) &&& 0x1F = 0 := by
  have table : ∀ operation ∈ Operation.all, (operation.encoding.base >>> 6) &&& 0x1F = 0 ∧
      (operation.encoding.base >>> 11) &&& 0x1F = 0 := by
    decide +kernel
  have both := table operation operation.mem_all
  rcases wanted with rfl | rfl
  · exact both.1
  · exact both.2

/-- The bits that identify an operation leave `rt` free, unless they are found there. -/
theorem base_read_rt {operation : Operation} (branches : operation.format ≠ .branchOne)
    (traps : operation.format ≠ .trapImmediate) : (operation.encoding.base >>> 16) &&& 0x1F = 0 := by
  have table : ∀ operation ∈ Operation.all, operation.format ≠ .branchOne → operation.format ≠ .trapImmediate →
      (operation.encoding.base >>> 16) &&& 0x1F = 0 := by
    decide +kernel
  exact table operation operation.mem_all branches traps

/-- The bits that identify an operation leave `rs` free, unless they are found there. -/
theorem base_read_rs {operation : Operation} (moves : operation.format ≠ .cop0Move)
    (bare : operation.format ≠ .bare) : (operation.encoding.base >>> 21) &&& 0x1F = 0 := by
  have table : ∀ operation ∈ Operation.all, operation.format ≠ .cop0Move → operation.format ≠ .bare →
      (operation.encoding.base >>> 21) &&& 0x1F = 0 := by
    decide +kernel
  exact table operation operation.mem_all moves bare

section Registers

variable {operation : Operation} {rd rs rt : Register} {shamt : Word}

/-- A field of an instruction with registers is what was put there, joined with the bits that identify it. -/
theorem ofRegisters_read {get : Word} (wanted : get ∈ fieldPositions) :
    ((ofRegisters operation rd rs rt shamt).word >>> get) &&& 0x1F =
      ((operation.encoding.base >>> get) &&& 0x1F) ||| (if get = 21 then registerField rs else 0) |||
        (if get = 16 then registerField rt else 0) ||| (if get = 11 then registerField rd else 0) |||
        (if get = 6 then shamt &&& 0x1F else 0) := by
  simp only [ofRegisters, Word.or_field]
  rw [← registerField_ofField shamt, registerField_read rs (by decide) wanted,
    registerField_read rt (by decide) wanted, registerField_read rd (by decide) wanted,
    registerField_read _ (by decide) wanted]

@[simp] theorem rd_ofRegisters : (ofRegisters operation rd rs rt shamt).rd = rd := by
  rw [Instruction.rd, ofRegisters_read (by decide), base_read operation (.inr rfl)]
  simp [ofField_registerField]

@[simp] theorem shamt_ofRegisters : (ofRegisters operation rd rs rt shamt).shamt = shamt &&& 0x1F := by
  rw [Instruction.shamt, ofRegisters_read (by decide), base_read operation (.inl rfl)]
  simp

theorem rt_ofRegisters (branches : operation.format ≠ .branchOne)
    (traps : operation.format ≠ .trapImmediate) : (ofRegisters operation rd rs rt shamt).rt = rt := by
  rw [Instruction.rt, ofRegisters_read (by decide), base_read_rt branches traps]
  simp [ofField_registerField]

theorem rs_ofRegisters (moves : operation.format ≠ .cop0Move) (bare : operation.format ≠ .bare) :
    (ofRegisters operation rd rs rt shamt).rs = rs := by
  rw [Instruction.rs, ofRegisters_read (by decide), base_read_rs moves bare]
  simp [ofField_registerField]

end Registers

/-- The lowest half of an instruction, in which it holds an immediate. -/
def half (instruction : Instruction) : UInt16 := instruction.word.toUInt16

section Immediate

variable {operation : Operation} {rs rt : Register} {immediate : UInt16}

theorem shiftRight_immediate (half : UInt16) {get : Word} (high : get = 16 ∨ get = 21) :
    half.toUInt32 >>> get = 0 := by
  have small := half.toNat_lt
  rw [← UInt32.toNat_inj, UInt32.toNat_shiftRight, Nat.shiftRight_eq_div_pow, UInt16.toNat_toUInt32]
  rcases high with rfl | rfl <;> simp <;> omega

theorem ofImmediate_read {get : Word} (high : get = 16 ∨ get = 21) :
    ((ofImmediate operation rs rt immediate).word >>> get) &&& 0x1F =
      ((operation.encoding.base >>> get) &&& 0x1F) ||| (if get = 21 then registerField rs else 0) |||
        (if get = 16 then registerField rt else 0) := by
  have wanted : get ∈ fieldPositions := by rcases high with rfl | rfl <;> decide
  simp only [ofImmediate, Word.or_field]
  rw [registerField_read rs (by decide) wanted, registerField_read rt (by decide) wanted,
    shiftRight_immediate _ high]
  simp

theorem rt_ofImmediate (branches : operation.format ≠ .branchOne)
    (traps : operation.format ≠ .trapImmediate) : (ofImmediate operation rs rt immediate).rt = rt := by
  rw [Instruction.rt, ofImmediate_read (.inl rfl), base_read_rt branches traps]
  simp [ofField_registerField]

theorem rs_ofImmediate (moves : operation.format ≠ .cop0Move) (bare : operation.format ≠ .bare) :
    (ofImmediate operation rs rt immediate).rs = rs := by
  rw [Instruction.rs, ofImmediate_read (.inr rfl), base_read_rs moves bare]
  simp [ofField_registerField]

/-- The immediate is the lowest half, if the bits that identify the operation are all above it. -/
theorem half_ofImmediate (free : operation.encoding.base.toUInt16 = 0) :
    (ofImmediate operation rs rt immediate).half = immediate := by
  have table : ∀ number : Fin 32, (registerField ⟨number⟩ <<< 21).toUInt16 = 0 ∧
      (registerField ⟨number⟩ <<< 16).toUInt16 = 0 := by
    decide +kernel
  simp only [half, ofImmediate, UInt32.toUInt16_or, free, (table rs.number).1, (table rt.number).2,
    UInt16.toUInt16_toUInt32, UInt16.zero_or]

/-- The lowest half of an instruction as a number. -/
theorem toNat_half_eq (instruction : Instruction) : instruction.half.toNat = instruction.word.toNat % 0x10000 := by
  rw [half, UInt32.toNat_toUInt16]

theorem immediate_ofImmediate (free : operation.encoding.base.toUInt16 = 0) :
    (ofImmediate operation rs rt immediate).immediate = immediate.toUInt32 := by
  have number := toNat_half_eq (ofImmediate operation rs rt immediate)
  have masked : (ofImmediate operation rs rt immediate).immediate.toNat = _ % 0x10000 :=
    Word.toNat_and_mask (ofImmediate operation rs rt immediate).word 16 0xFFFF rfl
  rw [half_ofImmediate free] at number
  rw [← UInt32.toNat_inj, masked, UInt16.toNat_toUInt32, number]

theorem extended_ofImmediate (free : operation.encoding.base.toUInt16 = 0) :
    (ofImmediate operation rs rt immediate).extended = Word.signExtend 16 immediate.toUInt32 := by
  have number := toNat_half_eq (ofImmediate operation rs rt immediate)
  rw [half_ofImmediate free] at number
  have same : ((ofImmediate operation rs rt immediate).word.toNat : Int).bmod 0x10000 =
      (immediate.toNat : Int).bmod 0x10000 := by
    rw [number, Int.natCast_emod]
    exact (Int.emod_bmod _ _).symm
  rw [extended, Word.signExtend, Word.signExtend, UInt16.toNat_toUInt32]
  exact congrArg Word.ofInt same

end Immediate

/-- The word index of a jump, if the bits that identify the operation are all above it. -/
theorem target_ofTarget {operation : Operation} {target : Word}
    (free : operation.encoding.base &&& 0x03FFFFFF = 0) :
    (ofTarget operation target).target = target &&& 0x03FFFFFF := by
  rw [Instruction.target, ofTarget, Word.or_and, free, UInt32.zero_or, UInt32.and_assoc, UInt32.and_self]

/-- The code, if the bits that identify the operation are all below it. -/
theorem code_ofCode {operation : Operation} {code : Word}
    (free : (operation.encoding.base >>> 6) &&& 0xFFFFF = 0) :
    (ofCode operation code).code = code &&& 0xFFFFF := by
  have back : ((code &&& 0xFFFFF) <<< 6) >>> 6 = code &&& 0xFFFFF := by
    have small : (code &&& 0xFFFFF).toNat = code.toNat % 0x100000 := Word.toNat_and_mask code 20 0xFFFFF rfl
    rw [← UInt32.toNat_inj, UInt32.toNat_shiftRight, UInt32.toNat_shiftLeft, small]
    simp [Nat.shiftRight_eq_div_pow, Nat.shiftLeft_eq]
    omega
  rw [Instruction.code, ofCode, Word.or_field, free, back, UInt32.zero_or, UInt32.and_assoc, UInt32.and_self]

end Instruction

end Mips
