import Mips.Proofs.Instruction.Fields

/-!
Instructions whose assembly text shows all that they hold. A format shows only some fields of a word; an
instruction is canonical if the others are as assembling that text leaves them.
Main statements: `isCanonical_ofRegisters`, `isCanonical_ofImmediate`.
-/

namespace Mips

namespace Instruction

/-- The instruction that is made of the fields that the format of the operation shows. -/
def canonical (instruction : Instruction) : Instruction :=
  let operation := instruction.operation
  let rd := instruction.rd
  let rs := instruction.rs
  let rt := instruction.rt
  match operation.format with
  | .threeRegisters | .shiftRegister => .ofRegisters operation rd rs rt 0
  | .shiftAmount => .ofRegisters operation rd .zero rt instruction.shamt
  | .source => .ofRegisters operation .zero rs .zero 0
  | .linkRegister => .ofRegisters operation rd rs .zero 0
  | .destination => .ofRegisters operation rd .zero .zero 0
  | .twoSources => .ofRegisters operation .zero rs rt 0
  | .destinationSource => .ofRegisters operation rd rs rd 0
  | .cop0Move => .ofRegisters operation rd .zero rt 0
  | .bare => .ofCode operation 0
  | .code => .ofCode operation instruction.code
  | .signedImmediate | .unsignedImmediate | .branchTwo | .memory =>
    .ofImmediate operation rs rt instruction.half
  | .upperImmediate => .ofImmediate operation .zero rt instruction.half
  | .branchOne | .trapImmediate => .ofImmediate operation rs .zero instruction.half
  | .jump => .ofTarget operation instruction.target

/-- The instruction holds nothing but what its format shows. -/
def IsCanonical (instruction : Instruction) : Prop := instruction.canonical = instruction

instance (instruction : Instruction) : Decidable instruction.IsCanonical :=
  inferInstanceAs (Decidable (instruction.canonical = instruction))

end Instruction

namespace Format

/-- The format shows all that distinguishes an instruction with these registers and this shift amount. -/
def ShowsRegisters (format : Format) (rd rs rt : Register) (shamt : Word) : Prop :=
  match format with
  | .threeRegisters | .shiftRegister => shamt = 0
  | .shiftAmount => rs = .zero
  | .source => rd = .zero ∧ rt = .zero ∧ shamt = 0
  | .linkRegister => rt = .zero ∧ shamt = 0
  | .destination => rs = .zero ∧ rt = .zero ∧ shamt = 0
  | .twoSources => rd = .zero ∧ shamt = 0
  | .destinationSource => rt = rd ∧ shamt = 0
  | .cop0Move => rs = .zero ∧ shamt = 0
  | _ => False

/-- The format shows all that distinguishes an instruction with these registers and an immediate. -/
def ShowsImmediate (format : Format) (rs rt : Register) : Prop :=
  match format with
  | .signedImmediate | .unsignedImmediate | .branchTwo | .memory => True
  | .upperImmediate => rs = .zero
  | .branchOne | .trapImmediate => rt = .zero
  | _ => False

end Format

namespace Instruction

variable {operation : Operation} {rd rs rt : Register}

theorem isCanonical_ofRegisters {shamt : Word}
    (shown : operation.format.ShowsRegisters rd rs rt shamt) :
    (ofRegisters operation rd rs rt shamt).IsCanonical := by
  unfold IsCanonical canonical
  cases layout : operation.format <;> simp only [layout, Format.ShowsRegisters] at shown
  case threeRegisters | shiftRegister =>
    subst shown
    simp (disch := simp [layout]) only [operation_ofRegisters, layout, rd_ofRegisters, rs_ofRegisters, rt_ofRegisters]
  case shiftAmount =>
    subst shown
    simp (disch := simp [layout]) only [operation_ofRegisters, layout, rd_ofRegisters, rt_ofRegisters, shamt_ofRegisters]
    simp only [ofRegisters, UInt32.and_assoc, UInt32.and_self]
  case source =>
    obtain ⟨rfl, rfl, rfl⟩ := shown
    simp (disch := simp [layout]) only [operation_ofRegisters, layout, rs_ofRegisters]
  case linkRegister =>
    obtain ⟨rfl, rfl⟩ := shown
    simp (disch := simp [layout]) only [operation_ofRegisters, layout, rd_ofRegisters, rs_ofRegisters]
  case destination =>
    obtain ⟨rfl, rfl, rfl⟩ := shown
    simp only [operation_ofRegisters, layout, rd_ofRegisters]
  case twoSources =>
    obtain ⟨rfl, rfl⟩ := shown
    simp (disch := simp [layout]) only [operation_ofRegisters, layout, rs_ofRegisters, rt_ofRegisters]
  case destinationSource =>
    obtain ⟨rfl, rfl⟩ := shown
    simp (disch := simp [layout]) only [operation_ofRegisters, layout, rd_ofRegisters, rs_ofRegisters]
  case cop0Move =>
    obtain ⟨rfl, rfl⟩ := shown
    simp (disch := simp [layout]) only [operation_ofRegisters, layout, rd_ofRegisters, rt_ofRegisters]

/-- The bits that identify an operation leave the lowest half free, if the format shows an immediate. -/
theorem base_half {rs rt : Register} (shown : operation.format.ShowsImmediate rs rt) :
    operation.encoding.base.toUInt16 = 0 := by
  cases operation <;> first | rfl | exact shown.elim

theorem isCanonical_ofImmediate {immediate : UInt16} (shown : operation.format.ShowsImmediate rs rt) :
    (ofImmediate operation rs rt immediate).IsCanonical := by
  have half_eq : (ofImmediate operation rs rt immediate).half = immediate := half_ofImmediate (base_half shown)
  unfold IsCanonical canonical
  cases layout : operation.format <;> simp only [layout, Format.ShowsImmediate] at shown
  case signedImmediate | unsignedImmediate | branchTwo | memory =>
    simp (disch := simp [layout]) only [operation_ofImmediate, layout, half_eq, rs_ofImmediate, rt_ofImmediate]
  case upperImmediate =>
    subst shown
    simp (disch := simp [layout]) only [operation_ofImmediate, layout, half_eq, rt_ofImmediate]
  case branchOne | trapImmediate =>
    subst shown
    simp (disch := simp [layout]) only [operation_ofImmediate, layout, half_eq, rs_ofImmediate]

/-- The bits that identify a jump leave its word index free. -/
theorem base_target (jumps : operation.format = .jump) : operation.encoding.base &&& 0x03FFFFFF = 0 := by
  cases operation <;> first | rfl | cases jumps

theorem isCanonical_ofTarget {target : Word} (jumps : operation.format = .jump) :
    (ofTarget operation target).IsCanonical := by
  unfold IsCanonical canonical
  simp only [operation_ofTarget, jumps, target_ofTarget (base_target jumps)]
  simp only [ofTarget, UInt32.and_assoc, UInt32.and_self]

/-- The bits that identify an operation with a code leave the code free. -/
theorem base_code (coded : operation.format = .code) : (operation.encoding.base >>> 6) &&& 0xFFFFF = 0 := by
  cases operation <;> first | rfl | cases coded

theorem isCanonical_ofCode {code : Word} (coded : operation.format = .code) :
    (ofCode operation code).IsCanonical := by
  unfold IsCanonical canonical
  simp only [operation_ofCode, coded, code_ofCode (base_code coded)]
  simp only [ofCode, UInt32.and_assoc, UInt32.and_self]

theorem isCanonical_ofCode_zero (bare : operation.format = .bare) :
    (ofCode operation 0).IsCanonical := by
  unfold IsCanonical canonical
  simp only [operation_ofCode, bare]

theorem isCanonical_nop : nop.IsCanonical := by decide +kernel

end Instruction

end Mips
